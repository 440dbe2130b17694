import Slopline.Crypto.Blowfish
import Slopline.Library.Feistel

/-! Blowfish blocks invert: the two loops are one Feistel network, its subkeys forwards and backwards. -/

set_option autoImplicit false

namespace Slopline.Crypto.Blowfish

open Endian Library

/-- The P array in the order of the rounds. -/
def Schedule.subkeys (key : Schedule) : List UInt32 := (List.finRange 18).map key.p.get

def network (key : Schedule) : List UInt32 → UInt32 × UInt32 → UInt32 × UInt32 :=
  feistelNetwork (· ^^^ ·) (roundFunction · key)

variable (key : Schedule)

theorem xor_cancels (a b : UInt32) : a ^^^ (a ^^^ b) = b ∧ (b ^^^ a) ^^^ a = b := by
  constructor
  · rw [← UInt32.xor_assoc, UInt32.xor_self, UInt32.zero_xor]
  · rw [UInt32.xor_assoc, UInt32.xor_self, UInt32.xor_zero]

theorem encryptWords_eq_network (l r : UInt32) : encryptWords l r key = network key key.subkeys (l, r) := by
  have split : key.subkeys = ((List.finRange 18).take 16).map key.p.get ++ [key.p.get 16, key.p.get 17] := rfl
  rw [split, network, feistelNetwork_rounds, List.foldl_map]
  rfl

theorem decryptWords_eq_network (l r : UInt32) :
    decryptWords l r key = network key key.subkeys.reverse (l, r) := by
  have split : key.subkeys.reverse =
      ((List.finRange 18).drop 2).reverse.map key.p.get ++ [key.p.get 1, key.p.get 0] := rfl
  rw [split, network, feistelNetwork_rounds, List.foldl_map]
  rfl

theorem network_reverse {keys : List UInt32} (more : 2 ≤ keys.length) (halves : UInt32 × UInt32) :
    network key keys.reverse (network key keys halves) = halves :=
  feistelNetwork_reverse UInt32.xor_assoc xor_cancels more halves

theorem decryptWords_encryptWords (l r : UInt32) :
    decryptWords (encryptWords l r key).1 (encryptWords l r key).2 key = (l, r) := by
  rw [decryptWords_eq_network, encryptWords_eq_network]
  apply network_reverse
  simp [Schedule.subkeys]

theorem encryptWords_decryptWords (l r : UInt32) :
    encryptWords (decryptWords l r key).1 (decryptWords l r key).2 key = (l, r) := by
  have back : network key key.subkeys.reverse.reverse (network key key.subkeys.reverse (l, r)) = (l, r) := by
    apply network_reverse
    simp [Schedule.subkeys]
  rw [List.reverse_reverse] at back
  rw [encryptWords_eq_network, decryptWords_eq_network]
  exact back

/-! A block is its two words. -/

def wordsOf (block : Block) : UInt32 × UInt32 :=
  (readU32be block.toList, readU32be (block.toList.drop 4))

@[simp] theorem wordsOf_blockOf (words : UInt32 × UInt32) : wordsOf (blockOf words) = words := by
  have bytes : (blockOf words).toList = writeU32be words.1 ++ writeU32be words.2 := rfl
  have high : readU32be (blockOf words).toList = words.1 := by rw [bytes, readU32be_writeU32be]
  have low : readU32be ((blockOf words).toList.drop 4) = words.2 := by
    rw [bytes, List.drop_left' (length_writeU32be _)]
    exact readU32be_writeU32be words.2 []
  rw [wordsOf, high, low]

theorem readU32be_take (bytes : Bytes) : readU32be (bytes.take 4) = readU32be bytes := by
  simp [readU32be, List.getD_eq_getElem?_getD]

@[simp] theorem blockOf_wordsOf (block : Block) : blockOf (wordsOf block) = block := by
  have size : block.toList.length = 8 := Vector.length_toList
  have high : writeU32be (readU32be block.toList) = block.toList.take 4 := by
    rw [← readU32be_take]
    apply writeU32be_readU32be
    rw [List.length_take, size]
    rfl
  have low : writeU32be (readU32be (block.toList.drop 4)) = block.toList.drop 4 := by
    apply writeU32be_readU32be
    rw [List.length_drop, size]
  have bytes : (blockOf (wordsOf block)).toList = block.toList := by
    change writeU32be (readU32be block.toList) ++ writeU32be (readU32be (block.toList.drop 4)) = block.toList
    rw [high, low, List.take_append_drop]
  exact Vector.toList_inj.mp bytes

theorem decryptBlock_encryptBlock (block : Block) : decryptBlock key (encryptBlock key block) = block := by
  have words : wordsOf (encryptBlock key block) = encryptWords (wordsOf block).1 (wordsOf block).2 key :=
    wordsOf_blockOf _
  calc decryptBlock key (encryptBlock key block)
      = blockOf (decryptWords (wordsOf (encryptBlock key block)).1 (wordsOf (encryptBlock key block)).2 key) := rfl
    _ = blockOf (wordsOf block) := by rw [words, decryptWords_encryptWords]
    _ = block := blockOf_wordsOf block

theorem encryptBlock_decryptBlock (block : Block) : encryptBlock key (decryptBlock key block) = block := by
  have words : wordsOf (decryptBlock key block) = decryptWords (wordsOf block).1 (wordsOf block).2 key :=
    wordsOf_blockOf _
  calc encryptBlock key (decryptBlock key block)
      = blockOf (encryptWords (wordsOf (decryptBlock key block)).1 (wordsOf (decryptBlock key block)).2 key) := rfl
    _ = blockOf (wordsOf block) := by rw [words, encryptWords_decryptWords]
    _ = block := blockOf_wordsOf block

/-- Under any schedule the two loops undo each other on every pair of words; a cipher whose directions
hold the same key undoes its own blocks, either way round. -/
theorem blocks_invert :
    (∀ (key : Schedule) (l r : UInt32),
      decryptWords (encryptWords l r key).1 (encryptWords l r key).2 key = (l, r) ∧
      encryptWords (decryptWords l r key).1 (decryptWords l r key).2 key = (l, r)) ∧
    ∀ (cipher : Blowfish) (key : Bytes) (block : Block), key ≠ [] →
      cipher.encodeKey = expandKey key → cipher.decodeKey = expandKey key →
      cipher.decryptOneBlock (cipher.encryptOneBlock block) = block ∧
      cipher.encryptOneBlock (cipher.decryptOneBlock block) = block := by
  constructor
  · intro key l r
    exact ⟨decryptWords_encryptWords key l r, encryptWords_decryptWords key l r⟩
  · intro cipher key block _ encoded decoded
    simp only [encryptOneBlock, decryptOneBlock, encoded, decoded]
    exact ⟨decryptBlock_encryptBlock _ block, encryptBlock_decryptBlock _ block⟩

theorem blocks_invert_same_key :
    let cipher := (({} : Blowfish).setEncodeKey [0x4B]).setDecodeKey [0x4B]
    [0x4B] ≠ ([] : Bytes) ∧ cipher.decryptOneBlock (cipher.encryptOneBlock (.replicate 8 1)) = .replicate 8 1 ∧
      cipher.encryptOneBlock (cipher.decryptOneBlock (.replicate 8 1)) = .replicate 8 1 :=
  ⟨by decide, blocks_invert.2 _ [0x4B] (.replicate 8 1) (by decide) rfl rfl⟩

end Slopline.Crypto.Blowfish
