import Slopline.Crypto.BlockInverse
import Slopline.Library.Transducer

/-! The legacy Blowfish (`audit/HLBlowfish.cpp.utf8`) and its OFB stream against the modern one.

The legacy stream keeps its feedback as two words and makes bytes of them again on every call; the modern
one keeps the bytes. The header of the legacy class is not there: `SetEncodeKey` is `ExpandKey` into the
encode key, `TB` writes a word big-endian, and the digits of pi are the modern ones.
-/

set_option autoImplicit false

namespace Slopline.Legacy

open Crypto Endian Library

/-- `bf_key`, the P array and the four boxes. -/
abbrev BfKey := Blowfish.Schedule

namespace HLBlowfish

/-- A byte of the word in the 16 bits the source gives it. The mask keeps it inside a box. -/
def masked (word : UInt32) : {part : UInt16 // part.toNat < 256} :=
  ⟨(word &&& 0x00FF).toUInt16, by
    have bound : word.toNat &&& 255 ≤ 255 := Nat.and_le_right
    have small : (word.toNat &&& 255) % 65536 ≤ word.toNat &&& 255 := Nat.mod_le _ _
    simp only [UInt32.toNat_toUInt16, UInt32.toNat_and]
    change (word.toNat &&& 255) % 65536 < 256
    omega⟩

def entry (s : Vector UInt32 256) (part : {part : UInt16 // part.toNat < 256}) : UInt32 :=
  s.get ⟨part.1.toNat, part.2⟩

/-- `F`: the word is split from its low end, shifted on by a byte each time. -/
def f (word : UInt32) (key : BfKey) : UInt32 :=
  let d := masked word
  let word := word >>> 8
  let c := masked word
  let word := word >>> 8
  let b := masked word
  let word := word >>> 8
  let a := masked word
  let y := entry key.s[0] a + entry key.s[1] b
  let y := y ^^^ entry key.s[2] c
  y + entry key.s[3] d

def encryptRound (key : BfKey) (data : UInt32 × UInt32) (i : Fin 18) : UInt32 × UInt32 :=
  let dataL := data.1 ^^^ key.p.get i
  let dataR := f dataL key ^^^ data.2
  (dataR, dataL)

def encrypt (words : UInt32 × UInt32) (key : BfKey) : UInt32 × UInt32 :=
  let (dataR, dataL) := ((List.finRange 18).take 16).foldl (encryptRound key) words
  -- `P[17]` and `P[16]`.
  (dataL ^^^ key.p.get (Fin.last 17), dataR ^^^ key.p.get (Fin.last 16).castSucc)

/-- Four key bytes, the index going round. It stays below 72, so that no key is too long for its 32 bits. -/
def keyBytes (inKey : Bytes) (k : Nat) : UInt32 × Nat :=
  (List.range 4).foldl
    (fun (temp, k) _ => ((temp <<< 8) ||| (inKey.getD k 0).toUInt32, (k + 1) % inKey.length)) (0, k)

theorem parray_lt (i : Fin 18) : i.val < 18 := i.isLt

def xorParray (inKey : Bytes) (outKey : BfKey) : BfKey :=
  { outKey with
    p := ((List.finRange 18).foldl
      (fun (p, k) i => (p.set i.val (p.get i ^^^ (keyBytes inKey k).1) (parray_lt i), (keyBytes inKey k).2))
      (outKey.p, 0)).1 }

abbrev Expanding := BfKey × UInt32 × UInt32

theorem parray_left (i : Fin 9) : 2 * i.val < 18 := by omega

theorem parray_right (i : Fin 9) : 2 * i.val + 1 < 18 := by omega

theorem sbox_left (j : Fin 128) : 2 * j.val < 256 := by omega

theorem sbox_right (j : Fin 128) : 2 * j.val + 1 < 256 := by omega

theorem sbox_lt (box : Fin 4) : box.val < 4 := box.isLt

def expandP (state : Expanding) (i : Fin 9) : Expanding :=
  let (outKey, temp) := state
  let temp := encrypt temp outKey
  ({ outKey with p := (outKey.p.set (2 * i.val) temp.1 (parray_left i)).set (2 * i.val + 1) temp.2 (parray_right i) }, temp)

def expandS (box : Fin 4) (state : Expanding) (j : Fin 128) : Expanding :=
  let (outKey, temp) := state
  let temp := encrypt temp outKey
  let entries := ((outKey.s.get box).set (2 * j.val) temp.1 (sbox_left j)).set (2 * j.val + 1) temp.2 (sbox_right j)
  ({ outKey with s := outKey.s.set box.val entries (sbox_lt box) }, temp)

/-- The digits of pi over what the key held, entry by entry. -/
def digitsOfPi : BfKey where
  p := .ofFn kParrayPi.get
  s := #v[.ofFn kSbox0.get, .ofFn kSbox1.get, .ofFn kSbox2.get, .ofFn kSbox3.get]

@[irreducible] def expandKey (inKey : Bytes) : BfKey :=
  let outKey := xorParray inKey digitsOfPi
  let filled := (List.finRange 9).foldl expandP (outKey, 0, 0)
  ((List.finRange 4).foldl (fun state box => (List.finRange 128).foldl (expandS box) state) filled).1

/-! The stream. -/

/-- `TB` is `hotnl`: the word as it lies in memory afterwards. -/
def tb (word : UInt32) : Bytes := writeU32be word

/-- The locals of `OFB64`: the feedback, `ivl` seen through `cp`, and the byte to use next. -/
structure Feedback where
  ivec : UInt32 × UInt32
  ivl : Block
  n : UInt32

def ivlOf (ivec : UInt32 × UInt32) : Block := ⟨(tb ivec.1 ++ tb ivec.2).toArray, rfl⟩

def Feedback.next (key : BfKey) (state : Feedback) : UInt8 × Feedback :=
  let state := if state.n = 0 then
    let ivec := encrypt state.ivec key
    { state with ivec, ivl := ivlOf ivec }
  else state
  (state.ivl.toList.getD state.n.toNat 0, { state with n := (state.n + 1) &&& 0x07 })

def ofb64 (buffer : Bytes) (key : BfKey) (ivec : UInt32 × UInt32) (pn : UInt32) :
    Bytes × (UInt32 × UInt32) × UInt32 :=
  let (out, state) := Keystream.apply (Feedback.next key) (fun key byte => byte ^^^ key)
    { ivec, ivl := ivlOf ivec, n := pn } buffer
  (out, state.ivec, state.n)

end HLBlowfish

/-- The class. `Init` clears eight words of each vector, the stream uses two. -/
structure HLBlowfish where
  mEncodeKey : BfKey
  mDecodeKey : BfKey
  mEncodeIvec : Vector UInt32 8
  mDecodeIvec : Vector UInt32 8
  mEncodeIvecOffset : UInt32
  mDecodeIvecOffset : UInt32

namespace HLBlowfish

def init (legacy : HLBlowfish) : HLBlowfish :=
  { legacy with
    mEncodeIvec := .replicate 8 0
    mDecodeIvec := .replicate 8 0
    mEncodeIvecOffset := 0
    mDecodeIvecOffset := 0 }

def setEncodeKey (key : Bytes) (legacy : HLBlowfish) : HLBlowfish := { legacy with mEncodeKey := expandKey key }

def ivec (legacy : HLBlowfish) : UInt32 × UInt32 := (legacy.mEncodeIvec[0], legacy.mEncodeIvec[1])

def encode (buffer : Bytes) (legacy : HLBlowfish) : Bytes × HLBlowfish :=
  let (out, ivec, n) := ofb64 buffer legacy.mEncodeKey legacy.ivec legacy.mEncodeIvecOffset
  (out, { legacy with
    mEncodeIvec := (legacy.mEncodeIvec.set 0 ivec.1).set 1 ivec.2
    mEncodeIvecOffset := n })

end HLBlowfish

/-- What is asked of a cipher. No key is empty. -/
inductive StreamOp where
  | setEncodeKey (key : {key : Bytes // key ≠ []})
  | encodeStream (buffer : Bytes)

def HLBlowfish.perform (legacy : HLBlowfish) : StreamOp → Bytes × HLBlowfish
  | .setEncodeKey key => ([], legacy.setEncodeKey key)
  | .encodeStream buffer => legacy.encode buffer

def performStream (modern : Blowfish × Blowfish.Ofb64) : StreamOp → Bytes × Blowfish × Blowfish.Ofb64
  | .setEncodeKey key => ([], modern.1.setEncodeKey key, modern.2)
  | .encodeStream buffer =>
    let (out, stream) := modern.1.encodeStream modern.2 buffer
    (out, modern.1, stream)

namespace HLBlowfish

/-! The cipher is the modern one. -/

theorem entry_masked (key : BfKey) (i : Fin 4) (word : UInt32) :
    entry (key.s.get i) (masked word) = key.box i (word &&& 0xFF).toUInt8 := by
  have bound : word.toNat &&& 255 ≤ 255 := Nat.and_le_right
  have wide : (word.toNat &&& 255) % 65536 = word.toNat &&& 255 := Nat.mod_eq_of_lt (by omega)
  have narrow : (word.toNat &&& 255) % 256 = word.toNat &&& 255 := Nat.mod_eq_of_lt (by omega)
  apply congrArg (key.s.get i).get
  apply Fin.ext
  exact wide.trans narrow.symm

theorem shifted (word : UInt32) : word >>> 8 >>> 8 = word >>> 16 ∧ word >>> 16 >>> 8 = word >>> 24 := by
  constructor <;> simp [← UInt32.toNat_inj, ← Nat.shiftRight_add]

theorem f_eq (word : UInt32) (key : BfKey) : f word key = Blowfish.roundFunction word key := by
  calc f word key
      = ((entry (key.s.get 0) (masked (word >>> 8 >>> 8 >>> 8)) + entry (key.s.get 1) (masked (word >>> 8 >>> 8))) ^^^
          entry (key.s.get 2) (masked (word >>> 8))) + entry (key.s.get 3) (masked word) := rfl
    _ = Blowfish.roundFunction word key := by
      simp only [Blowfish.roundFunction, entry_masked, (shifted word).1, (shifted word).2]

theorem encrypt_eq (words : UInt32 × UInt32) (key : BfKey) :
    encrypt words key = Blowfish.encryptWords words.1 words.2 key := by
  have round : encryptRound key = Blowfish.feistel key := by
    funext data i
    simp only [encryptRound, Blowfish.feistel, f_eq]
  rw [encrypt, round]
  rfl

theorem ofFn_get {n : Nat} (entries : Vector UInt32 n) : .ofFn entries.get = entries := by
  apply Vector.ext
  intro i inside
  rw [Vector.getElem_ofFn]
  rfl

-- The tables are compared as a whole, so that none is evaluated.
theorem digitsOfPi_eq : digitsOfPi = { p := kParrayPi, s := #v[kSbox0, kSbox1, kSbox2, kSbox3] } := by
  have boxes {a b c d a' b' c' d' : Vector UInt32 256} (first : a = a') (second : b = b') (third : c = c')
      (fourth : d = d') : #v[a, b, c, d] = #v[a', b', c', d'] := by
    rw [first, second, third, fourth]
  exact congrArg₂ Blowfish.Schedule.mk (ofFn_get _) (boxes (ofFn_get _) (ofFn_get _) (ofFn_get _) (ofFn_get _))

theorem xorParray_eq (inKey : Bytes) (outKey : BfKey) :
    xorParray inKey outKey = { p := Blowfish.xorKey inKey outKey.p, s := outKey.s } := rfl

theorem expandKey_eq (key : Bytes) : expandKey key = Blowfish.expandKey key := by
  have entries : expandP = Blowfish.fillP := by
    funext state i
    simp only [expandP, Blowfish.fillP, encrypt_eq]
  have boxes : expandS = Blowfish.fillS := by
    funext box state j
    simp only [expandS, Blowfish.fillS, encrypt_eq]
  unfold expandKey Blowfish.expandKey
  rw [entries, boxes, digitsOfPi_eq, xorParray_eq]

/-! The stream is the modern one: its bytes are the words written out. -/

theorem ivlOf_encrypt (ivec : UInt32 × UInt32) (key : BfKey) :
    ivlOf (encrypt ivec key) = Blowfish.encryptBlock key (ivlOf ivec) := by
  have words : Blowfish.wordsOf (ivlOf ivec) = ivec := Blowfish.wordsOf_blockOf ivec
  have block : Blowfish.encryptBlock key (ivlOf ivec) =
      ivlOf (Blowfish.encryptWords (Blowfish.wordsOf (ivlOf ivec)).1 (Blowfish.wordsOf (ivlOf ivec)).2 key) := rfl
  rw [block, words, encrypt_eq]

/-- The feedback of a modern stream is what the legacy words are as bytes. -/
def Agrees (stream : Blowfish.Ofb64) (ivec : UInt32 × UInt32) (n : UInt32) : Prop :=
  stream.iv = ivlOf ivec ∧ stream.offset.val = n.toNat

def LoopAgrees (stream : Blowfish.Ofb64) (state : Feedback) : Prop :=
  Agrees stream state.ivec state.n ∧ state.ivl = ivlOf state.ivec

theorem next_agrees (key : BfKey) {stream : Blowfish.Ofb64} {state : Feedback} (agrees : LoopAgrees stream state) :
    (stream.next key).1 = (state.next key).1 ∧ LoopAgrees (stream.next key).2 (state.next key).2 := by
  obtain ⟨⟨iv, offset⟩, ivl⟩ := agrees
  have boundary : stream.offset = 0 ↔ state.n = 0 := by
    rw [← UInt32.toNat_inj, ← offset]
    exact Fin.ext_iff
  have moved : (stream.offset + 1).val = ((state.n + 1) &&& 0x07).toNat := by
    have masked : ((state.n + 1) &&& 0x07).toNat = (state.n + 1).toNat % 8 := by
      rw [UInt32.toNat_and]
      exact Nat.and_two_pow_sub_one_eq_mod _ 3
    have bound := stream.offset.isLt
    rw [masked, UInt32.toNat_add, ← offset, Fin.val_add]
    change (stream.offset.val + 1) % 8 = (stream.offset.val + 1) % 2 ^ 32 % 8
    omega
  have byte (block : Block) : block.get stream.offset = block.toList.getD state.n.toNat 0 := by
    rw [← offset]
    simp [Vector.get]
  by_cases start : state.n = 0
  · have modern : stream.next key = ((Blowfish.encryptBlock key stream.iv).get stream.offset,
        { iv := Blowfish.encryptBlock key stream.iv, offset := stream.offset + 1 }) := by
      rw [Blowfish.Ofb64.next, if_pos (boundary.mpr start)]
    have legacy : state.next key = ((ivlOf (encrypt state.ivec key)).toList.getD state.n.toNat 0,
        { ivec := encrypt state.ivec key, ivl := ivlOf (encrypt state.ivec key), n := (state.n + 1) &&& 0x07 }) := by
      rw [Feedback.next, if_pos start]
    rw [modern, legacy, iv, ← ivlOf_encrypt]
    exact ⟨byte _, ⟨rfl, moved⟩, rfl⟩
  · have modern : stream.next key = (stream.iv.get stream.offset, { stream with offset := stream.offset + 1 }) := by
      rw [Blowfish.Ofb64.next, if_neg (mt boundary.mp start)]
    have legacy : state.next key = (state.ivl.toList.getD state.n.toNat 0,
        { state with n := (state.n + 1) &&& 0x07 }) := by
      rw [Feedback.next, if_neg start]
    rw [modern, legacy, ← byte]
    exact ⟨by rw [iv, ivl], ⟨iv, moved⟩, ivl⟩

theorem ofb64_agrees (key : BfKey) {stream : Blowfish.Ofb64} {ivec : UInt32 × UInt32} {n : UInt32}
    (agrees : Agrees stream ivec n) (buffer : Bytes) :
    (stream.process key buffer).1 = (ofb64 buffer key ivec n).1 ∧
      Agrees (stream.process key buffer).2 (ofb64 buffer key ivec n).2.1 (ofb64 buffer key ivec n).2.2 := by
  have start : LoopAgrees stream { ivec, ivl := ivlOf ivec, n } := ⟨agrees, rfl⟩
  have whole := Keystream.apply_related (fun key byte => byte ^^^ key) LoopAgrees
    (fun _ _ related => next_agrees key related) start buffer
  exact ⟨whole.1, whole.2.1⟩

/-! Whole runs. -/

/-- The modern cipher and the legacy object: streams that agree, under the same key if it is `keyed`. -/
def Related (keyed : Prop) (modern : Blowfish × Blowfish.Ofb64) (legacy : HLBlowfish) : Prop :=
  Agrees modern.2 legacy.ivec legacy.mEncodeIvecOffset ∧ (keyed → modern.1.encodeKey = legacy.mEncodeKey)

theorem ivec_encode (buffer : Bytes) (legacy : HLBlowfish) :
    (legacy.encode buffer).2.ivec = (ofb64 buffer legacy.mEncodeKey legacy.ivec legacy.mEncodeIvecOffset).2.1 := by
  have written (words : Vector UInt32 8) (high low : UInt32) :
      ((words.set 0 high).set 1 low)[0] = high ∧ ((words.set 0 high).set 1 low)[1] = low := by simp
  exact Prod.ext (written _ _ _).1 (written _ _ _).2

theorem related_init (keyed : Prop) (cipher : Blowfish) (memory : HLBlowfish)
    (same : keyed → cipher.encodeKey = memory.mEncodeKey) :
    Related keyed (cipher, .reset) memory.init := by
  have bytes : (Blowfish.Ofb64.reset).iv = ivlOf (0, 0) := by decide
  have words : memory.init.ivec = (0, 0) := rfl
  constructor
  · rw [words]
    exact ⟨bytes, rfl⟩
  · exact same

theorem setEncodeKey_related {keyed : Prop} {modern : Blowfish × Blowfish.Ofb64} {legacy : HLBlowfish}
    (related : Related keyed modern legacy) (key : Bytes) :
    Related True (modern.1.setEncodeKey key, modern.2) (legacy.setEncodeKey key) := by
  constructor
  · exact related.1
  · intro _
    exact (expandKey_eq key).symm

theorem encode_related {modern : Blowfish × Blowfish.Ofb64} {legacy : HLBlowfish}
    (related : Related True modern legacy) (buffer : Bytes) :
    (modern.1.encodeStream modern.2 buffer).1 = (legacy.encode buffer).1 ∧
      Related True (modern.1, (modern.1.encodeStream modern.2 buffer).2) (legacy.encode buffer).2 := by
  have processed := ofb64_agrees legacy.mEncodeKey related.1 buffer
  rw [Blowfish.encodeStream, related.2 trivial]
  constructor
  · exact processed.1
  · constructor
    · rw [ivec_encode]
      exact processed.2
    · exact related.2

theorem perform_lockstep : Lockstep performStream HLBlowfish.perform (Related True) := by
  intro modern legacy op related
  cases op with
  | setEncodeKey key => exact ⟨rfl, setEncodeKey_related related key⟩
  | encodeStream buffer => exact encode_related related buffer

def KeyedFirst : List StreamOp → Prop
  | .encodeStream buffer :: ops => buffer = [] ∧ KeyedFirst ops
  | .setEncodeKey _ :: _ => True
  | [] => True

theorem outputs_keyedFirst {ops : List StreamOp} (keyed : KeyedFirst ops) {modern : Blowfish × Blowfish.Ofb64}
    {legacy : HLBlowfish} (related : Related False modern legacy) :
    outputs performStream modern ops = outputs HLBlowfish.perform legacy ops := by
  induction ops generalizing modern legacy with
  | nil => rfl
  | cons op ops ih =>
    cases op with
    | setEncodeKey key =>
      have later := perform_lockstep.outputs_eq (setEncodeKey_related related key) ops
      exact congrArg (List.cons []) later
    | encodeStream buffer =>
      have empty : buffer = [] := keyed.1
      subst empty
      have kept : (legacy.encode []).2.ivec = legacy.ivec := ivec_encode [] legacy
      have still : Related False (performStream modern (.encodeStream [])).2 (legacy.encode []).2 := by
        constructor
        · rw [kept]
          exact related.1
        · exact False.elim
      exact congrArg (List.cons []) (ih keyed.2 still)

theorem outputs_pieces (modern : Blowfish × Blowfish.Ofb64) (pieces : List Bytes) :
    (outputs performStream modern (pieces.map .encodeStream)).flatten =
      (modern.1.encodeStream modern.2 pieces.flatten).1 := by
  induction pieces generalizing modern with
  | nil => rfl
  | cons piece pieces ih =>
    have split := Keystream.apply_append (Blowfish.Ofb64.next modern.1.encodeKey) (fun key byte => byte ^^^ key)
      modern.2 piece pieces.flatten
    rw [List.map_cons, outputs, List.flatten_cons, ih, List.flatten_cons]
    exact (congrArg Prod.fst split).symm

/-- Whatever the key fields hold at the start, if they hold the same, or whatever they hold, if a key is set
before a byte is asked for: every operation produces the bytes the legacy object produces. A buffer
may come in pieces, and a stream from reset undoes itself. -/
theorem stream_agrees :
    (∀ (cipher : Blowfish) (memory : HLBlowfish) (ops : List StreamOp),
      outputs performStream ({ cipher with encodeKey := memory.mEncodeKey }, .reset) ops =
        outputs HLBlowfish.perform memory.init ops) ∧
    (∀ (cipher : Blowfish) (memory : HLBlowfish) (ops : List StreamOp), KeyedFirst ops →
      outputs performStream (cipher, .reset) ops = outputs HLBlowfish.perform memory.init ops) ∧
    (∀ (cipher : Blowfish) (stream : Blowfish.Ofb64) (pieces : List Bytes),
      (outputs performStream (cipher, stream) (pieces.map .encodeStream)).flatten =
        (cipher.encodeStream stream pieces.flatten).1) ∧
    ∀ (cipher : Blowfish) (buffer : Bytes),
      (cipher.encodeStream .reset (cipher.encodeStream .reset buffer).1).1 = buffer := by
  refine ⟨?_, ?_, ?_, ?_⟩
  · intro cipher memory ops
    apply perform_lockstep.outputs_eq
    apply related_init
    intro _
    rfl
  · intro cipher memory ops keyed
    apply outputs_keyedFirst keyed
    exact related_init False cipher memory False.elim
  · intro cipher stream pieces
    exact outputs_pieces (cipher, stream) pieces
  · intro cipher buffer
    exact congrArg Prod.fst (Blowfish.Ofb64.process_process cipher.encodeKey .reset buffer)

/-- An object with anything in it, asked for nothing, then given a key and asked for three bytes. -/
theorem stream_agrees_after_key :
    let memory : HLBlowfish :=
      { mEncodeKey := { p := .replicate 18 7 }, mDecodeKey := {}, mEncodeIvec := .replicate 8 9
        mDecodeIvec := .replicate 8 9, mEncodeIvecOffset := 5, mDecodeIvecOffset := 3 }
    let ops : List StreamOp := [.encodeStream [], .setEncodeKey ⟨[0x4B], by decide⟩, .encodeStream [1, 2, 3]]
    KeyedFirst ops ∧ outputs performStream ({}, .reset) ops = outputs HLBlowfish.perform memory.init ops :=
  ⟨⟨rfl, trivial⟩, stream_agrees.2.1 {} _ _ ⟨rfl, trivial⟩⟩

end HLBlowfish

end Slopline.Legacy
