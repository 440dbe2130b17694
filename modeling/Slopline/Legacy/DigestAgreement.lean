import Slopline.Legacy.UDigest

/-! The legacy MD5, however it is fed, and the modern one of the whole message.

Between two calls the words are those after the complete blocks so far, the buffer begins with what is behind
them, and the two words of the count hold the number of bits modulo 2^64.
-/

set_option autoImplicit false

namespace Slopline.Legacy.MD5

open Crypto Endian Library

section
variable {mBuffer inData : Bytes} {index : Nat}

theorem length_copyTo (inside : index + inData.length ≤ mBuffer.length) :
    (copyTo mBuffer index inData).length = mBuffer.length := by
  simp only [copyTo, List.length_append, List.length_take, List.length_drop]
  omega

theorem take_copyTo (inside : index ≤ mBuffer.length) :
    (copyTo mBuffer index inData).take (index + inData.length) = mBuffer.take index ++ inData := by
  apply List.take_left'
  rw [List.length_append, List.length_take_of_le inside]

end

structure Holds (m : Context) (consumed : Bytes) : Prop where
  words : m.mState = Md5.blockHash.process {} consumed
  count : m.mCount.1.toNat + 2 ^ 32 * m.mCount.2.toNat = 8 * consumed.length % 2 ^ 64
  size : m.mBuffer.length = kBlockSize
  front : m.mBuffer.take (consumed.length % kBlockSize) = residue kBlockSize consumed

theorem init_holds : Holds init [] where
  words := rfl
  count := rfl
  size := rfl
  front := rfl

theorem addBits_eq (mCount : UInt32 × UInt32) (inDataSize : UInt32) :
    (addBits mCount inDataSize).1.toNat + 2 ^ 32 * (addBits mCount inDataSize).2.toNat =
      (mCount.1.toNat + 2 ^ 32 * mCount.2.toNat + 8 * inDataSize.toNat) % 2 ^ 64 := by
  have low := mCount.1.toNat_lt
  have high := mCount.2.toNat_lt
  have size := inDataSize.toNat_lt
  have bits : (inDataSize <<< 3).toNat = 8 * inDataSize.toNat % 2 ^ 32 := by
    rw [UInt32.toNat_shiftLeft, Nat.shiftLeft_eq, Nat.mul_comm]
    rfl
  have carried : (inDataSize >>> 29).toNat = inDataSize.toNat / 2 ^ 29 := by
    rw [UInt32.toNat_shiftRight, Nat.shiftRight_eq_div_pow]
    rfl
  have carry : mCount.1 + (inDataSize <<< 3) < inDataSize <<< 3 ↔
      (mCount.1.toNat + 8 * inDataSize.toNat % 2 ^ 32) % 2 ^ 32 < 8 * inDataSize.toNat % 2 ^ 32 := by
    rw [UInt32.lt_iff_toNat_lt, UInt32.toNat_add, bits]
  by_cases wraps : mCount.1 + (inDataSize <<< 3) < inDataSize <<< 3
  · have wraps' := carry.mp wraps
    simp only [addBits, wraps, if_true, UInt32.toNat_add, bits, carried]
    change _ + 2 ^ 32 * (((mCount.2.toNat + 1) % 2 ^ 32 + _) % 2 ^ 32) = _
    omega
  · have stays := mt carry.mpr wraps
    simp only [addBits, wraps, if_false, UInt32.toNat_add, bits, carried]
    omega

section
variable {m : Context} {consumed : Bytes}

theorem index_eq (holds : Holds m consumed) : m.index.toNat = consumed.length % kBlockSize := by
  have count := holds.count
  have low := m.mCount.1.toNat_lt
  have masked : m.index.toNat = m.mCount.1.toNat / 8 % 64 := by
    rw [Context.index, UInt32.toNat_and, UInt32.toNat_shiftRight, Nat.shiftRight_eq_div_pow]
    exact Nat.and_two_pow_sub_one_eq_mod _ 6
  rw [masked, kBlockSize]
  omega

end

theorem run_eq {chunk : Chunk} (scan : Scan chunk) :
    (Scan.run scan).words = Md5.blockHash.process scan.words (chunk.bytes.drop scan.i.toNat) ∧
      chunk.bytes.drop (Scan.run scan).i.toNat = residue kBlockSize (chunk.bytes.drop scan.i.toNat) := by
  apply Loop.run_induction _ Scan.step_drops (motive := fun scan result =>
    result.words = Md5.blockHash.process scan.words (chunk.bytes.drop scan.i.toNat) ∧
      chunk.bytes.drop result.i.toNat = residue kBlockSize (chunk.bytes.drop scan.i.toNat))
  · intro scan result round
    by_cases more : scan.i + 63 < chunk.size
    · rw [Scan.step, dif_pos more] at round
      cases round
    · have short : (chunk.bytes.drop scan.i.toNat).length < kBlockSize := by
        have stops := mt scan.more_iff.mpr more
        rw [List.length_drop, kBlockSize]
        omega
      rw [Scan.step, dif_neg more] at round
      rw [← Loop.done.inj round, BlockHash.process_short _ short, residue_short short]
      exact ⟨rfl, rfl⟩
  · intro scan next result round later
    by_cases more : scan.i + 63 < chunk.size
    · have enough : kBlockSize ≤ (chunk.bytes.drop scan.i.toNat).length := by
        have goes := scan.more_iff.mp more
        rw [List.length_drop, kBlockSize]
        omega
      rw [Scan.step, dif_pos more] at round
      have words : next.words = Md5.processBlock scan.words ((chunk.bytes.drop scan.i.toNat).take kBlockSize) := by
        rw [← Loop.again.inj round]
        exact transform_eq _ _
      have rest : chunk.bytes.drop next.i.toNat = (chunk.bytes.drop scan.i.toNat).drop kBlockSize := by
        rw [← Loop.again.inj round, scan.toNat_next, List.drop_drop]
        rfl
      rw [later.1, later.2, words, rest, residue_step kBlockSize_pos enough, BlockHash.process_step _ enough]
      exact ⟨rfl, rfl⟩
    · rw [Scan.step, dif_neg more] at round
      cases round

/-- What `takeBlocks` leaves: the words after the complete blocks, and what is behind them in two parts, one
in the buffer and one not copied yet. -/
structure Taken (chunk : Chunk) (stream : Bytes) (left : Words × Bytes × UInt32 × UInt32) : Prop where
  words : left.1 = Md5.blockHash.process {} stream
  size : left.2.1.length = kBlockSize
  behind : left.2.1.take left.2.2.2.toNat ++ chunk.bytes.drop left.2.2.1.toNat = residue kBlockSize stream
  buffered : left.2.2.2.toNat ≤ kBlockSize
  inside : left.2.2.1.toNat ≤ chunk.bytes.length

section
variable {m : Context} {consumed : Bytes}

theorem completed (holds : Holds m consumed) {part : Bytes} (fills : m.index.toNat + part.length = kBlockSize) :
    copyTo m.mBuffer m.index.toNat part = residue kBlockSize consumed ++ part ∧
      (copyTo m.mBuffer m.index.toNat part).length = kBlockSize := by
  have less : m.index.toNat ≤ m.mBuffer.length := by
    rw [holds.size]
    omega
  have size : (copyTo m.mBuffer m.index.toNat part).length = kBlockSize := by
    rw [length_copyTo, holds.size]
    rw [fills, holds.size]
  have whole := @take_copyTo m.mBuffer part m.index.toNat less
  rw [fills, List.take_of_length_le (Nat.le_of_eq size), index_eq holds, holds.front] at whole
  exact ⟨(index_eq holds).symm ▸ whole, size⟩

theorem takeBlocks_taken (holds : Holds m consumed) (chunk : Chunk) :
    Taken chunk (consumed ++ chunk.bytes) (m.takeBlocks chunk) := by
  have index := index_eq holds
  have less : consumed.length % kBlockSize < kBlockSize := Nat.mod_lt _ kBlockSize_pos
  have front := holds.front
  have behind : (residue kBlockSize consumed).length = consumed.length % kBlockSize := length_residue consumed
  rw [← index] at front behind less
  have partLen : (64 - m.index).toNat = kBlockSize - m.index.toNat := by
    rw [UInt32.toNat_sub_of_le]
    · rfl
    · rw [UInt32.le_iff_toNat_le]
      exact Nat.le_of_lt less
  by_cases enough : 64 - m.index ≤ chunk.size
  · have fits : kBlockSize - m.index.toNat ≤ chunk.bytes.length := by
      rw [UInt32.le_iff_toNat_le, partLen, chunk.toNat_size] at enough
      exact enough
    have part : m.index.toNat + (chunk.bytes.take (64 - m.index).toNat).length = kBlockSize := by
      rw [partLen, List.length_take_of_le fits]
      omega
    obtain ⟨full, size⟩ := completed holds part
    have stream : residue kBlockSize consumed ++ chunk.bytes =
        copyTo m.mBuffer m.index.toNat (chunk.bytes.take (64 - m.index).toNat) ++
          chunk.bytes.drop (64 - m.index).toNat := by
      rw [full, List.append_assoc, List.take_append_drop]
    have longer : kBlockSize ≤ (residue kBlockSize consumed ++ chunk.bytes).length := by
      rw [List.length_append, behind]
      omega
    rw [Context.takeBlocks, dif_pos enough]
    dsimp only
    constructor
    · rw [(run_eq _).1, transform_eq, List.take_of_length_le (Nat.le_of_eq size), BlockHash.process_append, stream,
        BlockHash.process_block _ size, holds.words]
      rfl
    · exact size
    · rw [(run_eq _).2, residue_append kBlockSize_pos, residue_step kBlockSize_pos longer, stream,
        List.drop_left' size]
      rfl
    · exact Nat.zero_le _
    · exact (Scan.run _).inside
  · have short : (residue kBlockSize consumed ++ chunk.bytes).length < kBlockSize := by
      rw [UInt32.le_iff_toNat_le, partLen, chunk.toNat_size] at enough
      rw [List.length_append, behind]
      omega
    have kept : m.takeBlocks chunk = (m.mState, m.mBuffer, 0, m.index) := dif_neg enough
    rw [kept]
    constructor
    · rw [BlockHash.process_append, BlockHash.process_short _ short, holds.words]
    · exact holds.size
    · rw [residue_append kBlockSize_pos, residue_short short]
      change m.mBuffer.take m.index.toNat ++ chunk.bytes.drop 0 = _
      rw [front, List.drop_zero]
    · exact Nat.le_of_lt less
    · exact Nat.zero_le _

theorem update_holds (holds : Holds m consumed) (chunk : Chunk) :
    Holds (m.update chunk) (consumed ++ chunk.bytes) := by
  have taken := takeBlocks_taken holds chunk
  have count := addBits_eq m.mCount chunk.size
  rw [holds.count, chunk.toNat_size, Nat.mod_add_mod, ← Nat.mul_add, ← List.length_append] at count
  rw [Context.update]
  generalize m.takeBlocks chunk = left at taken
  obtain ⟨mState, mBuffer, i, index⟩ := left
  obtain ⟨words, size, behind, buffered, inside⟩ := taken
  dsimp only at words size behind buffered inside
  have lengths : index.toNat + (chunk.bytes.drop i.toNat).length = (consumed ++ chunk.bytes).length % kBlockSize := by
    rw [← length_residue, ← behind, List.length_append, List.length_take_of_le (size ▸ buffered)]
  have less : (consumed ++ chunk.bytes).length % kBlockSize < kBlockSize := Nat.mod_lt _ kBlockSize_pos
  by_cases nothing : chunk.size - i = 0
  · have all : chunk.bytes.drop i.toNat = [] := by
      have same : chunk.size = i := by rw [← UInt32.sub_add_cancel chunk.size i, nothing, UInt32.zero_add]
      apply List.drop_eq_nil_of_le
      rw [← same, chunk.toNat_size]
    rw [all, List.length_nil, Nat.add_zero] at lengths
    rw [all, List.append_nil, lengths] at behind
    exact ⟨words, count, by simp only [nothing, if_true, size], by simp only [nothing, if_true, behind]⟩
  · have room : index.toNat + (chunk.bytes.drop i.toNat).length ≤ mBuffer.length := by
      rw [size, lengths]
      exact Nat.le_of_lt less
    have copied := @take_copyTo mBuffer (chunk.bytes.drop i.toNat) index.toNat (size ▸ buffered)
    rw [lengths, behind] at copied
    constructor
    · exact words
    · exact count
    · simp only [nothing, if_false, length_copyTo room, size]
    · simp only [nothing, if_false, copied]

theorem updates_hold (holds : Holds m consumed) (chunks : List Chunk) :
    Holds (chunks.foldl Context.update m) (consumed ++ (chunks.map Chunk.bytes).flatten) := by
  induction chunks generalizing m consumed with
  | nil => simpa using holds
  | cons chunk chunks ih =>
    have later := ih (update_holds holds chunk)
    rw [List.append_assoc] at later
    exact later

theorem paddingChunk_eq (holds : Holds m consumed) :
    (paddingChunk m.index).bytes = [0x80] ++ .replicate (paddingZeroes consumed.length) 0 := by
  have index := index_eq holds
  have less : m.index.toNat < 64 := by
    rw [index]
    exact Nat.mod_lt _ kBlockSize_pos
  have zeroes := paddingZeroes_eq consumed.length
  have padLen : (if m.index < 56 then 56 - m.index else 120 - m.index).toNat = paddingZeroes consumed.length + 1 := by
    rw [zeroes, ← kBlockSize, ← index, kBlockSize]
    by_cases short : m.index < 56
    · have short' : m.index.toNat < 56 := UInt32.lt_iff_toNat_lt.mp short
      rw [if_pos short, UInt32.toNat_sub_of_le _ _ (UInt32.le_of_lt short)]
      change 56 - m.index.toNat = _
      omega
    · have long : ¬ m.index.toNat < 56 := fun less => short (UInt32.lt_iff_toNat_lt.mpr less)
      have fits : m.index ≤ 120 := UInt32.le_iff_toNat_le.mpr (Nat.le_of_lt (Nat.lt_trans less (by decide)))
      rw [if_neg short, UInt32.toNat_sub_of_le _ _ fits]
      change 120 - m.index.toNat = _
      omega
  have most : paddingZeroes consumed.length ≤ 63 := by
    rw [zeroes]
    omega
  change padding.take (if m.index < 56 then 56 - m.index else 120 - m.index).toNat = _
  rw [padLen, padding, List.take_succ_cons, List.take_replicate, Nat.min_eq_left most]
  rfl

theorem bitsChunk_eq (holds : Holds m consumed) : (bitsChunk m.mCount).bytes = little 8 (8 * consumed.length) := by
  have low : m.mCount.1.toNat < 256 ^ 4 := m.mCount.1.toNat_lt
  calc writeU32le m.mCount.1 ++ writeU32le m.mCount.2
      = little 8 (m.mCount.1.toNat + 2 ^ 32 * m.mCount.2.toNat) := by
        rw [writeU32le_eq_little, writeU32le_eq_little, little_append low]
        rfl
    _ = little 8 (8 * consumed.length % 256 ^ 8) := by rw [holds.count]; rfl
    _ = little 8 (8 * consumed.length) := little_mod 8 _

theorem emitWord_eq (value : UInt32) : Md5.emitWord value = writeU32le value := by
  simp [Md5.emitWord, List.range_succ, writeU32le]

theorem report_eq (holds : Holds m consumed) : m.report = Md5.digest consumed := by
  have whole := update_holds (update_holds holds (paddingChunk m.index)) (bitsChunk m.mCount)
  have stream : consumed ++ (paddingChunk m.index).bytes ++ (bitsChunk m.mCount).bytes =
      padded (little 8) consumed := by
    rw [paddingChunk_eq holds, bitsChunk_eq holds, padded, ← List.append_assoc]
  have emitted (words : Words) : Md5.emit words =
      writeU32le words.a ++ writeU32le words.b ++ writeU32le words.c ++ writeU32le words.d := by
    simp only [Md5.emit, emitWord_eq]
  have words := whole.words
  rw [stream] at words
  calc m.report
      = Md5.emit ((m.update (paddingChunk m.index)).update (bitsChunk m.mCount)).mState := (emitted _).symm
    _ = Md5.emit (Md5.blockHash.process {} (padded (little 8) consumed)) := by rw [words]
    _ = Md5.digest consumed :=
      (BlockHash.digest_eq_process (h := Md5.blockHash) (length_little 8) Md5.lengthBytes_ofNat consumed).symm

end

/-- However a message is cut into calls, the digest reported is the modern one of the whole message. -/
theorem digest_agrees (chunks : List Chunk) :
    (chunks.foldl Context.update init).report = Md5.digest (chunks.map Chunk.bytes).flatten :=
  report_eq (updates_hold init_holds chunks)

end Slopline.Legacy.MD5
