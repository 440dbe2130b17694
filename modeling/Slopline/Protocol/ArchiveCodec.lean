import Slopline.Protocol.TransferCodec
import Slopline.Protocol.Archive

/-! The `harc` layout, and that the decoder accepts exactly it.

The layout leaves freedom where the decoder does not look: the reserved bytes of the
header and of each entry, and what pads the name to its field of 64 bytes.
-/

set_option autoImplicit false

namespace Slopline.Protocol

open Library Endian

def archivePathBytes (path : List FolderPathComponent) : Bytes :=
  writeU16be (UInt16.ofNat path.length) ++ path.flatMap encodeComponent

/-- Every size and count of an entry is within its prefix. -/
structure ArchiveEntryFits (entry : ArchiveEntry) : Prop where
  count : entry.path.length ≤ 65535
  names : ∀ component ∈ entry.path, ComponentFits component
  path : (archivePathBytes entry.path).length ≤ 65535
  reserved : entry.reserved.length ≤ 65535
  payload : entry.payload.length < 2 ^ 32

/-- `rsvd` are the four bytes behind the type. -/
def archiveEntryBytes (entry : ArchiveEntry) (rsvd : Bytes) : Bytes :=
  writeU32be entry.type ++ (rsvd ++ (writeU16be (UInt16.ofNat (archivePathBytes entry.path).length) ++
    (archivePathBytes entry.path ++ (writeU16be (UInt16.ofNat entry.reserved.length) ++ (entry.reserved ++
    (writeU32be entry.compressionType ++ (writeU32be entry.decompressedSize ++
    (writeU32be (UInt32.ofNat entry.payload.length) ++ entry.payload))))))))

def ArchiveEntryLayout (entry : ArchiveEntry) (used : Bytes) : Prop :=
  ArchiveEntryFits entry ∧ ∃ rsvd : Bytes, rsvd.length = 4 ∧ used = archiveEntryBytes entry rsvd

/-- A name in its field of 64 bytes: a size byte, the name, and what fills up the field. A size
byte above 63 stands for 63. -/
structure NameField (name : Bytes) (field : Bytes) : Prop where
  size : field.length = 64
  layout : ∃ (nameByte : UInt8) (padding : Bytes),
    name.length = min nameByte.toNat 63 ∧ field = nameByte :: (name ++ padding)

structure ArchiveFits (archive : Archive) : Prop where
  version : archive.version = kArchiveVersion
  name : archive.archiveName.length ≤ 63
  reserved3 : archive.reserved3.length ≤ 65535
  count : archive.entries.length ≤ 65535

/-- The header of 98 bytes, for a choice of its reserved bytes and of its name field. -/
def archiveHeader (archive : Archive) (rsvd nameField : Bytes) : Bytes :=
  writeU32be kArchiveFormat ++ (writeU32be archive.version ++ (writeU32be archive.archiveSize ++
    (rsvd ++ (nameField ++ (writeU16be (UInt16.ofNat archive.entries.length) ++
    (writeU16be archive.fileAutoLaunch ++ writeU16be (UInt16.ofNat archive.reserved3.length)))))))

def ArchiveLayout (archive : Archive) (bytes : Bytes) : Prop :=
  ArchiveFits archive ∧ ∃ rsvd nameField entries : Bytes, rsvd.length = 16 ∧
    NameField archive.archiveName nameField ∧ Series ArchiveEntryLayout archive.entries entries ∧
    bytes = archiveHeader archive rsvd nameField ++ (archive.reserved3 ++ entries)

/-! A path of exactly its size. -/

theorem length_archivePathBytes (path : List FolderPathComponent) :
    (archivePathBytes path).length = 2 + (path.flatMap encodeComponent).length := by
  simp only [archivePathBytes, List.length_append, length_writeU16be]

theorem readArchivePath_complete {path : List FolderPathComponent} (count : path.length ≤ 65535)
    (names : ∀ component ∈ path, ComponentFits component) :
    readArchivePath (archivePathBytes path) = .value path := by
  have enough : ¬ (archivePathBytes path).length < 2 := by
    rw [length_archivePathBytes]
    omega
  have components := times_flatMap readComponent_complete names []
  rw [List.append_nil] at components
  rw [readArchivePath, if_neg enough]
  simp [archivePathBytes, toNat_ofNat_u16 count, components]

theorem readArchivePath_sound (pathBytes : Bytes) :
    (readArchivePath pathBytes).Post fun path => path.length ≤ 65535 ∧
      (∀ component ∈ path, ComponentFits component) ∧ pathBytes = archivePathBytes path := by
  simp only [readArchivePath, Checked.post_ite, Checked.post_error, Checked.post_bind, post_u16beAt,
    Span.post_subspan, Checked.pure_eq, Checked.post_value, implies_true, true_and]
  refine fun enough => ⟨by omega, fun count first => ⟨by omega, ?_⟩⟩
  refine ((readComponent_reads.times count.toNat).sound _).mono ?_
  rintro ⟨path, rest⟩ ⟨used, ⟨length, series⟩, split⟩ ended
  obtain ⟨names, rfl⟩ := (series_iff (fun _ _ => Iff.rfl) _ _).mp series
  obtain rfl : rest = [] := not_not.mp ended
  rw [List.append_nil] at split
  have bound := count.toNat_lt
  refine ⟨by omega, names, ?_⟩
  calc
    pathBytes = writeU16be count ++ pathBytes.drop 2 := first
    _ = _ := by simp only [archivePathBytes, length, UInt16.ofNat_toNat, split]

/-! One entry. -/

theorem readArchiveEntry_complete {entry : ArchiveEntry} {rsvd : Bytes} (fits : ArchiveEntryFits entry)
    (four : rsvd.length = 4) (rest : Bytes) :
    readArchiveEntry (archiveEntryBytes entry rsvd ++ rest) = .value (entry, rest) := by
  have pathSize := toNat_ofNat_u16 fits.path
  have rsvdSize := toNat_ofNat_u16 fits.reserved
  have payloadSize : (UInt32.ofNat entry.payload.length).toNat = entry.payload.length :=
    UInt32.toNat_ofNat_of_lt' fits.payload
  have path := readArchivePath_complete fits.count fits.names
  have enough : ¬ (archiveEntryBytes entry rsvd ++ rest).length < 10 := by
    simp only [archiveEntryBytes, List.length_append, length_writeU32be, length_writeU16be, four]
    omega
  rw [readArchiveEntry, if_neg enough]
  simp +arith [archiveEntryBytes, four, pathSize, path, rsvdSize, payloadSize]

-- The spans the decoder passes through, each one the part it has read and the next span.
theorem readArchiveEntry_sound (bytes : Bytes) :
    (readArchiveEntry bytes).Post fun taken => ∃ used,
      ArchiveEntryLayout taken.1 used ∧ bytes = used ++ taken.2 := by
  simp only [readArchiveEntry, Checked.post_ite, Checked.post_error, Checked.post_bind, post_u16beAt,
    post_u32beAt, Span.post_subspan, Span.post_first, Checked.pure_eq, Checked.post_value, implies_true,
    true_and]
  refine fun enough => ⟨by omega, fun type first => ⟨by omega, fun pathSize second => ⟨by omega, ?_⟩⟩⟩
  generalize hpath : bytes.drop 10 = atPath
  refine fun pathInside => ⟨by omega, (readArchivePath_sound _).mono ?_⟩
  rintro path ⟨count, names, pathBytes⟩
  refine ⟨by omega, ?_⟩
  generalize hrsvd : atPath.drop pathSize.toNat = atRsvd
  refine fun two => ⟨by omega, fun rsvdSize third => ⟨by omega, ?_⟩⟩
  generalize hreserved : atRsvd.drop 2 = atReserved at third ⊢
  refine fun reservedInside => ⟨by omega, by omega, ?_⟩
  generalize hhead : atReserved.drop rsvdSize.toNat = atHead
  refine fun twelve => ⟨by omega, fun compressionType fourth => ⟨by omega, fun decompressedSize fifth => ?_⟩⟩
  refine ⟨by omega, fun compressedSize sixth => ⟨by omega, ?_⟩⟩
  generalize hpayload : atHead.drop 12 = atPayload at sixth ⊢
  refine fun payloadInside => ⟨by omega, by omega, ?_⟩
  -- Each size was read in front of what it measures.
  have pathLength : (archivePathBytes path).length = pathSize.toNat := by
    rw [← pathBytes, List.length_take]
    omega
  have reservedLength : (atReserved.take rsvdSize.toNat).length = rsvdSize.toNat := List.length_take_of_le (by omega)
  have payloadLength : (atPayload.take compressedSize.toNat).length = compressedSize.toNat :=
    List.length_take_of_le (by omega)
  have rsvdLength : ((bytes.drop 4).take 4).length = 4 := length_take_drop (by omega)
  have pathBound := pathSize.toNat_lt
  have rsvdBound := rsvdSize.toNat_lt
  have payloadBound := compressedSize.toNat_lt
  refine ⟨_, ⟨⟨count, names, ?_, ?_, ?_⟩, (bytes.drop 4).take 4, rsvdLength, rfl⟩, ?_⟩
  · simp only [pathLength]
    omega
  · simp only [reservedLength]
    omega
  · simp only [payloadLength]
    omega
  · simp only [archiveEntryBytes, pathLength, reservedLength, payloadLength, UInt16.ofNat_toNat,
      UInt32.ofNat_toNat, List.append_assoc, List.take_append_drop]
    calc
      bytes = writeU32be type ++ bytes.drop 4 := first
      _ = writeU32be type ++ ((bytes.drop 4).take 4 ++ bytes.drop 8) := by
        rw [← take_drop_append 4 4]
      _ = writeU32be type ++ ((bytes.drop 4).take 4 ++ (writeU16be pathSize ++ atPath)) := by
        rw [second, hpath]
      _ = writeU32be type ++ ((bytes.drop 4).take 4 ++ (writeU16be pathSize ++
            (archivePathBytes path ++ atRsvd))) := by
        rw [← pathBytes, ← hrsvd, List.take_append_drop]
      _ = writeU32be type ++ ((bytes.drop 4).take 4 ++ (writeU16be pathSize ++
            (archivePathBytes path ++ (writeU16be rsvdSize ++ (atReserved.take rsvdSize.toNat ++ atHead))))) := by
        rw [← hhead, List.take_append_drop, ← third]
        rfl
      _ = _ := by
        rw [← sixth, ← fifth, ← fourth]
        rfl

theorem readArchiveEntry_reads : Reads readArchiveEntry ArchiveEntryLayout := by
  constructor
  · rintro entry used rest ⟨fits, rsvd, four, rfl⟩
    exact readArchiveEntry_complete fits four rest
  · exact readArchiveEntry_sound

/-! The whole archive. -/

theorem length_archiveHeader (archive : Archive) {rsvd nameField : Bytes} (reserved : rsvd.length = 16)
    (field : nameField.length = 64) : (archiveHeader archive rsvd nameField).length = kArchiveHeaderSize := by
  simp [archiveHeader, reserved, field, kArchiveHeaderSize]

section
variable (archive : Archive) {rsvd : Bytes} (nameField rest : Bytes) (reserved : rsvd.length = 16)
  (field : nameField.length = 64)
include reserved

theorem archiveHeader_front :
    (u32beAt 0 (archiveHeader archive rsvd nameField ++ rest) : Checked DecodeError UInt32) =
        .value kArchiveFormat ∧
      (u32beAt 4 (archiveHeader archive rsvd nameField ++ rest) : Checked DecodeError UInt32) =
        .value archive.version ∧
      (u32beAt 8 (archiveHeader archive rsvd nameField ++ rest) : Checked DecodeError UInt32) =
        .value archive.archiveSize ∧
      (Span.subspan 28 (archiveHeader archive rsvd nameField ++ rest) : Checked DecodeError Bytes) =
        .value (nameField ++ (writeU16be (UInt16.ofNat archive.entries.length) ++
          (writeU16be archive.fileAutoLaunch ++ (writeU16be (UInt16.ofNat archive.reserved3.length) ++ rest)))) := by
  simp [archiveHeader, reserved]

include field

theorem archiveHeader_back :
    (u16beAt 92 (archiveHeader archive rsvd nameField ++ rest) : Checked DecodeError UInt16) =
        .value (UInt16.ofNat archive.entries.length) ∧
      (u16beAt 94 (archiveHeader archive rsvd nameField ++ rest) : Checked DecodeError UInt16) =
        .value archive.fileAutoLaunch ∧
      (u16beAt 96 (archiveHeader archive rsvd nameField ++ rest) : Checked DecodeError UInt16) =
        .value (UInt16.ofNat archive.reserved3.length) ∧
      (Span.subspan kArchiveHeaderSize (archiveHeader archive rsvd nameField ++ rest) :
        Checked DecodeError Bytes) = .value rest := by
  refine ⟨?_, ?_, ?_, Span.subspan_append (length_archiveHeader archive reserved field)⟩ <;>
    simp [archiveHeader, reserved, field]

end

theorem nameField_reads {archive : Archive} {rsvd : Bytes} {nameByte : UInt8} (padding rest : Bytes)
    (reserved : rsvd.length = 16) (name : archive.archiveName.length = min nameByte.toNat 63) :
    (Span.element 28 (archiveHeader archive rsvd (nameByte :: (archive.archiveName ++ padding)) ++ rest) :
        Checked DecodeError UInt8) = .value nameByte ∧
      (Span.slice 29 (min nameByte.toNat 63)
        (archiveHeader archive rsvd (nameByte :: (archive.archiveName ++ padding)) ++ rest) :
          Checked DecodeError Bytes) = .value archive.archiveName := by
  constructor
  · simp [archiveHeader, reserved]
  · have split : archiveHeader archive rsvd (nameByte :: (archive.archiveName ++ padding)) ++ rest =
        (writeU32be kArchiveFormat ++ (writeU32be archive.version ++ (writeU32be archive.archiveSize ++
          (rsvd ++ [nameByte])))) ++ (archive.archiveName ++ (padding ++
          (writeU16be (UInt16.ofNat archive.entries.length) ++ (writeU16be archive.fileAutoLaunch ++
          (writeU16be (UInt16.ofNat archive.reserved3.length) ++ rest))))) := by
      simp [archiveHeader]
    rw [split, Span.slice_skip (by simp [reserved])]
    simp [reserved, name]

/-- A name is cut at 63 bytes, and the field's other bytes stay what they are. -/
theorem nameField_drop {bytes : Bytes} (enough : kArchiveHeaderSize ≤ bytes.length)
    (inside : 28 < bytes.length) :
    NameField ((bytes.drop 29).take (min bytes[28].toNat 63)) ((bytes.drop 28).take 64) := by
  have headerSize : kArchiveHeaderSize = 98 := rfl
  have clamp : min bytes[28].toNat 63 ≤ 63 := Nat.min_le_right _ _
  have shorter : (bytes.drop 29).take (min bytes[28].toNat 63) =
      ((bytes.drop 29).take 63).take (min bytes[28].toNat 63) := by
    rw [List.take_take, Nat.min_eq_left clamp]
  refine ⟨length_take_drop (by omega), bytes[28], ((bytes.drop 29).take 63).drop (min bytes[28].toNat 63),
    length_take_drop (by omega), ?_⟩
  rw [List.drop_eq_getElem_cons inside, List.take_succ_cons, shorter, List.take_append_drop]

theorem tryDecodeArchive_complete {archive : Archive} {bytes : Bytes} (layout : ArchiveLayout archive bytes) :
    tryDecodeArchive bytes = .value archive := by
  obtain ⟨fits, rsvd, nameField, entries, reserved, ⟨field, nameByte, padding, name, rfl⟩, series, rfl⟩ := layout
  have count := toNat_ofNat_u16 fits.count
  have rsvd3Size := toNat_ofNat_u16 fits.reserved3
  have read := series.times readArchiveEntry_reads.complete []
  rw [List.append_nil] at read
  have enough : ¬ (archiveHeader archive rsvd (nameByte :: (archive.archiveName ++ padding)) ++
      (archive.reserved3 ++ entries)).length < kArchiveHeaderSize := by
    rw [List.length_append, length_archiveHeader archive reserved field]
    omega
  have inside : ¬ (archive.reserved3 ++ entries).length < archive.reserved3.length := by
    rw [List.length_append]
    omega
  have front := archiveHeader_front archive (nameByte :: (archive.archiveName ++ padding))
    (archive.reserved3 ++ entries) reserved
  have back := archiveHeader_back archive _ (archive.reserved3 ++ entries) reserved field
  have named := nameField_reads padding (archive.reserved3 ++ entries) reserved name
  rw [tryDecodeArchive, if_neg enough]
  simp only [front, named, back, Checked.value_bind, fits.version, ne_eq, not_true_eq_false, if_false,
    rsvd3Size, if_neg inside, Span.first_append, Span.subspan_append, count, read, Checked.pure_eq]
  rw [← fits.version]

theorem tryDecodeArchive_sound (bytes : Bytes) :
    (tryDecodeArchive bytes).Post fun archive => ArchiveLayout archive bytes := by
  simp only [tryDecodeArchive, Checked.post_ite, Checked.post_error, Checked.post_bind, post_u16beAt,
    post_u32beAt, Span.post_element, Span.post_slice, Span.post_subspan, Span.post_first, Checked.pure_eq,
    Checked.post_value, implies_true, true_and]
  have headerSize : kArchiveHeaderSize = 98 := rfl
  refine fun enough => ⟨by omega, fun format first known => ⟨by omega, fun version second supported => ?_⟩⟩
  refine ⟨by omega, fun archiveSize third => ⟨by omega, by omega, by omega, fun fileCount fourth => ?_⟩⟩
  refine ⟨by omega, fun fileAutoLaunch fifth => ⟨by omega, fun rsvd3Size sixth => ⟨by omega, ?_⟩⟩⟩
  generalize hreserved : bytes.drop kArchiveHeaderSize = atReserved
  refine fun inside => ⟨by omega, by omega, ?_⟩
  refine ((readArchiveEntry_reads.times fileCount.toNat).sound _).mono ?_
  rintro ⟨entries, rest⟩ ⟨used, ⟨length, series⟩, split⟩ ended
  obtain rfl : rest = [] := not_not.mp ended
  rw [List.append_nil] at split
  obtain rfl : format = kArchiveFormat := not_not.mp known
  obtain rfl : version = kArchiveVersion := not_not.mp supported
  have countBound := fileCount.toNat_lt
  have rsvd3Bound := rsvd3Size.toNat_lt
  have named : NameField ((bytes.drop 29).take (min bytes[28].toNat 63)) ((bytes.drop 28).take 64) :=
    nameField_drop (by omega) (by omega)
  have nameLength : ((bytes.drop 29).take (min bytes[28].toNat 63)).length = min bytes[28].toNat 63 :=
    length_take_drop (by omega)
  have countEq : UInt16.ofNat entries.length = fileCount := by rw [length, UInt16.ofNat_toNat]
  have rsvd3Length : (atReserved.take rsvd3Size.toNat).length = rsvd3Size.toNat := List.length_take_of_le (by omega)
  have rsvdLength : ((bytes.drop 12).take 16).length = 16 := length_take_drop (by omega)
  have fits : ArchiveFits {
      version := kArchiveVersion
      archiveSize := archiveSize
      archiveName := (bytes.drop 29).take (min bytes[28].toNat 63)
      fileAutoLaunch := fileAutoLaunch
      reserved3 := atReserved.take rsvd3Size.toNat
      entries := entries } := by
    constructor
    · rfl
    · simp only [nameLength]
      omega
    · simp only [rsvd3Length]
      omega
    · simp only [length]
      omega
  refine ⟨fits, (bytes.drop 12).take 16, (bytes.drop 28).take 64, used, rsvdLength, named, series, ?_⟩
  simp only [archiveHeader, countEq, rsvd3Length, UInt16.ofNat_toNat, List.append_assoc]
  calc
    bytes = writeU32be kArchiveFormat ++ bytes.drop 4 := first
    _ = writeU32be kArchiveFormat ++ (writeU32be kArchiveVersion ++ (writeU32be archiveSize ++
          bytes.drop 12)) := by rw [second, third]
    _ = writeU32be kArchiveFormat ++ (writeU32be kArchiveVersion ++ (writeU32be archiveSize ++
          ((bytes.drop 12).take 16 ++ ((bytes.drop 28).take 64 ++ bytes.drop 92)))) := by
      rw [← take_drop_append 28 64, ← take_drop_append 12 16]
    _ = _ := by
      rw [fourth, fifth, sixth, ← split, List.take_append_drop, ← hreserved, headerSize]

/-- The decoder accepts exactly the layouts of archives, each for the archive it lays out. -/
theorem tryDecodeArchive_decodes (archive : Archive) (bytes : Bytes) :
    tryDecodeArchive bytes = .value archive ↔ ArchiveLayout archive bytes := by
  constructor
  · exact (tryDecodeArchive_sound bytes).of_value
  · exact tryDecodeArchive_complete

end Slopline.Protocol
