import Slopline.Protocol.TransferCodec
import Slopline.Protocol.Tracker

/-! The tracker messages: what an encoder writes is what its decoder reads, every read is in
bounds, and a message's end can be told from what it says. -/

set_option autoImplicit false

namespace Slopline.Protocol

open Library Endian

/-! Texts behind their size. -/

@[simp] theorem length_pstringBytes (text : Bytes) : (pstringBytes text).length = text.length + 1 := by
  simp only [pstringBytes, List.length_cons]

theorem readPstring_complete {text : Bytes} (fits : text.length ≤ 255) (rest : Bytes) :
    readPstring (pstringBytes text ++ rest) = .value (text, text.length + 1) := by
  have size := toNat_ofNat_u8 fits
  have enough : ¬ (pstringBytes text ++ rest).length < text.length + 1 := by
    rw [List.length_append, length_pstringBytes]
    omega
  have body : (Span.slice 1 text.length (pstringBytes text ++ rest) : Checked DecodeError Bytes) =
      .value text := by
    have split : pstringBytes text ++ rest = [UInt8.ofNat text.length] ++ (text ++ rest) := rfl
    rw [split, Span.slice_skip (by simp)]
    simp
  have first : (Span.element 0 (pstringBytes text ++ rest) : Checked DecodeError UInt8) =
      .value (UInt8.ofNat text.length) := rfl
  rw [readPstring, if_neg (by simp [pstringBytes]), first]
  simp only [Checked.value_bind, size, if_neg enough, body, Checked.pure_eq]

theorem readPstring_sound (bytes : Bytes) :
    (readPstring bytes).Post fun read => read.1.length ≤ 255 ∧ read.2 = (pstringBytes read.1).length ∧
      read.2 ≤ bytes.length ∧ bytes = pstringBytes read.1 ++ bytes.drop read.2 := by
  simp only [readPstring, Checked.post_ite, Checked.post_error, Checked.post_bind, Span.post_element,
    Span.post_slice, Checked.pure_eq, Checked.post_value, implies_true, true_and]
  intro something
  have inside := List.length_pos_iff.mpr something
  refine ⟨inside, fun whole => ⟨by omega, ?_⟩⟩
  have size : ((bytes.drop 1).take bytes[0].toNat).length = bytes[0].toNat := length_take_drop (by omega)
  have bound := bytes[0].toNat_lt
  refine ⟨by omega, by rw [length_pstringBytes, size], by omega, ?_⟩
  calc
    bytes = bytes[0] :: bytes.drop 1 := by rw [List.getElem_cons_drop, List.drop_zero]
    _ = bytes[0] :: ((bytes.drop 1).take bytes[0].toNat ++ bytes.drop (1 + bytes[0].toNat)) := by
      rw [← take_drop_append]
    _ = _ := by
      simp only [pstringBytes, size, UInt8.ofNat_toNat, List.cons_append, Nat.add_comm 1]

theorem readPstring_cut (cut whole : Bytes) (shorter : Shorter cut whole) :
    Cut .truncated (Both fun read read' => read = read' ∧ read.2 ≤ cut.length)
      (readPstring cut) (readPstring whole) := by
  have left : whole ≠ [] := List.ne_nil_of_length_pos (by have := shorter.2; omega)
  rw [readPstring, readPstring, if_neg left]
  by_cases empty : cut = []
  · rw [if_pos empty]
    exact .short _
  · rw [if_neg empty]
    refine Cut.same (Cut.element shorter 0) fun length => ?_
    refine Cut.needs shorter fun enough => ?_
    refine Cut.same (Cut.slice shorter 1 _) fun text => ?_
    exact .value ⟨_, rfl, rfl, enough⟩

/-! Server entries. -/

structure ServerEntryFits (entry : TrackerServerEntry) : Prop where
  name : entry.name.length ≤ 255
  description : entry.description.length ≤ 255

instance (entry : TrackerServerEntry) : Decidable (ServerEntryFits entry) :=
  decidable_of_iff (entry.name.length ≤ 255 ∧ entry.description.length ≤ 255)
    ⟨fun both => ⟨both.1, both.2⟩, fun fits => ⟨fits.name, fits.description⟩⟩

@[simp] theorem length_serverEntryBytes (entry : TrackerServerEntry) :
    (serverEntryBytes entry).length = 10 + (entry.name.length + 1) + (entry.description.length + 1) := by
  simp only [serverEntryBytes, List.length_append, Vector.length_toList, length_writeU16be,
    length_pstringBytes]
  omega

theorem octets (address : Vector UInt8 4) :
    #v[address[0], address[1], address[2], address[3]] = address := by
  ext index inside
  interval_cases index <;> rfl

theorem readServerEntry_complete {entry : TrackerServerEntry} (fits : ServerEntryFits entry) (rest : Bytes) :
    readServerEntry (serverEntryBytes entry ++ rest) =
      .value (entry, (serverEntryBytes entry).length) := by
  have enough : ¬ (serverEntryBytes entry ++ rest).length < 12 := by
    rw [List.length_append, length_serverEntryBytes]
    omega
  have split : serverEntryBytes entry ++ rest = entry.address.toList ++ (writeU16be entry.port ++
      (writeU16be entry.userCount ++ (writeU16be entry.flags ++ (pstringBytes entry.name ++
      (pstringBytes entry.description ++ rest))))) := by
    simp only [serverEntryBytes, List.append_assoc]
  -- The four address bytes are read one by one.
  have octet (index : Nat) (inside : index < 4) :
      (Span.element index (serverEntryBytes entry ++ rest) : Checked DecodeError UInt8) =
        .value entry.address[index] := by
    rw [split, Span.element_append (by simpa using inside)]
    simp
  have words : (u16beAt 4 (serverEntryBytes entry ++ rest) : Checked DecodeError UInt16) = .value entry.port ∧
      (u16beAt 6 (serverEntryBytes entry ++ rest) : Checked DecodeError UInt16) = .value entry.userCount ∧
      (u16beAt 8 (serverEntryBytes entry ++ rest) : Checked DecodeError UInt16) = .value entry.flags := by
    simp [split]
  have named : (Span.subspan 10 (serverEntryBytes entry ++ rest) : Checked DecodeError Bytes) =
      .value (pstringBytes entry.name ++ (pstringBytes entry.description ++ rest)) := by
    simp [split]
  have described : (Span.subspan (10 + (entry.name.length + 1)) (serverEntryBytes entry ++ rest) :
      Checked DecodeError Bytes) = .value (pstringBytes entry.description ++ rest) := by
    rw [Span.subspan_further named, ← length_pstringBytes entry.name, Span.subspan_append rfl]
  have name := readPstring_complete fits.name (pstringBytes entry.description ++ rest)
  have description := readPstring_complete fits.description rest
  rw [readServerEntry, if_neg enough]
  simp only [octet 0 (by decide), octet 1 (by decide), octet 2 (by decide), octet 3 (by decide), words, named, name,
    described, description, Checked.value_bind, Checked.pure_eq, octets, length_serverEntryBytes]

theorem readServerEntry_sound (bytes : Bytes) :
    (readServerEntry bytes).Post fun read => ServerEntryFits read.1 ∧
      read.2 = (serverEntryBytes read.1).length ∧ read.2 ≤ bytes.length ∧
      bytes = serverEntryBytes read.1 ++ bytes.drop read.2 := by
  simp only [readServerEntry, Checked.post_ite, Checked.post_error, Checked.post_bind, Span.post_element,
    post_u16beAt, Span.post_subspan, Checked.pure_eq, Checked.post_value, implies_true, true_and]
  intro enough
  have address : bytes = #v[bytes[0], bytes[1], bytes[2], bytes[3]].toList ++ bytes.drop 4 := by
    calc
      bytes = bytes[0] :: bytes[1] :: bytes[2] :: bytes[3] :: bytes.drop 4 := by
        simp only [List.getElem_cons_drop, List.drop_zero]
      _ = _ := rfl
  refine ⟨by omega, by omega, by omega, by omega, by omega, fun port first => ⟨by omega, ?_⟩⟩
  refine fun userCount second => ⟨by omega, fun flags third => ⟨by omega, ?_⟩⟩
  apply (readPstring_sound _).mono
  rintro name ⟨nameFits, nameSize, nameInside, named⟩
  rw [List.length_drop] at nameInside
  rw [List.drop_drop] at named
  refine ⟨by omega, ?_⟩
  apply (readPstring_sound _).mono
  rintro description ⟨descriptionFits, descriptionSize, descriptionInside, described⟩
  rw [List.length_drop] at descriptionInside
  rw [List.drop_drop] at described
  refine ⟨⟨nameFits, descriptionFits⟩, ?_, by omega, ?_⟩
  · simp only [length_serverEntryBytes, nameSize, descriptionSize, length_pstringBytes]
  · simp only [serverEntryBytes, List.append_assoc]
    rw [← described, ← named, ← third, ← second, ← first]
    exact address

/-! Registration. -/

structure RegistrationFits (registration : TrackerRegistration) : Prop where
  name : registration.name.length ≤ 255
  description : registration.description.length ≤ 255
  password : registration.password.length ≤ 255

theorem encodeTrackerRegistration_eq_ok {type : UInt16} {registration : TrackerRegistration} {bytes : Bytes} :
    encodeTrackerRegistration type registration = .ok bytes ↔
      RegistrationFits registration ∧ bytes = trackerRegistrationBytes type registration := by
  rw [encodeTrackerRegistration, unless_eq_ok, Except.ok.injEq, eq_comm (a := bytes)]
  refine and_congr_left fun _ => ⟨fun small => ?_, fun fits => ?_⟩
  · simp only [not_or, Nat.not_lt] at small
    exact ⟨small.1, small.2.1, small.2.2⟩
  · simp only [not_or, Nat.not_lt]
    exact ⟨fits.name, fits.description, fits.password⟩

theorem length_trackerRegistrationBytes (type : UInt16) (registration : TrackerRegistration) :
    (trackerRegistrationBytes type registration).length = 12 + (registration.name.length + 1) +
      (registration.description.length + 1) + (registration.password.length + 1) := by
  simp only [trackerRegistrationBytes, List.length_append, length_writeU16be, length_writeU32be,
    length_pstringBytes]
  omega

theorem tryDecodeTrackerRegistration_complete {type : UInt16} {registration : TrackerRegistration}
    (known : type = kRegistrationTypeAdd ∨ type = kRegistrationTypeRemove)
    (fits : RegistrationFits registration) :
    tryDecodeTrackerRegistration (trackerRegistrationBytes type registration) =
      .value { type, registration } := by
  have enough : ¬ (trackerRegistrationBytes type registration).length ≤ 14 := by
    rw [length_trackerRegistrationBytes]
    omega
  have accepted : ¬ (type ≠ kRegistrationTypeAdd ∧ type ≠ kRegistrationTypeRemove) := by
    rintro ⟨add, remove⟩
    exact known.elim add remove
  have fixed : (u16beAt 0 (trackerRegistrationBytes type registration) : Checked DecodeError UInt16) =
        .value type ∧
      (u16beAt 2 (trackerRegistrationBytes type registration) : Checked DecodeError UInt16) =
        .value registration.port ∧
      (u16beAt 4 (trackerRegistrationBytes type registration) : Checked DecodeError UInt16) =
        .value registration.userCount ∧
      (u16beAt 6 (trackerRegistrationBytes type registration) : Checked DecodeError UInt16) =
        .value registration.flags ∧
      (u32beAt 8 (trackerRegistrationBytes type registration) : Checked DecodeError UInt32) =
        .value registration.passId := by
    simp [trackerRegistrationBytes]
  have named : (Span.subspan 12 (trackerRegistrationBytes type registration) : Checked DecodeError Bytes) =
      .value (pstringBytes registration.name ++ (pstringBytes registration.description ++
        pstringBytes registration.password)) := by
    simp [trackerRegistrationBytes]
  have described : (Span.subspan (12 + (registration.name.length + 1))
      (trackerRegistrationBytes type registration) : Checked DecodeError Bytes) =
        .value (pstringBytes registration.description ++ pstringBytes registration.password) := by
    rw [Span.subspan_further named, ← length_pstringBytes registration.name, Span.subspan_append rfl]
  have guarded : (Span.subspan (12 + (registration.name.length + 1) + (registration.description.length + 1))
      (trackerRegistrationBytes type registration) : Checked DecodeError Bytes) =
        .value (pstringBytes registration.password) := by
    rw [Span.subspan_further described, ← length_pstringBytes registration.description,
      Span.subspan_append rfl]
  have password := readPstring_complete fits.password []
  rw [List.append_nil] at password
  have ended : ¬ (12 + (registration.name.length + 1) + (registration.description.length + 1) +
      (registration.password.length + 1) ≠ (trackerRegistrationBytes type registration).length) := by
    rw [length_trackerRegistrationBytes]
    exact not_not_intro rfl
  rw [tryDecodeTrackerRegistration, if_neg enough]
  simp only [fixed, if_neg accepted, named, readPstring_complete fits.name, described,
    readPstring_complete fits.description, guarded, password, if_neg ended, Checked.value_bind,
    Checked.pure_eq]

theorem tryDecodeTrackerRegistration_sound (bytes : Bytes) :
    (tryDecodeTrackerRegistration bytes).Post fun message =>
      (message.type = kRegistrationTypeAdd ∨ message.type = kRegistrationTypeRemove) ∧
        RegistrationFits message.registration ∧
          bytes = trackerRegistrationBytes message.type message.registration := by
  simp only [tryDecodeTrackerRegistration, Checked.post_ite, Checked.post_error, Checked.post_bind,
    post_u16beAt, post_u32beAt, Span.post_subspan, Checked.pure_eq, Checked.post_value, implies_true,
    true_and, List.drop_zero]
  intro enough
  refine ⟨by omega, fun type first known => ⟨by omega, fun port second => ⟨by omega, ?_⟩⟩⟩
  refine fun userCount third => ⟨by omega, fun flags fourth => ⟨by omega, fun passId fifth => ?_⟩⟩
  refine ⟨by omega, ?_⟩
  apply (readPstring_sound _).mono
  rintro name ⟨nameFits, _, nameInside, named⟩
  rw [List.length_drop] at nameInside
  rw [List.drop_drop] at named
  refine ⟨by omega, ?_⟩
  apply (readPstring_sound _).mono
  rintro description ⟨descriptionFits, _, descriptionInside, described⟩
  rw [List.length_drop] at descriptionInside
  rw [List.drop_drop] at described
  refine ⟨by omega, ?_⟩
  apply (readPstring_sound _).mono
  rintro password ⟨passwordFits, _, _, guarded⟩ ended
  -- The last name ends with the message.
  have behind : (bytes.drop (12 + name.2 + description.2)).drop password.2 = [] := by
    apply List.drop_eq_nil_of_le
    rw [List.length_drop]
    omega
  rw [behind, List.append_nil] at guarded
  refine ⟨?_, ⟨nameFits, descriptionFits, passwordFits⟩, ?_⟩
  · by_contra neither
    rw [not_or] at neither
    exact known neither
  · simp only [trackerRegistrationBytes]
    rw [← guarded, ← described, ← named, ← fifth, ← fourth, ← third, ← second]
    exact first

theorem tryDecodeTrackerRegistration_inBounds (bytes : Bytes) :
    (tryDecodeTrackerRegistration bytes).InBounds :=
  (tryDecodeTrackerRegistration_sound bytes).inBounds

-- The texts end where the total says, so on a longer view the total is not the size.
theorem tryDecodeTrackerRegistration_delimits :
    SelfDelimiting .truncated .trailingBytes tryDecodeTrackerRegistration := by
  intro cut whole shorter
  have longer := shorter.2
  by_cases few : cut.length ≤ 14
  · rw [tryDecodeTrackerRegistration, if_pos few]
    exact .short _
  rw [tryDecodeTrackerRegistration, tryDecodeTrackerRegistration, if_neg few, if_neg (by omega)]
  refine Cut.same (Cut.u16beAt shorter 0) fun type => ?_
  refine Cut.test (fun _ => .errors _ _) fun _ => ?_
  refine Cut.same (Cut.u16beAt shorter 2) fun port => ?_
  refine Cut.same (Cut.u16beAt shorter 4) fun userCount => ?_
  refine Cut.same (Cut.u16beAt shorter 6) fun flags => ?_
  refine Cut.same (Cut.u32beAt shorter 8) fun passId => ?_
  refine Cut.bind (Cut.subspan shorter 12) fun cut' whole' shorter' => ?_
  refine Cut.bind (readPstring_cut cut' whole' shorter') ?_
  rintro name _ ⟨same, _⟩
  subst same
  refine Cut.bind (Cut.subspan shorter _) fun cut' whole' shorter' => ?_
  refine Cut.bind (readPstring_cut cut' whole' shorter') ?_
  rintro description _ ⟨same, _⟩
  subst same
  refine Cut.bind (Cut.subspan_length shorter _) fun cut' whole' ⟨shorter', left⟩ => ?_
  refine Cut.bind (readPstring_cut cut' whole' shorter') ?_
  rintro password _ ⟨same, inside⟩
  subst same
  dsimp only
  rw [if_pos (by omega : _ ≠ whole.length)]
  split
  · exact .errors _ _
  · exact .value rfl

/-! Login handshake and its reply. -/

@[simp] theorem length_loginField (text : Bytes) : (loginField text).length = kTrackerLoginFieldSize := by
  simp only [loginField, kTrackerLoginFieldSize, List.length_cons, List.length_append, List.length_take,
    List.length_replicate]
  omega

theorem parseField_complete (text : Bytes) : parseField (loginField text) = .value (text.take 31) := by
  have clamp : min text.length 31 ≤ 31 := Nat.min_le_right _ _
  have size := toNat_ofNat_u8 (Nat.le_trans clamp (by decide : 31 ≤ 255))
  have first : (Span.element 0 (loginField text) : Checked DecodeError UInt8) =
      .value (UInt8.ofNat (min text.length 31)) := rfl
  have body : (Span.slice 1 (min text.length 31) (loginField text) : Checked DecodeError Bytes) =
      .value (text.take (min text.length 31)) := by
    have split : loginField text = [UInt8.ofNat (min text.length 31)] ++
        (text.take (min text.length 31) ++ List.replicate (31 - min text.length 31) 0) := rfl
    rw [split, Span.slice_skip (by simp)]
    simp [-List.take_eq_self_iff]
  rw [parseField, first]
  simp only [Checked.value_bind, size, body, if_neg (Nat.not_lt.mpr clamp)]
  rw [List.take_eq_take_iff.mpr (by omega : min (min text.length 31) text.length = min 31 text.length)]

theorem length_encodeTrackerHandshake (version : UInt16) (login password : Bytes) :
    (encodeTrackerHandshake version login password).length =
      if version = kTrackerHandshakeVersion2 then kTrackerHandshakeSizeV2 else kTrackerHandshakeSizeV1 := by
  rw [encodeTrackerHandshake]
  split <;> simp [kTrackerHandshakeSizeV1, kTrackerHandshakeSizeV2, kTrackerLoginFieldSize]

theorem tryDecodeTrackerHandshake_one (login password : Bytes) :
    tryDecodeTrackerHandshake (encodeTrackerHandshake kTrackerHandshakeVersion1 login password) =
      .value { version := kTrackerHandshakeVersion1 } := by
  have other : kTrackerHandshakeVersion1 ≠ kTrackerHandshakeVersion2 := by decide
  have size := length_encodeTrackerHandshake kTrackerHandshakeVersion1 login password
  rw [if_neg other] at size
  have tag : (u32beAt 0 (encodeTrackerHandshake kTrackerHandshakeVersion1 login password) :
      Checked DecodeError UInt32) = .value kTrackerProtocolTag := by
    simp [encodeTrackerHandshake, other]
  have version : (u16beAt 4 (encodeTrackerHandshake kTrackerHandshakeVersion1 login password) :
      Checked DecodeError UInt16) = .value kTrackerHandshakeVersion1 := by
    have read : (u16beAt 0 (writeU16be kTrackerHandshakeVersion1 ++ []) : Checked DecodeError UInt16) = _ :=
      u16beAt_write kTrackerHandshakeVersion1
    rw [List.append_nil] at read
    simp [encodeTrackerHandshake, other, read]
  rw [tryDecodeTrackerHandshake, if_neg (by omega)]
  simp only [tag, version, size, Checked.value_bind, ne_eq, not_true_eq_false, if_false, if_true]

theorem tryDecodeTrackerHandshake_two (login password : Bytes) :
    tryDecodeTrackerHandshake (encodeTrackerHandshake kTrackerHandshakeVersion2 login password) =
      .value { version := kTrackerHandshakeVersion2, login := login.take 31, password := password.take 31 } := by
  have other : kTrackerHandshakeVersion2 ≠ kTrackerHandshakeVersion1 := by decide
  have size := length_encodeTrackerHandshake kTrackerHandshakeVersion2 login password
  rw [if_pos rfl] at size
  have pieces : encodeTrackerHandshake kTrackerHandshakeVersion2 login password =
      writeU32be kTrackerProtocolTag ++ (writeU16be kTrackerHandshakeVersion2 ++
        (loginField login ++ loginField password)) := by
    rw [encodeTrackerHandshake, if_pos rfl, List.append_assoc]
  have tag : (u32beAt 0 (encodeTrackerHandshake kTrackerHandshakeVersion2 login password) :
      Checked DecodeError UInt32) = .value kTrackerProtocolTag := by
    simp [pieces]
  have version : (u16beAt 4 (encodeTrackerHandshake kTrackerHandshakeVersion2 login password) :
      Checked DecodeError UInt16) = .value kTrackerHandshakeVersion2 := by
    simp [pieces]
  have first : (Span.slice 6 kTrackerLoginFieldSize
      (encodeTrackerHandshake kTrackerHandshakeVersion2 login password) : Checked DecodeError Bytes) =
        .value (loginField login) := by
    simp [pieces]
  have second : (Span.slice (6 + kTrackerLoginFieldSize) kTrackerLoginFieldSize
      (encodeTrackerHandshake kTrackerHandshakeVersion2 login password) : Checked DecodeError Bytes) =
        .value (loginField password) := by
    simp [pieces, kTrackerLoginFieldSize]
  have enough : ¬ kTrackerHandshakeSizeV2 < kTrackerHandshakeSizeV1 := by decide
  rw [tryDecodeTrackerHandshake, size, if_neg enough]
  simp only [tag, version, if_neg other, first, second, parseField_complete, Checked.value_bind,
    Checked.pure_eq, ne_eq, not_true_eq_false, if_false, Nat.lt_irrefl]

theorem parseField_inBounds {field : Bytes} (size : field.length = kTrackerLoginFieldSize) :
    (parseField field).InBounds := by
  simp only [Checked.InBounds, parseField, Checked.post_bind, Span.post_element, Checked.post_ite,
    Checked.post_error, Span.post_slice]
  grind [kTrackerLoginFieldSize]

theorem tryDecodeTrackerHandshake_inBounds (bytes : Bytes) : (tryDecodeTrackerHandshake bytes).InBounds := by
  have field (offset : Nat) (inside : offset + kTrackerLoginFieldSize ≤ bytes.length) :
      (parseField ((bytes.drop offset).take kTrackerLoginFieldSize)).InBounds := by
    exact parseField_inBounds (length_take_drop inside)
  simp only [Checked.InBounds, tryDecodeTrackerHandshake, Checked.post_ite, Checked.post_error,
    Checked.post_bind, post_u16beAt, post_u32beAt, Span.post_slice, Checked.pure_eq, Checked.post_value,
    implies_true, and_true, true_and]
  have first : kTrackerHandshakeSizeV1 = 6 := rfl
  have second : kTrackerHandshakeSizeV2 = 70 := rfl
  have size : kTrackerLoginFieldSize = 32 := rfl
  refine fun enough => ⟨by omega, fun _ _ _ => ⟨by omega, fun _ _ _ _ whole _ => ?_⟩⟩
  refine ⟨by omega, (field 6 (by omega)).mono fun _ _ => ⟨by omega, ?_⟩⟩
  exact (field (6 + kTrackerLoginFieldSize) (by omega)).mono fun _ _ => trivial

theorem tryDecodeTrackerHandshake_delimits :
    SelfDelimiting .truncated .trailingBytes tryDecodeTrackerHandshake := by
  intro cut whole shorter
  refine Cut.needs shorter fun enough => ?_
  refine Cut.same (Cut.u32beAt shorter 0) fun tag => ?_
  refine Cut.test (fun _ => .errors _ _) fun _ => ?_
  refine Cut.same (Cut.u16beAt shorter 4) fun version => ?_
  refine Cut.test (fun _ => ?_) fun _ => ?_
  · have longer := shorter.2
    rw [if_pos (by omega : whole.length ≠ kTrackerHandshakeSizeV1)]
    split
    · exact .errors _ _
    · exact .value rfl
  refine Cut.test (fun _ => .errors _ _) fun _ => ?_
  exact Cut.exact shorter

theorem tryDecodeTrackerHandshakeReply_encode (version : UInt16) :
    tryDecodeTrackerHandshakeReply (encodeTrackerHandshakeReply version) = .value version := by
  have size : (encodeTrackerHandshakeReply version).length = kTrackerHandshakeSizeV1 := rfl
  have tag : (u32beAt 0 (encodeTrackerHandshakeReply version) : Checked DecodeError UInt32) =
      .value kTrackerProtocolTag := u32beAt_write _
  have announced : (u16beAt 4 (encodeTrackerHandshakeReply version) : Checked DecodeError UInt16) =
      .value version := by
    rw [encodeTrackerHandshakeReply, u16beAt_skip (by simp), ← List.append_nil (writeU16be version)]
    exact u16beAt_write version
  rw [tryDecodeTrackerHandshakeReply, if_neg (by omega), if_neg (by omega), tag, Checked.value_bind,
    if_neg (not_not_intro rfl), announced]

theorem tryDecodeTrackerHandshakeReply_inBounds (bytes : Bytes) :
    (tryDecodeTrackerHandshakeReply bytes).InBounds := by
  simp only [Checked.InBounds, tryDecodeTrackerHandshakeReply, Checked.post_ite, Checked.post_error,
    Checked.post_bind, post_u16beAt, post_u32beAt]
  grind [kTrackerHandshakeSizeV1]

/-! Server list and lookup reply. -/

theorem appendServerEntries (servers : List TrackerServerEntry) (entries : Bytes) :
    servers.foldlM appendServerEntry entries =
      if ∀ entry ∈ servers, ServerEntryFits entry then .ok (entries ++ servers.flatMap serverEntryBytes)
      else .error .stringTooLong := by
  refine foldlM_append (fun out entry => ?_) servers entries
  by_cases fits : ServerEntryFits entry
  · rw [if_pos fits, appendServerEntry, if_neg]
    rintro (long | long)
    · exact absurd fits.name (Nat.not_le.mpr long)
    · exact absurd fits.description (Nat.not_le.mpr long)
  · rw [if_neg fits, appendServerEntry, if_pos]
    by_contra short
    rw [not_or, Nat.not_lt, Nat.not_lt] at short
    exact fits ⟨short.1, short.2⟩

structure ServerListFits (message : TrackerServerListMessage) : Prop where
  count : message.servers.length ≤ kMaxFieldCount
  entries : ∀ entry ∈ message.servers, ServerEntryFits entry
  size : 4 + (message.servers.flatMap serverEntryBytes).length ≤ kMaxFieldDataSize

def serverListBytes (message : TrackerServerListMessage) : Bytes :=
  writeU16be kServerListType ++
    (writeU16be (UInt16.ofNat (4 + (message.servers.flatMap serverEntryBytes).length)) ++
      (writeU16be message.totalCount ++ (writeU16be (UInt16.ofNat message.servers.length) ++
        message.servers.flatMap serverEntryBytes)))

theorem encodeTrackerServerList_eq_ok {message : TrackerServerListMessage} {bytes : Bytes} :
    encodeTrackerServerList message = .ok bytes ↔
      ServerListFits message ∧ bytes = serverListBytes message := by
  simp only [encodeTrackerServerList, appendServerEntries, unless_eq_ok, bind_eq_ok, if_eq_ok,
    List.nil_append]
  constructor
  · rintro ⟨count, _, ⟨entries, ⟨⟩⟩, size, ⟨⟩⟩
    exact ⟨⟨Nat.le_of_not_lt count, entries, Nat.le_of_not_lt size⟩, rfl⟩
  · rintro ⟨fits, rfl⟩
    exact ⟨Nat.not_lt.mpr fits.count, _, ⟨fits.entries, rfl⟩, Nat.not_lt.mpr fits.size, rfl⟩

theorem takeServerEntry_complete (entry : TrackerServerEntry) (rest : Bytes) (fits : ServerEntryFits entry) :
    takeServerEntry (serverEntryBytes entry ++ rest) = .value (entry, rest) := by
  rw [takeServerEntry, readServerEntry_complete fits]
  simp only [Checked.value_bind, Span.subspan_append, Checked.pure_eq]

theorem takeServerEntry_reads :
    Reads takeServerEntry fun entry used => ServerEntryFits entry ∧ used = serverEntryBytes entry := by
  constructor
  · rintro entry used rest ⟨fits, same⟩
    rw [same]
    exact takeServerEntry_complete entry rest fits
  · intro bytes
    simp only [takeServerEntry, Checked.post_bind, Span.post_subspan, Checked.pure_eq, Checked.post_value]
    apply (readServerEntry_sound bytes).mono
    rintro read ⟨fits, _, inside, split⟩
    exact ⟨inside, _, ⟨fits, rfl⟩, split⟩

theorem length_serverListBytes (message : TrackerServerListMessage) :
    (serverListBytes message).length = 4 + (4 + (message.servers.flatMap serverEntryBytes).length) := by
  simp only [serverListBytes, List.length_append, length_writeU16be]
  omega

theorem tryDecodeTrackerServerList_complete {message : TrackerServerListMessage}
    (fits : ServerListFits message) :
    tryDecodeTrackerServerList (serverListBytes message) = .value message := by
  have size := toNat_ofNat_u16 fits.size
  have count := toNat_ofNat_u16 fits.count
  have enough : ¬ (serverListBytes message).length < 4 := by
    rw [length_serverListBytes]
    omega
  have type : (u16beAt 0 (serverListBytes message) : Checked DecodeError UInt16) = .value kServerListType := by
    simp [serverListBytes]
  have announced : (u16beAt 2 (serverListBytes message) : Checked DecodeError UInt16) =
      .value (UInt16.ofNat (4 + (message.servers.flatMap serverEntryBytes).length)) := by
    simp [serverListBytes]
  have servers := times_flatMap takeServerEntry_complete fits.entries []
  rw [List.append_nil] at servers
  rw [tryDecodeTrackerServerList, if_neg enough]
  simp only [type, announced, size, Checked.value_bind, ne_eq, not_true_eq_false, if_false,
    length_serverListBytes, Nat.lt_irrefl, Nat.add_sub_cancel_left]
  rw [if_neg (by omega)]
  simp [serverListBytes, count, servers]

theorem tryDecodeTrackerServerList_inBounds (bytes : Bytes) : (tryDecodeTrackerServerList bytes).InBounds := by
  have entries := Checked.times_inBounds takeServerEntry_reads.inBounds
  simp only [Checked.InBounds, tryDecodeTrackerServerList, Checked.post_ite, Checked.post_error,
    Checked.post_bind, post_u16beAt, Span.post_slice, Checked.pure_eq, Checked.post_value, implies_true,
    and_true, entries]
  grind

theorem tryDecodeTrackerServerList_delimits :
    SelfDelimiting .truncated .trailingBytes tryDecodeTrackerServerList := by
  intro cut whole shorter
  refine Cut.needs shorter fun _ => ?_
  refine Cut.same (Cut.u16beAt shorter 0) fun type => ?_
  refine Cut.test (fun _ => .errors _ _) fun _ => ?_
  refine Cut.same (Cut.u16beAt shorter 2) fun size => ?_
  refine Cut.test (fun _ => .short _) fun _ => ?_
  exact Cut.exact shorter

def LookupReplyFits (reply : TrackerLookupReply) : Prop := reply.found → ServerEntryFits reply.entry

def lookupReplyBytes (reply : TrackerLookupReply) : Bytes :=
  if reply.found then
    writeU16be kLookupTypeFound ++
      (writeU16be (UInt16.ofNat (serverEntryBytes reply.entry).length) ++ serverEntryBytes reply.entry)
  else writeU16be kLookupTypeNotFound ++ writeU16be 0

theorem length_serverEntryBytes_le {entry : TrackerServerEntry} (fits : ServerEntryFits entry) :
    (serverEntryBytes entry).length ≤ 522 := by
  have := fits.name
  have := fits.description
  rw [length_serverEntryBytes]
  omega

theorem encodeTrackerLookupReply_eq_ok {reply : TrackerLookupReply} {bytes : Bytes} :
    encodeTrackerLookupReply reply = .ok bytes ↔
      LookupReplyFits reply ∧ bytes = lookupReplyBytes reply := by
  rw [encodeTrackerLookupReply, lookupReplyBytes, LookupReplyFits]
  cases reply.found with
  | false => simp [eq_comm (a := bytes)]
  | true =>
    simp only [if_true, unless_eq_ok, not_or, Nat.not_lt, Except.ok.injEq, eq_comm (a := bytes),
      true_implies]
    constructor
    · rintro ⟨both, _, same⟩
      exact ⟨⟨both.1, both.2⟩, same⟩
    · rintro ⟨fits, same⟩
      have small := length_serverEntryBytes_le fits
      exact ⟨⟨fits.name, fits.description⟩, Nat.le_trans small (by decide), same⟩

theorem tryDecodeTrackerLookupReply_found {entry : TrackerServerEntry} (fits : ServerEntryFits entry) :
    tryDecodeTrackerLookupReply (lookupReplyBytes { found := true, entry }) =
      .value { found := true, entry } := by
  have small := length_serverEntryBytes_le fits
  have size := toNat_ofNat_u16 (Nat.le_trans small (by decide : 522 ≤ 65535))
  have read := readServerEntry_complete fits []
  rw [List.append_nil] at read
  have length : (lookupReplyBytes { found := true, entry }).length = 4 + (serverEntryBytes entry).length := by
    simp only [lookupReplyBytes, if_true, List.length_append, length_writeU16be]
    omega
  have type : (u16beAt 0 (lookupReplyBytes { found := true, entry }) : Checked DecodeError UInt16) =
      .value kLookupTypeFound := by
    simp [lookupReplyBytes]
  have announced : (u16beAt 2 (lookupReplyBytes { found := true, entry }) : Checked DecodeError UInt16) =
      .value (UInt16.ofNat (serverEntryBytes entry).length) := by
    simp [lookupReplyBytes]
  have part : (Span.slice 4 (serverEntryBytes entry).length (lookupReplyBytes { found := true, entry }) :
      Checked DecodeError Bytes) = .value (serverEntryBytes entry) := by
    simp [lookupReplyBytes]
  have other : kLookupTypeFound ≠ kLookupTypeNotFound := by decide
  rw [tryDecodeTrackerLookupReply, if_neg (by omega)]
  simp only [type, announced, size, length, part, read, Checked.value_bind, Checked.pure_eq, if_neg other,
    ne_eq, not_true_eq_false, if_false]

theorem tryDecodeTrackerLookupReply_notFound (entry : TrackerServerEntry) :
    tryDecodeTrackerLookupReply (lookupReplyBytes { found := false, entry }) = .value { found := false } := by
  have zero : (u16beAt 0 (writeU16be 0 ++ []) : Checked DecodeError UInt16) = _ := u16beAt_write 0
  rw [List.append_nil] at zero
  simp [tryDecodeTrackerLookupReply, lookupReplyBytes, zero]

theorem tryDecodeTrackerLookupReply_inBounds (bytes : Bytes) :
    (tryDecodeTrackerLookupReply bytes).InBounds := by
  have entry (part : Bytes) : (readServerEntry part).InBounds := (readServerEntry_sound part).inBounds
  simp only [Checked.InBounds, tryDecodeTrackerLookupReply, Checked.post_ite, Checked.post_error,
    Checked.post_bind, post_u16beAt, Span.post_slice, Checked.pure_eq, Checked.post_value, implies_true,
    and_true, entry]
  grind

theorem tryDecodeTrackerLookupReply_delimits :
    SelfDelimiting .truncated .trailingBytes tryDecodeTrackerLookupReply := by
  intro cut whole shorter
  have longer := shorter.2
  refine Cut.needs shorter fun enough => ?_
  refine Cut.same (Cut.u16beAt shorter 0) fun type => ?_
  refine Cut.same (Cut.u16beAt shorter 2) fun size => ?_
  refine Cut.test (fun _ => Cut.test (fun _ => .errors _ _) fun _ => ?_) fun _ => ?_
  · rw [if_pos (by omega : whole.length ≠ 4)]
    split
    · exact .errors _ _
    · exact .value rfl
  refine Cut.test (fun _ => .errors _ _) fun _ => ?_
  rcases Nat.lt_trichotomy cut.length (4 + size.toNat) with fewer | same | more
  · rw [if_pos (by omega : cut.length ≠ _), if_pos fewer]
    exact .short _
  · rw [if_neg (not_not_intro same), if_pos (by omega : whole.length ≠ _), if_neg (by omega)]
    exact Cut.refused _
  · rw [if_pos (by omega : cut.length ≠ _), if_pos (by omega : whole.length ≠ _)]
    exact .errors _ _

end Slopline.Protocol
