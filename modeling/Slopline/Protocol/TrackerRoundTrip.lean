import Slopline.Protocol.TrackerCodec

/-! The tracker messages both ways: which messages an encoder and its decoder carry, and which
bytes a decoder accepts. -/

set_option autoImplicit false

namespace Slopline.Protocol

open Library Endian

/-! Server list. -/

theorem tryDecodeTrackerServerList_sound (bytes : Bytes) :
    (tryDecodeTrackerServerList bytes).Post fun message =>
      ServerListFits message ∧ bytes = serverListBytes message := by
  simp only [tryDecodeTrackerServerList, Checked.post_ite, Checked.post_error, Checked.post_bind,
    post_u16beAt, Span.post_slice, Checked.pure_eq, Checked.post_value, implies_true, true_and,
    List.drop_zero]
  intro four
  refine ⟨by omega, fun type first known => ⟨by omega, fun size second large whole ended => ?_⟩⟩
  refine ⟨by omega, fun totalCount third => ⟨by omega, fun count fourth => ⟨by omega, ?_⟩⟩⟩
  apply ((takeServerEntry_reads.times count.toNat).sound _).mono
  rintro ⟨servers, rest⟩ ⟨used, ⟨length, series⟩, split⟩ done
  obtain ⟨entries, rfl⟩ := (series_iff (fun _ _ => Iff.rfl) _ _).mp series
  have nothing : rest = [] := not_not.mp done
  have all : (bytes.drop 8).take (size.toNat - 4) = bytes.drop 8 := by
    apply List.take_of_length_le
    rw [List.length_drop]
    omega
  rw [all, nothing, List.append_nil] at split
  have total : 4 + (servers.flatMap serverEntryBytes).length = size.toNat := by
    rw [← split, List.length_drop]
    omega
  have sizeBound := size.toNat_lt
  have countBound := count.toNat_lt
  constructor
  · constructor
    · simp only [kMaxFieldCount, length]
      omega
    · exact entries
    · simp only [total, kMaxFieldDataSize]
      omega
  · have listed : type = kServerListType := not_not.mp known
    simp only [serverListBytes, total, length, UInt16.ofNat_toNat]
    rw [← split, ← fourth, ← third, ← second, ← listed]
    exact first

theorem length_serverEntries (servers : List TrackerServerEntry) :
    (servers.flatMap serverEntryBytes).length =
      (servers.map fun entry => 12 + entry.name.length + entry.description.length).sum := by
  rw [List.length_flatMap]
  congr 1
  apply List.map_congr_left
  intro entry _
  rw [length_serverEntryBytes]
  omega

theorem length_servers_le (servers : List TrackerServerEntry) :
    servers.length ≤ (servers.flatMap serverEntryBytes).length := by
  induction servers with
  | nil => exact Nat.le_refl _
  | cons entry servers ih =>
    simp only [List.length_cons, List.flatMap_cons, List.length_append, length_serverEntryBytes]
    omega

theorem serverListFits_iff (message : TrackerServerListMessage) :
    ServerListFits message ↔
      (∀ entry ∈ message.servers, entry.name.length ≤ 255 ∧ entry.description.length ≤ 255) ∧
        4 + (message.servers.map fun entry => 12 + entry.name.length + entry.description.length).sum ≤
          65535 := by
  rw [← length_serverEntries]
  constructor
  · intro fits
    exact ⟨fun entry inside => ⟨(fits.entries entry inside).name, (fits.entries entry inside).description⟩,
      fits.size⟩
  · rintro ⟨entries, size⟩
    have few := length_servers_le message.servers
    constructor
    · simp only [kMaxFieldCount]
      omega
    · intro entry inside
      exact ⟨(entries entry inside).1, (entries entry inside).2⟩
    · exact size

theorem serverList_codec :
    Codec encodeTrackerServerList tryDecodeTrackerServerList
      (fun message =>
        (∀ entry ∈ message.servers, entry.name.length ≤ 255 ∧ entry.description.length ≤ 255) ∧
          4 + (message.servers.map fun entry => 12 + entry.name.length + entry.description.length).sum ≤
            65535) id := by
  apply Codec.of_spans
  · intro message bytes
    rw [encodeTrackerServerList_eq_ok, serverListFits_iff]
  · intro message fits
    exact tryDecodeTrackerServerList_complete ((serverListFits_iff message).mpr fits)
  · intro bytes
    apply (tryDecodeTrackerServerList_sound bytes).mono
    intro message read
    exact ⟨(serverListFits_iff message).mp read.1, read.2⟩

/-! Lookup reply. -/

theorem tryDecodeTrackerLookupReply_sound (bytes : Bytes) :
    (tryDecodeTrackerLookupReply bytes).Post fun reply =>
      LookupReplyFits reply ∧ bytes = lookupReplyBytes reply := by
  simp only [tryDecodeTrackerLookupReply, Checked.post_ite, Checked.post_error, Checked.post_bind,
    post_u16beAt, Span.post_slice, Checked.pure_eq, Checked.post_value, implies_true, true_and,
    List.drop_zero]
  intro four
  refine ⟨by omega, fun type first => ⟨by omega, fun size second => ⟨?_, ?_⟩⟩⟩
  · intro notFound empty short
    have nothing : bytes.drop 4 = [] := List.drop_eq_nil_of_le (by omega)
    have zero : size = 0 := not_not.mp empty
    refine ⟨fun found => absurd found Bool.false_ne_true, ?_⟩
    rw [lookupReplyBytes, if_neg Bool.false_ne_true, first, second, nothing, List.append_nil, zero, notFound]
  · intro _ found whole
    have isFound : type = kLookupTypeFound := not_not.mp found
    refine ⟨by omega, ?_⟩
    apply (readServerEntry_sound _).mono
    rintro read ⟨fits, consumed, inside, split⟩ done
    have all : (bytes.drop 4).take size.toNat = bytes.drop 4 := by
      apply List.take_of_length_le
      rw [List.length_drop]
      omega
    have behind : (bytes.drop 4).drop read.2 = [] := by
      apply List.drop_eq_nil_of_le
      rw [List.length_drop]
      omega
    rw [all, behind, List.append_nil] at split
    have entrySize : (serverEntryBytes read.1).length = size.toNat := by omega
    refine ⟨fun _ => fits, ?_⟩
    rw [lookupReplyBytes, if_pos rfl, entrySize, UInt16.ofNat_toNat, ← split, ← second, ← isFound]
    exact first

theorem tryDecodeTrackerLookupReply_rewrites {bytes : Bytes} {reply : TrackerLookupReply}
    (read : tryDecodeTrackerLookupReply bytes = .value reply) : encodeTrackerLookupReply reply = .ok bytes :=
  encodeTrackerLookupReply_eq_ok.mpr ((tryDecodeTrackerLookupReply_sound bytes).of_value read)

/-- The server list and the lookup reply, both ways. Of a reply that nothing was found the
entry is not written. -/
theorem serverList_lookup_codecs :
    Codec encodeTrackerServerList tryDecodeTrackerServerList
        (fun message =>
          (∀ entry ∈ message.servers, entry.name.length ≤ 255 ∧ entry.description.length ≤ 255) ∧
            4 + (message.servers.map fun entry => 12 + entry.name.length + entry.description.length).sum ≤
              65535) id ∧
      (∀ entry, (∃ bytes, encodeTrackerLookupReply { found := true, entry } = .ok bytes) ↔
        entry.name.length ≤ 255 ∧ entry.description.length ≤ 255) ∧
      (∀ entry, RoundTrips encodeTrackerLookupReply tryDecodeTrackerLookupReply { found := true, entry }) ∧
      (∀ bytes reply, tryDecodeTrackerLookupReply bytes = .value reply →
        encodeTrackerLookupReply reply = .ok bytes) ∧
      (∀ entry, ∃ bytes, encodeTrackerLookupReply { found := false, entry } = .ok bytes ∧
        tryDecodeTrackerLookupReply bytes = .value { found := false }) := by
  refine ⟨serverList_codec, ?_, ?_, fun _ _ => tryDecodeTrackerLookupReply_rewrites, ?_⟩
  · intro entry
    constructor
    · rintro ⟨bytes, encoded⟩
      have fits := (encodeTrackerLookupReply_eq_ok.mp encoded).1 rfl
      exact ⟨fits.name, fits.description⟩
    · rintro ⟨name, description⟩
      exact ⟨_, encodeTrackerLookupReply_eq_ok.mpr ⟨fun _ => ⟨name, description⟩, rfl⟩⟩
  · intro entry bytes encoded
    obtain ⟨fits, rfl⟩ := encodeTrackerLookupReply_eq_ok.mp encoded
    exact tryDecodeTrackerLookupReply_found (fits rfl)
  · intro entry
    exact ⟨_, encodeTrackerLookupReply_eq_ok.mpr ⟨nofun, rfl⟩, tryDecodeTrackerLookupReply_notFound entry⟩

/-! Registration and login handshake. -/

def clearField (field : Bytes) : Bytes :=
  let size := (field.getD 0 0).toNat
  field.take (1 + size) ++ List.replicate (31 - size) 0

def clearPadding (bytes : Bytes) : Bytes :=
  bytes.take 6 ++ (clearField ((bytes.drop 6).take kTrackerLoginFieldSize) ++
    clearField ((bytes.drop (6 + kTrackerLoginFieldSize)).take kTrackerLoginFieldSize))

theorem parseField_sound {field : Bytes} (size : field.length = kTrackerLoginFieldSize) :
    (parseField field).Post fun text => loginField text = clearField field := by
  match field, size with
  | length :: rest, size =>
    have extent : rest.length = 31 := by
      rw [List.length_cons] at size
      exact Nat.succ.inj size
    simp only [parseField, Checked.post_bind, Span.post_element, Checked.post_ite, Checked.post_error,
      Span.post_slice, implies_true, true_and, List.getElem_cons_zero, List.length_cons, List.drop_succ_cons,
      List.drop_zero]
    refine ⟨by omega, fun short => ⟨by omega, ?_⟩⟩
    have text : (rest.take length.toNat).length = length.toNat := List.length_take_of_le (by omega)
    have clamp : min length.toNat 31 = length.toNat := Nat.min_eq_left (by omega)
    simp only [loginField, clearField, text, clamp, UInt8.ofNat_toNat, List.getD_cons_zero, Nat.add_comm 1,
      List.take_succ_cons, List.take_take, Nat.min_self, List.cons_append]

theorem tryDecodeTrackerHandshake_sound (bytes : Bytes) :
    (tryDecodeTrackerHandshake bytes).Post fun handshake => handshake.version = kTrackerHandshakeVersion2 →
      encodeTrackerHandshake handshake.version handshake.login handshake.password = clearPadding bytes := by
  simp only [tryDecodeTrackerHandshake, Checked.post_ite, Checked.post_error, Checked.post_bind, post_u16beAt,
    post_u32beAt, Span.post_slice, Checked.pure_eq, Checked.post_value, implies_true, true_and,
    List.drop_zero]
  have header : kTrackerHandshakeSizeV1 = 6 := rfl
  have whole : kTrackerHandshakeSizeV2 = 70 := rfl
  have size : kTrackerLoginFieldSize = 32 := rfl
  intro enough
  refine ⟨by omega, fun tag first known => ⟨by omega, fun version second => ⟨?_, ?_⟩⟩⟩
  · intro one _ two
    exact absurd (one.symm.trans two) (by decide)
  · intro _ _ long _
    refine ⟨by omega, (parseField_sound (length_take_drop (by omega))).mono fun login cleared => ⟨by omega, ?_⟩⟩
    apply (parseField_sound (length_take_drop (by omega))).mono
    intro password cleared' two
    have tagged : tag = kTrackerProtocolTag := not_not.mp known
    have front : bytes.take 6 = writeU32be tag ++ writeU16be version := by
      rw [first, second, ← List.append_assoc, List.take_append_of_le_length (by simp),
        List.take_of_length_le (by simp)]
    rw [encodeTrackerHandshake, if_pos two, clearPadding, front, tagged, cleared, cleared']

/-- The registration and the login handshake, both ways: the first exactly, the second up to
what pads the two names to their fields. -/
theorem registration_handshake_codecs :
    (∀ type registration, type = kRegistrationTypeAdd ∨ type = kRegistrationTypeRemove →
      ((∃ bytes, encodeTrackerRegistration type registration = .ok bytes) ↔
        registration.name.length ≤ 255 ∧ registration.description.length ≤ 255 ∧
          registration.password.length ≤ 255) ∧
      ∀ bytes, encodeTrackerRegistration type registration = .ok bytes →
        tryDecodeTrackerRegistration bytes = .value { type, registration }) ∧
      (∀ bytes message, tryDecodeTrackerRegistration bytes = .value message →
        encodeTrackerRegistration message.type message.registration = .ok bytes) ∧
      (∀ login password,
        tryDecodeTrackerHandshake (encodeTrackerHandshake 2 login password) =
          .value { version := 2, login := login.take 31, password := password.take 31 }) ∧
      (∀ bytes handshake, tryDecodeTrackerHandshake bytes = .value handshake → handshake.version = 2 →
        encodeTrackerHandshake handshake.version handshake.login handshake.password = clearPadding bytes) := by
  refine ⟨?_, ?_, tryDecodeTrackerHandshake_two, ?_⟩
  · intro type registration known
    constructor
    · constructor
      · rintro ⟨bytes, encoded⟩
        have fits := (encodeTrackerRegistration_eq_ok.mp encoded).1
        exact ⟨fits.name, fits.description, fits.password⟩
      · rintro ⟨name, description, password⟩
        exact ⟨_, encodeTrackerRegistration_eq_ok.mpr ⟨⟨name, description, password⟩, rfl⟩⟩
    · intro bytes encoded
      obtain ⟨fits, rfl⟩ := encodeTrackerRegistration_eq_ok.mp encoded
      exact tryDecodeTrackerRegistration_complete known fits
  · intro bytes message read
    have sound := (tryDecodeTrackerRegistration_sound bytes).of_value read
    exact encodeTrackerRegistration_eq_ok.mpr sound.2
  · intro bytes handshake read
    exact (tryDecodeTrackerHandshake_sound bytes).of_value read

-- The smallest datagram: three empty texts.
example : tryDecodeTrackerRegistration [0, 1, 0, 0, 0, 0, 0, 0, 0, 0, 0, 0, 0, 0, 0] =
    .value { type := kRegistrationTypeAdd } := by decide

end Slopline.Protocol
