import Slopline.Net.Connection
import Slopline.Protocol.TransactionCipher
import Mathlib.Logic.Function.Basic

/-! The two ciphers of an encrypted connection.

Each encodes when it likes and decodes what the other encoded, in order, the header and
the data in steps of their own. What a direction of the sender's cipher and one of the
receiver's are apart is what is on its way.
-/

set_option autoImplicit false

namespace Slopline.Net

open Protocol Crypto

variable {H : MessageDigest}

structure Message where
  header : Bytes
  size : header.length = kTransactionHeaderSize
  data : Bytes

def Message.flag (message : Message) : UInt8 := message.header.getD 0 0

structure CipherRecord where
  flag : UInt8
  header : Bytes
  data : Bytes
  direction : Direction

structure Opened where
  flag : UInt8
  header : Bytes
  data : Bytes

/-- Both ciphers, what each encoded and decoded, and what is on its way to each. -/
structure Ciphers (H : MessageDigest) where
  cipher : Role → TransactionCipher H
  inFlight : Role → List (Bytes × Bytes) := fun _ => []
  opened : Role → Option Opened := fun _ => none
  encoded : Role → List CipherRecord := fun _ => []
  decoded : Role → List CipherRecord := fun _ => []

inductive CipherAction where
  | encode (party : Role) (message : Message)
  | decodeHeader (party : Role)
  | decodeData (party : Role)

namespace Ciphers

def initial (H : MessageDigest) (password sessionKey : Bytes) : Ciphers H where
  cipher party := TransactionCipher.create H password sessionKey (party = .client)

def encode (party : Role) (message : Message) (s : Ciphers H) : Ciphers H :=
  let result := (s.cipher party).encode message.header message.data message.flag
  { s with
    cipher := Function.update s.cipher party result.2
    inFlight := Function.update s.inFlight party.other (s.inFlight party.other ++ [result.1])
    encoded := Function.update s.encoded party
      (s.encoded party ++ [⟨message.flag, message.header, message.data, result.2.encoding⟩]) }

def decodeHeader (party : Role) (s : Ciphers H) : Ciphers H :=
  match s.opened party, s.inFlight party with
  | none, (header, data) :: rest =>
    let result := (s.cipher party).decodeHeader header
    { s with
      cipher := Function.update s.cipher party result.2
      inFlight := Function.update s.inFlight party rest
      opened := Function.update s.opened party (some ⟨result.1.1, result.1.2, data⟩) }
  | _, _ => s

def decodeData (party : Role) (s : Ciphers H) : Ciphers H :=
  match s.opened party with
  | some opened =>
    let result := (s.cipher party).decodeData opened.data opened.flag
    { s with
      cipher := Function.update s.cipher party result.2
      opened := Function.update s.opened party none
      decoded := Function.update s.decoded party
        (s.decoded party ++ [⟨opened.flag, opened.header, result.1, result.2.decoding⟩]) }
  | none => s

def act (s : Ciphers H) : CipherAction → Ciphers H
  | .encode party message => s.encode party message
  | .decodeHeader party => s.decodeHeader party
  | .decodeData party => s.decodeData party

def run (actions : List CipherAction) (s : Ciphers H) : Ciphers H := actions.foldl act s

end Ciphers

variable (H) in
inductive Encodes (sessionKey : Bytes) : Direction → List CipherRecord → List (Bytes × Bytes) → Direction → Prop where
  | nil (d : Direction) : Encodes sessionKey d [] [] d
  | cons {d final : Direction} {record : CipherRecord} {records : List CipherRecord} {header data : Bytes}
      {letters : List (Bytes × Bytes)} : record.flag = record.header.getD 0 0 →
      (d.process record.header).1 = header →
      (d.process record.header).2.processData H sessionKey record.data record.flag = (data, record.direction) →
      Encodes sessionKey record.direction records letters final →
      Encodes sessionKey d (record :: records) ((header, data) :: letters) final

namespace Encodes

variable {sessionKey : Bytes} {d middle final : Direction} {records : List CipherRecord}
  {letters : List (Bytes × Bytes)}

theorem snoc (encodes : Encodes H sessionKey d records letters middle) (message : Message) :
    let coded := middle.process message.header
    let body := coded.2.processData H sessionKey message.data message.flag
    Encodes H sessionKey d (records ++ [⟨message.flag, message.header, message.data, body.2⟩])
      (letters ++ [(coded.1, body.1)]) body.2 := by
  induction encodes with
  | nil d => exact .cons rfl rfl rfl (.nil _)
  | cons flag header data _ ih => exact .cons flag header data ih

end Encodes

variable (H) in
/-- The receiver's direction is where the sender's was before what is on its way. -/
inductive Synchronised (sessionKey : Bytes) (receiver sender : Direction) (decoded encoded : List CipherRecord)
    (letters : List (Bytes × Bytes)) : Option Opened → Prop where
  | between (pending : List CipherRecord) : encoded = decoded ++ pending →
      Encodes H sessionKey receiver pending letters sender →
      Synchronised sessionKey receiver sender decoded encoded letters none
  | within {flag : UInt8} {header data : Bytes} (record : CipherRecord) (rest : List CipherRecord) :
      encoded = decoded ++ record :: rest → flag = record.flag → header = record.header →
      receiver.processData H sessionKey data flag = (record.data, record.direction) →
      Encodes H sessionKey record.direction rest letters sender →
      Synchronised sessionKey receiver sender decoded encoded letters (some ⟨flag, header, data⟩)

namespace Synchronised

variable {sessionKey : Bytes} {receiver sender : Direction} {decoded encoded : List CipherRecord}
  {letters : List (Bytes × Bytes)} {opened : Option Opened}

theorem encode (sync : Synchronised H sessionKey receiver sender decoded encoded letters opened) (message : Message) :
    let coded := sender.process message.header
    let body := coded.2.processData H sessionKey message.data message.flag
    Synchronised H sessionKey receiver body.2 decoded
      (encoded ++ [⟨message.flag, message.header, message.data, body.2⟩]) (letters ++ [(coded.1, body.1)]) opened := by
  intro coded body
  cases sync with
  | between pending said encodes =>
    exact .between _ (by rw [said, List.append_assoc]) (encodes.snoc message)
  | within record rest said flag header data encodes =>
    exact .within record _ (by rw [said, List.append_assoc, List.cons_append]) flag header data (encodes.snoc message)

/-- The header comes out as it went in, and the direction is where the sender's was. -/
theorem decodeHeader {header data : Bytes}
    (sync : Synchronised H sessionKey receiver sender decoded encoded ((header, data) :: letters) none) :
    let result := receiver.process header
    Synchronised H sessionKey result.2 sender decoded encoded letters
      (some ⟨result.1.getD 0 0, result.1, data⟩) := by
  intro result
  cases sync with
  | between pending said encodes =>
    cases encodes with
    | @cons _ _ record records _ _ _ flag coded data encodes =>
      have undone : result = (record.header, (receiver.process record.header).2) := by
        rw [show result = receiver.process header from rfl, ← coded, Direction.process_process]
      rw [undone]
      refine .within record records said flag.symm rfl ?_ encodes
      have again := Direction.processData_processData (H := H) (receiver.process record.header).2 sessionKey record.data
        record.flag
      rw [data] at again
      rw [← flag]
      exact again

theorem decodeData {o : Opened} (sync : Synchronised H sessionKey receiver sender decoded encoded letters (some o)) :
    let body := receiver.processData H sessionKey o.data o.flag
    Synchronised H sessionKey body.2 sender (decoded ++ [⟨o.flag, o.header, body.1, body.2⟩]) encoded letters none := by
  intro body
  cases sync with
  | within record rest said flag header data encodes =>
    subst flag header
    have undone : body = (record.data, record.direction) := data
    rw [undone]
    exact .between rest (by rw [said]; simp) encodes

end Synchronised

namespace Ciphers

structure Sound (sessionKey : Bytes) (s : Ciphers H) : Prop where
  keyed : ∀ party, (s.cipher party).sessionKey = sessionKey
  sync : ∀ party, Synchronised H sessionKey (s.cipher party).decoding (s.cipher party.other).encoding
    (s.decoded party) (s.encoded party.other) (s.inFlight party) (s.opened party)

variable {sessionKey : Bytes} {s : Ciphers H}

theorem sessionKey_update (sound : s.Sound sessionKey) {acting : Role} {t : TransactionCipher H}
    (kept : t.sessionKey = sessionKey) (party : Role) :
    (Function.update s.cipher acting t party).sessionKey = sessionKey := by
  by_cases same : party = acting
  · rw [same, Function.update_self, kept]
  · rw [Function.update_of_ne same, sound.keyed]

theorem sound_encode (sound : s.Sound sessionKey) (acting : Role) (message : Message) :
    (s.encode acting message).Sound sessionKey := by
  have coded := (s.cipher acting).encode_eq message.header message.data message.flag
  rw [sound.keyed acting] at coded
  unfold encode
  rw [coded]
  refine ⟨sessionKey_update sound (sound.keyed acting), fun party => ?_⟩
  by_cases same : party = acting
  · subst same
    have other := party.other_ne
    simpa [Function.update_of_ne other, Function.update_of_ne other.symm] using sound.sync party
  · obtain rfl := Role.eq_other same
    simpa [Function.update_of_ne same] using (sound.sync acting.other).encode message

theorem sound_decodeHeader (sound : s.Sound sessionKey) (acting : Role) :
    (s.decodeHeader acting).Sound sessionKey := by
  unfold decodeHeader
  split
  next header data rest opened letters =>
    rw [TransactionCipher.decodeHeader_eq]
    refine ⟨sessionKey_update sound (sound.keyed acting), fun party => ?_⟩
    by_cases same : party = acting
    · subst same
      have sync := sound.sync party
      rw [opened, letters] at sync
      simpa [Function.update_of_ne party.other_ne] using sync.decodeHeader
    · obtain rfl := Role.eq_other same
      simpa [Function.update_of_ne same] using sound.sync acting.other
  next => exact sound

theorem sound_decodeData (sound : s.Sound sessionKey) (acting : Role) :
    (s.decodeData acting).Sound sessionKey := by
  unfold decodeData
  split
  next o opened =>
    have body := (s.cipher acting).decodeData_eq o.data o.flag
    rw [sound.keyed acting] at body
    rw [body]
    refine ⟨sessionKey_update sound (sound.keyed acting), fun party => ?_⟩
    by_cases same : party = acting
    · subst same
      have sync := sound.sync party
      rw [opened] at sync
      simpa [Function.update_of_ne party.other_ne] using sync.decodeData
    · obtain rfl := Role.eq_other same
      simpa [Function.update_of_ne same] using sound.sync acting.other
  next => exact sound

theorem sound_initial (H : MessageDigest) (password sessionKey : Bytes) :
    (initial H password sessionKey).Sound sessionKey := by
  refine ⟨fun _ => rfl, fun party => .between [] rfl ?_⟩
  have same : ((initial H password sessionKey).cipher party).decoding =
      ((initial H password sessionKey).cipher party.other).encoding := by cases party <;> rfl
  rw [same]
  exact .nil _

theorem sound_run (actions : List CipherAction) (sound : s.Sound sessionKey) : (s.run actions).Sound sessionKey := by
  induction actions generalizing s with
  | nil => exact sound
  | cons action actions ih =>
    refine ih ?_
    cases action with
    | encode party message => exact sound_encode sound party message
    | decodeHeader party => exact sound_decodeHeader sound party
    | decodeData party => exact sound_decodeData sound party

/-- Whatever the two parties encode and when they decode it, what a party decodes is the
first of what the other encoded: flag, header, data, and the key, schedule and stream
behind each. With nothing on its way it is all of it, and the directions agree. -/
theorem cipher_synchronisation (H : MessageDigest) (password sessionKey : Bytes) (actions : List CipherAction)
    (party : Role) :
    let s := (initial H password sessionKey).run actions
    s.decoded party <+: s.encoded party.other ∧
      (s.inFlight party = [] → s.opened party = none →
        s.decoded party = s.encoded party.other ∧ (s.cipher party).decoding = (s.cipher party.other).encoding) := by
  intro s
  have sync := (sound_run actions (sound_initial H password sessionKey)).sync party
  generalize opened : s.opened party = waiting at sync
  generalize flying : s.inFlight party = letters at sync
  cases sync with
  | between pending said encodes =>
    refine ⟨⟨pending, said.symm⟩, fun none _ => ?_⟩
    subst none
    generalize (s.cipher party).decoding = receiver, (s.cipher party.other).encoding = sender at encodes
    cases encodes with
    | nil => exact ⟨by rw [said, List.append_nil], rfl⟩
  | within record rest said => exact ⟨⟨record :: rest, said.symm⟩, fun _ none => by cases none⟩

end Ciphers

end Slopline.Net
