import Slopline.Crypto.Md5
import Slopline.Crypto.Sha1
import Slopline.Protocol.FieldListCodec
import Slopline.Protocol.TransactionCipher

/-! The encrypted-login exchange (`hotline/protocol/hope.h`, `hope.cpp`).

The client asks for algorithms, the server answers with a session key and its choice, and the
client logs in with digests under what it received. Each side then starts its cipher from the
password and the session key.
-/

set_option autoImplicit false

namespace Slopline.Protocol

open Library Endian Crypto

def FieldId.sessionKey : FieldId := 3587
def FieldId.serverCipherAlg : FieldId := 0x0EC1
def FieldId.clientCipherAlg : FieldId := 0x0EC2

namespace Hope

def b (c : Char) : UInt8 := c.toUInt8

-- The names are p-strings: a length and the text.
def kHmacSha1Name : Bytes := [9, b 'H', b 'M', b 'A', b 'C', b '-', b 'S', b 'H', b 'A', b '1']

def kHmacMd5Name : Bytes := [8, b 'H', b 'M', b 'A', b 'C', b '-', b 'M', b 'D', b '5']

def kBlowfishName : Bytes := [8, b 'B', b 'L', b 'O', b 'W', b 'F', b 'I', b 'S', b 'H']

def kMacAlgList : Bytes := [0, 2, 9, b 'H', b 'M', b 'A', b 'C', b '-', b 'S', b 'H', b 'A', b '1']

def kClientCipherAlgList : Bytes := [0, 1, 8, b 'B', b 'L', b 'O', b 'W', b 'F', b 'I', b 'S', b 'H']

inductive MacAlgorithm where
  | hmacSha1
  | hmacMd5
  deriving DecidableEq, Repr

inductive CipherAlgorithm where
  | blowfish
  deriving DecidableEq, Repr

inductive HopeError where
  | malformed
  | unsupportedMacAlgorithm
  | unsupportedCipherAlgorithm
  deriving DecidableEq, Repr

def MacAlgorithm.digest : MacAlgorithm → MessageDigest
  | .hmacSha1 => sha1
  | .hmacMd5 => md5

def buildStage1Login : FieldList where
  fields := [
    { id := FieldId.userLogin, data := [0] },
    { id := FieldId.userPassword, data := [0] },
    { id := FieldId.macAlg, data := kMacAlgList },
    { id := FieldId.clientCipherAlg, data := kClientCipherAlgList }]

/-- The name behind a field's two-byte prefix, among the known ones. -/
def parseName {α : Type} (known : Bytes → Option α) (unsupported : HopeError) (field : Bytes) :
    Checked HopeError α := do
  if field.length < 3 then .error .malformed else
  let name ← Span.subspan 2 field
  match known name with
  | some algorithm => return algorithm
  | none => .error unsupported

def macAlgorithm (name : Bytes) : Option MacAlgorithm :=
  if name = kHmacSha1Name then some .hmacSha1
  else if name = kHmacMd5Name then some .hmacMd5
  else none

def cipherAlgorithm (name : Bytes) : Option CipherAlgorithm :=
  if name = kBlowfishName then some .blowfish else none

def parseServerMacAlgorithm : Bytes → Checked HopeError MacAlgorithm :=
  parseName macAlgorithm .unsupportedMacAlgorithm

def parseServerCipherAlgorithm : Bytes → Checked HopeError CipherAlgorithm :=
  parseName cipherAlgorithm .unsupportedCipherAlgorithm

def loginDigests (H : MessageDigest) (login password sessionKey : Bytes) : Bytes × Bytes :=
  (hmac H login sessionKey, hmac H password sessionKey)

def buildStage2Login (H : MessageDigest) (login password sessionKey serverCipherField : Bytes) : FieldList :=
  let mac := loginDigests H login password sessionKey
  { fields := [
      { id := FieldId.userLogin, data := mac.1 },
      { id := FieldId.userPassword, data := mac.2 },
      { id := FieldId.clientCipherAlg, data := serverCipherField },
      makeIntegerField FieldId.vers 197] }

def MacAlgorithm.name : MacAlgorithm → Bytes
  | .hmacSha1 => kHmacSha1Name
  | .hmacMd5 => kHmacMd5Name

def buildServerStage2Reply (sessionKey : Bytes) (algorithm : MacAlgorithm) : FieldList where
  fields := [
    { id := FieldId.sessionKey, data := sessionKey },
    { id := FieldId.macAlg, data := [0, 1] ++ algorithm.name },
    { id := FieldId.serverCipherAlg, data := [0, 1] ++ kBlowfishName }]

/-! Names. -/

/-- A field is read as an algorithm exactly if the algorithm's name stands behind two bytes. -/
theorem parseName_iff {α : Type} {known : Bytes → Option α} {name : α → Bytes}
    (names : ∀ {text : Bytes} {algorithm : α}, known text = some algorithm ↔ text = name algorithm)
    (filled : ∀ algorithm, name algorithm ≠ []) {unsupported : HopeError} {field : Bytes} {algorithm : α} :
    parseName known unsupported field = .value algorithm ↔
      ∃ first second, field = [first, second] ++ name algorithm := by
  unfold parseName
  by_cases short : field.length < 3
  · rw [if_pos short]
    constructor
    · intro impossible
      cases impossible
    · rintro ⟨first, second, rfl⟩
      have some := List.length_pos_iff.mpr (filled algorithm)
      rw [List.length_append, List.length_cons, List.length_singleton] at short
      omega
  -- The name is what stands behind the first two bytes.
  · have behind : (Span.subspan 2 field : Checked HopeError Bytes) = .value (field.drop 2) := if_pos (by omega)
    rw [if_neg short, behind, Checked.value_bind]
    have read : (match known (field.drop 2) with
        | some algorithm => (pure algorithm : Checked HopeError α)
        | none => .error unsupported) = .value algorithm ↔ known (field.drop 2) = some algorithm := by
      cases known (field.drop 2) with
      | none => simp
      | some found => simp
    rw [read, names]
    constructor
    · intro named
      cases field with
      | nil => exact absurd (by simp) short
      | cons first rest =>
        cases rest with
        | nil => exact absurd (by simp) short
        | cons second rest => exact ⟨first, second, congrArg (fun rest => first :: second :: rest) named⟩
    · rintro ⟨first, second, rfl⟩
      rfl

/-- No two algorithms share a name. -/
theorem macAlgorithm_eq_some {name : Bytes} {algorithm : MacAlgorithm} :
    macAlgorithm name = some algorithm ↔ name = algorithm.name := by
  constructor
  · unfold macAlgorithm
    intro known
    split at known
    · cases known
      assumption
    · split at known
      · cases known
        assumption
      · cases known
  · rintro rfl
    cases algorithm <;> decide

theorem cipherAlgorithm_eq_some {name : Bytes} {algorithm : CipherAlgorithm} :
    cipherAlgorithm name = some algorithm ↔ name = kBlowfishName := by
  cases algorithm
  simp [cipherAlgorithm]

theorem parseServerMacAlgorithm_iff {field : Bytes} {algorithm : MacAlgorithm} :
    parseServerMacAlgorithm field = .value algorithm ↔ ∃ first second, field = [first, second] ++ algorithm.name :=
  parseName_iff macAlgorithm_eq_some (fun algorithm => by cases algorithm <;> decide)

theorem parseServerCipherAlgorithm_iff {field : Bytes} {algorithm : CipherAlgorithm} :
    parseServerCipherAlgorithm field = .value algorithm ↔ ∃ first second, field = [first, second] ++ kBlowfishName :=
  parseName_iff cipherAlgorithm_eq_some (fun _ => by decide)

/-! Messages. -/

theorem digestSize_le (algorithm : MacAlgorithm) : algorithm.digest.digestSize ≤ kMaxFieldDataSize := by
  cases algorithm <;> decide

theorem buildServerStage2Reply_fits {sessionKey : Bytes} (fits : sessionKey.length ≤ kMaxFieldDataSize)
    (algorithm : MacAlgorithm) : FieldListFits (buildServerStage2Reply sessionKey algorithm) where
  count := by
    change 3 ≤ kMaxFieldCount
    decide
  sizes := by
    have name : FieldFits { id := FieldId.macAlg, data := [0, 1] ++ algorithm.name } := by
      cases algorithm <;> decide
    simp only [buildServerStage2Reply, List.forall_mem_cons, List.not_mem_nil, false_implies, implies_true, and_true]
    exact ⟨fits, name, by decide⟩

theorem makeIntegerField_vers : makeIntegerField FieldId.vers 197 = { id := FieldId.vers, data := writeU16be 197 } :=
  rfl

theorem buildStage2Login_fits (algorithm : MacAlgorithm) (login password sessionKey : Bytes)
    {cipherField : Bytes} (fits : cipherField.length ≤ kMaxFieldDataSize) :
    FieldListFits (buildStage2Login algorithm.digest login password sessionKey cipherField) where
  count := by
    change 4 ≤ kMaxFieldCount
    decide
  sizes := by
    have digest (key : Bytes) : (hmac algorithm.digest key sessionKey).length ≤ kMaxFieldDataSize := by
      rw [length_hmac]
      exact digestSize_le algorithm
    simp only [buildStage2Login, loginDigests, makeIntegerField_vers, List.forall_mem_cons, List.not_mem_nil,
      false_implies, implies_true, and_true]
    exact ⟨digest login, digest password, fits, by decide⟩

theorem fieldList_arrives {list : FieldList} (fits : FieldListFits list) :
    ∃ bytes, encodeFieldList list = .ok bytes ∧ decodeFieldList bytes = .value list :=
  ⟨_, encodeFieldList_eq_ok.mpr ⟨fits, rfl⟩, decodeFieldList_complete fits⟩

/-- The request for a session key always goes out, and reads back as it was built. -/
theorem buildStage1Login_arrives :
    ∃ bytes, encodeFieldList buildStage1Login = .ok bytes ∧ decodeFieldList bytes = .value buildStage1Login := by
  have count : buildStage1Login.fields.length ≤ kMaxFieldCount := by decide
  have sizes : ∀ field ∈ buildStage1Login.fields, FieldFits field := by decide
  exact fieldList_arrives { count, sizes }

theorem create_agrees (H : MessageDigest) (password sessionKey : Bytes) :
    let client := TransactionCipher.create H password sessionKey true
    let server := TransactionCipher.create H password sessionKey false
    client.encoding = server.decoding ∧ client.decoding = server.encoding := ⟨rfl, rfl⟩

/-- The whole exchange over the wire. The client reads the session key, the algorithm and the
cipher out of the server's reply; the server reads the digests under them and the cipher field
out of the client's login; and the ciphers of both start in step. -/
theorem negotiation_agrees (login password : Bytes) {sessionKey : Bytes} (fits : sessionKey.length ≤ 65535)
    (algorithm : MacAlgorithm) :
    ∃ replyBytes reply keyField macField cipherField,
      encodeFieldList (buildServerStage2Reply sessionKey algorithm) = .ok replyBytes ∧
      decodeFieldList replyBytes = .value reply ∧
      findField reply FieldId.sessionKey = some keyField ∧ keyField.data = sessionKey ∧
      findField reply FieldId.macAlg = some macField ∧
        parseServerMacAlgorithm macField.data = .value algorithm ∧
      findField reply FieldId.serverCipherAlg = some cipherField ∧
        parseServerCipherAlgorithm cipherField.data = .value .blowfish ∧
      ∃ loginBytes request loginField passwordField echoField versField,
        encodeFieldList (buildStage2Login algorithm.digest login password keyField.data cipherField.data) =
          .ok loginBytes ∧
        decodeFieldList loginBytes = .value request ∧
        findField request FieldId.userLogin = some loginField ∧
          loginField.data = hmac algorithm.digest login sessionKey ∧
        findField request FieldId.userPassword = some passwordField ∧
          passwordField.data = hmac algorithm.digest password sessionKey ∧
        findField request FieldId.clientCipherAlg = some echoField ∧ echoField.data = cipherField.data ∧
        findField request FieldId.vers = some versField ∧ decodeIntegerField versField = .value 197 ∧
        let client := TransactionCipher.create algorithm.digest password keyField.data true
        let server := TransactionCipher.create algorithm.digest password sessionKey false
        client.encodeKey = server.decodeKey ∧ client.decodeKey = server.encodeKey ∧
          client.encoding = server.decoding ∧ client.decoding = server.encoding := by
  obtain ⟨replyBytes, replySent, replyRead⟩ := fieldList_arrives (buildServerStage2Reply_fits fits algorithm)
  -- The client sends the server's cipher field back.
  have cipherFits : ([0, 1] ++ kBlowfishName).length ≤ kMaxFieldDataSize := by decide
  obtain ⟨loginBytes, loginSent, loginRead⟩ :=
    fieldList_arrives (buildStage2Login_fits algorithm login password sessionKey cipherFits)
  obtain ⟨encodes, decodes⟩ := create_agrees algorithm.digest password sessionKey
  refine ⟨replyBytes, _, { id := FieldId.sessionKey, data := sessionKey },
    { id := FieldId.macAlg, data := [0, 1] ++ algorithm.name },
    { id := FieldId.serverCipherAlg, data := [0, 1] ++ kBlowfishName }, replySent, replyRead, rfl, rfl, rfl, ?_, rfl,
    ?_, ?_⟩
  · exact parseServerMacAlgorithm_iff.mpr ⟨0, 1, rfl⟩
  · exact parseServerCipherAlgorithm_iff.mpr ⟨0, 1, rfl⟩
  · exact ⟨loginBytes, _, { id := FieldId.userLogin, data := hmac algorithm.digest login sessionKey },
      { id := FieldId.userPassword, data := hmac algorithm.digest password sessionKey },
      { id := FieldId.clientCipherAlg, data := [0, 1] ++ kBlowfishName },
      { id := FieldId.vers, data := writeU16be 197 }, loginSent, loginRead, rfl, rfl, rfl, rfl, rfl, rfl, rfl, by decide,
      rfl, rfl, encodes, decodes⟩

theorem negotiation_agrees_md5 :
    ∃ replyBytes reply macField,
      encodeFieldList (buildServerStage2Reply (List.replicate 32 0x11) .hmacMd5) = .ok replyBytes ∧
      decodeFieldList replyBytes = .value reply ∧ findField reply FieldId.macAlg = some macField ∧
      parseServerMacAlgorithm macField.data = .value .hmacMd5 := by
  have fits : (List.replicate 32 0x11 : Bytes).length ≤ 65535 := by decide
  obtain ⟨replyBytes, reply, _, macField, _, sent, read, _, _, found, parsed, _⟩ :=
    negotiation_agrees [97] [98] fits .hmacMd5
  exact ⟨replyBytes, reply, macField, sent, read, found, parsed⟩

end Hope

end Slopline.Protocol
