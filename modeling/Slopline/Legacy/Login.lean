import Mathlib.Data.Bool.AllAny
import Slopline.Legacy.FieldLookup
import Slopline.Net.Session

/-! The login of a legacy server (`ProcessTran_Login` in `audit/HotlineServTrans.cpp.utf8`,
`GetUser` in `audit/HotlineServ.cpp.utf8`) beside the modern session's.

The text layer's `MakeLowercase` is not among the sources: it is a function of the text here,
of which only what it does to ASCII is used.
-/

set_option autoImplicit false

namespace Slopline.Legacy

open Library Protocol UFieldData

inductive FileError where
  | noSuchItem
  | other
  deriving DecidableEq, Repr

structure SMyUserDataFile where
  access : AccessMask := {}
  nameData : Bytes := []
  passwordData : Bytes := []
  passwordSize : passwordData.length ≤ 32

structure UserFolder where
  hidden : Bool := false
  userData : Except FileError SMyUserDataFile

/-- What a login depends on. The users folder is a function of the login, if there is one; the
client's address and the number of connections enter as what is decided about them. -/
structure CMyApplication where
  usersFolder : Option (Bytes → Option UserFolder)
  isPermBanned : Bool := false
  isTempBanned : Bool := false
  exceedsConnections : Bytes → Bool := fun _ => false
  makeLowercase : Bytes → Bytes

structure LoggedIn where
  login : Bytes
  info : SMyUserDataFile
  vers : Int32
  accountName : Bytes
  accountLogin : Bytes
  hasLoggedIn : Bool

inductive LoginExit where
  | okay (client : LoggedIn)
  | permBanned
  | tempBanned
  | exceedSimConnections
  | loginIncorrect
  | loginFailed

namespace CMyApplication

def getUser (app : CMyApplication) (inLogin : Bytes) : Except FileError SMyUserDataFile :=
  match app.usersFolder with
  | none => .error .noSuchItem
  | some users =>
    if inLogin = [] then .error .noSuchItem
    else
      match users inLogin with
      | none => .error .noSuchItem
      | some folder => if folder.hidden then .error .noSuchItem else folder.userData

/-- No login means the guest account; a carriage return would be read as a path. -/
def loginName (app : CMyApplication) (psUserLogin : Bytes) : Bytes :=
  if psUserLogin.length = 0 then asciiBytes "guest"
  else (app.makeLowercase (scramble psUserLogin)).map fun p => if p = 0x0D then 0x2D else p

def verifyLogin (app : CMyApplication) (psUserLogin psUserPass : Bytes) (vers : Int32) (oldClient : Bool) :
    LoginExit :=
  let psUserLogin := app.loginName psUserLogin
  if app.exceedsConnections psUserLogin then .exceedSimConnections
  else
    match app.getUser psUserLogin with
    | .error .noSuchItem => .loginIncorrect
    | .error .other => .loginFailed
    | .ok info =>
      if psUserPass.length ≠ info.passwordData.length ∨
          psUserPass.take info.passwordData.length ≠ info.passwordData then .loginIncorrect
      else
        .okay {
          login := psUserLogin
          info
          vers
          accountName := info.nameData.take 31
          accountLogin := psUserLogin.take 31
          hasLoggedIn := oldClient }

def processTranLogin (app : CMyApplication) (inData : SFieldData) : Checked Failure LoginExit := do
  if app.isPermBanned then return .permBanned else
  if app.isTempBanned then return .tempBanned else
  let (psUserLogin, inData) ← getPString inData FieldId.userLogin 33
  let (psUserPass, inData) ← getPString inData FieldId.userPassword 33
  let (_, inData) ← getPString inData FieldId.macAlg 13
  let (_, inData) ← getPString inData FieldId.cCipherAlg 12
  let (vers, inData) ← getInteger inData FieldId.vers
  let (psUserName, inData) ← getPString inData FieldId.userName 33
  let (nIconID, _) ← getInteger inData FieldId.userIconId
  -- A client that sends its name and icon with the login is an old one: it has no agreement to confirm.
  let oldClient := psUserName.length ≠ 0 ∧ nIconID.toInt16 ≠ 0
  return app.verifyLogin psUserLogin psUserPass vers (decide oldClient)

def Accepts (app : CMyApplication) (data : Bytes) (login : Bytes) : Prop :=
  ∃ client, processTranLogin app (UFieldData.new (some data) 0) = .value (.okay client) ∧ client.login = login

def lookupUser (app : CMyApplication) : Net.UserLookup := fun login =>
  match app.getUser login with
  | .ok info => .ok { name := info.nameData, password := info.passwordData, access := info.access }
  | .error _ => .error .unknownUser

structure Open (app : CMyApplication) : Prop where
  notPermBanned : app.isPermBanned = false
  notTempBanned : app.isTempBanned = false
  notExceeded : ∀ login, app.exceedsConnections login = false

end CMyApplication

def asciiLower (character : UInt8) : UInt8 :=
  if 0x41 ≤ character ∧ character ≤ 0x5A then character - 0x41 + 0x61 else character

/-- On ASCII text the text layer lowers the letters and leaves the rest. -/
def LowersAscii (makeLowercase : Bytes → Bytes) : Prop :=
  ∀ text : Bytes, (∀ character ∈ text, character < 0x80) → makeLowercase text = text.map asciiLower

theorem asciiLower_normalizes (character : UInt8) :
    (if asciiLower character = 0x0D then 0x2D else asciiLower character) =
      if 0x41 ≤ character ∧ character ≤ 0x5A then character - 0x41 + 0x61
      else if character = 0x0D then 0x2D else character := by
  unfold asciiLower
  split
  · rename_i letter
    have other : ¬ character - 0x41 + 0x61 = 0x0D := by
      intro same
      have back : character = 0x0D - 0x61 + 0x41 := by
        rw [← same]
        simp
      rw [back] at letter
      exact absurd letter (by decide)
    rw [if_neg other]
  · rfl

theorem loginName_normalizes {app : CMyApplication} (lowers : LowersAscii app.makeLowercase) {data : Bytes}
    (nonempty : data ≠ []) (ascii : ∀ character ∈ scramble data, character < 0x80) :
    app.loginName data = Net.normalizeLogin (scramble data) := by
  have filled : ¬ data.length = 0 := by simpa using nonempty
  rw [CMyApplication.loginName, if_neg filled, lowers _ ascii, Net.normalizeLogin, List.map_map]
  exact List.map_congr_left fun character _ => asciiLower_normalizes character

/-! The reads before the decision. -/

section
variable {fields : List Protocol.Field} {ref : SFieldData} {id : UInt16}

theorem getPString_spec (handle : Handle fields) (ready : Ready (fieldListBytes { fields }) fields ref)
    (named : id ≠ 0) (once : occurrences { fields } id ≤ 1) (inBufSize : UInt32)
    (room : (fieldData { fields } id).length ≤ (inBufSize - 1).toNat) :
    ∃ next, getPString ref id inBufSize = .value (fieldData { fields } id, next) ∧
      Ready (fieldListBytes { fields }) fields next := by
  obtain ⟨outData, next, found, ready', answer⟩ := readField_spec id handle ready (inBufSize - 1)
  refine ⟨next, ?_, ready'⟩
  rw [getPString, found]
  obtain ⟨rfl, absent⟩ | ⟨field, inside, rfl, rfl⟩ := answer
  · rw [fieldData, fieldData_absent (absent named)]
  · rw [fieldData, findField_unique inside once] at room ⊢
    rw [List.take_of_length_le room]

theorem getPString_ready (handle : Handle fields) (ready : Ready (fieldListBytes { fields }) fields ref)
    (id : UInt16) (inBufSize : UInt32) :
    ∃ outData next, getPString ref id inBufSize = .value (outData, next) ∧
      Ready (fieldListBytes { fields }) fields next := by
  obtain ⟨outData, next, found, ready', _⟩ := readField_spec id handle ready (inBufSize - 1)
  exact ⟨outData, next, found, ready'⟩

theorem getInteger_ready (handle : Handle fields) (ready : Ready (fieldListBytes { fields }) fields ref)
    (id : UInt16) :
    ∃ value next, getInteger ref id = .value (value, next) ∧ Ready (fieldListBytes { fields }) fields next := by
  obtain ⟨outData, next, found, ready', _⟩ := readField_spec id handle ready 4
  exact ⟨_, next, by rw [getInteger, found]; rfl, ready'⟩

theorem occurrences_le_one {list : FieldList} (unique : (list.fields.map (·.id)).Nodup) (id : FieldId) :
    occurrences list id ≤ 1 := by
  have counted : occurrences list id = (list.fields.map (·.id)).count id := by
    rw [List.count, List.countP_map, List.countP_eq_length_filter, occurrences]
    rfl
  rw [counted]
  exact List.nodup_iff_count_le_one.mp unique id

end

/-- The list's login and password fields are each absent or at most 32 bytes, and no ID repeats. -/
structure LoginFields (list : FieldList) : Prop where
  unique : (list.fields.map (·.id)).Nodup
  login : (fieldData list FieldId.userLogin).length ≤ 32
  password : (fieldData list FieldId.userPassword).length ≤ 32

namespace CMyApplication

/-- The legacy server decides by the two fields alone. -/
theorem processTranLogin_verifies (app : CMyApplication) (opened : app.Open) {list : FieldList}
    (handle : Handle list.fields) (fields : LoginFields list) :
    ∃ vers oldClient, app.processTranLogin (UFieldData.new (some (fieldListBytes list)) 0) =
      .value (app.verifyLogin (fieldData list FieldId.userLogin) (fieldData list FieldId.userPassword) vers
        oldClient) := by
  obtain ⟨ref, login, ready⟩ := getPString_spec handle (Ready.new _ _) (by decide)
    (occurrences_le_one fields.unique FieldId.userLogin) 33 fields.login
  obtain ⟨ref, password, ready⟩ := getPString_spec handle ready (by decide)
    (occurrences_le_one fields.unique FieldId.userPassword) 33 fields.password
  obtain ⟨_, ref, mac, ready⟩ := getPString_ready handle ready FieldId.macAlg 13
  obtain ⟨_, ref, cipher, ready⟩ := getPString_ready handle ready FieldId.cCipherAlg 12
  obtain ⟨vers, ref, versRead, ready⟩ := getInteger_ready handle ready FieldId.vers
  obtain ⟨psUserName, ref, name, ready⟩ := getPString_ready handle ready FieldId.userName 33
  obtain ⟨nIconID, ref, icon, ready⟩ := getInteger_ready handle ready FieldId.userIconId
  refine ⟨vers, decide (psUserName.length ≠ 0 ∧ nIconID.toInt16 ≠ 0), ?_⟩
  simp only [processTranLogin, opened.notPermBanned, opened.notTempBanned, Bool.false_eq_true, if_false, login,
    password, mac, cipher, versRead, name, icon, Checked.value_bind, Checked.pure_eq]

theorem accepts_iff (app : CMyApplication) (opened : app.Open) {list : FieldList} (handle : Handle list.fields)
    (fields : LoginFields list) (login : Bytes) :
    app.Accepts (fieldListBytes list) login ↔
      login = app.loginName (fieldData list FieldId.userLogin) ∧
        ∃ info, app.getUser login = .ok info ∧ fieldData list FieldId.userPassword = info.passwordData := by
  obtain ⟨vers, oldClient, processed⟩ := app.processTranLogin_verifies opened handle fields
  rw [Accepts, processed]
  generalize fieldData list FieldId.userPassword = password
  simp only [verifyLogin, opened.notExceeded, Bool.false_eq_true, if_false]
  generalize app.loginName (fieldData list FieldId.userLogin) = name
  constructor
  -- The password is compared with its size first.
  · rintro ⟨client, decided, rfl⟩
    cases read : app.getUser name with
    | error reason =>
      rw [read] at decided
      cases reason <;> cases decided
    | ok info =>
      rw [read] at decided
      simp only at decided
      split at decided
      · cases decided
      · rename_i same
        rw [not_or, not_not, not_not] at same
        cases decided
        refine ⟨rfl, info, read, ?_⟩
        rw [← same.2, ← same.1, List.take_length]
  · rintro ⟨rfl, info, read, rfl⟩
    rw [read]
    simp only [ne_eq, not_true_eq_false, List.take_length, or_self, if_false]
    exact ⟨_, rfl, rfl⟩

end CMyApplication

/-! Both servers. -/

def Complete (list : FieldList) : Prop :=
  ∃ loginField passwordField, findField list FieldId.userLogin = some loginField ∧ loginField.data ≠ [] ∧
    findField list FieldId.userPassword = some passwordField

end Slopline.Legacy

namespace Slopline.Net

open Library Protocol Legacy

def Session.Accepts (session : Session) (transaction : ReceivedTransaction) (login : Bytes) : Prop :=
  ∃ reply, (session.process transaction).2 = some reply ∧ reply.error = 0 ∧
    (session.process transaction).1.login = login

theorem Session.accepts_iff {session : Session} {transaction : ReceivedTransaction} (isLogin : IsLogin transaction)
    (live : session.state ≠ .closed) (login : Bytes) :
    session.Accepts transaction login ↔ ∃ user, Admits session.config transaction.data login user := by
  constructor
  · rintro ⟨reply, replied, okay, rfl⟩
    have cases := session.process_cases transaction
    generalize (session.process transaction).1 = next, (session.process transaction).2 = answer at cases replied ⊢
    cases cases with
    | ignored notLogin _ => exact absurd ⟨isLogin, live⟩ notLogin
    | refused _ _ _ failed =>
      cases replied
      rw [failed] at okay
      exact absurd okay (by decide)
    | @accepted _ _ user _ _ admits => exact ⟨user, admits⟩
    | agreed => cases replied
  · rintro ⟨user, admits⟩
    rw [Accepts, admits.accepted isLogin live]
    exact ⟨_, rfl, rfl, rfl⟩

/-- The modern login is the legacy one behind its own check that both fields are there. -/
theorem login_agrees {app : CMyApplication} (opened : app.Open) (lowers : LowersAscii app.makeLowercase)
    {session : Session} (database : session.config.lookupUser = some app.lookupUser)
    (live : session.state ≠ .closed) {transaction : ReceivedTransaction} (isLogin : IsLogin transaction)
    {list : FieldList} (decoded : decodeFieldList transaction.data = .value list)
    (small : transaction.data.length < 2 ^ 32) (fields : LoginFields list)
    (ascii : ∀ character ∈ scramble (fieldData list FieldId.userLogin), character < 0x80) (login : Bytes) :
    session.Accepts transaction login ↔ Complete list ∧ app.Accepts transaction.data login := by
  obtain ⟨fits, bytes⟩ := (decodeFieldList_decodes transaction.data list).mp decoded
  rw [bytes] at small
  rw [Session.accepts_iff isLogin live, bytes, app.accepts_iff opened ⟨fits, small⟩ fields]
  -- The modern database is asked for the same account.
  have lookup : session.config.lookup = app.lookupUser := by
    funext login
    rw [SessionConfig.lookup, database]
  constructor
  · rintro ⟨user, ⟨fields, loginField, passwordField, decoded', named, filled, rfl, given, same⟩, found⟩
    rw [← bytes, decoded, Checked.value.injEq] at decoded'
    subst decoded'
    have data : fieldData list FieldId.userLogin = loginField.data := by rw [fieldData, named]
    have password : fieldData list FieldId.userPassword = passwordField.data := by rw [fieldData, given]
    rw [data] at ascii
    refine ⟨⟨loginField, passwordField, named, filled, given⟩, ?_, ?_⟩
    · rw [data, loginName_normalizes lowers filled ascii]
    · rw [lookup, CMyApplication.lookupUser] at found
      split at found
      · rename_i info read
        cases found
        exact ⟨info, read, password.trans same⟩
      · cases found
  · rintro ⟨⟨loginField, passwordField, named, filled, given⟩, rfl, info, read, same⟩
    have data : fieldData list FieldId.userLogin = loginField.data := by rw [fieldData, named]
    have password : fieldData list FieldId.userPassword = passwordField.data := by rw [fieldData, given]
    rw [data] at ascii read ⊢
    rw [loginName_normalizes lowers filled ascii] at read ⊢
    refine ⟨{ name := info.nameData, password := info.passwordData, access := info.access },
      ⟨list, loginField, passwordField, bytes ▸ decoded, named, filled, rfl, given, password.symm.trans same⟩, ?_⟩
    rw [lookup, CMyApplication.lookupUser, read]

/-! The witness and the two fields that are missed. -/

def villa : CMyApplication where
  usersFolder := some fun login =>
    if login = asciiBytes "guest" then some { userData := .ok { passwordSize := by decide } }
    else if login = asciiBytes "alice" then
      some { userData := .ok { passwordData := scramble (asciiBytes "secret"), passwordSize := by decide } }
    else none
  makeLowercase := List.map asciiLower

def villaSession : Session := { config := { lookupUser := some villa.lookupUser } }

def loginWith (data : Bytes) : ReceivedTransaction :=
  { header := { type := TransactionType.login, id := 1 }, data }

def aliceFields : FieldList where
  fields := [
    { id := FieldId.userLogin, data := scramble (asciiBytes "Alice") },
    { id := FieldId.userPassword, data := scramble (asciiBytes "secret") }]

/-- A login with a capital letter. -/
theorem login_agrees_alice :
    villaSession.Accepts (loginWith (fieldListBytes aliceFields)) (asciiBytes "alice") ↔
      Complete aliceFields ∧ villa.Accepts (fieldListBytes aliceFields) (asciiBytes "alice") :=
  login_agrees (⟨rfl, rfl, fun _ => rfl⟩ : villa.Open) (fun _ _ => rfl) rfl (by decide)
    (⟨rfl, rfl⟩ : IsLogin (loginWith (fieldListBytes aliceFields))) (by decide) (by decide)
    ⟨by decide, by decide, by decide⟩ (List.all_iff_forall_prop.mp (by decide)) _

/-- What a legacy client sends for a guest account without a password: its name alone, or nothing. -/
def guestFields : FieldList where
  fields := [{ id := FieldId.userLogin, data := scramble (asciiBytes "guest") }]

theorem Admits.complete {config : SessionConfig} {list : FieldList} {login : Bytes} {user : UserRecord}
    (fits : FieldListFits list) (admits : Admits config (fieldListBytes list) login user) : Complete list := by
  obtain ⟨fields, loginField, passwordField, decoded, named, filled, _, given, _⟩ := admits.request
  rw [decodeFieldList_complete fits, Checked.value.injEq] at decoded
  subst decoded
  exact ⟨loginField, passwordField, named, filled, given⟩

theorem login_incomplete {list : FieldList} (fits : FieldListFits list) (incomplete : ¬ Complete list)
    (login : Bytes) : ¬ villaSession.Accepts (loginWith (fieldListBytes list)) login := by
  intro accepts
  have live : villaSession.state ≠ .closed := by decide
  obtain ⟨user, admits⟩ := (Session.accepts_iff ⟨rfl, rfl⟩ live login).mp accepts
  exact incomplete (admits.complete fits)

theorem login_disagrees :
    (villa.Accepts (fieldListBytes {}) (asciiBytes "guest") ∧
      ¬ villaSession.Accepts (loginWith (fieldListBytes {})) (asciiBytes "guest")) ∧
    (villa.Accepts (fieldListBytes guestFields) (asciiBytes "guest") ∧
      ¬ villaSession.Accepts (loginWith (fieldListBytes guestFields)) (asciiBytes "guest")) := by
  have opened : villa.Open := ⟨rfl, rfl, fun _ => rfl⟩
  have none : FieldListFits {} := ⟨by decide, by decide⟩
  have one : FieldListFits guestFields := ⟨by decide, by decide⟩
  refine ⟨⟨?_, login_incomplete none ?_ _⟩, ?_, login_incomplete one ?_ _⟩
  · exact (villa.accepts_iff opened ⟨none, by decide⟩ ⟨by decide, by decide, by decide⟩ _).mpr ⟨rfl, _, rfl, rfl⟩
  · rintro ⟨_, _, named, _⟩
    cases named
  · exact (villa.accepts_iff opened ⟨one, by decide⟩ ⟨by decide, by decide, by decide⟩ _).mpr ⟨rfl, _, rfl, rfl⟩
  · rintro ⟨_, _, _, _, given⟩
    cases given

end Slopline.Net
