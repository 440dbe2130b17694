import Slopline.Net.Connection
import Slopline.Protocol.Payload

/-! The login session of a server (`hotline/net/session.h`, `session.cpp`, `hotline/protocol/auth.h`). -/

set_option autoImplicit false

namespace Slopline

def asciiBytes (text : String) : Bytes := text.toList.map Char.toUInt8

namespace Protocol

/-- `auth::scramble`: each byte negated, which undoes itself. -/
def scramble (bytes : Bytes) : Bytes := bytes.map fun byte => ~~~byte

end Protocol

namespace Net

open Library Protocol

inductive SessionState where
  | fresh
  | awaitingAgreement
  | active
  | closed
  deriving DecidableEq, Repr

inductive LoginError where
  | unknownUser
  | wrongPassword
  | malformedLogin
  deriving DecidableEq, Repr

/-- The password is the stored form, still scrambled. -/
structure UserRecord where
  name : Bytes := []
  password : Bytes := []
  access : AccessMask := {}
  deriving DecidableEq, Repr

abbrev UserLookup := Bytes → Except LoginError UserRecord

structure SessionConfig where
  serverName : Bytes := []
  serverVersion : UInt16 := 197
  communityBannerId : UInt32 := 0
  lookupUser : Option UserLookup := none
  incorrectLoginMessage : Bytes := asciiBytes "Incorrect login."

structure OutgoingReply where
  id : UInt32 := 0
  error : UInt32 := 0
  fields : FieldList := {}
  deriving DecidableEq, Repr

structure Session where
  config : SessionConfig
  state : SessionState := .fresh
  login : Bytes := []
  access : AccessMask := {}

/-- ASCII lowercase, and a carriage return becomes a hyphen. -/
def normalizeLogin (login : Bytes) : Bytes :=
  login.map fun character =>
    if 0x41 ≤ character ∧ character ≤ 0x5A then character - 0x41 + 0x61
    else if character = 0x0D then 0x2D
    else character

def SessionConfig.lookup (config : SessionConfig) (normalized : Bytes) : Except LoginError UserRecord :=
  match config.lookupUser with
  | some lookupUser => lookupUser normalized
  | none => .error .unknownUser

namespace Session

/-- Every failure exit: the session closes and the reply carries the text. -/
def refuse (session : Session) (id : UInt32) (text : Bytes) : Session × Option OutgoingReply :=
  ({ session with state := .closed },
    some { id, error := 1, fields := { fields := [makeStringField FieldId.errorText text] } })

def accept (session : Session) (id : UInt32) (normalized : Bytes) (user : UserRecord) :
    Session × Option OutgoingReply :=
  ({ session with login := normalized, access := user.access, state := .awaitingAgreement },
    some { id, fields := { fields := [
      makeIntegerField FieldId.vers session.config.serverVersion.toUInt32.toInt32,
      makeIntegerField FieldId.communityBannerId session.config.communityBannerId.toInt32,
      makeStringField FieldId.serverName session.config.serverName] } })

/-- The `Login` case. -/
def processLogin (session : Session) (id : UInt32) (data : Bytes) : Session × Option OutgoingReply :=
  match decodeFieldList data with
  | .value fields =>
    match findField fields FieldId.userLogin, findField fields FieldId.userPassword with
    | some loginField, some passwordField =>
      if loginField.data = [] then session.refuse id (asciiBytes "Bad login.")
      else
        let normalized := normalizeLogin (scramble loginField.data)
        match session.config.lookup normalized with
        | .error _ => session.refuse id session.config.incorrectLoginMessage
        | .ok user =>
          if passwordField.data ≠ user.password then
            session.refuse id session.config.incorrectLoginMessage
          else session.accept id normalized user
    | _, _ => session.refuse id (asciiBytes "Bad login.")
  | _ => session.refuse id (asciiBytes "Bad login.")

def process (session : Session) (transaction : ReceivedTransaction) : Session × Option OutgoingReply :=
  if transaction.header.isReply ≠ 0 ∨ session.state = .closed then (session, none)
  else if transaction.header.type = TransactionType.login then
    session.processLogin transaction.header.id transaction.data
  else if transaction.header.type = TransactionType.agreed then
    if session.state = .awaitingAgreement then ({ session with state := .active }, none)
    else (session, none)
  else (session, none)

def close (session : Session) : Session := { session with state := .closed }

end Session

inductive SessionOp where
  | process (transaction : ReceivedTransaction)
  | close

def Session.step (session : Session) : SessionOp → Session
  | .process transaction => (session.process transaction).1
  | .close => session.close

def Session.run (config : SessionConfig) (ops : List SessionOp) : Session :=
  ops.foldl Session.step { config }

def IsLogin (transaction : ReceivedTransaction) : Prop :=
  transaction.header.isReply = 0 ∧ transaction.header.type = TransactionType.login

def IsAgreed (transaction : ReceivedTransaction) : Prop :=
  transaction.header.isReply = 0 ∧ transaction.header.type = TransactionType.agreed

/-- The checks a login passes: whom it names, and that the password is the stored one. -/
structure Admits (config : SessionConfig) (data : Bytes) (login : Bytes) (user : UserRecord) : Prop where
  request : ∃ fields loginField passwordField, decodeFieldList data = .value fields ∧
    findField fields FieldId.userLogin = some loginField ∧ loginField.data ≠ [] ∧
    normalizeLogin (scramble loginField.data) = login ∧
    findField fields FieldId.userPassword = some passwordField ∧ passwordField.data = user.password
  found : config.lookup login = .ok user

inductive Processed (session : Session) (transaction : ReceivedTransaction) :
    Session → Option OutgoingReply → Prop where
  | ignored : ¬ (IsLogin transaction ∧ session.state ≠ .closed) →
      ¬ (IsAgreed transaction ∧ session.state = .awaitingAgreement) →
      Processed session transaction session none
  | refused {reply : OutgoingReply} : IsLogin transaction → session.state ≠ .closed →
      reply.id = transaction.header.id → reply.error = 1 →
      Processed session transaction { session with state := .closed } (some reply)
  | accepted {reply : OutgoingReply} {login : Bytes} {user : UserRecord} : IsLogin transaction →
      session.state ≠ .closed → Admits session.config transaction.data login user →
      reply.id = transaction.header.id → reply.error = 0 →
      Processed session transaction
        { session with login, access := user.access, state := .awaitingAgreement } (some reply)
  | agreed : IsAgreed transaction → session.state = .awaitingAgreement →
      Processed session transaction { session with state := .active } none

theorem Session.processLogin_cases (session : Session) (id : UInt32) (data : Bytes) :
    (∃ text, session.processLogin id data = session.refuse id text) ∨
      ∃ login user, Admits session.config data login user ∧
        session.processLogin id data = session.accept id login user := by
  unfold Session.processLogin
  split
  · next fields decoded =>
    split
    · next loginField passwordField hasLogin hasPassword =>
      split
      · exact .inl ⟨_, rfl⟩
      · next named =>
        dsimp only
        split
        · exact .inl ⟨_, rfl⟩
        · next user found =>
          split
          · exact .inl ⟨_, rfl⟩
          · next same =>
            refine .inr ⟨_, user, ⟨⟨fields, loginField, passwordField, ?_⟩, found⟩, rfl⟩
            exact ⟨decoded, hasLogin, named, rfl, hasPassword, not_not.mp same⟩
    · exact .inl ⟨_, rfl⟩
  · exact .inl ⟨_, rfl⟩

theorem Session.process_cases (session : Session) (transaction : ReceivedTransaction) :
    Processed session transaction (session.process transaction).1 (session.process transaction).2 := by
  unfold Session.process
  by_cases idle : transaction.header.isReply ≠ 0 ∨ session.state = .closed
  · rw [if_pos idle]
    refine .ignored ?_ ?_
    · rintro ⟨login, live⟩
      exact idle.elim (absurd login.1) live
    · rintro ⟨agreed, waiting⟩
      exact idle.elim (absurd agreed.1) fun closed => by simp [waiting] at closed
  rw [if_neg idle]
  rw [not_or, not_not] at idle
  obtain ⟨request, live⟩ := idle
  -- The order of the source: a login first, an agreement behind it, nothing else.
  by_cases login : transaction.header.type = TransactionType.login
  · rw [if_pos login]
    rcases session.processLogin_cases transaction.header.id transaction.data with
      ⟨text, same⟩ | ⟨name, user, admits, same⟩
    · rw [same]
      exact .refused ⟨request, login⟩ live rfl rfl
    · rw [same]
      exact .accepted ⟨request, login⟩ live admits rfl rfl
  rw [if_neg login]
  by_cases agreed : transaction.header.type = TransactionType.agreed
  · rw [if_pos agreed]
    by_cases waiting : session.state = .awaitingAgreement
    · rw [if_pos waiting]
      exact .agreed ⟨request, agreed⟩ waiting
    · rw [if_neg waiting]
      exact .ignored (fun both => login both.1.2) fun both => waiting both.2
  · rw [if_neg agreed]
    exact .ignored (fun both => login both.1.2) fun both => agreed both.1.2

theorem Admits.accepted {session : Session} {transaction : ReceivedTransaction} {login : Bytes} {user : UserRecord}
    (admits : Admits session.config transaction.data login user) (isLogin : IsLogin transaction)
    (live : session.state ≠ .closed) :
    session.process transaction = session.accept transaction.header.id login user := by
  obtain ⟨⟨fields, loginField, passwordField, decoded, named, filled, rfl, given, same⟩, found⟩ := admits
  simp [Session.process, Session.processLogin, isLogin.1, isLogin.2, live, decoded, named, filled, given, same,
    found]

def Authenticated (session : Session) (ops : List SessionOp) : Prop :=
  ∃ before transaction after user, ops = before ++ .process transaction :: after ∧
    IsLogin transaction ∧ (∀ later, .process later ∈ after → ¬ IsLogin later) ∧
    Admits session.config transaction.data session.login user ∧ user.access = session.access

def Guarded (session : Session) (ops : List SessionOp) : Prop :=
  session.state = .awaitingAgreement ∨ session.state = .active → Authenticated session ops

theorem Authenticated.snoc {session next : Session} {ops : List SessionOp} {op : SessionOp}
    (authenticated : Authenticated session ops) (config : next.config = session.config)
    (login : next.login = session.login) (access : next.access = session.access)
    (other : ∀ transaction, op = .process transaction → ¬ IsLogin transaction) :
    Authenticated next (ops ++ [op]) := by
  obtain ⟨before, transaction, after, user, rfl, isLogin, last, admits, mask⟩ := authenticated
  refine ⟨before, transaction, after ++ [op], user, by simp, isLogin, fun later inside => ?_, ?_, ?_⟩
  · rcases List.mem_append.mp inside with inside | inside
    · exact last later inside
    · exact other later (List.mem_singleton.mp inside).symm
  · rw [config, login]
    exact admits
  · rw [access]
    exact mask

theorem Session.step_config (session : Session) (op : SessionOp) :
    (session.step op).config = session.config := by
  cases op with
  | close => rfl
  | process transaction =>
    have cases := session.process_cases transaction
    change (session.process transaction).1.config = session.config
    generalize (session.process transaction).1 = next, (session.process transaction).2 = reply at cases ⊢
    cases cases <;> rfl

-- One call keeps the guard: only an accepted login or its own agreement leads past the login.
theorem Session.step_guarded {session : Session} {ops : List SessionOp} (guarded : Guarded session ops)
    (op : SessionOp) : Guarded (session.step op) (ops ++ [op]) := by
  cases op with
  | close => rintro (state | state) <;> cases state
  | process transaction =>
    have cases := session.process_cases transaction
    change Guarded (session.process transaction).1 _
    generalize (session.process transaction).1 = next, (session.process transaction).2 = reply at cases ⊢
    cases cases with
    | ignored notLogin notAgreed =>
      intro past
      have live : session.state ≠ .closed := by
        intro closed
        rw [closed] at past
        rcases past with state | state <;> cases state
      refine (guarded past).snoc rfl rfl rfl fun other same isLogin => notLogin ⟨?_, live⟩
      cases same
      exact isLogin
    | refused => rintro (state | state) <;> cases state
    | @accepted reply login user isLogin live admits =>
      intro _
      refine ⟨ops, transaction, [], user, rfl, isLogin, ?_, admits, rfl⟩
      intro later inside
      cases inside
    | agreed isAgreed waiting =>
      intro _
      refine (guarded (.inl waiting)).snoc rfl rfl rfl fun other same isLogin => ?_
      cases same
      exact absurd (isLogin.2.symm.trans isAgreed.2) (by decide)

theorem Session.run_config (config : SessionConfig) (ops : List SessionOp) :
    (Session.run config ops).config = config := by
  induction ops using List.reverseRecOn with
  | nil => rfl
  | append_singleton ops op ih =>
    rw [Session.run, List.foldl_concat]
    exact (Session.step_config _ op).trans ih

theorem Session.run_guarded (config : SessionConfig) (ops : List SessionOp) :
    Guarded (Session.run config ops) ops := by
  induction ops using List.reverseRecOn with
  | nil => rintro (state | state) <;> cases state
  | append_singleton ops op ih =>
    rw [Session.run, List.foldl_concat]
    exact Session.step_guarded ih op

structure Disciplined (session : Session) (transaction : ReceivedTransaction) (next : Session)
    (reply : Option OutgoingReply) : Prop where
  active : next.state = .active → session.state ≠ .active →
    IsAgreed transaction ∧ session.state = .awaitingAgreement
  closed : session.state = .closed → next.state = .closed
  replies : reply.isSome ↔ IsLogin transaction ∧ session.state ≠ .closed
  answer : ∀ given, reply = some given → given.id = transaction.header.id ∧
    (given.error = 0 ↔ next.state = .awaitingAgreement) ∧ (given.error = 1 ↔ next.state = .closed)
  others : transaction.header.isReply ≠ 0 ∨ (transaction.header.type ≠ TransactionType.login ∧
    transaction.header.type ≠ TransactionType.agreed) → next = session

/-- A login that an open session answers closes it or leads to the agreement. -/
theorem Disciplined.answered {session next : Session} {transaction : ReceivedTransaction} {given : OutgoingReply}
    (isLogin : IsLogin transaction) (live : session.state ≠ .closed) (id : given.id = transaction.header.id)
    (outcome : given.error = 1 ∧ next.state = .closed ∨ given.error = 0 ∧ next.state = .awaitingAgreement) :
    Disciplined session transaction next (some given) := by
  constructor
  · intro active
    rcases outcome with ⟨_, state⟩ | ⟨_, state⟩ <;> cases active.symm.trans state
  · exact fun closed => absurd closed live
  · simpa using ⟨isLogin, live⟩
  · rintro _ ⟨⟩
    rcases outcome with ⟨error, state⟩ | ⟨error, state⟩ <;> simp [id, error, state]
  · rintro (reply | other)
    · exact absurd isLogin.1 reply
    · exact absurd isLogin.2 other.1

theorem Processed.disciplined {session next : Session} {transaction : ReceivedTransaction}
    {reply : Option OutgoingReply} (processed : Processed session transaction next reply) :
    Disciplined session transaction next reply := by
  cases processed with
  | ignored notLogin notAgreed =>
    constructor
    · exact fun active other => absurd active other
    · exact id
    · simpa using notLogin
    · rintro _ ⟨⟩
    · exact fun _ => rfl
  | refused isLogin live id error => exact .answered isLogin live id (.inl ⟨error, rfl⟩)
  | accepted isLogin live _ id error => exact .answered isLogin live id (.inr ⟨error, rfl⟩)
  | agreed isAgreed waiting =>
    constructor
    · exact fun _ _ => ⟨isAgreed, waiting⟩
    · intro closed
      rw [waiting] at closed
      cases closed
    · have notLogin : ¬ IsLogin transaction := fun isLogin =>
        absurd (isLogin.2.symm.trans isAgreed.2) (by decide)
      simp [notLogin]
    · rintro _ ⟨⟩
    · rintro (reply | other)
      · exact absurd isAgreed.1 reply
      · exact absurd isAgreed.2 other.2

/-- Authentication safety over every run: a session past its login is there by the last login it
processed, and every call keeps to the rules. -/
theorem Session.run_safe (config : SessionConfig) (ops : List SessionOp) :
    ((Session.run config ops).state = .awaitingAgreement ∨ (Session.run config ops).state = .active →
      ∃ before transaction after fields loginField passwordField user,
        ops = before ++ .process transaction :: after ∧ IsLogin transaction ∧
        (∀ later, .process later ∈ after → ¬ IsLogin later) ∧
        decodeFieldList transaction.data = .value fields ∧
        findField fields FieldId.userLogin = some loginField ∧ loginField.data ≠ [] ∧
        normalizeLogin (scramble loginField.data) = (Session.run config ops).login ∧
        findField fields FieldId.userPassword = some passwordField ∧
        config.lookup (Session.run config ops).login = .ok user ∧
        user.access = (Session.run config ops).access ∧ user.password = passwordField.data) ∧
      (∀ transaction, Disciplined (Session.run config ops) transaction
        ((Session.run config ops).process transaction).1 ((Session.run config ops).process transaction).2) ∧
      (Session.run config ops).close.state = .closed := by
  refine ⟨?_, ?_, rfl⟩
  · intro past
    obtain ⟨before, transaction, after, user, split, isLogin, last, ⟨request, found⟩, mask⟩ :=
      Session.run_guarded config ops past
    obtain ⟨fields, loginField, passwordField, decoded, hasLogin, named, same, hasPassword, password⟩ := request
    rw [Session.run_config] at found
    exact ⟨before, transaction, after, fields, loginField, passwordField, user, split, isLogin, last,
      decoded, hasLogin, named, same, hasPassword, found, mask, password.symm⟩
  · exact fun transaction => ((Session.run config ops).process_cases transaction).disciplined

end Net

end Slopline
