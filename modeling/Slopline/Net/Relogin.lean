import Slopline.Net.Session
import Slopline.Protocol.FieldListCodec

/-! What a later login does to a session that has been active.

The `Login` case looks at the session's state only for being closed, where the `Agreed` case
asks for its own state.
-/

set_option autoImplicit false

namespace Slopline.Net

open Library Protocol

structure SameIdentity (session next : Session) : Prop where
  login : next.login = session.login
  access : next.access = session.access
  state : next.state ≠ .awaitingAgreement

/-- Whatever is processed after a session has become active, it keeps its identity. -/
def KeepsIdentity (config : SessionConfig) (ops : List SessionOp) : Prop :=
  ∀ before after, before ++ after <+: ops → (Session.run config before).state = .active →
    SameIdentity (Session.run config before) (Session.run config (before ++ after))

def NoRelogin (config : SessionConfig) (ops : List SessionOp) : Prop :=
  ∀ before after transaction, before ++ after ++ [.process transaction] <+: ops →
    (Session.run config before).state = .active → (Session.run config (before ++ after)).state ≠ .closed →
    IsLogin transaction → ¬ ∃ login user, Admits config transaction.data login user

theorem Session.run_snoc (config : SessionConfig) (ops : List SessionOp) (op : SessionOp) :
    Session.run config (ops ++ [op]) = (Session.run config ops).step op := by
  rw [Session.run, List.foldl_concat]
  rfl

/-- The session as it was when it became active, or closed since. -/
structure Retains (session next : Session) : Prop where
  login : next.login = session.login
  access : next.access = session.access
  state : next.state = .active ∨ next.state = .closed

theorem Retains.identity {session next : Session} (retains : Retains session next) :
    SameIdentity session next := by
  refine ⟨retains.login, retains.access, fun waiting => ?_⟩
  cases retains.state with
  | inl active => exact absurd (active.symm.trans waiting) (by decide)
  | inr closed => exact absurd (closed.symm.trans waiting) (by decide)

theorem Retains.step {session next : Session} (retains : Retains session next) (op : SessionOp)
    (refused : ∀ transaction, op = .process transaction → next.state ≠ .closed → IsLogin transaction →
      ¬ ∃ login user, Admits next.config transaction.data login user) :
    Retains session (next.step op) := by
  cases op with
  | close => exact ⟨retains.login, retains.access, .inr rfl⟩
  | process transaction =>
    have cases := next.process_cases transaction
    change Retains session (next.process transaction).1
    generalize (next.process transaction).1 = final, (next.process transaction).2 = reply at cases ⊢
    cases cases with
    | ignored => exact retains
    | refused => exact ⟨retains.login, retains.access, .inr rfl⟩
    | accepted isLogin live admits => exact absurd ⟨_, _, admits⟩ (refused transaction rfl live isLogin)
    | agreed _ waiting => exact absurd waiting retains.identity.state

theorem NoRelogin.retains {config : SessionConfig} {ops : List SessionOp} (none : NoRelogin config ops)
    {before : List SessionOp} (active : (Session.run config before).state = .active)
    (after : List SessionOp) (within : before ++ after <+: ops) :
    Retains (Session.run config before) (Session.run config (before ++ after)) := by
  -- The calls after the activation, from the last one back.
  induction after using List.reverseRecOn with
  | nil =>
    rw [List.append_nil]
    exact ⟨rfl, rfl, .inl active⟩
  | append_singleton after op ih =>
    rw [← List.append_assoc] at within ⊢
    have earlier := ih ((List.prefix_append _ _).trans within)
    rw [Session.run_snoc]
    apply earlier.step op
    intro transaction same live isLogin
    rw [Session.run_config]
    exact none before after transaction (same ▸ within) active live isLogin

/-- A run keeps the identity of an active session exactly if no later login passes the checks:
such a login is accepted in every open session, and takes it over. -/
theorem keepsIdentity_iff (config : SessionConfig) (ops : List SessionOp) :
    KeepsIdentity config ops ↔ NoRelogin config ops := by
  constructor
  · rintro keeps before after transaction within active live isLogin ⟨login, user, admits⟩
    rw [List.append_assoc] at within
    have kept := keeps before (after ++ [.process transaction]) within active
    rw [← Session.run_config config (before ++ after)] at admits
    have taken : (Session.run config (before ++ (after ++ [.process transaction]))).state =
        .awaitingAgreement := by
      rw [← List.append_assoc, Session.run_snoc]
      exact congrArg (fun result => result.1.state) (admits.accepted isLogin live)
    exact kept.state taken
  · intro none before after within active
    exact (none.retains active after within).identity

/-! A second login takes the session over. -/

def twoAccounts : SessionConfig where
  lookupUser := some fun login =>
    if login = asciiBytes "alice" then .ok { password := scramble (asciiBytes "secret") }
    else if login = asciiBytes "bob" then .ok { password := scramble (asciiBytes "hunter"), access := { bits := 1 } }
    else .error .unknownUser

def loginAs (login password : Bytes) : SessionOp :=
  .process {
    header := { type := TransactionType.login }
    data := fieldListBytes { fields := [
      { id := FieldId.userLogin, data := scramble login },
      { id := FieldId.userPassword, data := scramble password }] } }

def agrees : SessionOp := .process { header := { type := TransactionType.agreed }, data := [] }

theorem relogin_switches :
    ¬ KeepsIdentity twoAccounts
      [loginAs (asciiBytes "alice") (asciiBytes "secret"), agrees,
        loginAs (asciiBytes "bob") (asciiBytes "hunter")] := by
  intro keeps
  have kept := keeps [loginAs (asciiBytes "alice") (asciiBytes "secret"), agrees]
    [loginAs (asciiBytes "bob") (asciiBytes "hunter")] (List.prefix_refl _) (by decide +kernel)
  exact kept.state (by decide +kernel)

end Slopline.Net
