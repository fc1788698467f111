import MailCue.Backend.Auth.Router
import MailCue.Lib.Row
import MailCue.Lib.Transition

/-!
# Refreshing and revoking at the same time

backend/app/auth/router.py `refresh`, `logout`, `change_password` and
`admin_reset_password` on the row of one account, each request in its steps: it reads
the row, it writes, it commits. The database executes a conditional update at once
and lets one transaction write the row at a time. Requests have numbers. Signed texts,
cookies and origins are left out, and requests that are turned down before they
write.
-/
namespace MailCue.Backend.Auth
open MailCue.Lib

/-! ## The endpoints in their steps -/

/-- The one row of the account, looked up by its id. -/
def account (row : User) (id : String) : Option User := if id = row.id then some row else none

/-- `refresh` as far as the row it reads. -/
def refreshUser (find : String → Option User) (now : Int) (token : Option Token) :
    Except HTTPException User :=
  match decodeJwt now token with
  | none => .error ⟨401, "Invalid or expired refresh token"⟩
  | some t =>
    if t.type ≠ .refresh then .error ⟨401, "Token is not a refresh token"⟩ else tokenUser find t

/-- The conditional update: where the version is still the one read, it goes up. -/
def rotate (user row : User) : Option User :=
  if row.token_version = user.token_version then
    some { row with token_version := row.token_version + 1 }
  else none

inductive Revocation
  | logout
  | changePassword (new_password : Text)
  | adminResetPassword (new_password : Text)
  deriving DecidableEq

/-- What a revocation that read `user` makes of the row. The columns it sets get
values of its own; the version is the one it read and one. -/
def Revocation.write (a : Argon2) (user row : User) : Revocation → User
  | .logout => { row with token_version := user.token_version + 1 }
  | .changePassword new_password => { row with
      hashed_password := a.hash new_password, token_version := user.token_version + 1 }
  | .adminResetPassword new_password => { row with
      hashed_password := a.hash new_password, token_version := user.token_version + 1 }

/-- An undisturbed revocation does what the endpoint does. -/
theorem logout_commit (a : Argon2) (user : User) :
    (logout user).commit = some (Revocation.logout.write a user user) := rfl

theorem changePassword_commit {s : Server} {now : Int} {user : User}
    {current_password new_password : Text} (h : 8 ≤ new_password.length)
    (hopen : isAccountLocked now user = false)
    (hright : s.argon2.verify current_password user.hashed_password = true) :
    (changePassword s now user current_password new_password).commit =
      some ((Revocation.changePassword new_password).write s.argon2 user
        (resetFailedLogin user)) := by
  unfold changePassword
  rw [if_neg (by omega)]
  simp [hopen, hright, Revocation.write]

theorem adminResetPassword_commit {s : Server} {user : User} {username new_password : Text}
    (h : 8 ≤ new_password.length) :
    (adminResetPassword s (some user) username new_password).commit =
      some ((Revocation.adminResetPassword new_password).write s.argon2 user user) := by
  unfold adminResetPassword
  rw [if_neg (by omega)]
  rfl

/-! ## Interleavings -/

/-- Who asks for a revocation: an API key of the user, an administrator of another row,
or a token this row has to take. -/
inductive Caller
  | apiKey | administrator
  | session (token : Option Token) (cookie : Bool)
  deriving DecidableEq

def Caller.admitted (now : Int) (row : User) : Caller → Bool
  | .apiKey => true
  | .administrator => true
  | .session token cookie => (userFromJwt (account row) now cookie token).toOption.isSome

inductive Task
  | idle
  | refreshing (user : User)
  /-- The update has gone through; the version presented. -/
  | rotated (presented : Nat)
  | revoking (r : Revocation) (user : User)
  | written (r : Revocation) (user : User)
  | done
  deriving DecidableEq

structure Sessions where
  row : Row Nat User
  tasks : Nat → Task
  /-- The versions that tokens are issued from. -/
  issued : List Nat
  /-- The requests that have refreshed, with the versions they presented. -/
  refreshed : List (Nat × Nat)
  /-- The versions issued from before the last revocation. -/
  revoked : List Nat

inductive Event
  /-- A login reads the row it will issue tokens from. -/
  | login
  | refresh (id : Nat) (now : Int) (token : Option Token)
  | rotate (id : Nat)
  | revoke (id : Nat) (now : Int) (caller : Caller) (r : Revocation)
  /-- The commit by which a password change first clears the failed logins. -/
  | clear (id : Nat)
  | write (id : Nat)
  | commit (id : Nat)
  /-- The request ends in an error, or with its process. -/
  | fail (id : Nat)
  deriving DecidableEq

namespace Sessions

def setTask (s : Sessions) (id : Nat) (task : Task) : Sessions :=
  { s with tasks := Function.update s.tasks id task }

def refresh (s : Sessions) (id : Nat) (now : Int) (token : Option Token) : Option Sessions :=
  if s.tasks id = .idle then
    match refreshUser (account s.row.committed) now token with
    | .error _ => some (s.setTask id .done)
    | .ok user => some (s.setTask id (.refreshing user))
  else none

/-- A rotation whose update finds no row is rolled back. -/
def rotate (s : Sessions) (id : Nat) : Option Sessions :=
  match s.tasks id with
  | .refreshing user =>
    if s.row.writer.isSome then none
    else
      match Auth.rotate user s.row.committed with
      | none => some (s.setTask id .done)
      | some row => (s.row.write id fun _ => row).map fun row =>
          { s.setTask id (.rotated user.token_version) with row }
  | _ => none

def revoke (s : Sessions) (id : Nat) (now : Int) (caller : Caller) (r : Revocation) :
    Option Sessions :=
  if s.tasks id = .idle ∧ caller.admitted now s.row.committed = true then
    some (s.setTask id (.revoking r s.row.committed))
  else none

def clear (s : Sessions) (id : Nat) : Option Sessions :=
  match s.tasks id with
  | .revoking (.changePassword _) _ =>
    if s.row.writer.isSome then none
    else
      some { s with row := { committed := { s.row.committed with
        failed_login_attempts := 0, locked_until := none } } }
  | _ => none

def write (a : Argon2) (s : Sessions) (id : Nat) : Option Sessions :=
  match s.tasks id with
  | .revoking r user => (s.row.write id fun row => r.write a user row).map fun row =>
      { s.setTask id (.written r user) with row }
  | _ => none

def commit (s : Sessions) (id : Nat) : Option Sessions :=
  match s.tasks id with
  | .rotated presented => (s.row.commit id).map fun row =>
      { s.setTask id .done with
        row
        issued := row.committed.token_version :: s.issued
        refreshed := (id, presented) :: s.refreshed }
  | .written _ _ => (s.row.commit id).map fun row =>
      { s.setTask id .done with row, revoked := s.issued }
  | _ => none

def step (a : Argon2) (s : Sessions) : Event → Option Sessions
  | .login => some { s with issued := s.row.committed.token_version :: s.issued }
  | .refresh id now token => s.refresh id now token
  | .rotate id => s.rotate id
  | .revoke id now caller r => s.revoke id now caller r
  | .clear id => s.clear id
  | .write id => s.write a id
  | .commit id => s.commit id
  | .fail id => some { s.setTask id .done with row := s.row.rollback id }

/-- Tokens may be out from every version up to the row's. -/
def first (user : User) : Sessions where
  row := { committed := user }
  tasks := fun _ => .idle
  issued := List.range (user.token_version + 1)
  refreshed := []
  revoked := []

end Sessions

def sessions (a : Argon2) (user : User) : System Sessions Event where
  init s := s = Sessions.first user
  step s e s' := s.step a e = some s'

/-! ## The lock -/

/-- Whoever holds the lock has gone through with its write: a rotation from the
version that still is the row's, or a revocation. -/
def Held (s : Sessions) : Prop :=
  ∀ id row, s.row.writer = some (id, row) →
    (∃ presented, s.tasks id = .rotated presented ∧
      s.row.committed.token_version = presented ∧ row.token_version = presented + 1) ∨
    ∃ r user, s.tasks id = .written r user ∧ row.token_version = user.token_version + 1

section
variable {a : Argon2} {s s' : Sessions}

theorem held_first (user : User) : Held (Sessions.first user) := by
  intro id row h
  cases h

theorem held_of_free (h : s.row.writer = none) : Held s := by
  intro id row hwriter
  rw [h] at hwriter
  cases hwriter

/-- A step of another task. -/
theorem Held.setTask {id : Nat} {task : Task} (h : Held s) (hidle : s.tasks id = .idle) :
    Held (s.setTask id task) := by
  intro holder row hwriter
  have hother : holder ≠ id := by
    intro heq
    subst heq
    rcases h holder row hwriter with ⟨presented, htask, -⟩ | ⟨r, user, htask, -⟩
    · rw [hidle] at htask
      cases htask
    · rw [hidle] at htask
      cases htask
  have hsame : (s.setTask id task).tasks holder = s.tasks holder := Function.update_of_ne hother ..
  rw [hsame]
  exact h holder row hwriter

theorem rotate_eq_some {user row row' : User} (h : Auth.rotate user row = some row') :
    row.token_version = user.token_version ∧
      row' = { row with token_version := row.token_version + 1 } := by
  unfold Auth.rotate at h
  split at h
  · next hsame =>
    cases h
    exact ⟨hsame, rfl⟩
  · cases h

@[simp] theorem Revocation.write_token_version (a : Argon2) (user row : User) (r : Revocation) :
    (r.write a user row).token_version = user.token_version + 1 := by
  cases r <;> rfl

/-- The steps in which a request only reads, or leaves. -/
theorem refresh_cases {id : Nat} {now : Int} {token : Option Token}
    (h : s.refresh id now token = some s') :
    s.tasks id = .idle ∧ ∃ task, s' = s.setTask id task := by
  unfold Sessions.refresh at h
  split at h
  · next hidle =>
    refine ⟨hidle, ?_⟩
    split at h
    · cases h
      exact ⟨.done, rfl⟩
    · next user hread =>
      cases h
      exact ⟨.refreshing user, rfl⟩
  · cases h

theorem revoke_cases {id : Nat} {now : Int} {caller : Caller} {r : Revocation}
    (h : s.revoke id now caller r = some s') :
    s.tasks id = .idle ∧ s' = s.setTask id (.revoking r s.row.committed) := by
  unfold Sessions.revoke at h
  split at h
  · next hidle =>
    cases h
    exact ⟨hidle.1, rfl⟩
  · cases h

theorem rotate_cases {id : Nat} (h : s.rotate id = some s') :
    s.row.writer = none ∧ (s' = s.setTask id .done ∨
      s' = { s.setTask id (.rotated s.row.committed.token_version) with
        row := ⟨s.row.committed, some (id, { s.row.committed with
          token_version := s.row.committed.token_version + 1 })⟩ }) := by
  unfold Sessions.rotate at h
  split at h
  · next user htask =>
    split at h
    · cases h
    · next hfree =>
      refine ⟨by simpa using hfree, ?_⟩
      split at h
      · cases h
        exact .inl rfl
      · next row hrotate =>
        obtain ⟨hsame, rfl⟩ := rotate_eq_some hrotate
        obtain ⟨r, hr, rfl⟩ := Option.map_eq_some_iff.mp h
        obtain ⟨-, rfl⟩ := Row.write_eq_some hr
        rw [← hsame]
        exact .inr rfl
  · cases h

theorem clear_cases {id : Nat} (h : s.clear id = some s') :
    s' = { s with row := { committed := { s.row.committed with
      failed_login_attempts := 0, locked_until := none } } } := by
  unfold Sessions.clear at h
  split at h
  · split at h
    · cases h
    · cases h
      rfl
  · cases h

theorem write_cases {id : Nat} (h : s.write a id = some s') :
    ∃ r user, s.tasks id = .revoking r user ∧ s' = { s.setTask id (.written r user) with
      row := ⟨s.row.committed, some (id, r.write a user s.row.committed)⟩ } := by
  unfold Sessions.write at h
  split at h
  · next r user htask =>
    obtain ⟨row, hrow, rfl⟩ := Option.map_eq_some_iff.mp h
    obtain ⟨-, rfl⟩ := Row.write_eq_some hrow
    exact ⟨r, user, htask, rfl⟩
  · cases h

theorem commit_cases {id : Nat} (h : s.commit id = some s') :
    ∃ row, s.row.writer = some (id, row) ∧
      ((∃ presented, s.tasks id = .rotated presented ∧
          s' = { s.setTask id .done with
            row := ⟨row, none⟩
            issued := row.token_version :: s.issued
            refreshed := (id, presented) :: s.refreshed }) ∨
        ∃ r user, s.tasks id = .written r user ∧
          s' = { s.setTask id .done with row := ⟨row, none⟩, revoked := s.issued }) := by
  unfold Sessions.commit at h
  split at h
  · next presented htask =>
    obtain ⟨r, hr, rfl⟩ := Option.map_eq_some_iff.mp h
    obtain ⟨row, hwriter, rfl⟩ := Row.commit_eq_some hr
    exact ⟨row, hwriter, .inl ⟨presented, htask, rfl⟩⟩
  · next r user htask =>
    obtain ⟨made, hmade, rfl⟩ := Option.map_eq_some_iff.mp h
    obtain ⟨row, hwriter, rfl⟩ := Row.commit_eq_some hmade
    exact ⟨row, hwriter, .inr ⟨r, user, htask, rfl⟩⟩
  · cases h

theorem held_step {e : Event} (h : Held s) (hstep : s.step a e = some s') : Held s' := by
  cases e with
  | login =>
    cases hstep
    exact h
  | refresh id now token =>
    obtain ⟨hidle, task, rfl⟩ := refresh_cases hstep
    exact h.setTask hidle
  | rotate id =>
    obtain ⟨hfree, hcases⟩ := rotate_cases hstep
    rcases hcases with rfl | rfl
    · exact held_of_free hfree
    · intro holder row hwriter
      cases hwriter
      exact .inl ⟨s.row.committed.token_version, Function.update_self .., rfl, rfl⟩
  | revoke id now caller r =>
    obtain ⟨hidle, rfl⟩ := revoke_cases hstep
    exact h.setTask hidle
  | clear id =>
    rw [clear_cases hstep]
    exact held_of_free rfl
  | write id =>
    obtain ⟨r, user, -, rfl⟩ := write_cases hstep
    intro holder row hwriter
    cases hwriter
    exact .inr ⟨r, user, Function.update_self .., Revocation.write_token_version ..⟩
  | commit id =>
    obtain ⟨row, -, hcases⟩ := commit_cases hstep
    rcases hcases with ⟨presented, -, rfl⟩ | ⟨r, user, -, rfl⟩
    · exact held_of_free rfl
    · exact held_of_free rfl
  | fail id =>
    cases hstep
    intro holder row hwriter
    obtain ⟨hbefore, hother⟩ := Row.rollback_writer hwriter
    have hsame : (s.setTask id .done).tasks holder = s.tasks holder :=
      Function.update_of_ne hother ..
    show (∃ presented, (s.setTask id .done).tasks holder = _ ∧ _) ∨ _
    rw [hsame]
    simpa using h holder row hbefore

/-- What a step other than a commit leaves as it is. -/
theorem step_frame {e : Event} (hstep : s.step a e = some s') (hcommit : ∀ id, e ≠ .commit id) :
    s'.row.committed.token_version = s.row.committed.token_version ∧
      s'.refreshed = s.refreshed ∧ s'.revoked = s.revoked := by
  cases e with
  | login =>
    cases hstep
    exact ⟨rfl, rfl, rfl⟩
  | refresh id now token =>
    obtain ⟨-, task, rfl⟩ := refresh_cases hstep
    exact ⟨rfl, rfl, rfl⟩
  | rotate id =>
    obtain ⟨-, hcases⟩ := rotate_cases hstep
    rcases hcases with rfl | rfl
    · exact ⟨rfl, rfl, rfl⟩
    · exact ⟨rfl, rfl, rfl⟩
  | revoke id now caller r =>
    obtain ⟨-, rfl⟩ := revoke_cases hstep
    exact ⟨rfl, rfl, rfl⟩
  | clear id =>
    rw [clear_cases hstep]
    exact ⟨rfl, rfl, rfl⟩
  | write id =>
    obtain ⟨r, user, -, rfl⟩ := write_cases hstep
    exact ⟨rfl, rfl, rfl⟩
  | commit id => exact absurd rfl (hcommit id)
  | fail id =>
    cases hstep
    exact ⟨by simp, rfl, rfl⟩

end

/-! ## What the row takes -/

/-- No request that reads this row takes a token of the version. -/
def Rejects (row : User) (ver : Nat) : Prop :=
  ∀ now allow_refresh token, token.ver = ver →
    (userFromJwt (account row) now allow_refresh (some token)).toOption = none ∧
      (refreshUser (account row) now (some token)).toOption = none

theorem rejects_of_ne {row : User} {ver : Nat} (h : ver ≠ row.token_version) : Rejects row ver := by
  intro now allow_refresh token hver
  subst hver
  have huser : (tokenUser (account row) token).toOption = none := by
    unfold tokenUser
    split
    · rfl
    · next user hfound =>
      have hrow : user = row := by
        have hone := (Option.filter_eq_some_iff.mp hfound).1
        unfold account at hone
        split at hone
        · exact (Option.some.inj hone).symm
        · cases hone
      rw [if_pos (hrow ▸ h)]
      rfl
  unfold userFromJwt refreshUser
  cases hdecode : decodeJwt now (some token) with
  | none => exact ⟨rfl, rfl⟩
  | some t =>
    obtain rfl : token = t := by
      have hfilter := (Option.filter_eq_some_iff.mp hdecode).1
      exact Option.some.inj hfilter
    constructor
    · simp only
      split
      · rfl
      · exact huser
    · simp only
      split
      · rfl
      · exact huser

end MailCue.Backend.Auth
