import MailCue.Backend.Auth.Router
import MailCue.Lib.Transition

/-!
# What an API key does to accounts

Requests of one API key to the auth router. Most of its endpoints ask who makes the
request and not for a scope, so that what keeps the accounts as they are is never a
scope the key lacks.
-/
namespace MailCue.Backend.Auth
open MailCue.Lib

/-- The update leaves the row as it is. -/
def UserUpdateRequest.Idle (body : UserUpdateRequest) (user : User) : Prop :=
  body.max_mailboxes.getD user.max_mailboxes = user.max_mailboxes ∧
    body.is_active.getD user.is_active = user.is_active ∧
    body.is_admin.getD user.is_admin = user.is_admin

/-- The request writes no account: it only reads or is about keys, or it is turned
down before the endpoint writes, or what it writes stands there. -/
def UserRequest.Quiet (s : Server) (now : Int) (user : User) (db : Database) :
    UserRequest → Prop
  | .register id body => user.is_admin = true → body.password.length < 8 ∨
      (∃ u ∈ db.users.rows, u.username = body.username ∨ u.email = body.email) ∨
      id ∈ db.users.rows.map User.id
  | .changePassword _ new_password => new_password.length < 8 ∨ isAccountLocked now user = true
  | .adminResetPassword username new_password => user.is_admin = true →
      new_password.length < 8 ∨ findUsername db username = none
  | .totpSetup _ encrypted => user.totp_enabled = true ∨ user.totp_secret = some encrypted
  | .totpConfirm _ => user.totp_enabled = true ∨ totpSecret user = none
  | .totpDisable password _ => user.totp_enabled = false ∨ isAccountLocked now user = true ∨
      (s.argon2.verify password user.hashed_password = true ∧
        (totpSecret user).bind s.twoFactor.decrypt = none)
  | .logout => False
  | .updateUser user_id body => user.is_admin = true → ∀ u, db.users.find user_id = some u →
      ((body.is_admin = some false ∨ body.is_active = some false) ∧ u.id = user.id) ∨ body.Idle u
  | .deactivateUser user_id => user.is_admin = true → ∀ u, db.users.find user_id = some u →
      u.id = user.id ∨ u.is_active = false
  | .getCurrentUserInfo | .listApiKeyScopes | .listApiKeys | .key _ | .listUsers => True

/-! ## Runs -/

/-- A request of the key, its time, and the addresses of the user's mailboxes. -/
structure UserCall where
  now : Int
  owned : List Text
  request : UserRequest

structure KeyRun where
  db : Database
  /-- The sessions that the answers have carried. -/
  sessions : List (Token × Token) := []

/-- A raw key that is no longer the key's makes no request. -/
def KeyRun.step (s : Server) (raw_key : Text) (key_id : String) (st : KeyRun) (call : UserCall) :
    KeyRun :=
  match validateApiKey s.argon2 st.db raw_key with
  | none => st
  | some (user, key) =>
    if key.id = key_id then
      let (result, db) := call.request.serve s call.now call.owned ⟨user, some key⟩ st.db
      { db, sessions := st.sessions ++ (result.toOption.bind Response.session?).toList }
    else st

def keyRun (s : Server) (raw_key : Text) (key_id : String) (db : Database) :
    Machine KeyRun UserCall where
  start := { db }
  step := KeyRun.step s raw_key key_id

/-- The accounts are as they were, no answer has been a session, and nobody can log in
who could not before. -/
structure Contained (s : Server) (db : Database) (st : KeyRun) : Prop where
  users : st.db.users = db.users
  sessions : st.sessions = []
  login : ∀ now username password,
    login s now (findUsername st.db username) password =
      login s now (findUsername db username) password
  login2fa : ∀ now temp_token code,
    login2fa s now st.db.users.find temp_token code = login2fa s now db.users.find temp_token code

theorem contained_iff {s : Server} {db : Database} {st : KeyRun} :
    Contained s db st ↔ st.db.users = db.users ∧ st.sessions = [] := by
  constructor
  · intro h
    exact ⟨h.users, h.sessions⟩
  · intro ⟨husers, hsessions⟩
    refine ⟨husers, hsessions, fun now username password => ?_, fun now temp_token code => ?_⟩
    · simp only [findUsername, husers]
    · rw [husers]

/-- Every request of the key is quiet. -/
def QuietCall (s : Server) (raw_key : Text) (key_id : String) (st : KeyRun) (call : UserCall) :
    Prop :=
  ∀ user key, validateApiKey s.argon2 st.db raw_key = some (user, key) → key.id = key_id →
    call.request.Quiet s call.now user st.db

/-! ## One request -/

section
variable {s : Server} {now : Int} {owned : List Text} {auth : AuthContext} {db : Database}

theorem save_users_iff {d : Decision}
    (h : ∀ u, d.commit = some u → ∃ old, db.users.find u.id = some old) :
    (d.save db).2.users = db.users ↔ ∀ u, d.commit = some u → db.users.find u.id = some u := by
  unfold Decision.save
  cases hcommit : d.commit with
  | none => simp
  | some u =>
    obtain ⟨old, hold⟩ := h u hcommit
    show db.users.replace u = db.users ↔ _
    rw [Table.replace_eq_self_iff hold]
    constructor
    · intro heq v hv
      cases hv
      rw [hold, heq]
    · intro hsame
      have hfound := hsame u rfl
      rw [hold] at hfound
      exact (Option.some.inj hfound).symm

/-- An endpoint that commits the row of its caller, if any. -/
theorem save_own_iff {user : User} {d : Decision} (huser : user ∈ db.users.rows)
    (hid : ∀ u, d.commit = some u → u.id = user.id) :
    (d.save db).2.users = db.users ↔ ∀ u, d.commit = some u → u = user := by
  have hfind := Table.find_eq_some_iff.mpr ⟨huser, rfl⟩
  rw [save_users_iff fun u hu => ⟨user, by rw [hid u hu]; exact hfind⟩]
  constructor
  · intro h u hu
    have hfound := h u hu
    rw [hid u hu, hfind] at hfound
    exact (Option.some.inj hfound).symm
  · intro h u hu
    rw [h u hu]
    exact hfind

end

/-- The row a decision commits, if any, is this one. -/
def Decision.Keeps (d : Decision) (user : User) : Prop := ∀ u, d.commit = some u → u = user

@[simp] theorem keeps_none {result : Except HTTPException Response} {user : User} :
    (Decision.mk result none).Keeps user := by
  intro u hu
  cases hu

@[simp] theorem keeps_error {status : Nat} {detail : String} {user : User} :
    (Decision.error status detail).Keeps user := keeps_none

theorem keeps_some {result : Except HTTPException Response} {u user : User} :
    (Decision.mk result (some u)).Keeps user ↔ u = user := by
  constructor
  · intro h
    exact h u rfl
  · intro h v hv
    cases hv
    exact h

section
variable {s : Server} {now : Int} {user : User}

theorem not_keeps_failed {result : Except HTTPException Response} :
    ¬ (Decision.mk result (some (recordFailedLogin s.settings now user))).Keeps user := by
  rw [keeps_some]
  exact recordFailedLogin_ne s.settings now user

theorem not_keeps_version {result : Except HTTPException Response} {u : User}
    (h : u.token_version = user.token_version + 1) :
    ¬ (Decision.mk result (some u)).Keeps user := by
  rw [keeps_some]
  intro heq
  rw [heq] at h
  omega

theorem not_keeps_enabled {result : Except HTTPException Response} {u : User}
    (h : u.totp_enabled ≠ user.totp_enabled) : ¬ (Decision.mk result (some u)).Keeps user := by
  rw [keeps_some]
  intro heq
  exact h (congrArg User.totp_enabled heq)

theorem changePassword_keeps_iff {current_password new_password : Text} :
    (changePassword s now user current_password new_password).Keeps user ↔
      new_password.length < 8 ∨ isAccountLocked now user = true := by
  unfold changePassword
  split
  · next hshort => simp [hshort]
  · next hlong =>
    split
    · next hlocked => simp [hlocked]
    · next hopen =>
      have hnot : ¬ (new_password.length < 8 ∨ isAccountLocked now user = true) := by simp [hlong, hopen]
      split
      · exact iff_of_false not_keeps_failed hnot
      · exact iff_of_false (not_keeps_version (by simp)) hnot

theorem totpSetup_keeps_iff {secret encrypted : Text} :
    (totpSetup user secret encrypted).Keeps user ↔
      user.totp_enabled = true ∨ user.totp_secret = some encrypted := by
  unfold totpSetup
  split
  · next henabled => simp [henabled]
  · next hdisabled =>
    rw [keeps_some]
    constructor
    · intro h
      exact .inr (congrArg User.totp_secret h).symm
    · intro h
      have hsecret := h.resolve_left hdisabled
      cases user
      simp only at hsecret
      rw [hsecret]

theorem totpSecret_some {encrypted : Text} (h : totpSecret user = some encrypted) :
    user.totp_secret = some encrypted := (Option.filter_eq_some_iff.mp h).1

theorem totpConfirm_keeps_iff {code : Text} :
    (totpConfirm s now user code).Keeps user ↔
      user.totp_enabled = true ∨ totpSecret user = none := by
  unfold totpConfirm
  split
  · next henabled => simp [henabled]
  · next hdisabled =>
    split
    · next hnone => simp [hnone]
    · next encrypted hsecret =>
      have hnot : ¬ (user.totp_enabled = true ∨ totpSecret user = none) := by
        simp [hdisabled, hsecret]
      refine iff_of_false ?_ hnot
      split
      · rw [keeps_some]
        intro heq
        have hnone := congrArg User.totp_secret heq
        rw [totpSecret_some hsecret] at hnone
        cases hnone
      · split
        · exact not_keeps_failed
        · exact not_keeps_enabled (by simpa using Ne.symm hdisabled)

theorem totpDisable_keeps_iff {password code : Text} :
    (totpDisable s now user password code).Keeps user ↔
      user.totp_enabled = false ∨ isAccountLocked now user = true ∨
        (s.argon2.verify password user.hashed_password = true ∧
          (totpSecret user).bind s.twoFactor.decrypt = none) := by
  unfold totpDisable
  split
  · next hdisabled => simp [hdisabled]
  · next henabled =>
    have henabled : user.totp_enabled = true := by simpa using henabled
    split
    · next hlocked => simp [hlocked]
    · next hopen =>
      split
      · next hwrong =>
        exact iff_of_false not_keeps_failed (by simp [henabled, hopen, hwrong])
      · next hright =>
        have hright : s.argon2.verify password user.hashed_password = true := by simpa using hright
        split
        · next hnone => simp [hnone, hright]
        · next encrypted hsecret =>
          split
          · next hbroken => simp [hsecret, hbroken, hright]
          · next secret hdecrypted =>
            refine iff_of_false ?_ (by simp [henabled, hopen, hsecret, hdecrypted])
            split
            · exact not_keeps_failed
            · exact not_keeps_enabled (by simp [henabled])

theorem not_logout_keeps : ¬ (logout user).Keeps user := not_keeps_version rfl

/-- The rows an endpoint of the caller's own account commits are the caller's. -/
def Decision.Own (d : Decision) (user : User) : Prop := ∀ u, d.commit = some u → u.id = user.id

theorem own_some {result : Except HTTPException Response} {u : User} (h : u.id = user.id) :
    (Decision.mk result (some u)).Own user := by
  intro v hv
  cases hv
  exact h

theorem own_none {result : Except HTTPException Response} : (Decision.mk result none).Own user := by
  intro v hv
  cases hv

theorem changePassword_own {current_password new_password : Text} :
    (changePassword s now user current_password new_password).Own user := by
  unfold changePassword Decision.error
  split
  · exact own_none
  · split
    · exact own_none
    · split
      · exact own_some (by simp)
      · exact own_some (by simp)

theorem totpSetup_own {secret encrypted : Text} : (totpSetup user secret encrypted).Own user := by
  unfold totpSetup Decision.error
  split
  · exact own_none
  · exact own_some rfl

theorem totpConfirm_own {code : Text} : (totpConfirm s now user code).Own user := by
  unfold totpConfirm Decision.error
  split
  · exact own_none
  · split
    · exact own_none
    · split
      · exact own_some rfl
      · split
        · exact own_some (by simp)
        · exact own_some (by simp)

theorem totpDisable_own {password code : Text} : (totpDisable s now user password code).Own user := by
  unfold totpDisable Decision.error
  split
  · exact own_none
  · split
    · exact own_none
    · split
      · exact own_some (by simp)
      · split
        · exact own_none
        · split
          · exact own_none
          · split
            · exact own_some (by simp)
            · exact own_some (by simp)

theorem logout_own : (logout user).Own user := own_some rfl

end

/-! ## The endpoints of administrators -/

section
variable {s : Server} {admin : User} {db : Database}

/-- An endpoint that commits some row it has read. -/
theorem save_read_iff {result : Except HTTPException Response} {u old : User}
    (hold : old ∈ db.users.rows) (hid : u.id = old.id) :
    ((Decision.mk result (some u)).save db).2.users = db.users ↔ u = old :=
  (save_own_iff hold (own_some hid)).trans keeps_some

theorem register_quiet_iff {id : String} {body : RegisterRequest} :
    (∀ user users, register s id body db.users = .ok (user, users) → users = db.users) ↔
      body.password.length < 8 ∨
        (∃ u ∈ db.users.rows, u.username = body.username ∨ u.email = body.email) ∨
        id ∈ db.users.rows.map User.id := by
  unfold register
  split
  · next hshort => simp [hshort]
  · next hlong =>
    split
    · next hfree =>
      have hnone : ¬ ∃ u ∈ db.users.rows, u.username = body.username ∨ u.email = body.email := by
        intro ⟨u, hu, hsame⟩
        have hnot := List.filter_eq_nil_iff.mp hfree u hu
        simp at hnot
        rcases hsame with hname | hemail
        · exact hnot.1 hname
        · exact hnot.2 hemail
      unfold Table.insert
      by_cases hid : id ∈ db.users.rows.map User.id
      · simp [hid]
      · refine iff_of_false (fun h => ?_) (by simp only [hlong, hnone, hid, or_self, not_false_eq_true])
        simp only [dif_neg hid] at h
        have hsame := congrArg (fun t => t.rows.length) (h _ _ rfl)
        simp at hsame
    · next other hone =>
      have hmem : other ∈ db.users.rows.filter fun u =>
          u.username == body.username || u.email == body.email := by
        rw [hone]
        exact List.mem_singleton_self other
      obtain ⟨hother, hsame⟩ := List.mem_filter.mp hmem
      refine iff_of_true (fun user users h => by cases h) (.inr (.inl ⟨other, hother, ?_⟩))
      simpa using hsame
    · next hnil hone =>
      obtain ⟨other, hmem⟩ := List.exists_mem_of_ne_nil _ hnil
      obtain ⟨hother, hsame⟩ := List.mem_filter.mp hmem
      refine iff_of_true (fun user users h => by cases h) (.inr (.inl ⟨other, hother, ?_⟩))
      simpa using hsame

theorem findUsername_mem {username : Text} {u : User} (h : findUsername db username = some u) :
    u ∈ db.users.rows := List.mem_of_find?_eq_some h

theorem adminResetPassword_quiet_iff {username new_password : Text} :
    ((adminResetPassword s (findUsername db username) username new_password).save db).2.users =
        db.users ↔
      new_password.length < 8 ∨ findUsername db username = none := by
  unfold adminResetPassword
  split
  · next hshort => simp [hshort, Decision.save]
  · next hlong =>
    cases hfind : findUsername db username with
    | none => simp [Decision.save]
    | some u =>
      refine (save_read_iff (findUsername_mem hfind) (by rfl)).trans ?_
      refine iff_of_false ?_ (by simp [hlong])
      intro hsame
      have hversion := congrArg User.token_version hsame
      simp at hversion

theorem updateUser_quiet_iff {user_id : String} {body : UserUpdateRequest} :
    ((updateUser admin (db.users.find user_id) body).save db).2.users = db.users ↔
      ∀ u, db.users.find user_id = some u →
        ((body.is_admin = some false ∨ body.is_active = some false) ∧ u.id = admin.id) ∨
          body.Idle u := by
  cases hfind : db.users.find user_id with
  | none => simp [updateUser, Decision.save, Decision.error]
  | some u =>
    simp only [Option.some.injEq, forall_eq']
    unfold updateUser
    by_cases hown : (body.is_admin = some false ∨ body.is_active = some false) ∧ u.id = admin.id
    · refine iff_of_true ?_ (.inl hown)
      by_cases hadmin : body.is_admin = some false
      · simp [hadmin, hown.2, Decision.save, Decision.error]
      · have hactive := hown.1.resolve_left hadmin
        simp [hadmin, hactive, hown.2, Decision.save, Decision.error]
    · have hadmin : ¬ (body.is_admin = some false ∧ u.id = admin.id) := fun h => hown ⟨.inl h.1, h.2⟩
      have hactive : ¬ (body.is_active = some false ∧ u.id = admin.id) := fun h => hown ⟨.inr h.1, h.2⟩
      simp only [if_neg hadmin, if_neg hactive, hown, false_or]
      refine (save_read_iff (Table.find_eq_some_iff.mp hfind).1 (by rfl)).trans ?_
      unfold UserUpdateRequest.Idle
      cases u
      simp
      tauto

theorem deactivateUser_quiet_iff {user_id : String} :
    ((deactivateUser admin (db.users.find user_id)).save db).2.users = db.users ↔
      ∀ u, db.users.find user_id = some u → u.id = admin.id ∨ u.is_active = false := by
  cases hfind : db.users.find user_id with
  | none => simp [deactivateUser, Decision.save, Decision.error]
  | some u =>
    simp only [Option.some.injEq, forall_eq']
    unfold deactivateUser
    by_cases hown : u.id = admin.id
    · simp [hown, Decision.save, Decision.error]
    · simp only [if_neg hown]
      refine (save_read_iff (Table.find_eq_some_iff.mp hfind).1 (by rfl)).trans ?_
      simp only [hown, false_or]
      cases u
      simp

theorem requireAdmin_quiet_iff {d : Decision} :
    ((requireAdmin admin d).save db).2.users = db.users ↔
      (admin.is_admin = true → (d.save db).2.users = db.users) := by
  unfold requireAdmin
  split
  · next hadmin => simp [hadmin]
  · next hnot => simp [hnot, Decision.save]

end

/-! ## The run -/

section
variable {s : Server} {now : Int} {owned : List Text} {auth : AuthContext} {db : Database}

theorem users_unchanged_iff (hauth : auth.user ∈ db.users.rows) (request : UserRequest) :
    (request.serve s now owned auth db).2.users = db.users ↔ request.Quiet s now auth.user db := by
  cases request with
  | register id body =>
    refine Iff.trans ?_ (imp_congr_right fun _ => register_quiet_iff (s := s))
    simp only [UserRequest.serve]
    split
    · next hadmin =>
      cases hregister : register s id body db.users with
      | error e => simp
      | ok result =>
        obtain ⟨user, users⟩ := result
        simp [hadmin]
    · next hnot => simp [hnot]
  | changePassword current_password new_password =>
    exact (save_own_iff hauth changePassword_own).trans changePassword_keeps_iff
  | adminResetPassword username new_password =>
    exact requireAdmin_quiet_iff.trans (imp_congr_right fun _ => adminResetPassword_quiet_iff)
  | totpSetup secret encrypted => exact (save_own_iff hauth totpSetup_own).trans totpSetup_keeps_iff
  | totpConfirm code => exact (save_own_iff hauth totpConfirm_own).trans totpConfirm_keeps_iff
  | totpDisable password code =>
    exact (save_own_iff hauth totpDisable_own).trans totpDisable_keeps_iff
  | getCurrentUserInfo => exact iff_of_true rfl trivial
  | logout => exact (save_own_iff hauth logout_own).trans (iff_of_false not_logout_keeps id)
  | listApiKeyScopes => exact iff_of_true rfl trivial
  | listApiKeys =>
    refine iff_of_true ?_ trivial
    simp only [UserRequest.serve]
    split <;> rfl
  | key request =>
    refine iff_of_true ?_ trivial
    simp only [UserRequest.serve]
    split <;> rfl
  | listUsers =>
    refine iff_of_true ?_ trivial
    simp only [UserRequest.serve]
    split <;> rfl
  | updateUser user_id body =>
    exact requireAdmin_quiet_iff.trans (imp_congr_right fun _ => updateUser_quiet_iff)
  | deactivateUser user_id =>
    exact requireAdmin_quiet_iff.trans (imp_congr_right fun _ => deactivateUser_quiet_iff)

/-- The answer is no session. -/
def Sessionless (result : Except HTTPException Response) : Prop :=
  result.toOption.bind Response.session? = none

theorem requireAdmin_sessionless {user : User} {d : Decision} (h : Sessionless d.result) :
    Sessionless (requireAdmin user d).result := by
  unfold requireAdmin
  split
  · exact h
  · exact rfl

theorem changePassword_sessionless {user : User} {current_password new_password : Text} :
    Sessionless (changePassword s now user current_password new_password).result := by
  unfold changePassword
  repeat' split
  all_goals rfl

theorem totpSetup_sessionless {user : User} {secret encrypted : Text} :
    Sessionless (totpSetup user secret encrypted).result := by
  unfold totpSetup
  split <;> rfl

theorem totpConfirm_sessionless {user : User} {code : Text} :
    Sessionless (totpConfirm s now user code).result := by
  unfold totpConfirm
  repeat' split
  all_goals rfl

theorem totpDisable_sessionless {user : User} {password code : Text} :
    Sessionless (totpDisable s now user password code).result := by
  unfold totpDisable
  repeat' split
  all_goals rfl

theorem adminResetPassword_sessionless {user : Option User} {username new_password : Text} :
    Sessionless (adminResetPassword s user username new_password).result := by
  unfold adminResetPassword
  repeat' split
  all_goals rfl

theorem updateUser_sessionless {admin : User} {user : Option User} {body : UserUpdateRequest} :
    Sessionless (updateUser admin user body).result := by
  unfold updateUser
  repeat' split
  all_goals rfl

theorem deactivateUser_sessionless {admin : User} {user : Option User} :
    Sessionless (deactivateUser admin user).result := by
  unfold deactivateUser
  repeat' split
  all_goals rfl

theorem serve_sessionless (request : UserRequest) :
    Sessionless (request.serve s now owned auth db).1 := by
  cases request with
  | register id body =>
    simp only [UserRequest.serve]
    repeat' split
    all_goals rfl
  | changePassword current_password new_password => exact changePassword_sessionless
  | adminResetPassword username new_password =>
    exact requireAdmin_sessionless adminResetPassword_sessionless
  | totpSetup secret encrypted => exact totpSetup_sessionless
  | totpConfirm code => exact totpConfirm_sessionless
  | totpDisable password code => exact totpDisable_sessionless
  | getCurrentUserInfo => rfl
  | logout => rfl
  | listApiKeyScopes => rfl
  | listApiKeys =>
    simp only [UserRequest.serve]
    split <;> rfl
  | key request =>
    simp only [UserRequest.serve]
    split
    · rfl
    · next made api_keys hserve => cases made <;> rfl
  | listUsers =>
    simp only [UserRequest.serve]
    split <;> rfl
  | updateUser user_id body => exact requireAdmin_sessionless updateUser_sessionless
  | deactivateUser user_id => exact requireAdmin_sessionless deactivateUser_sessionless

end

section
variable {s : Server} {raw_key : Text} {key_id : String} {st : KeyRun} {call : UserCall}

theorem step_sessions (st : KeyRun) (call : UserCall) :
    (st.step s raw_key key_id call).sessions = st.sessions := by
  unfold KeyRun.step
  split
  · rfl
  · next user key hauth =>
    split
    · have hnone : Sessionless
          (call.request.serve s call.now call.owned ⟨user, some key⟩ st.db).1 :=
        serve_sessionless call.request
      unfold Sessionless at hnone
      simp [hnone]
    · rfl

theorem step_users_iff (st : KeyRun) (call : UserCall) :
    (st.step s raw_key key_id call).db.users = st.db.users ↔
      QuietCall s raw_key key_id st call := by
  unfold KeyRun.step QuietCall
  cases hauth : validateApiKey s.argon2 st.db raw_key with
  | none => simp
  | some found =>
    obtain ⟨user, key⟩ := found
    have huser := (mem_of_validateApiKey hauth).2.1
    have hone : (call.request.serve s call.now call.owned ⟨user, some key⟩ st.db).2.users =
        st.db.users ↔ call.request.Quiet s call.now user st.db :=
      users_unchanged_iff huser call.request
    by_cases hkey : key.id = key_id
    · simp only [if_pos hkey]
      rw [hone]
      constructor
      · intro hquiet user' key' hsame _
        cases hsame
        exact hquiet
      · intro hquiet
        exact hquiet user key rfl hkey
    · simp only [if_neg hkey]
      refine iff_of_true trivial fun user' key' hsame hid => ?_
      cases hsame
      exact absurd hid hkey

end

/-- The requests of a key keep to themselves just when each of them is quiet. -/
theorem key_contained_iff (s : Server) (raw_key : Text) (key_id : String) (db : Database)
    (calls : List UserCall) :
    (keyRun s raw_key key_id db).Always (fun _ st => Contained s db st) calls ↔
      (keyRun s raw_key key_id db).EveryStep (fun _ st call => QuietCall s raw_key key_id st call)
        calls := by
  constructor
  · intro h pre call hpre
    have hbefore := (h pre ((List.prefix_append pre [call]).trans hpre)).users
    have hafter := (h (pre ++ [call]) hpre).users
    rw [Machine.run_snoc] at hafter
    exact (step_users_iff _ call).mp (hafter.trans hbefore.symm)
  · refine Machine.always_of_step (contained_iff.mpr ⟨rfl, rfl⟩) fun pre call hcontained hquiet => ?_
    rw [Machine.run_snoc]
    refine contained_iff.mpr ⟨?_, ?_⟩
    · exact ((step_users_iff _ call).mpr hquiet).trans hcontained.users
    · exact (step_sessions _ call).trans hcontained.sessions

/-! ## A key that may read -/

def administrator : User :=
  { id := "u", username := "admin".toList, email := "admin@corp.test".toList,
    hashed_password := "old password".toList, is_admin := true }

def readsEmail : APIKey :=
  { id := "k", user_id := "u", key_hash := "mc_reads".toList, name := "ci".toList,
    key_prefix := "mc_reads".toList, scopes := some ["email:read"] }

def oneAdministrator : Database :=
  { users := ⟨[administrator], by decide⟩, api_keys := ⟨[readsEmail], by decide⟩ }

def resetsPassword : UserCall :=
  { now := 0, owned := [], request := .adminResetPassword "admin".toList "new password".toList }

/-- It sets the password of its administrator, who it can then log in as. -/
theorem reading_key_takes_account :
    let run := (keyRun .plain "mc_reads".toList "k" oneAdministrator).run [resetsPassword]
    ¬ (keyRun .plain "mc_reads".toList "k" oneAdministrator).Always
        (fun _ st => Contained .plain oneAdministrator st) [resetsPassword] ∧
      ((login .plain 1 (findUsername run.db "admin".toList)
        "new password".toList).result.toOption.bind Response.session?).isSome = true := by
  refine ⟨fun h => ?_, by decide⟩
  have husers := (h [resetsPassword] (List.prefix_refl _)).users
  revert husers
  decide

end MailCue.Backend.Auth
