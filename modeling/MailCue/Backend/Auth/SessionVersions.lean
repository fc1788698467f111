import MailCue.Backend.Auth.Sessions

/-!
# The version that all paths share

A rotation lifts the version by a conditional update, so that of the refreshes that
present one version a single one goes through. A revocation sets the version to the
one it read and one, and takes back the tokens issued before it only where none of
them is from a later version.
-/
namespace MailCue.Backend.Auth
open MailCue.Lib

/-! ## Refreshing alone -/

/-- Logins, refreshes and their ends. -/
def Event.Refreshing : Event → Prop
  | .revoke .. => False
  | _ => True

instance (e : Event) : Decidable e.Refreshing :=
  match e with
  | .revoke .. => .isFalse id
  | .login | .refresh .. | .rotate .. | .clear .. | .write .. | .commit .. | .fail .. =>
    .isTrue trivial

/-- The version only goes up, past every one presented with success. -/
structure Rotating (s : Sessions) : Prop where
  held : Held s
  unrevoked : ∀ id r user, s.tasks id ≠ .revoking r user ∧ s.tasks id ≠ .written r user
  below : ∀ p ∈ s.refreshed, p.2 < s.row.committed.token_version
  once : (s.refreshed.map Prod.snd).Nodup

section
variable {a : Argon2} {s s' : Sessions}

theorem unrevoked_setTask {id : Nat} {task : Task}
    (h : ∀ id r user, s.tasks id ≠ .revoking r user ∧ s.tasks id ≠ .written r user)
    (htask : ∀ r user, task ≠ .revoking r user ∧ task ≠ .written r user) (other : Nat)
    (r : Revocation) (user : User) :
    (s.setTask id task).tasks other ≠ .revoking r user ∧
      (s.setTask id task).tasks other ≠ .written r user := by
  by_cases heq : other = id
  · subst heq
    have hsame : (s.setTask other task).tasks other = task := Function.update_self ..
    rw [hsame]
    exact htask r user
  · have hsame : (s.setTask id task).tasks other = s.tasks other := Function.update_of_ne heq ..
    rw [hsame]
    exact h other r user

theorem refresh_task {id : Nat} {now : Int} {token : Option Token}
    (h : s.refresh id now token = some s') :
    ∃ task, s' = s.setTask id task ∧ ∀ r user, task ≠ .revoking r user ∧ task ≠ .written r user := by
  unfold Sessions.refresh at h
  split at h
  · split at h
    · cases h
      exact ⟨.done, rfl, by simp⟩
    · next user hread =>
      cases h
      exact ⟨.refreshing user, rfl, by simp⟩
  · cases h

theorem unrevoked_step {e : Event}
    (h : ∀ id r user, s.tasks id ≠ .revoking r user ∧ s.tasks id ≠ .written r user)
    (hstep : s.step a e = some s') (hrefreshing : e.Refreshing) (id : Nat) (r : Revocation)
    (user : User) : s'.tasks id ≠ .revoking r user ∧ s'.tasks id ≠ .written r user := by
  cases e with
  | login =>
    cases hstep
    exact h id r user
  | refresh n now token =>
    obtain ⟨task, rfl, htask⟩ := refresh_task hstep
    exact unrevoked_setTask h htask id r user
  | rotate n =>
    obtain ⟨-, hcases⟩ := rotate_cases hstep
    rcases hcases with rfl | rfl
    · exact unrevoked_setTask h (by simp) id r user
    · exact unrevoked_setTask h (by simp) id r user
  | revoke n now caller r => exact hrefreshing.elim
  | clear n =>
    rw [clear_cases hstep]
    exact h id r user
  | write n =>
    obtain ⟨r', user', htask, -⟩ := write_cases hstep
    exact absurd htask (h n r' user').1
  | commit n =>
    obtain ⟨row, -, hcases⟩ := commit_cases hstep
    rcases hcases with ⟨presented, -, rfl⟩ | ⟨r', user', -, rfl⟩
    · exact unrevoked_setTask h (by simp) id r user
    · exact unrevoked_setTask h (by simp) id r user
  | fail n =>
    cases hstep
    exact unrevoked_setTask h (by simp) id r user

theorem rotating_step {e : Event} (h : Rotating s) (hstep : s.step a e = some s')
    (hrefreshing : e.Refreshing) : Rotating s' := by
  have hheld := held_step h.held hstep
  have hunrevoked := unrevoked_step h.unrevoked hstep hrefreshing
  by_cases hcommit : ∃ id, e = .commit id
  · obtain ⟨id, rfl⟩ := hcommit
    obtain ⟨row, hwriter, hcases⟩ := commit_cases hstep
    rcases hcases with ⟨presented, htask, rfl⟩ | ⟨r, user, htask, -⟩
    · obtain ⟨hversion, hrow⟩ : s.row.committed.token_version = presented ∧
          row.token_version = presented + 1 := by
        rcases h.held id row hwriter with ⟨presented', htask', hkept⟩ | ⟨r, user, htask', -⟩
        · rw [htask] at htask'
          cases htask'
          exact hkept
        · exact absurd htask' (h.unrevoked id r user).2
      refine ⟨hheld, hunrevoked, ?_, ?_⟩
      · intro p hp
        show p.2 < row.token_version
        rcases List.mem_cons.mp hp with rfl | hold
        · simp only
          omega
        · have := h.below p hold
          omega
      · show ((id, presented) :: s.refreshed).map Prod.snd |>.Nodup
        rw [List.map_cons, List.nodup_cons]
        refine ⟨fun hmem => ?_, h.once⟩
        obtain ⟨p, hp, hsame⟩ := List.mem_map.mp hmem
        have := h.below p hp
        simp only at hsame
        omega
    · exact absurd htask (h.unrevoked id r user).2
  · obtain ⟨hversion, hrefreshed, -⟩ := step_frame hstep fun id he => hcommit ⟨id, he⟩
    refine ⟨hheld, hunrevoked, ?_, ?_⟩
    · rw [hrefreshed, hversion]
      exact h.below
    · rw [hrefreshed]
      exact h.once

end

/-- Of the refreshes that present one version at most one goes through, in whatever
order their steps are taken, and no token of that version or one before is taken
from then on. -/
theorem refresh_single_use (a : Argon2) (user : User) {events : List Event} {s : Sessions}
    (h : ((sessions a user).guarded fun _ e => e.Refreshing).Run events s) :
    (s.refreshed.map Prod.snd).Nodup ∧
      ∀ p ∈ s.refreshed, ∀ ver ≤ p.2, Rejects s.row.committed ver := by
  have hrotating : Rotating s := by
    refine h.invariant (P := fun _ s => Rotating s) ?_ ?_
    · intro s hs
      subst hs
      exact ⟨held_first user, by simp [Sessions.first], by simp [Sessions.first],
        by simp [Sessions.first]⟩
    · intro events s e s' ih hstep
      exact rotating_step ih hstep.1 hstep.2
  refine ⟨hrotating.once, fun p hp ver hver => rejects_of_ne ?_⟩
  have := hrotating.below p hp
  omega

/-- An account of version 0. -/
def ann : User :=
  { id := "u", username := "ann".toList, email := "ann@corp.test".toList, hashed_password := [] }

def refreshToken (ver : Nat) : Token := ⟨.refresh, "u", ver, 100⟩

/-- Two refreshes with one token; both read the row before either writes it. -/
def refreshesRace : List Event :=
  [.refresh 1 0 (some (refreshToken 0)), .refresh 2 0 (some (refreshToken 0)), .rotate 1, .commit 1,
    .rotate 2]

theorem refresh_single_use_race :
    ∃ s : Sessions, s.refreshed = [(1, 0)] ∧ Rejects s.row.committed 0 := by
  have hstart : ((sessions .plain ann).guarded fun _ e => e.Refreshing).Run []
      (Sessions.first ann) := .start _ rfl
  obtain ⟨s, hexec, hrefreshed⟩ : ∃ s, refreshesRace.foldlM (fun s e =>
      if e.Refreshing then Sessions.step .plain s e else none) (Sessions.first ann) = some s ∧
        s.refreshed = [(1, 0)] := ⟨_, rfl, rfl⟩
  have hrun := hstart.exec_guarded (Sessions.step .plain) refreshesRace s hexec
    fun _ _ _ ht => ht
  refine ⟨s, hrefreshed, ?_⟩
  exact (refresh_single_use .plain ann hrun).2 (1, 0) (by simp [hrefreshed]) 0 le_rfl

/-! ## Revocations -/

/-- A revocation commits while no token is from a later version than it has read. -/
def Current (s : Sessions) : Event → Prop
  | .commit id =>
    match s.tasks id with
    | .written _ user => ∀ v ∈ s.issued, v ≤ user.token_version
    | _ => True
  | _ => True

instance (s : Sessions) (e : Event) : Decidable (Current s e) := by
  unfold Current
  split
  · split <;> infer_instance
  · infer_instance

/-- The row is past every version revoked. -/
structure Revoked (s : Sessions) : Prop where
  held : Held s
  below : ∀ v ∈ s.revoked, v < s.row.committed.token_version

theorem revoked_step {a : Argon2} {s s' : Sessions} {e : Event} (h : Revoked s)
    (hstep : s.step a e = some s') (hcurrent : Current s e) : Revoked s' := by
  have hheld := held_step h.held hstep
  by_cases hcommit : ∃ id, e = .commit id
  · obtain ⟨id, rfl⟩ := hcommit
    obtain ⟨row, hwriter, hcases⟩ := commit_cases hstep
    have hholder := h.held id row hwriter
    rcases hcases with ⟨presented, htask, rfl⟩ | ⟨r, user, htask, rfl⟩
    · refine ⟨hheld, fun v hv => ?_⟩
      have hbelow := h.below v hv
      rcases hholder with ⟨presented', -, hversion, hrow⟩ | ⟨r, user, htask', -⟩
      · show v < row.token_version
        omega
      · rw [htask] at htask'
        cases htask'
    · refine ⟨hheld, fun v hv => ?_⟩
      have hissued : ∀ v ∈ s.issued, v ≤ user.token_version := by
        simpa only [Current, htask] using hcurrent
      have hle := hissued v hv
      rcases hholder with ⟨presented', htask', -⟩ | ⟨r', user', htask', hrow⟩
      · rw [htask] at htask'
        cases htask'
      · rw [htask] at htask'
        cases htask'
        show v < row.token_version
        omega
  · obtain ⟨hversion, -, hrevoked⟩ := step_frame hstep fun id he => hcommit ⟨id, he⟩
    refine ⟨hheld, ?_⟩
    rw [hrevoked, hversion]
    exact h.below

/-- Where every revocation commits while no token is from a later version than it has
read, no token issued from a version read before it is taken afterwards. -/
theorem revocation_complete (a : Argon2) (user : User) {events : List Event} {s : Sessions}
    (h : ((sessions a user).guarded Current).Run events s) :
    ∀ v ∈ s.revoked, Rejects s.row.committed v := by
  have hrevoked : Revoked s := by
    refine h.invariant (P := fun _ s => Revoked s) ?_ ?_
    · intro s hs
      subst hs
      exact ⟨held_first user, by simp [Sessions.first]⟩
    · intro events s e s' ih hstep
      exact revoked_step ih hstep.1 hstep.2
  intro v hv
  have hbelow := hrevoked.below v hv
  exact rejects_of_ne (by omega)

/-- A refresh, then a logout by an API key that has read the row after it. -/
def logoutAfterRefresh : List Event :=
  [.refresh 1 0 (some (refreshToken 0)), .rotate 1, .commit 1, .revoke 2 0 .apiKey .logout, .write 2,
    .commit 2]

theorem revocation_complete_logout :
    ∃ s : Sessions, s.revoked = [1, 0] ∧ Rejects s.row.committed 1 := by
  have hstart : ((sessions .plain ann).guarded Current).Run [] (Sessions.first ann) :=
    .start _ rfl
  obtain ⟨s, hexec, hrevoked⟩ : ∃ s, logoutAfterRefresh.foldlM (fun s e =>
      if Current s e then Sessions.step .plain s e else none) (Sessions.first ann) = some s ∧
        s.revoked = [1, 0] := ⟨_, rfl, rfl⟩
  have hrun := hstart.exec_guarded (Sessions.step .plain) logoutAfterRefresh s hexec
    fun _ _ _ ht => ht
  refine ⟨s, hrevoked, ?_⟩
  exact revocation_complete .plain ann hrun 1 (by simp [hrevoked])

/-- A logout with the access token that the refresh before it leaves behind: it has
read the row, then the refresh goes through, and the logout writes the same version. -/
def logoutAroundRefresh : List Event :=
  [.revoke 2 0 (.session (some ⟨.access, "u", 0, 100⟩) false) .logout,
    .refresh 1 0 (some (refreshToken 0)), .rotate 1, .commit 1, .write 2, .commit 2]

theorem refreshed_session_survives_logout :
    ∃ s, (sessions .plain ann).Run logoutAroundRefresh s ∧ 1 ∈ s.revoked ∧
      ¬ Rejects s.row.committed 1 := by
  have hstart : (sessions .plain ann).Run [] (Sessions.first ann) := .start _ rfl
  obtain ⟨s, hexec, hrevoked, htaken⟩ : ∃ s, logoutAroundRefresh.foldlM
      (Sessions.step .plain) (Sessions.first ann) = some s ∧ s.revoked = [1, 0] ∧
        (userFromJwt (account s.row.committed) 1 false
          (some ⟨.access, "u", 1, 100⟩)).toOption.isSome = true :=
    ⟨_, rfl, rfl, rfl⟩
  have hrun := hstart.exec (Sessions.step .plain) logoutAroundRefresh s hexec
    fun _ _ _ _ ht => ht
  refine ⟨s, by simpa using hrun, by simp [hrevoked], fun hrejects => ?_⟩
  have hnone := (hrejects 1 false ⟨.access, "u", 1, 100⟩ rfl).1
  rw [hnone] at htaken
  cases htaken

end MailCue.Backend.Auth
