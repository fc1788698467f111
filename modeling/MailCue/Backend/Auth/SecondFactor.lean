import MailCue.Backend.Auth.Router
import MailCue.Lib.Transition

/-!
# Guessing the second factor

Logins and second steps on one account at the same time. A request reads the row,
decides on what it has read, and commits the columns that its decision has changed.
Between its read and its commit the others go on. Requests have numbers; commits do
not fail, and the rate limit, which only turns requests away, is left out.
-/
namespace MailCue.Backend.Auth
open MailCue.Lib

/-! ## Requests in their steps -/

inductive Attempt
  | idle
  | first (user : User) (password : Text)
  | second (user : User) (temp_token : Option Token) (code : Text)
  /-- The row as it was read and as the decision has left it, and the answer. -/
  | decided (before after : User) (result : Except HTTPException Response)
  | done

structure Guessing where
  row : User
  attempts : Nat → Attempt
  /-- The requests that have failed an attempt and not committed it. -/
  failing : List Nat
  /-- Wrong codes tried since the account was last locked. -/
  tried : Nat
  /-- Wrong codes tried while the account was locked. -/
  triedLocked : Nat
  /-- A commit other than that of a whole login has lowered the counter. -/
  cleared : Bool

inductive GuessEvent
  | login (id : Nat) (password : Text)
  | login2fa (id : Nat) (temp_token : Option Token) (code : Text)
  | check (id : Nat) (now : Int)
  | commit (id : Nat)

/-- The row looked up by its id. -/
def rowOf (user : User) (id : String) : Option User := if id = user.id then some user else none

/-- The decision of a request that has read the row. -/
def Attempt.decision (srv : Server) (now : Int) : Attempt → Option (User × Decision)
  | .first user password => some (user, login srv now (some user) password)
  | .second user temp_token code => some (user, login2fa srv now (rowOf user) temp_token code)
  | .idle | .decided .. | .done => none

/-- The decision counts against the account. -/
def Decision.failed (d : Decision) : Bool := d.result.toOption.isNone && d.commit.isSome

def Attempt.isSecond : Attempt → Bool
  | .second .. => true
  | _ => false

/-- The row with the columns a decision has changed. -/
def merge (before after row : User) : User :=
  { row with
    failed_login_attempts :=
      if after.failed_login_attempts = before.failed_login_attempts then row.failed_login_attempts
      else after.failed_login_attempts
    locked_until :=
      if after.locked_until = before.locked_until then row.locked_until else after.locked_until }

namespace Guessing

def setAttempt (s : Guessing) (id : Nat) (attempt : Attempt) : Guessing :=
  { s with attempts := Function.update s.attempts id attempt }

def read (s : Guessing) (id : Nat) (attempt : Attempt) : Option Guessing :=
  match s.attempts id with
  | .idle => some (s.setAttempt id attempt)
  | _ => none

def check (srv : Server) (s : Guessing) (id : Nat) (now : Int) : Option Guessing :=
  ((s.attempts id).decision srv now).map fun (user, d) =>
    let guess := d.failed && (s.attempts id).isSecond
    { s.setAttempt id ((d.commit.map fun after => .decided user after d.result).getD .done) with
      failing := if d.failed then id :: s.failing else s.failing
      tried := if guess then s.tried + 1 else s.tried
      triedLocked :=
        if guess && isAccountLocked now s.row then s.triedLocked + 1 else s.triedLocked }

/-- A failed attempt that reaches the threshold locks the account. -/
def commit (srv : Server) (s : Guessing) (id : Nat) : Option Guessing :=
  match s.attempts id with
  | .decided before after result =>
    let row := merge before after s.row
    let locks := result.toOption.isNone = true ∧
      srv.settings.max_failed_login_attempts ≤ after.failed_login_attempts
    let whole := (result.toOption.bind Response.session?).isSome
    some { s.setAttempt id .done with
      row
      failing := s.failing.erase id
      tried := if locks then 0 else s.tried
      cleared := s.cleared ||
        (!whole && decide (row.failed_login_attempts < s.row.failed_login_attempts)) }
  | _ => none

def step (srv : Server) (s : Guessing) : GuessEvent → Option Guessing
  | .login id password => s.read id (.first s.row password)
  | .login2fa id temp_token code => s.read id (.second s.row temp_token code)
  | .check id now => s.check srv id now
  | .commit id => s.commit srv id

def start (user : User) : Guessing where
  row := user
  attempts := fun _ => .idle
  failing := []
  tried := 0
  triedLocked := 0
  cleared := false

end Guessing

/-! ## Runs -/

/-- No code is right when it is looked at. -/
def WrongCodes (srv : Server) (s : Guessing) : GuessEvent → Prop
  | .check id now =>
    match s.attempts id with
    | .second user _ code => ((totpSecret user).bind srv.twoFactor.decrypt).all
        (fun secret => !srv.twoFactor.verify secret code now) = true
    | _ => True
  | _ => True

instance (srv : Server) (s : Guessing) (e : GuessEvent) : Decidable (WrongCodes srv s e) := by
  unfold WrongCodes
  split
  · split <;> infer_instance
  · infer_instance

/-- The requests of a client without a right code. -/
def guessing (srv : Server) (user : User) : System Guessing GuessEvent where
  init s := s = Guessing.start user
  step s e s' := WrongCodes srv s e ∧ s.step srv e = some s'

/-- No more codes are tried than the threshold before the account is locked, none while
it is, and nothing but a whole login clears the counter. -/
structure Bounded2fa (srv : Server) (s : Guessing) : Prop where
  tried : (s.tried : Int) ≤ srv.settings.max_failed_login_attempts
  locked : s.triedLocked = 0
  kept : s.cleared = false

/-- A failed attempt is decided while the counter and the lock are as its request has
read them, and no other is waiting to be committed; a right password is not looked at
while the row it is checked against counts failures or bears a lock. -/
def Orderly (srv : Server) (s : Guessing) : GuessEvent → Prop
  | .check id now =>
    match (s.attempts id).decision srv now with
    | none => True
    | some (user, d) =>
      (d.failed = true → s.failing = [] ∧
        user.failed_login_attempts = s.row.failed_login_attempts ∧
        user.locked_until = s.row.locked_until) ∧
      ((s.attempts id).isSecond = false → d.result.toOption.isSome = true →
        user.failed_login_attempts = 0 ∧ user.locked_until = none)
  | _ => True

instance (srv : Server) (s : Guessing) (e : GuessEvent) : Decidable (Orderly srv s e) := by
  unfold Orderly
  split
  · split <;> infer_instance
  · infer_instance

/-! ## Decisions -/

section
variable {srv : Server} {now : Int}

theorem login_cases (user : User) (password : Text) :
    let d := login srv now (some user) password
    (d.result.toOption = none ∧ d.commit = none) ∨
      (d.result.toOption = none ∧ d.commit = some (recordFailedLogin srv.settings now user) ∧
        isAccountLocked now user = false) ∨
      (d.result.toOption.isSome = true ∧ d.commit = some (resetFailedLogin user)) := by
  unfold login
  split
  · exact .inl ⟨rfl, rfl⟩
  · next u huser =>
    cases huser
    split
    · exact .inl ⟨rfl, rfl⟩
    · next hopen =>
      have hopen : isAccountLocked now user = false := by simpa using hopen
      split
      · exact .inr (.inl ⟨rfl, rfl, hopen⟩)
      · split
        · exact .inl ⟨rfl, rfl⟩
        · split
          · exact .inr (.inr ⟨rfl, rfl⟩)
          · exact .inr (.inr ⟨rfl, rfl⟩)

/-- The row a token leads to is the one looked up. -/
theorem temporaryUser_rowOf {user found : User} {temp_token : Option Token}
    (h : temporaryUser now (rowOf user) temp_token = .ok found) : found = user := by
  unfold temporaryUser at h
  split at h
  · cases h
  · split at h
    · cases h
    · unfold tokenUser at h
      split at h
      · cases h
      · next u hu =>
        split at h
        · cases h
        · cases h
          have hone := (Option.filter_eq_some_iff.mp hu).1
          unfold rowOf at hone
          split at hone
          · exact (Option.some.inj hone).symm
          · cases hone

theorem login2fa_cases (user : User) (temp_token : Option Token) (code : Text)
    (hwrong : ((totpSecret user).bind srv.twoFactor.decrypt).all
      (fun secret => !srv.twoFactor.verify secret code now) = true) :
    let d := login2fa srv now (rowOf user) temp_token code
    (d.result.toOption = none ∧ d.commit = none) ∨
      (d.result.toOption = none ∧ d.commit = some (recordFailedLogin srv.settings now user) ∧
        isAccountLocked now user = false) := by
  unfold login2fa
  split
  · exact .inl ⟨rfl, rfl⟩
  · next found hfound =>
    obtain rfl := temporaryUser_rowOf hfound
    split
    · exact .inl ⟨rfl, rfl⟩
    · next hopen =>
      have hopen : isAccountLocked now found = false := by simpa using hopen
      split
      · exact .inl ⟨rfl, rfl⟩
      · next encrypted hsecret =>
        split
        · exact .inl ⟨rfl, rfl⟩
        · next secret hdecrypted =>
          split
          · exact .inr ⟨rfl, rfl, hopen⟩
          · next hright =>
            simp [hsecret, hdecrypted] at hwrong
            simp [hwrong] at hright

/-- What the decision of a request without a right code is. -/
theorem decision_cases {s : Guessing} {id : Nat} {user : User} {d : Decision}
    (h : (s.attempts id).decision srv now = some (user, d))
    (hwrong : WrongCodes srv s (.check id now)) :
    (d.result.toOption = none ∧ d.commit = none) ∨
      (d.result.toOption = none ∧ d.commit = some (recordFailedLogin srv.settings now user) ∧
        isAccountLocked now user = false) ∨
      ((s.attempts id).isSecond = false ∧ d.result.toOption.isSome = true ∧
        d.commit = some (resetFailedLogin user)) := by
  cases hattempt : s.attempts id with
  | idle =>
    rw [hattempt] at h
    cases h
  | first u password =>
    rw [hattempt] at h
    cases h
    rcases login_cases user password with hturned | hfailed | hright
    · exact .inl hturned
    · exact .inr (.inl hfailed)
    · exact .inr (.inr ⟨rfl, hright⟩)
  | second u temp_token code =>
    rw [hattempt] at h
    cases h
    have hwrong' : ((totpSecret user).bind srv.twoFactor.decrypt).all
        (fun secret => !srv.twoFactor.verify secret code now) = true := by
      simpa only [WrongCodes, hattempt] using hwrong
    rcases login2fa_cases user temp_token code hwrong' with hturned | hfailed
    · exact .inl hturned
    · exact .inr (.inl hfailed)
  | decided before after result =>
    rw [hattempt] at h
    cases h
  | done =>
    rw [hattempt] at h
    cases h

theorem merge_self (user row : User) : merge user user row = row := by
  simp [merge]

/-- A failed attempt goes on top of the counter it was read with. -/
theorem merge_failed {settings : Settings} {before row : User}
    (h : before.failed_login_attempts = row.failed_login_attempts) :
    (merge before (recordFailedLogin settings now before) row).failed_login_attempts =
      row.failed_login_attempts + 1 := by
  have hne : ¬ row.failed_login_attempts + 1 = row.failed_login_attempts := by omega
  simp only [merge, recordFailedLogin_attempts, h, if_neg hne]

theorem resetFailedLogin_of_clear {user : User} (hattempts : user.failed_login_attempts = 0)
    (hlocked : user.locked_until = none) : resetFailedLogin user = user := by
  unfold resetFailedLogin
  rw [if_neg]
  simp [hattempts, hlocked]

end

/-! ## The invariant -/

/-- The tries the counter stands for: past the threshold the account has been locked
since, or will be by the next. -/
def stood (settings : Settings) (row : User) : Nat :=
  if (row.failed_login_attempts : Int) < settings.max_failed_login_attempts then
    row.failed_login_attempts
  else 0

/-- What is decided and does not wait as a failed attempt has succeeded, and changes
nothing. -/
def Settled (attempts : Nat → Attempt) (failing : List Nat) : Prop :=
  ∀ id before after result, attempts id = .decided before after result → id ∉ failing →
    after = before ∧ result.toOption.isSome = true

theorem Settled.update {attempts : Nat → Attempt} {failing failing' : List Nat} {id : Nat}
    {attempt : Attempt} (h : Settled attempts failing)
    (hid : ∀ before after result, attempt = .decided before after result → id ∉ failing' →
      after = before ∧ result.toOption.isSome = true)
    (hothers : ∀ other, other ≠ id → other ∉ failing' → other ∉ failing) :
    Settled (Function.update attempts id attempt) failing' := by
  intro other before after result hother hnot
  by_cases heq : other = id
  · subst heq
    rw [Function.update_self] at hother
    exact hid before after result hother hnot
  · rw [Function.update_of_ne heq] at hother
    exact h other before after result hother (hothers other heq hnot)

/-- At most one failed attempt waits for its commit, the row still as it has read it;
what else waits changes nothing; and the codes tried are counted. -/
structure Counted (srv : Server) (s : Guessing) : Prop where
  settled : Settled s.attempts s.failing
  waiting : s.failing = [] ∨ ∃ id before now result, s.failing = [id] ∧
    s.attempts id = .decided before (recordFailedLogin srv.settings now before) result ∧
    result.toOption = none ∧ before.failed_login_attempts = s.row.failed_login_attempts
  tried : s.tried ≤ stood srv.settings s.row + s.failing.length
  locked : s.triedLocked = 0
  kept : s.cleared = false

section
variable {srv : Server} {s s' : Guessing}

theorem Counted.not_failing {id : Nat} (h : Counted srv s)
    (hid : ∀ before after result, s.attempts id ≠ .decided before after result) :
    id ∉ s.failing := by
  rcases h.waiting with hnone | ⟨one, before, now, result, hfailing, hone, -⟩
  · simp [hnone]
  · intro hmem
    obtain rfl : id = one := by simpa [hfailing] using hmem
    exact hid _ _ _ hone

/-- A request that is not waiting goes on to something that need not wait. -/
theorem Counted.setAttempt {id : Nat} {attempt : Attempt} (h : Counted srv s)
    (hid : id ∉ s.failing)
    (hsettled : ∀ before after result, attempt = .decided before after result →
      after = before ∧ result.toOption.isSome = true) : Counted srv (s.setAttempt id attempt) := by
  refine ⟨h.settled.update (fun before after result heq _ => hsettled before after result heq)
    fun _ _ hnot => hnot, ?_, h.tried, h.locked, h.kept⟩
  rcases h.waiting with hnone | ⟨one, before, now, result, hfailing, hone, hrest⟩
  · exact .inl hnone
  · have hother : one ≠ id := by
      intro heq
      subst heq
      simp [hfailing] at hid
    have hsame : (s.setAttempt id attempt).attempts one = s.attempts one :=
      Function.update_of_ne hother ..
    exact .inr ⟨one, before, now, result, hfailing, by rw [hsame]; exact hone, hrest⟩

theorem Counted.read {id : Nat} {attempt : Attempt} (h : Counted srv s)
    (hattempt : ∀ before after result, attempt ≠ .decided before after result)
    (hread : s.read id attempt = some s') : Counted srv s' := by
  unfold Guessing.read at hread
  split at hread
  · next hidle =>
    cases hread
    refine h.setAttempt (h.not_failing ?_) fun before after result heq => ?_
    · rw [hidle]
      intro before after result heq
      cases heq
    · exact absurd heq (hattempt before after result)
  · cases hread

theorem Counted.check {id : Nat} {now : Int} (h : Counted srv s)
    (hwrong : WrongCodes srv s (.check id now)) (horderly : Orderly srv s (.check id now))
    (hcheck : s.check srv id now = some s') : Counted srv s' := by
  unfold Guessing.check at hcheck
  obtain ⟨⟨user, d⟩, hdecision, hs'⟩ := Option.map_eq_some_iff.mp hcheck
  simp only [Orderly, hdecision] at horderly
  obtain ⟨hfresh, hclear⟩ := horderly
  have hid : id ∉ s.failing := by
    refine h.not_failing fun before after result heq => ?_
    rw [heq] at hdecision
    cases hdecision
  rcases decision_cases hdecision hwrong with ⟨hresult, hcommit⟩ | ⟨hresult, hcommit, hopen⟩ |
    ⟨hfirst, hresult, hcommit⟩
  · -- turned away
    have hnot : d.failed = false := by simp [Decision.failed, hcommit]
    simp only [hnot, hcommit, Bool.false_and, Option.map_none, Option.getD_none] at hs'
    subst hs'
    exact h.setAttempt hid fun before after result heq => by cases heq
  · -- an attempt that fails, the only one under way
    have hfailed : d.failed = true := by simp [Decision.failed, hresult, hcommit]
    obtain ⟨hnone, hattempts, hlock⟩ := hfresh hfailed
    have hunlocked : isAccountLocked now s.row = false := by
      unfold isAccountLocked at hopen ⊢
      rwa [← hlock]
    simp only [hfailed, hcommit, hnone, hunlocked, Bool.true_and, Bool.and_false, if_true,
      Option.map_some, Option.getD_some] at hs'
    subst hs'
    refine ⟨h.settled.update (fun before after result _ hnot => absurd List.mem_cons_self hnot)
      fun other _ _ => by simp [hnone], .inr ⟨id, user, now, d.result, rfl,
      Function.update_self .., hresult, hattempts⟩, ?_, h.locked, h.kept⟩
    have hle : s.tried ≤ stood srv.settings s.row + s.failing.length := h.tried
    rw [hnone] at hle
    show (if (s.attempts id).isSecond = true then s.tried + 1 else s.tried) ≤
      stood srv.settings s.row + 1
    simp only [List.length_nil] at hle
    split <;> omega
  · -- a right password, which leaves a clear row as it is
    obtain ⟨hattempts, hlock⟩ := hclear hfirst hresult
    have hnot : d.failed = false := by
      unfold Decision.failed
      rw [Bool.and_eq_false_iff]
      left
      simpa [← Option.not_isSome] using hresult
    rw [resetFailedLogin_of_clear hattempts hlock] at hcommit
    simp only [hnot, hcommit, Bool.false_and, Option.map_some, Option.getD_some] at hs'
    subst hs'
    refine h.setAttempt hid fun before after result heq => ?_
    cases heq
    exact ⟨rfl, hresult⟩

theorem stood_le (settings : Settings) (row : User) : stood settings row ≤ row.failed_login_attempts := by
  unfold stood
  split
  · exact le_rfl
  · exact Nat.zero_le _

theorem Counted.commit {id : Nat} (h : Counted srv s) (hcommit : s.commit srv id = some s') :
    Counted srv s' := by
  unfold Guessing.commit at hcommit
  split at hcommit
  · next before after result hcheckd =>
    cases hcommit
    by_cases hmem : id ∈ s.failing
    · -- the attempt that waited is counted, and may lock the account
      rcases h.waiting with hnone | ⟨one, before', now, result', hfailing, hone, hresult, hattempts⟩
      · rw [hnone] at hmem
        cases hmem
      · obtain rfl : id = one := by simpa [hfailing] using hmem
        rw [hcheckd] at hone
        cases hone
        have hrow : (merge before (recordFailedLogin srv.settings now before)
            s.row).failed_login_attempts = s.row.failed_login_attempts + 1 :=
          merge_failed hattempts
        have htried : s.tried ≤ stood srv.settings s.row + 1 := by
          have hbefore := h.tried
          rwa [hfailing] at hbefore
        have hempty : s.failing.erase id = [] := by simp [hfailing]
        refine ⟨h.settled.update (fun _ _ _ heq => by cases heq) fun other hne _ => by
          simp [hfailing, hne], .inl hempty, ?_, h.locked, ?_⟩
        · show (if _ then 0 else s.tried) ≤ stood srv.settings
            (merge before (recordFailedLogin srv.settings now before) s.row) +
              (s.failing.erase id).length
          split
          · exact Nat.zero_le _
          · next hbelow =>
            have hunder : ¬ srv.settings.max_failed_login_attempts ≤
                ((before.failed_login_attempts + 1 : Nat) : Int) := by
              intro hle
              refine hbelow ⟨by simp [hresult], ?_⟩
              rw [recordFailedLogin_attempts]
              exact hle
            have hstood := stood_le srv.settings s.row
            unfold stood at hstood ⊢
            rw [hrow, if_pos (by omega)]
            unfold stood at htried
            omega
        · show (s.cleared || (_ && decide ((merge before (recordFailedLogin srv.settings now before)
            s.row).failed_login_attempts < s.row.failed_login_attempts))) = false
          rw [hrow, h.kept]
          simp
    · obtain ⟨rfl, hresult⟩ := h.settled id before after result hcheckd hmem
      have hempty : s.failing.erase id = s.failing := List.erase_of_not_mem hmem
      have hnone : result.toOption ≠ none := by
        intro hnone
        rw [hnone] at hresult
        cases hresult
      have hdone : Counted srv (s.setAttempt id .done) :=
        h.setAttempt hmem fun _ _ _ heq => by cases heq
      simpa [merge_self, hempty, hnone, h.kept, Guessing.setAttempt] using hdone
  · cases hcommit

theorem Counted.step {e : GuessEvent} (h : Counted srv s) (hwrong : WrongCodes srv s e)
    (horderly : Orderly srv s e) (hstep : s.step srv e = some s') : Counted srv s' := by
  cases e with
  | login id password => exact h.read (fun _ _ _ heq => by cases heq) hstep
  | login2fa id temp_token code => exact h.read (fun _ _ _ heq => by cases heq) hstep
  | check id now => exact h.check hwrong horderly hstep
  | commit id => exact h.commit hstep

theorem Counted.start (user : User) : Counted srv (Guessing.start user) := by
  refine ⟨fun id before after result heq _ => ?_, .inl rfl, Nat.zero_le _, rfl, rfl⟩
  cases heq

theorem Counted.bounded (h : Counted srv s) (hmax : 1 ≤ srv.settings.max_failed_login_attempts) :
    Bounded2fa srv s := by
  refine ⟨?_, h.locked, h.kept⟩
  have hfailing : s.failing.length ≤ 1 := by
    rcases h.waiting with hnone | ⟨id, before, now, result, hone, -⟩
    · simp [hnone]
    · simp [hone]
  have htried := h.tried
  unfold stood at htried
  split at htried <;> omega

end

/-- Without a right code no more codes are tried than the threshold before the account
is locked, and none while it is, where the attempts that fail come one after another
and no right password comes in between. -/
theorem guesses_bounded (srv : Server) (user : User)
    (hmax : 1 ≤ srv.settings.max_failed_login_attempts) {events : List GuessEvent} {s : Guessing}
    (h : ((guessing srv user).guarded (Orderly srv)).Run events s) : Bounded2fa srv s := by
  have hcounted : Counted srv s := by
    refine h.invariant (P := fun _ s => Counted srv s) ?_ ?_
    · intro s hs
      subst hs
      exact Counted.start user
    · intro events s e s' ih hstep
      exact ih.step hstep.1.1 hstep.2 hstep.1.2
  exact hcounted.bounded hmax

/-! ## A password in between -/

/-- An account with a second factor. -/
def withTotp : User :=
  { id := "u", username := "ann".toList, email := "ann@corp.test".toList,
    hashed_password := "password".toList, totp_enabled := true, totp_secret := some "secret".toList }

/-- A request from its read to its commit. -/
def triesCode (id : Nat) : List GuessEvent :=
  [.login2fa id (some ⟨.twoFactor, "u", 0, 90⟩) "guess".toList, .check id 0, .commit id]

def logsIn (id : Nat) : List GuessEvent :=
  [.login id "password".toList, .check id 0, .commit id]

/-- The step function of the runs. -/
def guessStep (srv : Server) (s : Guessing) (e : GuessEvent) : Option Guessing :=
  if WrongCodes srv s e then s.step srv e else none

theorem guessStep_some {srv : Server} {s s' : Guessing} {e : GuessEvent}
    (h : guessStep srv s e = some s') : WrongCodes srv s e ∧ s.step srv e = some s' := by
  unfold guessStep at h
  split at h
  · next hwrong => exact ⟨hwrong, h⟩
  · cases h

theorem guesses_bounded_five :
    ∃ s : Guessing, s.row.locked_until = some 900 ∧ Bounded2fa .plain s := by
  have hstart : ((guessing .plain withTotp).guarded (Orderly .plain)).Run [] (.start withTotp) :=
    .start _ rfl
  obtain ⟨s, hexec, hlocked⟩ : ∃ s, ([1, 2, 3, 4, 5].flatMap triesCode).foldlM
      (fun s e => if Orderly .plain s e then guessStep .plain s e else none)
      (Guessing.start withTotp) = some s ∧ s.row.locked_until = some 900 := ⟨_, rfl, rfl⟩
  have hrun := hstart.exec_guarded (guessStep .plain) _ s hexec fun _ _ _ h => guessStep_some h
  exact ⟨s, hlocked, guesses_bounded .plain withTotp (by decide) hrun⟩

/-- Four codes, the password, four codes again, and so on. -/
def alternating : List GuessEvent :=
  [1, 2, 3, 4].flatMap triesCode ++ logsIn 5 ++ [6, 7, 8, 9].flatMap triesCode

theorem password_clears_counter :
    ∃ s, (guessing .plain withTotp).Run alternating s ∧ s.row.locked_until = none ∧ s.tried = 8 ∧
      s.cleared = true ∧ ¬ Bounded2fa .plain s := by
  have hstart : (guessing .plain withTotp).Run [] (.start withTotp) := .start _ rfl
  obtain ⟨s, hexec, hopen, htried, hcleared⟩ : ∃ s, alternating.foldlM (guessStep .plain)
      (Guessing.start withTotp) = some s ∧ s.row.locked_until = none ∧ s.tried = 8 ∧
        s.cleared = true := ⟨_, rfl, rfl, rfl, rfl⟩
  have hrun := hstart.exec (guessStep .plain) alternating s hexec fun _ _ _ _ h => guessStep_some h
  refine ⟨s, by simpa using hrun, hopen, htried, hcleared, fun hbounded => ?_⟩
  rw [hbounded.kept] at hcleared
  cases hcleared

end MailCue.Backend.Auth
