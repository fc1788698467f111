import MailCue.Backend.Warmup.Campaign

/-!
# Claims of a deliverability schedule

backend/app/deliverability/scheduler.py, `_claim_due_schedule`, of any number of workers on
one schedule that nobody edits. A worker reads the clock, then the row, and its update
finds the row as it was read or changes nothing. A claimed slot is the time it was due at.
-/
namespace MailCue.Backend.Deliverability
open MailCue.Lib
open MailCue.Backend.Warmup (minutes)

structure DeliverabilitySchedule where
  enabled : Bool
  interval_minutes : Nat
  next_run_at : Option Int
  last_run_at : Option Int
  /-- `Field(ge=5, le=43_200)` -/
  interval_ok : 5 ≤ interval_minutes ∧ interval_minutes ≤ 43200
  deriving DecidableEq

inductive Worker
  /-- The clock has been read. -/
  | started (now : Int)
  | selected (now expected_next_run : Int) (interval_minutes : Nat)
  | claimed (claimed_at : Int)
  | done
  deriving DecidableEq

structure Claim where
  slot : Int
  claimed_at : Int
  deriving DecidableEq

structure State where
  clock : Int
  schedule : DeliverabilitySchedule
  workers : List Worker
  claims : List Claim
  deriving DecidableEq

inductive Event
  | tick (clock : Int)
  | start
  /-- `skipped`: another schedule comes first, or another worker has the row locked. -/
  | select (w : Nat) (skipped : Bool)
  | claim (w : Nat)
  | mailbox (w : Nat) (is_active : Bool)
  | exit (w : Nat)
  deriving DecidableEq

namespace State

variable (s : State)

def set (w : Nat) (worker : Worker) : State := { s with workers := s.workers.set w worker }

def due (now : Int) : Option Int :=
  if s.schedule.enabled then s.schedule.next_run_at.filter (· ≤ now) else none

def select (w : Nat) (skipped : Bool) : Option State :=
  match s.workers[w]? with
  | some (.started now) =>
    match s.due now with
    | some expected_next_run =>
      if skipped then some (s.set w .done)
      else some (s.set w (.selected now expected_next_run s.schedule.interval_minutes))
    | none => some (s.set w .done)
  | _ => none

def claim (w : Nat) : Option State :=
  match s.workers[w]? with
  | some (.selected claimed_at expected_next_run interval_minutes) =>
    if s.schedule.enabled ∧ s.schedule.next_run_at = some expected_next_run then
      some { s.set w (.claimed claimed_at) with
        schedule := { s.schedule with
          last_run_at := some claimed_at
          next_run_at := some (claimed_at + minutes interval_minutes) }
        claims := s.claims ++ [⟨expected_next_run, claimed_at⟩] }
    else some (s.set w .done)
  | _ => none

/-- A schedule without an active mailbox is switched off. -/
def mailbox (w : Nat) (is_active : Bool) : Option State :=
  match s.workers[w]? with
  | some (.claimed _) =>
    if is_active then some (s.set w .done)
    else some { s.set w .done with
      schedule := { s.schedule with enabled := false, next_run_at := none } }
  | _ => none

def step : Event → Option State
  | .tick clock => if s.clock ≤ clock then some { s with clock } else none
  | .start => some { s with workers := s.workers ++ [.started s.clock] }
  | .select w skipped => s.select w skipped
  | .claim w => s.claim w
  | .mailbox w is_active => s.mailbox w is_active
  | .exit w => if w < s.workers.length then some (s.set w .done) else none

end State

def schedulers : System State Event where
  init s := s.workers = [] ∧ s.claims = []
  step s e s' := s.step e = some s'

/-! ## One claim a slot -/

/-- No slot is claimed twice, and a claim comes an interval or more behind the one before. -/
structure Spaced (interval_minutes : Nat) (claims : List Claim) : Prop where
  once : (claims.map (·.slot)).Nodup
  apart : claims.Pairwise fun c c' => c.claimed_at + minutes interval_minutes ≤ c'.claimed_at

/-- What was read is due, and what was claimed lies an interval or more before what is next. -/
structure Kept (interval_minutes : Nat) (s : State) : Prop where
  interval : s.schedule.interval_minutes = interval_minutes
  selected : ∀ now expected_next_run interval, .selected now expected_next_run interval ∈ s.workers →
    expected_next_run ≤ now ∧ interval = interval_minutes
  past : ∀ c ∈ s.claims, c.slot ≤ c.claimed_at ∧ ∀ next, s.schedule.next_run_at = some next →
    c.claimed_at + minutes interval_minutes ≤ next
  spaced : Spaced interval_minutes s.claims

section
variable {interval_minutes : Nat} {s s' : State}

theorem Kept.set (h : Kept interval_minutes s) (w : Nat) {worker : Worker}
    (hworker : ∀ now expected_next_run interval, worker = .selected now expected_next_run interval →
      expected_next_run ≤ now ∧ interval = interval_minutes) :
    Kept interval_minutes (s.set w worker) where
  interval := h.interval
  selected now expected_next_run interval hmem := by
    rcases List.mem_or_eq_of_mem_set hmem with hin | heq
    · exact h.selected now expected_next_run interval hin
    · exact hworker now expected_next_run interval heq.symm
  past := h.past
  spaced := h.spaced

theorem Kept.done (h : Kept interval_minutes s) (w : Nat) : Kept interval_minutes (s.set w .done) :=
  h.set w fun _ _ _ hno => nomatch hno

theorem kept_select {w : Nat} {skipped : Bool} (h : Kept interval_minutes s)
    (hstep : s.select w skipped = some s') : Kept interval_minutes s' := by
  unfold State.select at hstep
  split at hstep
  · rename_i now hworker
    split at hstep
    · rename_i expected_next_run hdue
      split at hstep
      · cases hstep
        exact h.done w
      · cases hstep
        refine h.set w ?_
        rintro _ _ _ ⟨⟩
        refine ⟨?_, h.interval⟩
        obtain ⟨-, hdue⟩ := Option.ite_none_right_eq_some.mp hdue
        simpa using (Option.filter_eq_some_iff.mp hdue).2
    · cases hstep
      exact h.done w
  · cases hstep

/-- The slot that is claimed is the one that comes behind every claim so far. -/
theorem kept_claim {w : Nat} (h : Kept interval_minutes s) (hstep : s.claim w = some s') :
    Kept interval_minutes s' := by
  have hpositive : (0 : Int) < minutes interval_minutes := by
    have hfloor := s.schedule.interval_ok.1
    rw [h.interval] at hfloor
    unfold minutes
    omega
  unfold State.claim at hstep
  split at hstep
  · rename_i claimed_at expected_next_run interval hworker
    obtain ⟨hdue, rfl⟩ := h.selected _ _ _ (List.mem_of_getElem? hworker)
    split at hstep
    · rename_i hfound
      cases hstep
      have hbehind : ∀ c ∈ s.claims,
          c.slot ≤ c.claimed_at ∧ c.claimed_at + minutes interval ≤ expected_next_run :=
        fun c hc => ⟨(h.past c hc).1, (h.past c hc).2 _ hfound.2⟩
      have hset : Kept interval (s.set w (.claimed claimed_at)) :=
        h.set w fun _ _ _ hno => nomatch hno
      refine ⟨h.interval, hset.selected, ?_, ?_, ?_⟩
      · intro c hc
        dsimp only at hc ⊢
        rcases List.mem_append.mp hc with hold | hnew
        · refine ⟨(hbehind c hold).1, ?_⟩
          rintro next ⟨⟩
          have hle := (hbehind c hold).2
          omega
        · rw [List.mem_singleton.mp hnew]
          refine ⟨hdue, ?_⟩
          rintro next ⟨⟩
          exact le_refl _
      · rw [List.map_append, List.map_singleton]
        refine List.nodup_append.mpr ⟨h.spaced.once, List.nodup_singleton _, ?_⟩
        intro slot hslot _ hlast heq
        obtain ⟨c, hc, rfl⟩ := List.mem_map.mp hslot
        have hle := hbehind c hc
        rw [List.mem_singleton.mp hlast] at heq
        dsimp only at heq
        omega
      · refine List.pairwise_append.mpr ⟨h.spaced.apart, List.pairwise_singleton _ _, ?_⟩
        intro c hc c' hc'
        have hle := (hbehind c hc).2
        rw [List.mem_singleton.mp hc']
        dsimp only
        omega
    · cases hstep
      exact h.done w
  · cases hstep

theorem kept_mailbox {w : Nat} {is_active : Bool} (h : Kept interval_minutes s)
    (hstep : s.mailbox w is_active = some s') : Kept interval_minutes s' := by
  unfold State.mailbox at hstep
  split at hstep
  · split at hstep
    · cases hstep
      exact h.done w
    · cases hstep
      exact ⟨h.interval, (h.done w).selected, fun c hc => ⟨(h.past c hc).1, fun _ hno => nomatch hno⟩,
        h.spaced⟩
  · cases hstep

theorem kept_step {e : Event} (h : Kept interval_minutes s) (hstep : s.step e = some s') :
    Kept interval_minutes s' := by
  cases e with
  | tick clock =>
    obtain ⟨-, hstep⟩ := Option.ite_none_right_eq_some.mp hstep
    cases hstep
    exact ⟨h.interval, h.selected, h.past, h.spaced⟩
  | start =>
    cases hstep
    refine ⟨h.interval, fun now expected_next_run interval hmem => ?_, h.past, h.spaced⟩
    rcases List.mem_append.mp hmem with hin | hnew
    · exact h.selected _ _ _ hin
    · cases List.mem_singleton.mp hnew
  | select w skipped => exact kept_select h hstep
  | claim w => exact kept_claim h hstep
  | mailbox w is_active => exact kept_mailbox h hstep
  | exit w =>
    obtain ⟨-, hstep⟩ := Option.ite_none_right_eq_some.mp hstep
    cases hstep
    exact h.done w

/-- The claims of every run are spaced. -/
theorem claims_spaced {labels : List Event} (h : schedulers.Run labels s) :
    Spaced s.schedule.interval_minutes s.claims := by
  have hkept : ∃ interval_minutes, Kept interval_minutes s := by
    refine h.invariant (P := fun _ s => ∃ interval_minutes, Kept interval_minutes s) ?_ ?_
    · rintro s ⟨hworkers, hclaims⟩
      refine ⟨s.schedule.interval_minutes, rfl, ?_, ?_, ?_, ?_⟩
      · rw [hworkers]
        exact fun _ _ _ hno => nomatch hno
      · rw [hclaims]
        exact fun _ hno => nomatch hno
      · rw [hclaims]
        exact List.nodup_nil
      · rw [hclaims]
        exact List.Pairwise.nil
    · rintro labels s e s' ⟨interval_minutes, hs⟩ hstep
      exact ⟨interval_minutes, kept_step hs hstep⟩
  obtain ⟨interval_minutes, hs⟩ := hkept
  rw [hs.interval]
  exact hs.spaced

end

end MailCue.Backend.Deliverability
