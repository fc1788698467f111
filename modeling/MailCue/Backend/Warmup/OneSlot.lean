import MailCue.Backend.Deliverability.Scheduler
import MailCue.Backend.Warmup.Workers

/-!
# One attempt a slot

"Atomic claim: only one API worker may handle a due slot." The next run that a worker last
wrote, be it the end of its lease or the next slot, keeps the others out until then. Where
no worker takes the campaign while another is under way past that time, one worker at a
time is under way and every slot leads to one attempt at most.
-/
namespace MailCue.Backend.Warmup
open MailCue.Lib

/-- The next run the worker has last written, while it is under way. -/
def Worker.until : Worker → Option Int
  | .claimed now _ | .polling now _ _ => some (leaseEnd now)
  | .sending _ next_run_at | .recording next_run_at => some next_run_at
  | .started _ | .done => none

/-- Of the slots, none has two attempts, and of the workers that have claimed one, one is
under way. -/
structure OneAtATime (s : Workers) : Prop where
  once : s.attempts.Nodup
  alone : ∀ (v w : Nat) (worker worker' : Worker), s.workers[v]? = some worker →
    s.workers[w]? = some worker' → worker.until ≠ none → worker'.until ≠ none → v = w

/-- A due slot is not claimed while another worker is under way at or past the next run it
has last written. -/
def InTime (s : Workers) : WorkerEvent → Prop
  | .claim w =>
    match s.workers[w]? with
    | some (.started now) =>
      s.row.due now = true → ∀ other ∈ s.workers, other.until.all (s.clock < ·) = true
    | _ => True
  | _ => True

instance (s : Workers) (e : WorkerEvent) : Decidable (InTime s e) := by
  unfold InTime
  split
  · split <;> infer_instance
  · infer_instance

/-! ## What holds of one worker -/

/-- The row is as the worker has left it, and its slot has no attempt yet. -/
def Worker.Fits (clock : Int) (row : Row) (attempts : List Nat) : Worker → Prop
  | .started now => now ≤ clock
  | .claimed now slot => row.next_run_at = some (leaseEnd now) ∧ slot = row.slot
  | .polling now slot loaded =>
    row.next_run_at = some (leaseEnd now) ∧ loaded = row.next_run_at ∧ slot = row.slot
  | .sending slot next_run_at =>
    row.next_run_at = some next_run_at ∧ slot < row.slot ∧ slot ∉ attempts
  | .recording next_run_at => row.next_run_at = some next_run_at
  | .done => True

structure Leased (s : Workers) : Prop where
  one : OneAtATime s
  each : ∀ worker ∈ s.workers, worker.Fits s.clock s.row s.attempts
  past : ∀ slot ∈ s.attempts, slot < s.row.slot

theorem Worker.Fits.until {clock : Int} {row : Row} {attempts : List Nat} {worker : Worker}
    (h : worker.Fits clock row attempts) {until_ : Int} (huntil : worker.until = some until_) :
    row.next_run_at = some until_ := by
  cases worker with
  | started now => cases huntil
  | claimed now slot =>
    cases huntil
    exact h.1
  | polling now slot loaded =>
    cases huntil
    exact h.1
  | sending slot next_run_at =>
    cases huntil
    exact h.1
  | recording next_run_at =>
    cases huntil
    exact h
  | done => cases huntil

/-- A worker that is not under way has nothing to do with the row. -/
theorem Worker.Fits.outside {clock clock' : Int} {row row' : Row} {attempts attempts' : List Nat}
    {worker : Worker} (h : worker.Fits clock row attempts) (hnone : worker.until = none)
    (hclock : clock ≤ clock') : worker.Fits clock' row' attempts' := by
  cases worker with
  | started now => exact le_trans h hclock
  | done => trivial
  | claimed | polling | sending | recording => cases hnone

theorem Worker.Fits.later {clock clock' : Int} {row : Row} {attempts : List Nat} {worker : Worker}
    (h : worker.Fits clock row attempts) (hclock : clock ≤ clock') :
    worker.Fits clock' row attempts := by
  cases worker with
  | started now => exact le_trans h hclock
  | done => trivial
  | claimed | polling | sending | recording => exact h

/-! ## One step -/

section
variable {s s' : Workers} {w : Nat}

theorem Leased.fits (h : Leased s) {worker : Worker} (hw : s.workers[w]? = some worker) :
    worker.Fits s.clock s.row s.attempts :=
  h.each worker (List.mem_of_getElem? hw)

/-- While a worker is under way, the others are not. -/
theorem Leased.others (h : Leased s) {worker : Worker} (hw : s.workers[w]? = some worker)
    (hunder : worker.until ≠ none) {v : Nat} {other : Worker} (hv : s.workers[v]? = some other)
    (hne : v ≠ w) : other.until = none := by
  by_contra hother
  exact hne (h.one.alone v w other worker hv hw hother hunder)

theorem getElem?_set {v : Nat} {worker other : Worker} (hv : (s.set w worker).workers[v]? = some other) :
    (v = w ∧ other = worker) ∨ (v ≠ w ∧ s.workers[v]? = some other) := by
  by_cases heq : v = w
  · subst heq
    obtain ⟨hroom, rfl⟩ := List.getElem?_eq_some_iff.mp hv
    exact .inl ⟨rfl, List.getElem_set_self _⟩
  · exact .inr ⟨heq, (List.getElem?_set_ne (Ne.symm heq)).symm.trans hv⟩

/-- The one worker that is under way, or that begins to be, moves. -/
theorem Leased.move (h : Leased s) {worker : Worker} {row : Row} {attempts : List Nat}
    (halone : ∀ (v : Nat) (other : Worker), v ≠ w → s.workers[v]? = some other → other.until = none)
    (hfits : worker.Fits s.clock row attempts) (hnodup : attempts.Nodup)
    (hpast : ∀ slot ∈ attempts, slot < row.slot) :
    Leased { s.set w worker with row, attempts } := by
  refine ⟨⟨hnodup, ?_⟩, ?_, hpast⟩
  · intro u v first second hu hv hfirst hsecond
    rcases getElem?_set hu with ⟨rfl, -⟩ | ⟨hune, hu⟩
    · rcases getElem?_set hv with ⟨rfl, -⟩ | ⟨hvne, hv⟩
      · rfl
      · exact absurd (halone v second hvne hv) hsecond
    · exact absurd (halone u first hune hu) hfirst
  · intro other hother
    obtain ⟨v, hv⟩ := List.mem_iff_getElem?.mp hother
    rcases getElem?_set hv with ⟨-, rfl⟩ | ⟨hne, hv⟩
    · exact hfits
    · exact (h.fits hv).outside (halone v other hne hv) (le_refl _)

/-- A worker ends. -/
theorem Leased.done (h : Leased s) (w : Nat) : Leased (s.set w .done) := by
  refine ⟨⟨h.one.once, ?_⟩, ?_, h.past⟩
  · intro u v first second hu hv hfirst hsecond
    rcases getElem?_set hu with ⟨-, rfl⟩ | ⟨-, hu⟩
    · exact absurd rfl hfirst
    · rcases getElem?_set hv with ⟨-, rfl⟩ | ⟨-, hv⟩
      · exact absurd rfl hsecond
      · exact h.one.alone u v first second hu hv hfirst hsecond
  · intro other hother
    rcases List.mem_or_eq_of_mem_set hother with hin | rfl
    · exact h.each other hin
    · trivial

/-- The campaign is due, so no worker is under way. -/
theorem leased_claim (h : Leased s) (hintime : InTime s (.claim w)) (hstep : s.claim w = some s') :
    Leased s' := by
  unfold Workers.claim at hstep
  split at hstep
  · rename_i now hworker
    split at hstep
    · rename_i hdue
      cases hstep
      have hnow : now ≤ s.clock := h.fits hworker
      have halone : ∀ (v : Nat) (other : Worker), v ≠ w → s.workers[v]? = some other →
          other.until = none := by
        intro v other _ hv
        by_contra hother
        obtain ⟨until_, huntil⟩ := Option.ne_none_iff_exists'.mp hother
        simp only [InTime, hworker] at hintime
        have hbefore := hintime hdue other (List.mem_of_getElem? hv)
        rw [huntil, Option.all_some, decide_eq_true_iff] at hbefore
        rw [Row.due, (h.fits hv).until huntil] at hdue
        simp only [Option.any_some, Bool.and_eq_true, decide_eq_true_eq] at hdue
        omega
      exact h.move halone ⟨rfl, rfl⟩ h.one.once h.past
    · cases hstep
      exact h.done w
  · cases hstep

theorem leased_load (h : Leased s) (hstep : s.load w = some s') : Leased s' := by
  unfold Workers.load at hstep
  split at hstep
  · rename_i now slot hworker
    cases hstep
    obtain ⟨hlease, hslot⟩ := h.fits hworker
    refine h.move (fun v other hne hv => h.others hworker ?_ hv hne) ⟨hlease, rfl, hslot⟩
      h.one.once h.past
    exact nofun
  · cases hstep

/-- The worker's own lease is what it replaces, or keeps where the next slot is as late. -/
theorem leased_decide {delays : Delays} {decision : Decision} (h : Leased s)
    (hstep : s.decide delays w decision = some s') : Leased s' := by
  unfold Workers.decide at hstep
  split at hstep
  · rename_i now slot loaded hworker
    obtain ⟨-, hstep⟩ := Option.ite_none_right_eq_some.mp hstep
    cases hstep
    obtain ⟨hlease, rfl, rfl⟩ := h.fits hworker
    have hnext : (s.row.moved now s.row.next_run_at decision).next_run_at =
        decision.nextRunAt now := by
      unfold Row.moved
      dsimp only
      split
      · rename_i heq
        exact heq.symm
      · rfl
    have hpast : ∀ slot ∈ s.attempts, slot < s.row.slot + 1 := fun slot hslot =>
      Nat.lt_succ_of_lt (h.past slot hslot)
    refine h.move (fun v other hne hv => h.others hworker ?_ hv hne) ?_ h.one.once hpast
    · exact nofun
    · cases decision with
      | send delay =>
        refine ⟨hnext, Nat.lt_succ_self _, fun hmem => ?_⟩
        exact Nat.lt_irrefl _ (h.past _ hmem)
      | noAccounts | inactive | targetReached | noProvider | noAccount => trivial
  · cases hstep

theorem leased_attempt (h : Leased s) (hstep : s.attempt w = some s') : Leased s' := by
  unfold Workers.attempt at hstep
  split at hstep
  · rename_i slot next_run_at hworker
    cases hstep
    obtain ⟨hnext, hslot, hnew⟩ := h.fits hworker
    refine h.move (fun v other hne hv => h.others hworker ?_ hv hne) hnext ?_ ?_
    · exact nofun
    · refine List.nodup_append.mpr ⟨h.one.once, List.nodup_singleton _, ?_⟩
      rintro a ha b hb rfl
      rw [List.mem_singleton.mp hb] at ha
      exact hnew ha
    · intro a ha
      rcases List.mem_append.mp ha with hold | hlast
      · exact h.past a hold
      · rw [List.mem_singleton.mp hlast]
        exact hslot
  · cases hstep

theorem leased_record (h : Leased s) (hstep : s.record w = some s') : Leased s' := by
  unfold Workers.record at hstep
  split at hstep
  · cases hstep
    exact h.done w
  · cases hstep

theorem leased_step {delays : Delays} {e : WorkerEvent} (h : Leased s) (hintime : InTime s e)
    (hstep : s.step delays e = some s') : Leased s' := by
  cases e with
  | tick clock =>
    obtain ⟨hclock, hstep⟩ := Option.ite_none_right_eq_some.mp hstep
    cases hstep
    exact ⟨⟨h.one.once, h.one.alone⟩, fun worker hworker => (h.each worker hworker).later hclock, h.past⟩
  | start =>
    cases hstep
    refine ⟨⟨h.one.once, ?_⟩, ?_, h.past⟩
    · intro u v first second hu hv hfirst hsecond
      have hold : ∀ {i : Nat} {worker : Worker}, (s.workers ++ [.started s.clock])[i]? = some worker →
          worker.until ≠ none → s.workers[i]? = some worker := by
        intro i worker hi hunder
        by_cases hlt : i < s.workers.length
        · rwa [List.getElem?_append_left hlt] at hi
        · rw [List.getElem?_append_right (Nat.not_lt.mp hlt)] at hi
          rw [List.mem_singleton.mp (List.mem_of_getElem? hi)] at hunder
          exact absurd rfl hunder
      exact h.one.alone u v first second (hold hu hfirst) (hold hv hsecond) hfirst hsecond
    · intro worker hworker
      rcases List.mem_append.mp hworker with hin | hnew
      · exact h.each worker hin
      · rw [List.mem_singleton.mp hnew]
        exact le_refl s.clock
  | claim w => exact leased_claim h hintime hstep
  | load w => exact leased_load h hstep
  | decide w decision => exact leased_decide h hstep
  | attempt w => exact leased_attempt h hstep
  | record w => exact leased_record h hstep
  | exit w =>
    obtain ⟨-, hstep⟩ := Option.ite_none_right_eq_some.mp hstep
    cases hstep
    exact h.done w

end

/-! ## Every run -/

theorem oneAtATime {delays : Delays} {labels : List WorkerEvent} {s : Workers}
    (h : ((workers delays).guarded InTime).Run labels s) : OneAtATime s := by
  have hleased : Leased s := by
    refine h.invariant (P := fun _ s => Leased s) ?_ ?_
    · rintro s ⟨hworkers, hattempts⟩
      refine ⟨⟨?_, ?_⟩, ?_, ?_⟩
      · rw [hattempts]
        exact List.nodup_nil
      · rw [hworkers]
        exact fun _ _ _ _ hno => nomatch hno
      · rw [hworkers]
        exact fun _ hno => nomatch hno
      · rw [hattempts]
        exact fun _ hno => nomatch hno
    · rintro labels s e s' hs ⟨hstep, hintime⟩
      exact leased_step hs hintime hstep
  exact hleased.one

/-- A slot of a campaign leads to one attempt where the workers keep to their time, and one
of a schedule to one claim. -/
theorem one_attempt_a_slot {delays : Delays} {labels : List WorkerEvent} {s : Workers}
    {labels' : List Deliverability.Event} {s' : Deliverability.State}
    (h : ((workers delays).guarded InTime).Run labels s)
    (h' : Deliverability.schedulers.Run labels' s') :
    OneAtATime s ∧ Deliverability.Spaced s'.schedule.interval_minutes s'.claims :=
  ⟨oneAtATime h, Deliverability.claims_spaced h'⟩

def defaultDelays : Delays where
  min_delay_minutes := 30
  max_delay_minutes := 120
  min_ok := by decide
  max_ok := by decide
  ordered := by decide

private def dueAtZero : Workers := ⟨0, ⟨true, some 0, 0⟩, [], []⟩

private def hourly : Deliverability.State :=
  ⟨0, ⟨true, 60, some 0, none, by decide⟩, [], []⟩

/-- Two workers on two slots, and two claims of a schedule. -/
theorem one_attempt_a_slot_twice :
    [0, 1].Nodup ∧ Deliverability.Spaced 60 [⟨0, 0⟩, ⟨minutes 60, minutes 61⟩] := by
  have hstart : ((workers defaultDelays).guarded InTime).Run [] dueAtZero := .start _ ⟨rfl, rfl⟩
  have hrun := hstart.exec_guarded (Workers.step defaultDelays)
    [.start, .start, .claim 0, .load 0, .claim 1, .decide 0 (.send 30), .attempt 0, .record 0,
      .tick (minutes 31), .start, .claim 2, .load 2, .decide 2 (.send 40), .attempt 2]
    ⟨minutes 31, ⟨true, some (minutes 71), 2⟩, [.done, .done, .recording (minutes 71)], [0, 1]⟩
    (by decide +kernel) fun _ _ _ h => h
  have hstart' : Deliverability.schedulers.Run [] hourly := .start _ ⟨rfl, rfl⟩
  have hrun' := hstart'.exec Deliverability.State.step
    [.start, .start, .select 0 false, .select 1 false, .claim 1, .claim 0, .tick (minutes 61),
      .start, .select 2 false, .claim 2]
    ⟨minutes 61, ⟨true, 60, some (minutes 121), some (minutes 61), by decide⟩,
      [.done, .claimed 0, .claimed (minutes 61)], [⟨0, 0⟩, ⟨minutes 60, minutes 61⟩]⟩
    (by decide +kernel) fun _ _ _ _ h => h
  exact (one_attempt_a_slot hrun hrun').imp_left (·.once)

/-- A worker polls beyond its lease; another sends for the same slot, and then it sends. -/
theorem slow_polling_sends_twice :
    ¬ ∀ labels s, (workers defaultDelays).Run labels s → s.attempts.Nodup := by
  intro h
  have hstart : (workers defaultDelays).Run [] dueAtZero := .start _ ⟨rfl, rfl⟩
  have hrun := hstart.exec (Workers.step defaultDelays)
    [.start, .claim 0, .load 0, .tick (minutes 6), .start, .claim 1, .load 1,
      .decide 1 (.send 30), .attempt 1, .decide 0 (.send 30), .attempt 0]
    ⟨minutes 6, ⟨true, some (minutes 30), 2⟩, [.recording (minutes 30), .recording (minutes 36)],
      [0, 0]⟩
    (by decide +kernel) fun _ _ _ _ h => h
  exact absurd (h _ _ hrun) (by decide)

end MailCue.Backend.Warmup
