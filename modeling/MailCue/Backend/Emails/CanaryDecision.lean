import Mathlib
import MailCue.Backend.Emails.CanaryRuns

/-!
# What a decision does

backend/app/emails/canary.py, decide, as one call nobody interferes with: the
verdict, the wave or the block it orders and the status it ends with. Such a call
is a run of the staged send. `bounced` is what the code calls so, the hard
bounces; a sample is wholly failed when each of its recipients bounced hard or
soft.
-/
namespace MailCue.Backend.Emails
open MailCue.Lib

/-! ## One call -/

/-- The loop of a wave to its end, by which sends succeed. -/
def Batch.finish (ok : Nat → Bool) (b : Batch) : Batch :=
  { b with
    todo := []
    done := b.done ++ b.todo.map fun row =>
      (row.1, if b.wave.heldBack row.2 then .heldBack else if ok row.1 then .sent else .failed) }

def decideAlone (canary : EmailSendCanary) (ok : Nat → Bool) (db : Database) : Database :=
  match decideVerdict canary db with
  | .failed => { db with status := .failed }
  | .release cutoff =>
    { db.writeStatuses ((releaseRemaining canary db cutoff).finish ok).changes with
      status := .released }
  | .block =>
    { db.writeStatuses ((db.selectRole canary .held).map (·, .blocked)) with status := .blocked }

/-! ## As a run of the staged send -/

section Run
variable (canary : EmailSendCanary) (ok : Nat → Bool) (c : Caller)

/-- The rounds of a release, one after another. -/
theorem send_all (b : Batch) (s : State) (hreleasing : s.decides c = some (.releasing b)) :
    ∃ s', (b.todo.map fun row => Act.send (.decide c) (ok row.1)).foldlM (step canary) s = some s' ∧
      s'.db = s.db ∧ s'.decides c = some (.releasing (b.finish ok)) := by
  obtain ⟨wave, todo, done⟩ := b
  induction todo generalizing s done with
  | nil => exact ⟨s, rfl, rfl, by simpa [Batch.finish] using hreleasing⟩
  | cons row todo ih =>
    obtain ⟨i, risk_score⟩ := row
    let outcome : Outcome :=
      if wave.heldBack risk_score then .heldBack else if ok i then .sent else .failed
    obtain ⟨t, hstep, hdb, hdecides⟩ : ∃ t, step canary s (.send (.decide c) (ok i)) = some t ∧
        t.db = s.db ∧ t.decides c = some (.releasing ⟨wave, todo, done ++ [(i, outcome)]⟩) := by
      simp only [step, hreleasing, Batch.advance, outcome]
      split <;> exact ⟨_, rfl, rfl, by simp [State.setDecide]⟩
    obtain ⟨s', hrest, hdb', hdecides'⟩ := ih t _ hdecides
    refine ⟨s', ?_, hdb'.trans hdb, ?_⟩
    · rw [List.map_cons, List.foldlM_cons, hstep]
      exact hrest
    · rw [hdecides']
      simp [Batch.finish, outcome]

/-- What a phase still has to write. -/
def Decide.rest (db : Database) : Decide → Database
  | .loaded => decideAlone canary ok db
  | .observed (.release cutoff) =>
    { db.writeStatuses ((releaseRemaining canary db cutoff).finish ok).changes with
      status := .released }
  | .observed .block =>
    { db.writeStatuses ((db.selectRole canary .held).map (·, .blocked)) with status := .blocked }
  | .observed .failed => { db with status := .failed }
  | .releasing b => { db.writeStatuses (b.finish ok).changes with status := .released }
  | .blocking rows => { db.writeStatuses (rows.map (·, .blocked)) with status := .blocked }
  | .settling status => { db with status := status }

/-- The call ends from a phase with what that phase has to write written. -/
def Ends (phase : Decide) : Prop :=
  ∀ s : State, s.decides c = some phase → ∃ (acts : List Act) (s' : State),
    acts.foldlM (step canary) s = some s' ∧ s'.db = phase.rest canary ok s.db ∧
      s'.decides c = none

variable {canary ok c}

theorem Ends.after {phase : Decide} (hstep : ∀ s : State, s.decides c = some phase →
    ∃ (act : Act) (t : State) (next : Decide), step canary s act = some t ∧
      t.decides c = some next ∧ next.rest canary ok t.db = phase.rest canary ok s.db ∧
      Ends canary ok c next) : Ends canary ok c phase := by
  intro s hphase
  obtain ⟨act, t, next, hact, hdecides, hrest, hnext⟩ := hstep s hphase
  obtain ⟨acts, s', hacts, hdb, hnone⟩ := hnext t hdecides
  refine ⟨act :: acts, s', ?_, hdb.trans hrest, hnone⟩
  rw [List.foldlM_cons, hact]
  exact hacts

theorem setDecide_decides (s : State) (phase : Option Decide) :
    (s.setDecide c phase).decides c = phase := by
  simp [State.setDecide]

theorem ends_settling (status : CanaryStatus) : Ends canary ok c (.settling status) := by
  intro s hphase
  let t : State := { s.setDecide c none with db := { s.db with status := status } }
  have hstep : step canary s (.commitDecision c) = some t := by simp only [step, hphase, t]
  refine ⟨[.commitDecision c], t, ?_, rfl, setDecide_decides s none⟩
  rw [List.foldlM_cons, hstep]
  rfl

theorem ends_blocking (rows : List Nat) : Ends canary ok c (.blocking rows) := by
  apply Ends.after
  intro s hphase
  let t : State := { s.setDecide c (some (.settling .blocked)) with
    db := s.db.writeStatuses (rows.map (·, .blocked)) }
  have hstep : step canary s (.commitHeld c) = some t := by simp only [step, hphase, t]
  exact ⟨.commitHeld c, t, .settling .blocked, hstep, setDecide_decides s _, rfl, ends_settling _⟩

/-- A wave with nothing left to send. -/
theorem ends_finished (b : Batch) (hdone : b.todo = []) : Ends canary ok c (.releasing b) := by
  apply Ends.after
  intro s hphase
  let t : State := { s.setDecide c (some (.settling .released)) with
    db := s.db.writeStatuses b.changes }
  have hstep : step canary s (.commitHeld c) = some t := by
    simp only [step, hphase, hdone, if_true, t]
  have hsame : b.finish ok = b := by
    cases b
    simp_all [Batch.finish]
  refine ⟨.commitHeld c, t, .settling .released, hstep, setDecide_decides s _, ?_,
    ends_settling _⟩
  simp only [Decide.rest, hsame]
  rfl

theorem ends_releasing (b : Batch) : Ends canary ok c (.releasing b) := by
  intro s hphase
  obtain ⟨t, hsends, hdb, hdecides⟩ := send_all canary ok c b s hphase
  have hfinished : Ends canary ok c (.releasing (b.finish ok)) := ends_finished _ rfl
  obtain ⟨acts, s', hacts, hdb', hnone⟩ := hfinished t hdecides
  refine ⟨(b.todo.map fun row => .send (.decide c) (ok row.1)) ++ acts, s', ?_, ?_, hnone⟩
  · rw [List.foldlM_append, hsends]
    exact hacts
  · rw [hdb']
    simp only [Decide.rest, hdb, Batch.finish, List.map_nil, List.append_nil]

theorem ends_observed (verdict : Verdict) (h : verdict ≠ .failed) :
    Ends canary ok c (.observed verdict) := by
  apply Ends.after
  intro s hphase
  cases verdict with
  | failed => exact absurd rfl h
  | release cutoff =>
    let b := releaseRemaining canary s.db cutoff
    have hstep : step canary s (.selectHeld c) = some (s.setDecide c (some (.releasing b))) := by
      simp only [step, hphase, b]
    exact ⟨.selectHeld c, _, .releasing b, hstep, setDecide_decides s _, rfl, ends_releasing b⟩
  | block =>
    let rows := s.db.selectRole canary .held
    have hstep : step canary s (.selectHeld c) = some (s.setDecide c (some (.blocking rows))) := by
      simp only [step, hphase, rows]
    exact ⟨.selectHeld c, _, .blocking rows, hstep, setDecide_decides s _, rfl,
      ends_blocking rows⟩

theorem ends_loaded : Ends canary ok c .loaded := by
  apply Ends.after
  intro s hphase
  have hrest : Decide.rest canary ok s.db .loaded = decideAlone canary ok s.db := rfl
  cases hverdict : decideVerdict canary s.db with
  | failed =>
    have hstep : step canary s (.observe c) =
        some (s.setDecide c (some (.settling .failed))) := by simp only [step, hphase, hverdict]
    refine ⟨.observe c, _, .settling .failed, hstep, setDecide_decides s _, ?_, ends_settling _⟩
    simp only [hrest, decideAlone, hverdict]
    rfl
  | release cutoff =>
    have hstep : step canary s (.observe c) =
        some (s.setDecide c (some (.observed (.release cutoff)))) := by
      simp only [step, hphase, hverdict]
    refine ⟨.observe c, _, .observed (.release cutoff), hstep, setDecide_decides s _, ?_,
      ends_observed _ (by simp)⟩
    simp only [hrest, decideAlone, hverdict]
    rfl
  | block =>
    have hstep : step canary s (.observe c) = some (s.setDecide c (some (.observed .block))) := by
      simp only [step, hphase, hverdict]
    refine ⟨.observe c, _, .observed .block, hstep, setDecide_decides s _, ?_,
      ends_observed _ (by simp)⟩
    simp only [hrest, decideAlone, hverdict]
    rfl

/-- A call that has begun can run to its end with the batch decided as `decideAlone` says. -/
theorem decideAlone_runs {labels : List Act} {s : State} (hrun : (sending canary).Run labels s)
    (hloaded : s.decides c = some .loaded) :
    ∃ (acts : List Act) (s' : State), (sending canary).Run (labels ++ acts) s' ∧
      s'.db = decideAlone canary ok s.db ∧ s'.decides c = none := by
  have hends : Ends canary ok c .loaded := ends_loaded
  obtain ⟨acts, s', hacts, hdb, hnone⟩ := hends s hloaded
  exact ⟨acts, s', hrun.exec (step canary) acts s' hacts (fun _ _ _ _ h => h), hdb, hnone⟩

end Run

/-! ## The verdict -/

def sampleRows (canary : EmailSendCanary) (db : Database) : List EmailSendCanaryRecipient :=
  (db.select canary fun row => row.role == .sample).map db.rows

def observedRows (canary : EmailSendCanary) (db : Database) : List EmailSendCanaryRecipient :=
  (sampleRows canary db).filter fun row =>
    row.status == .sent || row.status == .delivered || row.status == .hard_bounce

def bouncedRows (canary : EmailSendCanary) (db : Database) : List EmailSendCanaryRecipient :=
  (observedRows canary db).filter fun row => row.status == .hard_bounce

/-- `len(bounced) / len(observed)`. -/
def bounceRate (canary : EmailSendCanary) (db : Database) : Rat :=
  ((bouncedRows canary db).length : Rat) / (observedRows canary db).length

theorem decideVerdict_eq (canary : EmailSendCanary) (db : Database) :
    decideVerdict canary db =
      if observedRows canary db = [] then .failed
      else if bounceRate canary db ≤ canary.bounce_threshold then .release (11 / 10)
      else if (bouncedRows canary db).length = (observedRows canary db).length then .block
      else .release (((bouncedRows canary db).filterMap (·.risk_score)).min?.getD 1) := rfl

theorem mem_sampleRows (canary : EmailSendCanary) (db : Database)
    (row : EmailSendCanaryRecipient) :
    row ∈ sampleRows canary db ↔ ∃ i ∈ canary.recipients, row = db.rows i ∧ row.role = .sample := by
  simp only [sampleRows, List.mem_map, mem_select, beq_iff_eq]
  constructor
  · rintro ⟨i, ⟨hi, hrole⟩, rfl⟩
    exact ⟨i, hi, rfl, hrole⟩
  · rintro ⟨i, hi, rfl, hrole⟩
    exact ⟨i, ⟨hi, hrole⟩, rfl⟩

theorem mem_bouncedRows (canary : EmailSendCanary) (db : Database)
    (row : EmailSendCanaryRecipient) :
    row ∈ bouncedRows canary db ↔ row ∈ sampleRows canary db ∧ row.status = .hard_bounce := by
  simp only [bouncedRows, observedRows, List.mem_filter, Bool.or_eq_true, beq_iff_eq]
  constructor
  · intro h
    exact ⟨h.1.1, h.2⟩
  · intro h
    exact ⟨⟨h.1, Or.inr h.2⟩, h.2⟩

/-! ## What is asked of it -/

/-- Scoring ran over every recipient still to be decided on and gave the sample its role. -/
def Scored (canary : EmailSendCanary) (db : Database) : Prop :=
  ∀ i ∈ canary.recipients, (db.rows i).role = .sample ∨ (db.rows i).status = .pending →
    (db.rows i).risk_score.isSome

/-- A sample, each recipient of it bounced. -/
def WhollyFailed (canary : EmailSendCanary) (db : Database) : Prop :=
  sampleRows canary db ≠ [] ∧
    ∀ row ∈ sampleRows canary db, row.status = .hard_bounce ∨ row.status = .soft_bounce

def Safer (row other : EmailSendCanaryRecipient) : Prop :=
  ∃ low high, row.risk_score = some low ∧ other.risk_score = some high ∧ low < high

structure Decided (canary : EmailSendCanary) (ok : Nat → Bool) (db : Database) : Prop where
  settled : ∀ i ∈ db.selectRole canary .held,
    ((decideAlone canary ok db).rows i).status = .released ∨
      ((decideAlone canary ok db).rows i).status = .blocked ∨
      ((decideAlone canary ok db).rows i).status = .skipped
  safer : canary.bounce_threshold < bounceRate canary db →
    ∀ i ∈ db.selectRole canary .held, ((decideAlone canary ok db).rows i).status = .released →
      ∀ row ∈ bouncedRows canary db, Safer (db.rows i) row
  spared : WhollyFailed canary db → ∀ i ∈ db.selectRole canary .held,
    ((decideAlone canary ok db).rows i).status ≠ .released

/-- Something was observed or nothing is held, and a wholly failed sample is not waived
by a threshold of one while a held recipient below the cutoff can be sent to. -/
structure Conclusive (canary : EmailSendCanary) (ok : Nat → Bool) (db : Database) : Prop where
  observed : observedRows canary db ≠ [] ∨ db.selectRole canary .held = []
  unwaived : ¬ (WhollyFailed canary db ∧ bouncedRows canary db ≠ [] ∧
    1 ≤ canary.bounce_threshold ∧ ∃ i ∈ db.selectRole canary .held, ok i = true ∧
      ∃ score, (db.rows i).risk_score = some score ∧ score < 11 / 10)

/-! ## Scores at the time of a decision -/

/-- The scheduler may still score this recipient. -/
def State.awaitsScore (s : State) (i : Nat) : Prop :=
  s.db.status = .pending ∧
    match s.dispatch with
    | .idle | .loaded => True
    | .scoring rows => i ∈ rows
    | _ => False

structure ScoredOrWaiting (canary : EmailSendCanary) (s : State) : Prop where
  sample : ∀ i ∈ canary.recipients, (s.db.rows i).role = .sample →
    (s.db.rows i).risk_score.isSome
  pending : ∀ i ∈ canary.recipients, (s.db.rows i).status = .pending →
    (s.db.rows i).risk_score.isSome ∨ s.awaitsScore i

namespace ScoredOrWaiting
variable {canary : EmailSendCanary} {s s' : State}

/-- Roles and scores stay, and who waits for a score goes on waiting. -/
theorem of_frame (h : ScoredOrWaiting canary s)
    (hrole : ∀ i, (s'.db.rows i).role = (s.db.rows i).role)
    (hscore : ∀ i, (s'.db.rows i).risk_score = (s.db.rows i).risk_score)
    (hsettled : ∀ i, s.db.Settled i → s'.db.Settled i)
    (hwait : ∀ i ∈ canary.recipients, (s'.db.rows i).status = .pending → s.awaitsScore i →
      s'.awaitsScore i) : ScoredOrWaiting canary s' where
  sample i hi hsample := by
    rw [hscore]
    rw [hrole] at hsample
    exact h.sample i hi hsample
  pending i hi hpending := by
    have hbefore : (s.db.rows i).status = .pending := by
      by_contra hstatus
      exact hsettled i hstatus hpending
    rw [hscore]
    exact (h.pending i hi hbefore).imp_right (hwait i hi hpending)

/-- A commit of statuses by a driver other than the scoring. -/
theorem of_writeStatuses (h : ScoredOrWaiting canary s)
    (changes : List (Nat × RecipientStatus)) (hchanges : ∀ change ∈ changes, change.2 ≠ .pending)
    (hrows : s'.db.rows = (s.db.writeStatuses changes).rows)
    (hwait : ∀ i, s.awaitsScore i → s'.awaitsScore i) : ScoredOrWaiting canary s' := by
  refine h.of_frame ?_ ?_ ?_ (fun i _ _ => hwait i)
  · intro i
    rw [hrows, writeStatuses_role]
  · intro i
    rw [hrows, writeStatuses_risk_score]
  · intro i hsettled
    have hafter := settled_writeStatuses s.db changes i hchanges hsettled
    unfold Database.Settled at hafter ⊢
    rwa [hrows]

theorem of_same_rows (h : ScoredOrWaiting canary s) (hrows : s'.db.rows = s.db.rows)
    (hwait : ∀ i ∈ canary.recipients, (s.db.rows i).status = .pending → s.awaitsScore i →
      s'.awaitsScore i) : ScoredOrWaiting canary s' := by
  refine h.of_frame (fun i => by rw [hrows]) (fun i => by rw [hrows]) ?_ ?_
  · intro i hsettled
    unfold Database.Settled at hsettled ⊢
    rwa [hrows]
  · intro i hi hpending
    rw [hrows] at hpending
    exact hwait i hi hpending

/-- The scoring pass leaves none of its rows without a score. -/
theorem of_scores (h : ScoredOrWaiting canary s) {rows : List Nat}
    {results : Nat → Option BatchValidationItem} {sample : Nat → Bool}
    (hscoring : s.dispatch = .scoring rows)
    (hdb : s'.db = scoreAndAssignSample rows results sample s.db) :
    ScoredOrWaiting canary s' := by
  have hscored : ∀ i ∈ rows, (s'.db.rows i).risk_score.isSome := by
    intro i hi
    simp only [hdb, scoreAndAssignSample, if_pos hi, assignRow]
    split <;> rfl
  have hother : ∀ i, i ∉ rows → s'.db.rows i = s.db.rows i := by
    intro i hi
    simp only [hdb, scoreAndAssignSample, if_neg hi]
  constructor
  · intro i hi hsample
    by_cases hrow : i ∈ rows
    · exact hscored i hrow
    · rw [hother i hrow] at hsample ⊢
      exact h.sample i hi hsample
  · intro i hi hpending
    left
    by_cases hrow : i ∈ rows
    · exact hscored i hrow
    · rw [hother i hrow] at hpending ⊢
      refine (h.pending i hi hpending).resolve_right ?_
      intro hwait
      simp only [State.awaitsScore, hscoring] at hwait
      exact hrow hwait.2

theorem step (h : ScoredOrWaiting canary s) (hexclusive : Exclusive s) (a : Act)
    (hstep : step canary s a = some s') : ScoredOrWaiting canary s' := by
  have htaken := step_taken canary s s' a hstep
  cases htaken with
  | tick idle free pending =>
    exact h.of_same_rows rfl fun i _ _ hwait => ⟨hwait.1, trivial⟩
  | selectPending loaded dispatch waveless =>
    -- every recipient still pending is among the rows selected
    simp only [Emails.step, loaded, Option.some.injEq] at hstep
    refine h.of_same_rows rfl ?_
    intro i hi hpending hwait
    refine ⟨hwait.1, ?_⟩
    have hrow : i ∈ s.db.selectPending canary := (mem_select canary s.db _ i).mpr ⟨hi, by simpa⟩
    have hdispatch := congrArg State.dispatch hstep
    dsimp only at hdispatch
    rw [if_neg (List.ne_nil_of_mem hrow)] at hdispatch
    rw [← hdispatch]
    exact hrow
  | commitScores rows results sample scoring dispatch waveless => exact h.of_scores scoring rfl
  | selectNoSample scored =>
    refine h.of_same_rows rfl fun i _ _ hwait => ?_
    simp only [State.awaitsScore, scored, and_false] at hwait
  | selectSample scored found =>
    refine h.of_same_rows rfl fun i _ _ hwait => ?_
    simp only [State.awaitsScore, scored, and_false] at hwait
  | sendSample b b' ok events sampling round =>
    refine h.of_same_rows rfl fun i _ _ hwait => ?_
    simp only [State.awaitsScore, sampling, and_false] at hwait
  | sendHeld c b b' ok events releasing round => exact h.of_same_rows rfl fun _ _ _ => id
  | commitSample b sampling finished =>
    refine h.of_writeStatuses b.changes b.changes_ne_pending rfl fun i hwait => ?_
    simp only [State.awaitsScore, sampling, and_false] at hwait
  | loadDecide c free probing => exact h.of_same_rows rfl fun _ _ _ => id
  | observe c loaded phase read => exact h.of_same_rows rfl fun _ _ _ => id
  | selectHeld c cutoff observed => exact h.of_same_rows rfl fun _ _ _ => id
  | selectBlocked c observed => exact h.of_same_rows rfl fun _ _ _ => id
  | commitHeld c b releasing finished =>
    exact h.of_writeStatuses b.changes b.changes_ne_pending rfl fun _ => id
  | commitBlocked c rows blocking =>
    refine h.of_writeStatuses (rows.map (·, .blocked)) ?_ rfl fun _ => id
    intro change hmem
    obtain ⟨i, _, rfl⟩ := List.mem_map.mp hmem
    simp
  | commitDecision c status settling =>
    refine h.of_same_rows rfl fun i _ _ hwait => ?_
    exact absurd hwait.1 (hexclusive.deciding c (by simp [settling]))
  | loadCancel => exact h.of_same_rows rfl fun _ _ _ => id
  | commitCancel =>
    refine h.of_frame ?_ ?_ (fun i _ => settled_cancel s.db i)
      (fun i _ hpending => absurd hpending (settled_cancel s.db i))
    · intro i
      simp only [Database.cancel]
      split <;> rfl
    · intro i
      simp only [Database.cancel]
      split <;> rfl
  | bounce i outcome =>
    refine h.of_writeStatuses [(i, bounceStatus outcome)] ?_ rfl fun _ => id
    simpa using bounceStatus_ne_pending outcome
  | dispatchRaised => exact h.of_same_rows rfl fun i _ _ hwait => ⟨hwait.1, trivial⟩
  | decideRaised c => exact h.of_same_rows rfl fun _ _ _ => id
  | crash => exact h.of_same_rows rfl fun i _ _ hwait => ⟨hwait.1, trivial⟩

end ScoredOrWaiting

/-- Whenever somebody decides a staged send its rows have the scores `decide` reads. -/
theorem scored_of_deciding {canary : EmailSendCanary} {labels : List Act} {s : State}
    (hrun : (sending canary).Run labels s) {c : Caller} (hdeciding : s.decides c ≠ none) :
    Scored canary s.db := by
  have hinv : Exclusive s ∧ ScoredOrWaiting canary s := by
    refine hrun.invariant (P := fun _ s => Exclusive s ∧ ScoredOrWaiting canary s) ?_ ?_
    · rintro s ⟨suppressed, rfl⟩
      refine ⟨exclusive_created canary suppressed, ?_, ?_⟩
      · intro i _ hsample
        cases hsample
      · intro i hi hpending
        right
        refine ⟨?_, trivial⟩
        have hfree : i ∈ canary.recipients.filter fun i => !suppressed i := by
          simp only [created, createCanary] at hpending
          split at hpending
          · cases hpending
          · next hnot => simp [hi, hnot]
        simp only [created, createCanary, if_neg (List.ne_nil_of_mem hfree)]
    · intro labels s a s' hboth hstep
      exact ⟨exclusive_step canary s s' a hboth.1 (step_taken canary s s' a hstep),
        hboth.2.step hboth.1 a hstep⟩
  intro i hi hrow
  rcases hrow with hsample | hpending
  · exact hinv.2.sample i hi hsample
  · refine (hinv.2.pending i hi hpending).resolve_right ?_
    intro hwait
    exact hinv.1.deciding c hdeciding hwait.1

/-! ## What a call writes -/

theorem lookup_map_of_mem {α : Type} (f : Nat → α) {rows : List Nat} {i : Nat} (h : i ∈ rows) :
    (rows.map fun j => (j, f j)).lookup i = some (f i) := by
  induction rows with
  | nil => simp at h
  | cons j rows ih =>
    rw [List.map_cons, List.lookup_cons]
    by_cases hij : i = j
    · subst hij
      simp
    · have hrest : i ∈ rows := (List.mem_cons.mp h).resolve_left hij
      have hbeq : (i == j) = false := by simpa using hij
      rw [hbeq]
      exact ih hrest

theorem writeStatuses_status {db : Database} {rows : List Nat} {f : Nat → RecipientStatus}
    {i : Nat} (h : i ∈ rows) :
    ((db.writeStatuses (rows.map fun j => (j, f j))).rows i).status = f i := by
  simp only [Database.writeStatuses, lookup_map_of_mem f h]

/-- What the release makes of a row. -/
def releaseStatus (ok : Nat → Bool) (cutoff : Rat) (db : Database) (i : Nat) : RecipientStatus :=
  (Wave.release cutoff).status
    (if (Wave.release cutoff).heldBack (db.rows i).risk_score then .heldBack
      else if ok i then .sent else .failed)

theorem finish_changes (canary : EmailSendCanary) (ok : Nat → Bool) (db : Database)
    (cutoff : Rat) :
    ((releaseRemaining canary db cutoff).finish ok).changes =
      (db.selectRole canary .held).map fun i => (i, releaseStatus ok cutoff db i) := by
  simp [Batch.changes, Batch.finish, releaseRemaining, Batch.ofRows, releaseStatus,
    Function.comp_def]
  intros
  rfl

variable {canary : EmailSendCanary} {ok : Nat → Bool} {db : Database}

theorem decided_status_release {cutoff : Rat} (h : decideVerdict canary db = .release cutoff)
    {i : Nat} (hi : i ∈ db.selectRole canary .held) :
    ((decideAlone canary ok db).rows i).status = releaseStatus ok cutoff db i := by
  simp only [decideAlone, h, finish_changes]
  exact writeStatuses_status hi

theorem decided_status_block (h : decideVerdict canary db = .block) {i : Nat}
    (hi : i ∈ db.selectRole canary .held) :
    ((decideAlone canary ok db).rows i).status = .blocked := by
  simp only [decideAlone, h]
  exact writeStatuses_status (f := fun _ => .blocked) hi

theorem decided_status_failed (h : decideVerdict canary db = .failed) {i : Nat}
    (hi : i ∈ db.selectRole canary .held) :
    ((decideAlone canary ok db).rows i).status = .pending := by
  simp only [decideAlone, h]
  have hrow := ((mem_select canary db _ i).mp hi).2
  simp only [Bool.and_eq_true, beq_iff_eq] at hrow
  exact hrow.2

theorem releaseStatus_settled (ok : Nat → Bool) (cutoff : Rat) (db : Database) (i : Nat) :
    releaseStatus ok cutoff db i = .released ∨ releaseStatus ok cutoff db i = .blocked ∨
      releaseStatus ok cutoff db i = .skipped := by
  unfold releaseStatus
  split
  · exact Or.inr (Or.inl rfl)
  · split
    · exact Or.inl rfl
    · exact Or.inr (Or.inr rfl)

/-- Sent are the rows below the cutoff, where sending works. -/
theorem releaseStatus_released_iff (ok : Nat → Bool) (cutoff : Rat) (db : Database) (i : Nat) :
    releaseStatus ok cutoff db i = .released ↔
      (Wave.release cutoff).heldBack (db.rows i).risk_score = false ∧ ok i = true := by
  unfold releaseStatus
  by_cases hheld : (Wave.release cutoff).heldBack (db.rows i).risk_score
  · simp [hheld, Wave.status]
  · cases hok : ok i <;> simp [hheld, Wave.status]

theorem heldBack_some (cutoff score : Rat) :
    (Wave.release cutoff).heldBack (some score) = false ↔ score < cutoff := by
  simp [Wave.heldBack]

/-- The cutoff of a partly failed sample is at most the score of each failure. -/
theorem cutoff_le_of_bounced {row : EmailSendCanaryRecipient} (hrow : row ∈ bouncedRows canary db)
    {score : Rat} (hscore : row.risk_score = some score) :
    ((bouncedRows canary db).filterMap (·.risk_score)).min?.getD 1 ≤ score := by
  have hmem : score ∈ (bouncedRows canary db).filterMap (·.risk_score) :=
    List.mem_filterMap.mpr ⟨row, hrow, hscore⟩
  cases hmin : ((bouncedRows canary db).filterMap (·.risk_score)).min? with
  | none =>
    rw [List.min?_eq_none_iff] at hmin
    rw [hmin] at hmem
    simp at hmem
  | some least => exact (List.le_min?_iff hmin).mp le_rfl score hmem

theorem held_of_mem_selectRole {i : Nat} (hi : i ∈ db.selectRole canary .held) :
    i ∈ canary.recipients ∧ (db.rows i).role = .held ∧ (db.rows i).status = .pending := by
  have hrow := (mem_select canary db _ i).mp hi
  simp only [Bool.and_eq_true, beq_iff_eq] at hrow
  exact ⟨hrow.1, hrow.2.1, hrow.2.2⟩

/-- Over the threshold what is released is safer than every failure. -/
theorem decided_safer (hscored : Scored canary db)
    (hover : canary.bounce_threshold < bounceRate canary db) {i : Nat}
    (hi : i ∈ db.selectRole canary .held)
    (hreleased : ((decideAlone canary ok db).rows i).status = .released)
    {row : EmailSendCanaryRecipient} (hrow : row ∈ bouncedRows canary db) :
    Safer (db.rows i) row := by
  have hverdict := decideVerdict_eq canary db
  rw [if_neg (not_le.mpr hover)] at hverdict
  split at hverdict
  · rw [decided_status_failed hverdict hi] at hreleased
    cases hreleased
  · split at hverdict
    · rw [decided_status_block hverdict hi] at hreleased
      cases hreleased
    · obtain ⟨hrecipient, _, hpending⟩ := held_of_mem_selectRole hi
      obtain ⟨low, hlow⟩ := Option.isSome_iff_exists.mp (hscored i hrecipient (Or.inr hpending))
      obtain ⟨j, hj, hjrow, hjrole⟩ :=
        (mem_sampleRows canary db row).mp ((mem_bouncedRows canary db row).mp hrow).1
      rw [hjrow] at hjrole
      obtain ⟨high, hhigh⟩ := Option.isSome_iff_exists.mp (hscored j hj (Or.inl hjrole))
      rw [← hjrow] at hhigh
      rw [decided_status_release hverdict hi, releaseStatus_released_iff, hlow,
        heldBack_some] at hreleased
      exact ⟨low, high, hlow, hhigh, hreleased.1.trans_le (cutoff_le_of_bounced hrow hhigh)⟩

/-! ## A wholly failed sample -/

/-- What is observed of it are its hard bounces. -/
theorem observedRows_of_whollyFailed (h : WhollyFailed canary db) :
    observedRows canary db = bouncedRows canary db := by
  symm
  apply List.filter_eq_self.mpr
  intro row hrow
  have hsample : row ∈ sampleRows canary db := List.mem_of_mem_filter hrow
  have hobserved := List.of_mem_filter hrow
  rcases h.2 row hsample with hhard | hsoft
  · simp [hhard]
  · simp [hsoft] at hobserved

theorem bounceRate_of_whollyFailed (h : WhollyFailed canary db)
    (hbounced : bouncedRows canary db ≠ []) : bounceRate canary db = 1 := by
  have hne : ((bouncedRows canary db).length : Rat) ≠ 0 := by
    rw [Nat.cast_ne_zero]
    exact fun hzero => hbounced (List.length_eq_zero_iff.mp hzero)
  rw [bounceRate, observedRows_of_whollyFailed h, div_self hne]

theorem decideVerdict_of_whollyFailed (h : WhollyFailed canary db)
    (hbounced : bouncedRows canary db ≠ []) :
    decideVerdict canary db =
      if 1 ≤ canary.bounce_threshold then .release (11 / 10) else .block := by
  have hobserved := observedRows_of_whollyFailed h
  rw [decideVerdict_eq, bounceRate_of_whollyFailed h hbounced, hobserved, if_neg hbounced]
  simp

/-- A call settles the batch as it should exactly where the sample can be concluded from. -/
theorem decide_settles_iff (canary : EmailSendCanary) (ok : Nat → Bool) (db : Database)
    (hscored : Scored canary db) : Decided canary ok db ↔ Conclusive canary ok db := by
  constructor
  · intro h
    refine ⟨?_, ?_⟩
    · by_contra hnone
      rw [not_or, not_not] at hnone
      obtain ⟨i, hi⟩ := List.exists_mem_of_ne_nil _ hnone.2
      have hverdict := decideVerdict_eq canary db
      rw [if_pos hnone.1] at hverdict
      have hpending : ((decideAlone canary ok db).rows i).status = .pending :=
        decided_status_failed hverdict hi
      rcases h.settled i hi with hstatus | hstatus | hstatus <;>
        · rw [hpending] at hstatus
          cases hstatus
    · rintro ⟨hfailed, hbounced, hthreshold, i, hi, hok, score, hscore, hlow⟩
      have hverdict := decideVerdict_of_whollyFailed hfailed hbounced
      rw [if_pos hthreshold] at hverdict
      apply h.spared hfailed i hi
      rw [decided_status_release hverdict hi, releaseStatus_released_iff, hscore, heldBack_some]
      exact ⟨hlow, hok⟩
  · intro h
    refine ⟨?_, fun hover i hi hreleased row hrow => decided_safer hscored hover hi hreleased hrow,
      ?_⟩
    · intro i hi
      cases hverdict : decideVerdict canary db with
      | failed =>
        rw [decideVerdict_eq] at hverdict
        split at hverdict
        · next hnone =>
          rw [h.observed.resolve_left (not_not.mpr hnone)] at hi
          simp at hi
        · split at hverdict
          · cases hverdict
          · split at hverdict <;> cases hverdict
      | release cutoff =>
        rw [decided_status_release hverdict hi]
        exact releaseStatus_settled ok cutoff db i
      | block => exact Or.inr (Or.inl (decided_status_block hverdict hi))
    · intro hfailed i hi hreleased
      by_cases hbounced : bouncedRows canary db = []
      · have hverdict := decideVerdict_eq canary db
        rw [observedRows_of_whollyFailed hfailed, if_pos hbounced] at hverdict
        rw [decided_status_failed hverdict hi] at hreleased
        cases hreleased
      · have hverdict := decideVerdict_of_whollyFailed hfailed hbounced
        split at hverdict
        · next hthreshold =>
          obtain ⟨hrecipient, _, hpending⟩ := held_of_mem_selectRole hi
          obtain ⟨score, hscore⟩ :=
            Option.isSome_iff_exists.mp (hscored i hrecipient (Or.inr hpending))
          rw [decided_status_release hverdict hi, releaseStatus_released_iff, hscore,
            heldBack_some] at hreleased
          exact h.unwaived ⟨hfailed, hbounced, hthreshold, i, hi, hreleased.2, score, hscore,
            hreleased.1⟩
        · rw [decided_status_block hverdict hi] at hreleased
          cases hreleased

/-! ## A sample of one with one recipient held -/

def sampleOfOne (bounce_threshold : Rat) : EmailSendCanary where
  recipients := [0, 1]
  nodup := pair.nodup
  bounce_threshold := bounce_threshold
  auto_release := true

def oneHeld (status : RecipientStatus) : Database where
  status := .probing
  rows i :=
    if i = 0 then { role := .sample, status := status, risk_score := some (1 / 2) }
    else { role := .held, status := .pending, risk_score := some (1 / 10) }

theorem oneHeld_scored (bounce_threshold : Rat) (status : RecipientStatus) :
    Scored (sampleOfOne bounce_threshold) (oneHeld status) := by
  intro i _ _
  simp only [oneHeld]
  split <;> rfl

theorem decide_settles_delivered :
    Decided (sampleOfOne 0) (fun _ => true) (oneHeld .delivered) ↔
      Conclusive (sampleOfOne 0) (fun _ => true) (oneHeld .delivered) :=
  decide_settles_iff _ _ _ (oneHeld_scored 0 .delivered)

/-- A sample that could not be sent leaves the held recipient pending, and with a
threshold of one a sample that bounced releases it. -/
theorem decide_unsettled :
    ((decideAlone (sampleOfOne 0) (fun _ => true) (oneHeld .skipped)).rows 1).status = .pending ∧
      ¬ Decided (sampleOfOne 0) (fun _ => true) (oneHeld .skipped) ∧
      ((decideAlone (sampleOfOne 1) (fun _ => true) (oneHeld .hard_bounce)).rows 1).status
        = .released ∧
      ¬ Decided (sampleOfOne 1) (fun _ => true) (oneHeld .hard_bounce) := by
  have hpending : ((decideAlone (sampleOfOne 0) (fun _ => true) (oneHeld .skipped)).rows 1).status
      = .pending := by decide +kernel
  have hreleased : ((decideAlone (sampleOfOne 1) (fun _ => true)
      (oneHeld .hard_bounce)).rows 1).status = .released := by decide +kernel
  refine ⟨hpending, ?_, hreleased, ?_⟩
  · intro h
    have hsettled := h.settled 1 (by decide +kernel)
    rw [hpending] at hsettled
    simp at hsettled
  · intro h
    have hfailed : WhollyFailed (sampleOfOne 1) (oneHeld .hard_bounce) := by
      unfold WhollyFailed
      decide +kernel
    exact h.spared hfailed 1 (by decide +kernel) hreleased

end MailCue.Backend.Emails
