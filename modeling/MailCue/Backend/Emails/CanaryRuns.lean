import MailCue.Backend.Emails.Canary

/-!
# Runs of a staged send

What a step can do, once, and what holds after every run: the scheduler and
`decide` are never inside one canary together.
-/
namespace MailCue.Backend.Emails
open MailCue.Lib

/-! ## Rows that are no longer pending -/

def Database.Settled (db : Database) (i : Nat) : Prop := (db.rows i).status ≠ .pending

theorem Wave.status_ne_pending (wave : Wave) (outcome : Outcome) :
    wave.status outcome ≠ .pending := by
  cases wave <;> cases outcome <;> simp [Wave.status]

theorem mem_select (canary : EmailSendCanary) (db : Database)
    (p : EmailSendCanaryRecipient → Bool) (i : Nat) :
    i ∈ db.select canary p ↔ i ∈ canary.recipients ∧ p (db.rows i) = true := by
  simp [Database.select]

theorem selectRole_not_settled (canary : EmailSendCanary) (db : Database) (role : Role) (i : Nat)
    (h : i ∈ db.selectRole canary role) : ¬ db.Settled i := by
  have hrow := ((mem_select canary db _ i).mp h).2
  simp only [Bool.and_eq_true, beq_iff_eq] at hrow
  exact fun hsettled => hsettled hrow.2

theorem select_nodup (canary : EmailSendCanary) (db : Database)
    (p : EmailSendCanaryRecipient → Bool) : (db.select canary p).Nodup :=
  canary.nodup.filter _

theorem mem_of_lookup (changes : List (Nat × RecipientStatus)) (i : Nat) (status : RecipientStatus)
    (h : changes.lookup i = some status) : (i, status) ∈ changes := by
  obtain ⟨before, after, rfl, _⟩ := List.lookup_eq_some_iff.mp h
  simp

/-- A commit that makes no row pending leaves every settled row settled. -/
theorem settled_writeStatuses (db : Database) (changes : List (Nat × RecipientStatus)) (i : Nat)
    (hchanges : ∀ change ∈ changes, change.2 ≠ .pending) (h : db.Settled i) :
    (db.writeStatuses changes).Settled i := by
  unfold Database.Settled Database.writeStatuses
  cases hlookup : changes.lookup i with
  | none => simpa [Database.Settled, hlookup] using h
  | some status =>
    have hmem : (i, status) ∈ changes := mem_of_lookup changes i status hlookup
    simpa [hlookup] using hchanges _ hmem

/-- A row the commit names is settled by it. -/
theorem writeStatuses_settles (db : Database) (changes : List (Nat × RecipientStatus)) (i : Nat)
    (hchanges : ∀ change ∈ changes, change.2 ≠ .pending) (h : i ∈ changes.map (·.1)) :
    (db.writeStatuses changes).Settled i := by
  unfold Database.Settled Database.writeStatuses
  cases hlookup : changes.lookup i with
  | none =>
    obtain ⟨change, hmem, rfl⟩ := List.mem_map.mp h
    have := List.lookup_eq_none_iff.mp hlookup change hmem
    simp at this
  | some status =>
    have hmem : (i, status) ∈ changes := mem_of_lookup changes i status hlookup
    simpa [hlookup] using hchanges _ hmem

/-- Roles and scores are not what such a commit writes. -/
theorem writeStatuses_role (db : Database) (changes : List (Nat × RecipientStatus)) (i : Nat) :
    ((db.writeStatuses changes).rows i).role = (db.rows i).role := by
  simp only [Database.writeStatuses]
  split <;> rfl

theorem writeStatuses_risk_score (db : Database) (changes : List (Nat × RecipientStatus))
    (i : Nat) : ((db.writeStatuses changes).rows i).risk_score = (db.rows i).risk_score := by
  simp only [Database.writeStatuses]
  split <;> rfl

theorem cancel_role (db : Database) (i : Nat) : (db.cancel.rows i).role = (db.rows i).role := by
  simp only [Database.cancel]
  split <;> rfl

theorem settled_cancel (db : Database) (i : Nat) : db.cancel.Settled i := by
  unfold Database.Settled Database.cancel
  dsimp only
  split
  · simp
  · assumption

theorem settled_scores (db : Database) (rows : List Nat)
    (results : Nat → Option BatchValidationItem) (sample : Nat → Bool) (i : Nat)
    (h : db.Settled i) : (scoreAndAssignSample rows results sample db).Settled i := by
  unfold Database.Settled scoreAndAssignSample assignRow
  dsimp only
  split
  · split
    · simp
    · exact h
  · exact h

theorem bounceStatus_ne_pending (outcome : RecipientStatus) : bounceStatus outcome ≠ .pending := by
  unfold bounceStatus
  split
  · next h => rcases h with rfl | rfl <;> simp
  · simp

/-! ## The loop of a wave -/

namespace Batch

/-- What a wave has handed over or will. -/
def due (b : Batch) : List Nat := b.handed ++ b.ahead

theorem changes_ne_pending (b : Batch) : ∀ change ∈ b.changes, change.2 ≠ .pending := by
  intro change h
  obtain ⟨⟨i, outcome⟩, _, rfl⟩ := List.mem_map.mp h
  exact b.wave.status_ne_pending outcome

theorem handed_mem_changes (b : Batch) (i : Nat) (h : i ∈ b.handed) :
    i ∈ b.changes.map (·.1) := by
  obtain ⟨⟨j, outcome⟩, hmem, rfl⟩ := List.mem_map.mp h
  rw [changes, List.map_map]
  exact List.mem_map.mpr ⟨(j, outcome), List.mem_of_mem_filter hmem, rfl⟩

theorem ofRows_ahead_sublist (wave : Wave) (db : Database) (rows : List Nat) :
    (ofRows wave db rows).ahead.Sublist rows := by
  have hrows : (ofRows wave db rows).todo.map (·.1) = rows := by
    simp [ofRows, Function.comp_def]
  have h : (ofRows wave db rows).ahead.Sublist ((ofRows wave db rows).todo.map (·.1)) :=
    List.filter_sublist.map _
  rwa [hrows] at h

/-- A round hands over the first row still ahead, or none and skips a row held back. -/
theorem advance_due (b b' : Batch) (ok : Bool) (events : List Event)
    (h : b.advance ok = some (b', events)) :
    b'.due = b.due ∧
      (events = [] ∧ b'.handed = b.handed ∧ b'.ahead = b.ahead ∨
        ∃ i, events = [.handed i] ∧ b'.handed = b.handed ++ [i] ∧ b.ahead = i :: b'.ahead) := by
  obtain ⟨wave, todo, done⟩ := b
  cases todo with
  | nil => simp [advance] at h
  | cons row todo =>
    obtain ⟨i, risk_score⟩ := row
    simp only [advance] at h
    split at h
    · next hheld =>
      cases h
      simp [due, handed, ahead, hheld]
    · next hheld =>
      cases h
      have hout : (if ok = true then Outcome.sent else Outcome.failed) ≠ .heldBack := by
        cases ok <;> simp
      simp [due, handed, ahead, hheld, hout]

end Batch

/-! ## What a step can do -/

inductive Taken (canary : EmailSendCanary) (s : State) : Act → State → Prop
  | tick (idle : s.dispatch = .idle) (free : s.decides .scheduler = none)
      (pending : s.db.status = .pending) : Taken canary s .tick { s with dispatch := .loaded }
  | selectPending (loaded : s.dispatch = .loaded) (dispatch : Dispatch)
      (waveless : dispatch.batch = none) :
      Taken canary s .selectPending { s with dispatch := dispatch }
  | commitScores (rows : List Nat) (results : Nat → Option BatchValidationItem)
      (sample : Nat → Bool) (scoring : s.dispatch = .scoring rows) (dispatch : Dispatch)
      (waveless : dispatch.batch = none) :
      Taken canary s (.commitScores results sample)
        { s with db := scoreAndAssignSample rows results sample s.db, dispatch := dispatch }
  | selectNoSample (scored : s.dispatch = .scored) :
      Taken canary s .selectSample { s with dispatch := .idle }
  | selectSample (scored : s.dispatch = .scored) (found : (dispatchSample canary s.db).todo ≠ []) :
      Taken canary s .selectSample { s with dispatch := .sampling (dispatchSample canary s.db) }
  | sendSample (b b' : Batch) (ok : Bool) (events : List Event)
      (sampling : s.dispatch = .sampling b) (round : b.advance ok = some (b', events)) :
      Taken canary s (.send .dispatch ok)
        { s with dispatch := .sampling b', log := s.log ++ events }
  | sendHeld (c : Caller) (b b' : Batch) (ok : Bool) (events : List Event)
      (releasing : s.decides c = some (.releasing b)) (round : b.advance ok = some (b', events)) :
      Taken canary s (.send (.decide c) ok)
        { s.setDecide c (some (.releasing b')) with log := s.log ++ events }
  | commitSample (b : Batch) (sampling : s.dispatch = .sampling b) (finished : b.todo = []) :
      Taken canary s .commitSample
        { s with db := { s.db.writeStatuses b.changes with status := .probing }, dispatch := .idle }
  | loadDecide (c : Caller) (free : s.decides c = none) (probing : s.db.status = .probing) :
      Taken canary s (.loadDecide c) (s.setDecide c (some .loaded))
  | observe (c : Caller) (loaded : s.decides c = some .loaded) (phase : Decide)
      (read : (∃ verdict, phase = .observed verdict) ∨ phase = .settling .failed) :
      Taken canary s (.observe c) (s.setDecide c (some phase))
  | selectHeld (c : Caller) (cutoff : Rat)
      (observed : s.decides c = some (.observed (.release cutoff))) :
      Taken canary s (.selectHeld c)
        (s.setDecide c (some (.releasing (releaseRemaining canary s.db cutoff))))
  | selectBlocked (c : Caller) (observed : s.decides c = some (.observed .block)) :
      Taken canary s (.selectHeld c)
        (s.setDecide c (some (.blocking (s.db.selectRole canary .held))))
  | commitHeld (c : Caller) (b : Batch) (releasing : s.decides c = some (.releasing b))
      (finished : b.todo = []) :
      Taken canary s (.commitHeld c)
        { s.setDecide c (some (.settling .released)) with db := s.db.writeStatuses b.changes }
  | commitBlocked (c : Caller) (rows : List Nat) (blocking : s.decides c = some (.blocking rows)) :
      Taken canary s (.commitHeld c)
        { s.setDecide c (some (.settling .blocked)) with
          db := s.db.writeStatuses (rows.map (·, .blocked)) }
  | commitDecision (c : Caller) (status : CanaryStatus)
      (settling : s.decides c = some (.settling status)) :
      Taken canary s (.commitDecision c)
        { s.setDecide c none with db := { s.db with status := status } }
  | loadCancel : Taken canary s .loadCancel { s with cancels := s.cancels + 1 }
  | commitCancel : Taken canary s .commitCancel
      { s with db := s.db.cancel, cancels := s.cancels - 1, log := s.log ++ [.cancelled] }
  | bounce (i : Nat) (outcome : RecipientStatus) : Taken canary s (.bounce i outcome)
      { s with db := s.db.writeStatuses [(i, bounceStatus outcome)] }
  | dispatchRaised : Taken canary s (.raised .dispatch) { s with dispatch := .idle }
  | decideRaised (c : Caller) : Taken canary s (.raised (.decide c)) (s.setDecide c none)
  | crash : Taken canary s .crash
      { s with dispatch := .idle, decides := fun _ => none, cancels := 0 }

theorem step_taken (canary : EmailSendCanary) (s s' : State) (a : Act)
    (h : step canary s a = some s') : Taken canary s a s' := by
  cases a with
  | tick =>
    rw [step] at h
    split at h
    · next idle free pending => cases h; exact .tick idle free pending
    · cases h
  | selectPending =>
    rw [step] at h
    split at h
    · next loaded =>
      cases h
      refine .selectPending loaded _ ?_
      split <;> rfl
    · cases h
  | commitScores results sample =>
    rw [step] at h
    split at h
    · next rows scoring =>
      cases h
      refine .commitScores rows results sample scoring _ ?_
      split <;> rfl
    · cases h
  | selectSample =>
    rw [step] at h
    split at h
    · next scored =>
      cases h
      split
      · exact .selectNoSample scored
      · next found => exact .selectSample scored found
    · cases h
  | send d ok =>
    cases d with
    | dispatch =>
      rw [step] at h
      split at h
      · next b sampling =>
        obtain ⟨⟨b', events⟩, round, rfl⟩ := Option.map_eq_some_iff.mp h
        exact .sendSample b b' ok events sampling round
      · cases h
    | decide c =>
      rw [step] at h
      split at h
      · next b releasing =>
        obtain ⟨⟨b', events⟩, round, rfl⟩ := Option.map_eq_some_iff.mp h
        exact .sendHeld c b b' ok events releasing round
      · cases h
  | commitSample =>
    rw [step] at h
    split at h
    · next b sampling =>
      split at h
      · next finished => cases h; exact .commitSample b sampling finished
      · cases h
    · cases h
  | loadDecide c =>
    rw [step] at h
    split at h
    · next enabled =>
      cases h
      exact .loadDecide c (Option.isNone_iff_eq_none.mp enabled.1) enabled.2.1
    · cases h
  | observe c =>
    rw [step] at h
    split at h
    · next loaded =>
      split at h
      · cases h; exact .observe c loaded _ (.inr rfl)
      · cases h; exact .observe c loaded _ (.inl ⟨_, rfl⟩)
    · cases h
  | selectHeld c =>
    rw [step] at h
    split at h
    · next cutoff observed => cases h; exact .selectHeld c cutoff observed
    · next observed => cases h; exact .selectBlocked c observed
    · cases h
  | commitHeld c =>
    rw [step] at h
    split at h
    · next b releasing =>
      split at h
      · next finished => cases h; exact .commitHeld c b releasing finished
      · cases h
    · next rows blocking => cases h; exact .commitBlocked c rows blocking
    · cases h
  | commitDecision c =>
    rw [step] at h
    split at h
    · next status settling => cases h; exact .commitDecision c status settling
    · cases h
  | loadCancel =>
    rw [step] at h
    split at h
    · cases h
    · cases h; exact .loadCancel
  | commitCancel =>
    rw [step] at h
    split at h
    · cases h
    · cases h; exact .commitCancel
  | bounce i outcome =>
    rw [step] at h
    split at h
    · cases h; exact .bounce i outcome
    · cases h
  | raised d =>
    cases d with
    | dispatch => rw [step] at h; cases h; exact .dispatchRaised
    | decide c => rw [step] at h; cases h; exact .decideRaised c
  | crash => rw [step] at h; cases h; exact .crash

/-- Whoever is settled stays so. -/
theorem Taken.settled {canary : EmailSendCanary} {s s' : State} {a : Act}
    (h : Taken canary s a s') {i : Nat} (hi : s.db.Settled i) :
    s'.db.Settled i := by
  cases h with
  | commitScores rows results sample scoring dispatch waveless =>
    exact settled_scores s.db rows results sample i hi
  | commitSample b sampling finished =>
    exact settled_writeStatuses s.db b.changes i b.changes_ne_pending hi
  | commitHeld c b releasing finished =>
    exact settled_writeStatuses s.db b.changes i b.changes_ne_pending hi
  | commitBlocked c rows blocking =>
    refine settled_writeStatuses s.db _ i ?_ hi
    intro change hmem
    obtain ⟨j, _, rfl⟩ := List.mem_map.mp hmem
    simp
  | bounce j outcome =>
    refine settled_writeStatuses s.db _ i ?_ hi
    simpa using bounceStatus_ne_pending outcome
  | commitCancel => exact settled_cancel s.db i
  | _ => exact hi

theorem guarded_next {canary : EmailSendCanary} {G : State → Act → Prop} {labels : List Act}
    {s : State} (a : Act) (s' : State) (h : ((sending canary).guarded G).Run labels s)
    (hstep : step canary s a = some s') (hsafe : G s a) :
    ((sending canary).guarded G).Run (labels ++ [a]) s' :=
  .next labels s s' a h ⟨hstep, hsafe⟩

/-! ## One driver of the loop -/

/-- While the scheduler dispatches the canary nobody decides it, and a canary
somebody decides is past its dispatch. -/
structure Exclusive (s : State) : Prop where
  dispatching : s.dispatch ≠ .idle → s.db.status ≠ .probing ∧ ∀ c, s.decides c = none
  deciding : ∀ c, s.decides c ≠ none → s.db.status ≠ .pending
  settling : ∀ c status, s.decides c = some (.settling status) → status ≠ .pending

theorem Exclusive.idle {s : State} (h : Exclusive s) (c : Caller) (hc : s.decides c ≠ none) :
    s.dispatch = .idle := by
  by_contra hbusy
  exact hc ((h.dispatching hbusy).2 c)

/-- A decision that moves on leaves the scheduler where it is. -/
theorem Exclusive.setDecide {s : State} (h : Exclusive s) (c : Caller) (phase : Option Decide)
    (hidle : s.dispatch = .idle) (hstatus : s.db.status ≠ .pending)
    (hsettling : ∀ status, phase = some (.settling status) → status ≠ .pending) :
    Exclusive (s.setDecide c phase) where
  dispatching hbusy := absurd hidle hbusy
  deciding _ _ := hstatus
  settling c' status hc' := by
    by_cases hcase : c' = c
    · subst hcase
      simp only [State.setDecide, Function.update_self] at hc'
      exact hsettling status hc'
    · simp only [State.setDecide, Function.update_of_ne hcase] at hc'
      exact h.settling c' status hc'

/-- A step that starts nothing keeps the drivers apart. -/
theorem Exclusive.of_no_start {s s' : State} (h : Exclusive s)
    (hdispatch : s'.dispatch ≠ .idle → s.dispatch ≠ .idle)
    (hdecides : ∀ c phase, s'.decides c = some phase → s.decides c = some phase)
    (hprobing : s'.db.status = .probing → s.db.status = .probing ∨ s'.dispatch = .idle)
    (hpending : s'.db.status = .pending → s.db.status = .pending) : Exclusive s' where
  dispatching hbusy := by
    obtain ⟨hstatus, hnone⟩ := h.dispatching (hdispatch hbusy)
    refine ⟨fun hp => (hprobing hp).elim hstatus hbusy, fun c => ?_⟩
    cases hc : s'.decides c with
    | none => rfl
    | some phase =>
      have hlive := hdecides c phase hc
      rw [hnone c] at hlive
      cases hlive
  deciding c hc hp := by
    obtain ⟨phase, hphase⟩ := Option.ne_none_iff_exists'.mp hc
    exact h.deciding c (by rw [hdecides c phase hphase]; simp) (hpending hp)
  settling c status hc := h.settling c status (hdecides c _ hc)

theorem exclusive_created (canary : EmailSendCanary) (suppressed : Nat → Bool) :
    Exclusive (created canary suppressed) where
  dispatching hbusy := absurd rfl hbusy
  deciding _ hc := absurd rfl hc
  settling c status hc := by simp [created] at hc

theorem exclusive_step (canary : EmailSendCanary) (s s' : State) (a : Act) (h : Exclusive s)
    (hstep : Taken canary s a s') : Exclusive s' := by
  cases hstep with
  | tick idle free pending =>
    have hnone : ∀ c, s.decides c = none := fun c =>
      by_contra fun hc => h.deciding c hc pending
    refine ⟨fun _ => ⟨by simp [pending], hnone⟩, fun c hc => absurd (hnone c) hc, h.settling⟩
  | selectPending loaded dispatch waveless =>
    exact h.of_no_start (fun _ => by simp [loaded]) (fun _ _ => id) .inl id
  | commitScores rows results sample scoring dispatch waveless =>
    refine h.of_no_start (fun _ => by simp [scoring]) (fun _ _ => id) ?_ ?_
    · intro hp
      simp only [scoreAndAssignSample] at hp
      split at hp
      · cases hp
      · exact .inl hp
    · intro hp
      simp only [scoreAndAssignSample] at hp
      split at hp
      · cases hp
      · exact hp
  | selectNoSample scored =>
    exact h.of_no_start (fun hbusy => absurd rfl hbusy) (fun _ _ => id) .inl id
  | selectSample scored found =>
    exact h.of_no_start (fun _ => by simp [scored]) (fun _ _ => id) .inl id
  | sendSample b b' ok events sampling round =>
    exact h.of_no_start (fun _ => by simp [sampling]) (fun _ _ => id) .inl id
  | commitSample b sampling finished =>
    exact h.of_no_start (fun hbusy => absurd rfl hbusy) (fun _ _ => id) (fun _ => .inr rfl)
      (fun hp => by cases hp)
  | loadDecide c free probing =>
    have hidle : s.dispatch = .idle :=
      by_contra fun hbusy => (h.dispatching hbusy).1 probing
    exact h.setDecide c _ hidle (by simp [probing]) (by simp)
  | sendHeld c b b' ok events releasing round =>
    have hlive : s.decides c ≠ none := by simp [releasing]
    exact (h.setDecide c _ (h.idle c hlive) (h.deciding c hlive) (by simp)).of_no_start
      id (fun _ _ => id) .inl id
  | observe c loaded phase read =>
    have hlive : s.decides c ≠ none := by simp [loaded]
    apply h.setDecide c _ (h.idle c hlive) (h.deciding c hlive)
    rintro status ⟨⟩
    rcases read with ⟨verdict, hverdict⟩ | hfailed
    · cases hverdict
    · cases hfailed
      simp
  | selectHeld c cutoff observed =>
    have hlive : s.decides c ≠ none := by simp [observed]
    exact h.setDecide c _ (h.idle c hlive) (h.deciding c hlive) (by simp)
  | selectBlocked c observed =>
    have hlive : s.decides c ≠ none := by simp [observed]
    exact h.setDecide c _ (h.idle c hlive) (h.deciding c hlive) (by simp)
  | commitHeld c b releasing finished =>
    have hlive : s.decides c ≠ none := by simp [releasing]
    exact (h.setDecide c _ (h.idle c hlive) (h.deciding c hlive) (by simp)).of_no_start
      id (fun _ _ => id) .inl id
  | commitBlocked c rows blocking =>
    have hlive : s.decides c ≠ none := by simp [blocking]
    exact (h.setDecide c _ (h.idle c hlive) (h.deciding c hlive) (by simp)).of_no_start
      id (fun _ _ => id) .inl id
  | commitDecision c status settling =>
    have hlive : s.decides c ≠ none := by simp [settling]
    exact (h.setDecide c none (h.idle c hlive) (h.deciding c hlive) (by simp)).of_no_start
      id (fun _ _ => id) (fun _ => .inr (h.idle c hlive))
      (fun hp => absurd hp (h.settling c status settling))
  | loadCancel => exact h.of_no_start id (fun _ _ => id) .inl id
  | commitCancel =>
    exact h.of_no_start id (fun _ _ => id) (fun hp => by cases hp) (fun hp => by cases hp)
  | bounce i outcome => exact h.of_no_start id (fun _ _ => id) .inl id
  | dispatchRaised =>
    exact h.of_no_start (fun hbusy => absurd rfl hbusy) (fun _ _ => id) .inl id
  | decideRaised c =>
    refine h.of_no_start id (fun c' phase hc' => ?_) .inl id
    by_cases hcase : c' = c
    · subst hcase
      simp [State.setDecide] at hc'
    · simpa [State.setDecide, Function.update_of_ne hcase] using hc'
  | crash =>
    exact h.of_no_start (fun hbusy => absurd rfl hbusy) (fun c phase hc => by cases hc) .inl id

/-! ## A staged send to two recipients -/

def pair : EmailSendCanary where
  recipients := [0, 1]
  nodup := by decide
  bounce_threshold := 0
  auto_release := true

/-- The dispatch up to the first send, every recipient in the sample. -/
def firstSend : List Act :=
  [.tick, .selectPending, .commitScores (fun _ => none) (fun _ => true), .selectSample,
    .send .dispatch true]

end MailCue.Backend.Emails
