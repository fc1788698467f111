import MailCue.Backend.Emails.CanaryOnce
import MailCue.Backend.Emails.CanarySample

/-!
# How many recipients a sample reaches

A scoring pass gives the sample role to the recipients `choose_sample` picks and
takes it from nobody, so a pass that runs again with other scores adds to the
sample. Of the recipients in that role a run hands over no more than the sample
size as long as no pass makes them more.
-/
namespace MailCue.Backend.Emails
open MailCue.Lib MailCue.Backend.Emails.CanarySample

/-- A staged send with the sample size fixed at its creation. -/
structure SampledSend extends EmailSendCanary where
  sample_size : Nat
  positive : 1 ≤ sample_size

/-- `choose_sample` on the recipients of a pass that survived validation. -/
def picks (canary : SampledSend) (rows : List Nat) (results : Nat → Option BatchValidationItem) :
    List Nat :=
  (choose_sample ((scored results rows).map fun i => (i, (results i).elim (1 / 8) (·.risk_score)))
    canary.sample_size).1

/-- A scoring pass assigns the sample `choose_sample` picks. -/
def PicksSample (canary : SampledSend) (s : State) : Act → Prop
  | .commitScores results sample => ∀ rows, s.dispatch = .scoring rows →
      sample = fun i => i ∈ picks canary rows results
  | _ => True

def sampled (canary : SampledSend) : System State Act :=
  (sending canary.toEmailSendCanary).guarded (PicksSample canary)

/-- The recipients in the sample role that were handed to the sender. -/
def sampleSent (canary : EmailSendCanary) (s : State) : List Nat :=
  canary.recipients.filter fun i => (s.db.rows i).role = .sample ∧ i ∈ handedOf s.log

/-- Who a scoring pass leaves in the sample, handed over or still to be. -/
def sampleAfter (canary : EmailSendCanary) (s : State) (rows : List Nat)
    (results : Nat → Option BatchValidationItem) (sample : Nat → Bool) : List Nat :=
  canary.recipients.filter fun i =>
    ((s.db.rows i).role = .sample ∨ i ∈ scored results rows ∧ sample i = true) ∧
      (i ∈ handedOf s.log ∨
        (s.db.rows i).status = .pending ∧ ¬ (i ∈ rows ∧ undeliverable results i = true))

/-- A pass leaves no more than the sample size in the sample. -/
def SampleStep (canary : SampledSend) (s : State) : Act → Prop
  | .commitScores results sample => ∀ rows, s.dispatch = .scoring rows →
      (sampleAfter canary.toEmailSendCanary s rows results sample).length ≤ canary.sample_size
  | _ => True

/-! ## Who may still be handed over in the sample -/

def State.inSample (s : State) (i : Nat) : Prop :=
  (s.db.rows i).role = .sample ∧ (i ∈ handedOf s.log ∨ (s.db.rows i).status = .pending ∨
    ∃ b, s.dispatch.batch = some b ∧ i ∈ b.todo.map (·.1))

/-- A release works on held recipients. -/
def HeldOnly (s : State) : Prop :=
  ∀ c b, s.decides c = some (.releasing b) →
    ∀ i ∈ b.todo.map (·.1), (s.db.rows i).role = .held

variable {canary : EmailSendCanary} {s s' : State}

theorem advance_todo {b b' : Batch} {ok : Bool} {events : List Event}
    (h : b.advance ok = some (b', events)) :
    ∃ i, b.todo.map (·.1) = i :: b'.todo.map (·.1) ∧ ∀ j ∈ handedOf events, j = i := by
  obtain ⟨wave, todo, done⟩ := b
  cases todo with
  | nil => simp [Batch.advance] at h
  | cons row todo =>
    obtain ⟨i, risk_score⟩ := row
    simp only [Batch.advance] at h
    split at h <;> cases h <;> exact ⟨i, by simp, by simp⟩

/-- Only a scoring pass writes roles. -/
theorem Taken.role {a : Act} (h : Taken canary s a s')
    (ha : ∀ results sample, a ≠ .commitScores results sample) (i : Nat) :
    (s'.db.rows i).role = (s.db.rows i).role := by
  cases h with
  | commitScores rows results sample scoring dispatch waveless => exact absurd rfl (ha results sample)
  | commitSample b sampling finished => exact writeStatuses_role s.db b.changes i
  | commitHeld c b releasing finished => exact writeStatuses_role s.db b.changes i
  | commitBlocked c rows blocking => exact writeStatuses_role s.db _ i
  | bounce j outcome => exact writeStatuses_role s.db _ i
  | commitCancel => exact cancel_role s.db i
  | _ => rfl

/-- What a release has left to do is what it had, or less. -/
theorem HeldOnly.of_batches (h : HeldOnly s)
    (hrole : ∀ i, (s'.db.rows i).role = (s.db.rows i).role)
    (hbatch : ∀ c b, s'.decides c = some (.releasing b) →
      ∃ b₀, s.decides c = some (.releasing b₀) ∧ b.todo.map (·.1) ⊆ b₀.todo.map (·.1)) :
    HeldOnly s' := by
  intro c b hc i hi
  obtain ⟨b₀, hc₀, hsub⟩ := hbatch c b hc
  rw [hrole]
  exact h c b₀ hc₀ i (hsub hi)

theorem HeldOnly.of_same (h : HeldOnly s)
    (hrole : ∀ i, (s'.db.rows i).role = (s.db.rows i).role) (hdecides : s'.decides = s.decides) :
    HeldOnly s' :=
  h.of_batches hrole fun _ b hc => ⟨b, hdecides ▸ hc, List.Subset.refl _⟩

/-- A decision that goes on to something other than a release. -/
theorem HeldOnly.of_setDecide (h : HeldOnly s)
    (hrole : ∀ i, (s'.db.rows i).role = (s.db.rows i).role) (c : Caller) (phase : Option Decide)
    (hphase : ∀ b, phase ≠ some (.releasing b))
    (hdecides : s'.decides = Function.update s.decides c phase) : HeldOnly s' := by
  apply h.of_batches hrole
  intro c' b hc'
  rw [hdecides] at hc'
  by_cases hsame : c' = c
  · subst hsame
    rw [Function.update_self] at hc'
    exact absurd hc' (hphase b)
  · rw [Function.update_of_ne hsame] at hc'
    exact ⟨b, hc', List.Subset.refl _⟩

theorem HeldOnly.step (h : HeldOnly s) (hexclusive : Exclusive s) {a : Act}
    (htaken : Taken canary s a s') : HeldOnly s' := by
  have hrole : (∀ results sample, a ≠ .commitScores results sample) →
      ∀ i, (s'.db.rows i).role = (s.db.rows i).role := htaken.role
  cases htaken with
  | commitScores rows results sample scoring dispatch waveless =>
    -- nobody decides a canary whose scores are being committed
    intro c b hc
    have hnone := (hexclusive.dispatching (by simp [scoring])).2 c
    rw [show s.decides c = some (.releasing b) from hc] at hnone
    cases hnone
  | sendHeld c b b' ok events releasing round =>
    apply h.of_batches (hrole (by simp))
    intro c' b'' hc'
    by_cases hsame : c' = c
    · subst hsame
      obtain ⟨i, htodo, _⟩ := advance_todo round
      simp only [State.setDecide, Function.update_self, Option.some.injEq,
        Decide.releasing.injEq] at hc'
      subst hc'
      refine ⟨b, releasing, ?_⟩
      rw [htodo]
      exact List.subset_cons_self _ _
    · simp only [State.setDecide, Function.update_of_ne hsame] at hc'
      exact ⟨b'', hc', List.Subset.refl _⟩
  | selectHeld c cutoff observed =>
    intro c' b hc' i hi
    by_cases hsame : c' = c
    · subst hsame
      simp only [State.setDecide, Function.update_self, Option.some.injEq,
        Decide.releasing.injEq] at hc'
      subst hc'
      have hrow : i ∈ s.db.selectRole canary .held := by
        simpa [releaseRemaining, Batch.ofRows, Function.comp_def] using hi
      have hfields := ((mem_select canary s.db _ i).mp hrow).2
      simp only [Bool.and_eq_true, beq_iff_eq] at hfields
      exact hfields.1
    · simp only [State.setDecide, Function.update_of_ne hsame] at hc'
      exact h c' b hc' i hi
  | loadDecide c free probing => exact h.of_setDecide (hrole (by simp)) c _ (by simp) rfl
  | observe c loaded phase read =>
    refine h.of_setDecide (hrole (by simp)) c (some phase) ?_ rfl
    rcases read with ⟨verdict, rfl⟩ | rfl <;> simp
  | selectBlocked c observed => exact h.of_setDecide (hrole (by simp)) c _ (by simp) rfl
  | commitHeld c b releasing finished => exact h.of_setDecide (hrole (by simp)) c _ (by simp) rfl
  | commitBlocked c rows blocking => exact h.of_setDecide (hrole (by simp)) c _ (by simp) rfl
  | commitDecision c status settling => exact h.of_setDecide (hrole (by simp)) c none (by simp) rfl
  | decideRaised c => exact h.of_setDecide (hrole (by simp)) c none (by simp) rfl
  | crash =>
    apply h.of_batches (hrole (by simp))
    intro c b hc
    cases hc
  | _ => exact h.of_same (hrole (by simp)) rfl

/-! ## The step -/

/-- A step other than a scoring pass puts nobody into the sample. -/
theorem inSample_of_step (hheld : HeldOnly s) {a : Act} (htaken : Taken canary s a s')
    (ha : ∀ results sample, a ≠ .commitScores results sample) {i : Nat} (hi : s'.inSample i) :
    s.inSample i := by
  obtain ⟨hsample, hreach⟩ := hi
  have hrole := htaken.role ha i
  rw [hrole] at hsample
  refine ⟨hsample, ?_⟩
  have hpending : (s'.db.rows i).status = .pending → (s.db.rows i).status = .pending := by
    intro hafter
    by_contra hbefore
    exact htaken.settled hbefore hafter
  -- nothing is handed over and no wave is opened, as in most steps
  have hquiet (hlog : handedOf s'.log = handedOf s.log)
      (hbatch : ∀ b, s'.dispatch.batch = some b → s.dispatch.batch = some b) :
      i ∈ handedOf s.log ∨ (s.db.rows i).status = .pending ∨
        ∃ b, s.dispatch.batch = some b ∧ i ∈ b.todo.map (·.1) := by
    rcases hreach with hhanded | hstill | ⟨b, hb, hmem⟩
    · exact Or.inl (hlog ▸ hhanded)
    · exact Or.inr (Or.inl (hpending hstill))
    · exact Or.inr (Or.inr ⟨b, hbatch b hb, hmem⟩)
  cases htaken with
  | commitScores rows results sample scoring dispatch waveless => exact absurd rfl (ha results sample)
  | selectSample scored found =>
    rcases hreach with hhanded | hstill | ⟨b, hb, hmem⟩
    · exact Or.inl hhanded
    · exact Or.inr (Or.inl hstill)
    · simp only [Dispatch.batch, Option.some.injEq] at hb
      subst hb
      have hrow : i ∈ s.db.selectRole canary .sample := by
        simpa [dispatchSample, Batch.ofRows, Function.comp_def] using hmem
      have hfields := ((mem_select canary s.db _ i).mp hrow).2
      simp only [Bool.and_eq_true, beq_iff_eq] at hfields
      exact Or.inr (Or.inl hfields.2)
  | sendSample b b' ok events sampling round =>
    obtain ⟨j, htodo, hevents⟩ := advance_todo round
    have hopen : s.dispatch.batch = some b := by rw [sampling]; rfl
    rcases hreach with hhanded | hstill | ⟨b'', hb, hmem⟩
    · rw [handedOf_append, List.mem_append] at hhanded
      rcases hhanded with hold | hnew
      · exact Or.inl hold
      · refine Or.inr (Or.inr ⟨b, hopen, ?_⟩)
        rw [htodo, hevents i hnew]
        exact List.mem_cons_self
    · exact Or.inr (Or.inl hstill)
    · simp only [Dispatch.batch, Option.some.injEq] at hb
      subst hb
      refine Or.inr (Or.inr ⟨b, hopen, ?_⟩)
      rw [htodo]
      exact List.mem_cons_of_mem _ hmem
  | sendHeld c b b' ok events releasing round =>
    obtain ⟨j, htodo, hevents⟩ := advance_todo round
    rcases hreach with hhanded | hstill | hwave
    · rw [handedOf_append, List.mem_append] at hhanded
      rcases hhanded with hold | hnew
      · exact Or.inl hold
      · -- a release hands over held recipients only
        have hmem : i ∈ b.todo.map (·.1) := by
          rw [htodo, hevents i hnew]
          exact List.mem_cons_self
        rw [hheld c b releasing i hmem] at hsample
        cases hsample
    · exact Or.inr (Or.inl hstill)
    · exact Or.inr (Or.inr hwave)
  | selectPending loaded dispatch waveless =>
    exact hquiet rfl fun b hb => by rw [show dispatch.batch = some b from hb] at waveless; cases waveless
  | commitCancel => exact hquiet (by simp) fun _ => id
  | tick idle free pending => exact hquiet rfl fun b hb => by cases hb
  | selectNoSample scored => exact hquiet rfl fun b hb => by cases hb
  | commitSample b sampling finished => exact hquiet rfl fun b hb => by cases hb
  | dispatchRaised => exact hquiet rfl fun b hb => by cases hb
  | crash => exact hquiet rfl fun b hb => by cases hb
  | _ => exact hquiet rfl fun _ => id

/-- A scoring pass leaves in the sample whom `sampleAfter` counts. -/
theorem mem_sampleAfter {rows : List Nat} {results : Nat → Option BatchValidationItem}
    {sample : Nat → Bool} {dispatch : Dispatch} (hwaveless : dispatch.batch = none) {i : Nat}
    (hrecipient : i ∈ canary.recipients)
    (hi : State.inSample { s with
      db := scoreAndAssignSample rows results sample s.db, dispatch := dispatch } i) :
    i ∈ sampleAfter canary s rows results sample := by
  obtain ⟨hsample, hreach⟩ := hi
  have hwave : ¬ ∃ b, dispatch.batch = some b ∧ i ∈ b.todo.map (·.1) := by
    rw [hwaveless]
    simp
  simp only [scoreAndAssignSample] at hsample hreach
  simp only [sampleAfter, List.mem_filter, decide_eq_true_eq, scored]
  refine ⟨hrecipient, ?_, ?_⟩
  · by_cases hrow : i ∈ rows
    · cases hunfit : undeliverable results i with
      | true => simp_all [assignRow]
      | false =>
        cases hpick : sample i with
        | true => simp [hrow]
        | false => simp_all [assignRow]
    · rw [if_neg hrow] at hsample
      exact Or.inl hsample
  · rcases hreach with hhanded | hpending | hopen
    · exact Or.inl hhanded
    · right
      by_cases hrow : i ∈ rows
      · cases hunfit : undeliverable results i with
        | true => simp_all [assignRow]
        | false => simp_all [assignRow]
      · rw [if_neg hrow] at hpending
        exact ⟨hpending, fun hboth => hrow hboth.1⟩
    · exact absurd hopen hwave

/-! ## The run -/

/-- So many recipients at most are in the sample. -/
structure Bounded (canary : SampledSend) (s : State) : Prop where
  exclusive : Exclusive s
  heldOnly : HeldOnly s
  few : ∃ among : List Nat, among.length ≤ canary.sample_size ∧
    ∀ i ∈ canary.recipients, s.inSample i → i ∈ among

theorem bounded_created (canary : SampledSend) (suppressed : Nat → Bool) :
    Bounded canary (created canary.toEmailSendCanary suppressed) where
  exclusive := exclusive_created _ suppressed
  heldOnly c b hc := by simp [created] at hc
  few := ⟨[], Nat.zero_le _, fun i _ hi => by simp [State.inSample, created, createCanary] at hi⟩

theorem Bounded.step {canary : SampledSend} (h : Bounded canary s) {a : Act}
    (hguard : SampleStep canary s a) (htaken : Taken canary.toEmailSendCanary s a s') :
    Bounded canary s' where
  exclusive := exclusive_step _ s s' a h.exclusive htaken
  heldOnly := h.heldOnly.step h.exclusive htaken
  few := by
    obtain ⟨among, hlength, hall⟩ := h.few
    by_cases ha : ∃ results sample, a = .commitScores results sample
    · obtain ⟨results, sample, rfl⟩ := ha
      cases htaken with
      | commitScores rows _ _ scoring dispatch waveless =>
        exact ⟨_, hguard rows scoring, fun i hrecipient hi => mem_sampleAfter waveless hrecipient hi⟩
    · refine ⟨among, hlength, fun i hrecipient hi => hall i hrecipient ?_⟩
      exact inSample_of_step h.heldOnly htaken (fun results sample heq => ha ⟨results, sample, heq⟩) hi

theorem sampleSent_length_le {canary : SampledSend} (h : Bounded canary s) :
    (sampleSent canary.toEmailSendCanary s).length ≤ canary.sample_size := by
  obtain ⟨among, hlength, hall⟩ := h.few
  have hsub : sampleSent canary.toEmailSendCanary s ⊆ among := by
    intro i hi
    simp only [sampleSent, List.mem_filter, decide_eq_true_eq] at hi
    exact hall i hi.1 ⟨hi.2.1, Or.inl hi.2.2⟩
  have hnodup : (sampleSent canary.toEmailSendCanary s).Nodup := canary.nodup.filter _
  exact (hnodup.subperm hsub).length_le.trans hlength

/-- Where no scoring pass makes the sample larger than its size, no more than that
many recipients in the sample role are ever handed to the sender. -/
theorem sample_sent_within_size (canary : SampledSend) (labels : List Act) (s : State)
    (hrun : ((sampled canary).guarded (SampleStep canary)).Run labels s) :
    (sampleSent canary.toEmailSendCanary s).length ≤ canary.sample_size := by
  apply sampleSent_length_le
  refine hrun.invariant (P := fun _ s => Bounded canary s) ?_ ?_
  · rintro s ⟨suppressed, rfl⟩
    exact bounded_created canary suppressed
  · intro labels s a s' h hstep
    exact h.step hstep.2 (step_taken _ s s' a hstep.1.1)

/-! ## A sample of one of two recipients -/

def sampleOne : SampledSend where
  toEmailSendCanary := pair
  sample_size := 1
  positive := by decide

/-- Scores by which one of the two is the riskier. -/
def riskier (first : Nat) (i : Nat) : Option BatchValidationItem :=
  some { risk_score := if i = first then 1 / 2 else 1 / 10, deliverable := some true }

def scorePass (first : Nat) : Act := .commitScores (riskier first) fun i => i == first

theorem picks_riskier {first : Nat} (h : first = 0 ∨ first = 1) :
    (fun i => i == first) = fun i => decide (i ∈ picks sampleOne [0, 1] (riskier first)) := by
  have hpicks : picks sampleOne [0, 1] (riskier first) = [first] := by
    rcases h with rfl | rfl <;> decide +kernel
  rw [hpicks]
  funext i
  simp [beq_eq_decide]

theorem picksSample_scorePass {s : State} {first : Nat} (h : first = 0 ∨ first = 1)
    (hscoring : s.dispatch = .scoring [0, 1]) : PicksSample sampleOne s (scorePass first) := by
  intro rows hrows
  rw [hscoring] at hrows
  cases hrows
  exact picks_riskier h

theorem sampled_next {canary : SampledSend} {G : State → Act → Prop} {labels : List Act}
    {s : State} (a : Act) (s' : State) (h : ((sampled canary).guarded G).Run labels s)
    (hstep : step canary.toEmailSendCanary s a = some s') (hpick : PicksSample canary s a)
    (hsafe : G s a) : ((sampled canary).guarded G).Run (labels ++ [a]) s' :=
  .next labels s s' a h ⟨⟨hstep, hpick⟩, hsafe⟩

/-- A dispatch that is lost once, and scores that do not change. -/
theorem sample_sent_within_size_retry :
    ∃ labels s, ((sampled sampleOne).guarded (SampleStep sampleOne)).Run labels s ∧
      handedOf s.log = [0] ∧ (sampleSent pair s).length ≤ 1 := by
  have hstart : ((sampled sampleOne).guarded (SampleStep sampleOne)).Run []
      (created pair fun _ => false) := .start _ ⟨_, rfl⟩
  have hticked := sampled_next .tick _ hstart rfl trivial trivial
  have hselected := sampled_next .selectPending _ hticked rfl trivial trivial
  have hscored := sampled_next (scorePass 0) _ hselected rfl (picksSample_scorePass (by simp) rfl)
    fun rows hrows => by cases hrows; decide +kernel
  have hlost := sampled_next (.raised .dispatch) _ hscored rfl trivial trivial
  have hagain := sampled_next .selectPending _ (sampled_next .tick _ hlost rfl trivial trivial) rfl
    trivial trivial
  have hrescored := sampled_next (scorePass 0) _ hagain rfl (picksSample_scorePass (by simp) rfl)
    fun rows hrows => by cases hrows; decide +kernel
  have hchosen := sampled_next .selectSample _ hrescored rfl trivial trivial
  have hsent := sampled_next (.send .dispatch true) _ hchosen rfl trivial trivial
  exact ⟨_, _, hsent, by decide +kernel, sample_sent_within_size sampleOne _ _ hsent⟩

/-- The dispatch is lost after the scores are committed, the next pass finds the other
recipient riskier, and both are in a sample of one. -/
theorem sample_sent_twice_its_size :
    ¬ ∀ (canary : SampledSend) (labels : List Act) (s : State), (sampled canary).Run labels s →
      (sampleSent canary.toEmailSendCanary s).length ≤ canary.sample_size := by
  intro h
  have hstart : ((sampled sampleOne).guarded fun _ _ => True).Run []
      (created pair fun _ => false) := .start _ ⟨_, rfl⟩
  have hticked := sampled_next .tick _ hstart rfl trivial trivial
  have hselected := sampled_next .selectPending _ hticked rfl trivial trivial
  have hscored := sampled_next (scorePass 0) _ hselected rfl (picksSample_scorePass (by simp) rfl)
    trivial
  have hlost := sampled_next (.raised .dispatch) _ hscored rfl trivial trivial
  have hagain := sampled_next .selectPending _ (sampled_next .tick _ hlost rfl trivial trivial) rfl
    trivial trivial
  have hrescored := sampled_next (scorePass 1) _ hagain rfl (picksSample_scorePass (by simp) rfl)
    trivial
  have hchosen := sampled_next .selectSample _ hrescored rfl trivial trivial
  have hsent := sampled_next (.send .dispatch true) _
    (sampled_next (.send .dispatch true) _ hchosen rfl trivial trivial) rfl trivial trivial
  have hlength := h sampleOne _ _ hsent.unguarded
  revert hlength
  decide +kernel

end MailCue.Backend.Emails
