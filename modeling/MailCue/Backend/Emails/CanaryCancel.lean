import MailCue.Backend.Emails.CanaryRuns

/-!
# Cancelling a staged send

The cancel endpoint settles the pending rows and the status in one commit, and
no driver that has already read them reads them again. A cancellation is final
as long as it commits outside every wave and decision, and as long as a scoring
pass under way finds somebody to send to.
-/
namespace MailCue.Backend.Emails
open MailCue.Lib

/-- Nothing is handed over behind a committed cancellation. -/
def Silent (log : List Event) : Prop :=
  ∀ pre post, log = pre ++ .cancelled :: post → ∀ i, .handed i ∉ post

theorem Silent.snoc_cancelled {log : List Event} (h : Silent log) :
    Silent (log ++ [.cancelled]) := by
  intro pre post hlog i hi
  rcases List.eq_nil_or_concat post with rfl | ⟨post', last, rfl⟩
  · cases hi
  · have hsplit : log ++ [.cancelled] = (pre ++ .cancelled :: post') ++ [last] := by
      simpa using hlog
    obtain ⟨hold, hlast⟩ := List.append_inj' hsplit rfl
    cases hlast
    have hbefore : Event.handed i ∈ post' := by simpa using hi
    exact h pre post' hold i hbefore

theorem silent_of_not_cancelled {log : List Event} (h : .cancelled ∉ log) : Silent log := by
  rintro pre post rfl
  simp at h

/-- The canary as a cancellation leaves it. -/
structure Cancelled (s : State) : Prop where
  status : s.db.status = .cancelled
  undecided : ∀ c, s.decides c = none
  waveless : s.dispatch.batch = none
  settled : ∀ i, s.db.Settled i

/-- A cancellation commits outside every wave and decision, and a scoring pass
that ends a cancelled canary finds somebody to send to. -/
def CancelStep (s : State) : Act → Prop
  | .commitCancel => (∀ c, s.decides c = none) ∧ s.dispatch.batch = none
  | .commitScores results _ => s.db.status = .cancelled →
      ∀ rows, s.dispatch = .scoring rows → scored results rows ≠ []
  | _ => True

/-- A cancelled canary stays so, and hands over nobody. -/
theorem Cancelled.step {canary : EmailSendCanary} {s s' : State} {a : Act} (h : Cancelled s)
    (hsafe : CancelStep s a) (hstep : Taken canary s a s') :
    Cancelled s' ∧ (s'.log = s.log ∨ s'.log = s.log ++ [.cancelled]) := by
  -- no decision is there to take a step
  have hundecided : ∀ {c phase}, s.decides c = some phase → False := by
    intro c phase hc
    rw [h.undecided c] at hc
    cases hc
  have hunsampled : ∀ {b}, s.dispatch = .sampling b → False := by
    intro b hb
    have hnone := h.waveless
    rw [hb] at hnone
    cases hnone
  have hsettled : ∀ i, s'.db.Settled i := fun i => hstep.settled (h.settled i)
  cases hstep with
  | tick idle free pending => rw [h.status] at pending; cases pending
  | selectPending loaded dispatch waveless =>
    exact ⟨⟨h.status, h.undecided, waveless, h.settled⟩, .inl rfl⟩
  | commitScores rows results sample scoring dispatch waveless =>
    refine ⟨⟨?_, h.undecided, waveless, hsettled⟩, .inl rfl⟩
    simp only [scoreAndAssignSample, if_neg (hsafe h.status rows scoring)]
    exact h.status
  | selectNoSample scored => exact ⟨⟨h.status, h.undecided, rfl, h.settled⟩, .inl rfl⟩
  | selectSample scored found =>
    obtain ⟨i, hi⟩ : ∃ i, i ∈ s.db.selectRole canary .sample := by
      refine List.exists_mem_of_ne_nil _ fun hnil => found ?_
      simp [dispatchSample, Batch.ofRows, hnil]
    exact absurd (h.settled i) (selectRole_not_settled canary s.db .sample i hi)
  | sendSample b b' ok events sampling round => exact (hunsampled sampling).elim
  | sendHeld c b b' ok events releasing round => exact (hundecided releasing).elim
  | commitSample b sampling finished => exact (hunsampled sampling).elim
  | loadDecide c free probing => rw [h.status] at probing; cases probing
  | observe c loaded phase read => exact (hundecided loaded).elim
  | selectHeld c cutoff observed => exact (hundecided observed).elim
  | selectBlocked c observed => exact (hundecided observed).elim
  | commitHeld c b releasing finished => exact (hundecided releasing).elim
  | commitBlocked c rows blocking => exact (hundecided blocking).elim
  | commitDecision c status settling => exact (hundecided settling).elim
  | loadCancel => exact ⟨⟨h.status, h.undecided, h.waveless, h.settled⟩, .inl rfl⟩
  | commitCancel =>
    exact ⟨⟨rfl, h.undecided, h.waveless, settled_cancel s.db⟩, .inr rfl⟩
  | bounce i outcome =>
    exact ⟨⟨h.status, h.undecided, h.waveless, hsettled⟩, .inl rfl⟩
  | dispatchRaised => exact ⟨⟨h.status, h.undecided, rfl, h.settled⟩, .inl rfl⟩
  | decideRaised c =>
    refine ⟨⟨h.status, fun c' => ?_, h.waveless, h.settled⟩, .inl rfl⟩
    by_cases hc : c' = c
    · subst hc
      simp [State.setDecide]
    · simpa [State.setDecide, Function.update_of_ne hc] using h.undecided c'
  | crash => exact ⟨⟨h.status, fun _ => rfl, rfl, h.settled⟩, .inl rfl⟩

/-- Only its own commit puts a cancellation in the log. -/
theorem cancelled_mem_step {canary : EmailSendCanary} {s s' : State} {a : Act}
    (hstep : Taken canary s a s') (hnew : .cancelled ∈ s'.log) (hold : .cancelled ∉ s.log) :
    a = .commitCancel ∧ s' =
      { s with db := s.db.cancel, cancels := s.cancels - 1, log := s.log ++ [.cancelled] } := by
  have hsends : ∀ {b b' : Batch} {ok : Bool} {events : List Event},
      b.advance ok = some (b', events) → .cancelled ∉ s.log ++ events := by
    intro b b' ok events round
    rcases (b.advance_due b' ok events round).2 with ⟨rfl, _⟩ | ⟨i, rfl, _⟩
    · simpa using hold
    · simpa using hold
  cases hstep with
  | commitCancel => exact ⟨rfl, rfl⟩
  | sendSample b b' ok events sampling round => exact absurd hnew (hsends round)
  | sendHeld c b b' ok events releasing round => exact absurd hnew (hsends round)
  | _ => exact absurd hnew hold

/-- **Cancelling is final.** However ticks, decisions, bounces and failures
interleave, as long as every cancellation commits outside every wave and
decision and every scoring pass it meets finds somebody to send to. -/
theorem cancel_is_final (canary : EmailSendCanary) (labels : List Act) (s : State)
    (h : ((sending canary).guarded CancelStep).Run labels s) :
    (.cancelled ∈ s.log → s.db.status = .cancelled) ∧ Silent s.log := by
  have hinv : (.cancelled ∈ s.log → Cancelled s) ∧ Silent s.log := by
    apply h.invariant (P := fun _ s => (.cancelled ∈ s.log → Cancelled s) ∧ Silent s.log)
    · rintro s ⟨suppressed, rfl⟩
      have hempty : .cancelled ∉ (created canary suppressed).log := List.not_mem_nil
      exact ⟨fun hmem => absurd hmem hempty, silent_of_not_cancelled hempty⟩
    · rintro _ s a s' ⟨hcancelled, hsilent⟩ ⟨hstep, hsafe⟩
      have htaken := step_taken canary s s' a hstep
      by_cases hold : .cancelled ∈ s.log
      · obtain ⟨hstays, hlog⟩ := (hcancelled hold).step hsafe htaken
        refine ⟨fun _ => hstays, ?_⟩
        rcases hlog with hlog | hlog
        · exact hlog ▸ hsilent
        · exact hlog ▸ hsilent.snoc_cancelled
      · by_cases hnew : .cancelled ∈ s'.log
        · obtain ⟨rfl, rfl⟩ := cancelled_mem_step htaken hnew hold
          exact ⟨fun _ => ⟨rfl, hsafe.1, hsafe.2, settled_cancel s.db⟩, hsilent.snoc_cancelled⟩
        · exact ⟨fun hmem => absurd hmem hnew, silent_of_not_cancelled hnew⟩
  exact ⟨fun hmem => (hinv.1 hmem).status, hinv.2⟩

theorem cancel_is_final_pair :
    ∃ labels s, ((sending pair).guarded CancelStep).Run labels s ∧
      s.log = [.handed 0, .handed 1, .cancelled] ∧ s.db.status = .cancelled := by
  have hstart : ((sending pair).guarded CancelStep).Run [] (created pair fun _ => false) :=
    .start _ ⟨_, rfl⟩
  have hselected := guarded_next .selectPending _ (guarded_next .tick _ hstart rfl trivial) rfl
    trivial
  have hscored := guarded_next (.commitScores (fun _ => none) fun _ => true) _ hselected rfl
    (fun hstatus => by cases hstatus)
  have hsent := guarded_next (.send .dispatch true) _ (guarded_next (.send .dispatch true) _
    (guarded_next .selectSample _ hscored rfl trivial) rfl trivial) rfl trivial
  have hloaded := guarded_next .loadCancel _ (guarded_next .commitSample _ hsent rfl trivial) rfl
    trivial
  have hcancel := guarded_next .commitCancel _ hloaded rfl ⟨fun _ => rfl, rfl⟩
  have hmem : .cancelled ∈ [Event.handed 0, .handed 1, .cancelled] := by decide
  exact ⟨_, _, hcancel, rfl, (cancel_is_final pair _ _ hcancel).1 hmem⟩

/-- A cancellation commits while the sample goes out. The loop goes on, and its
commit stores the canary as probing. -/
theorem cancel_overwritten :
    ∃ labels s, (sending pair).Run labels s ∧ .cancelled ∈ s.log ∧
      s.db.status ≠ .cancelled ∧ ¬ Silent s.log := by
  let acts := firstSend ++ [.loadCancel, .commitCancel, .send .dispatch true, .commitSample]
  have hafter : (acts.foldlM (step pair) (created pair fun _ => false)).map
      (fun s => (s.log, s.db.status)) =
      some ([.handed 0, .cancelled, .handed 1], .probing) := by decide
  obtain ⟨s, hexec, hs⟩ := Option.map_eq_some_iff.mp hafter
  have hstart : (sending pair).Run [] (created pair fun _ => false) := .start _ ⟨_, rfl⟩
  have hrun : (sending pair).Run acts s :=
    hstart.exec (step pair) acts s hexec fun _ _ _ _ ht => ht
  obtain ⟨hlog, hstatus⟩ := Prod.mk.inj hs
  refine ⟨acts, s, hrun, by simp [hlog], by simp [hstatus], fun hsilent => ?_⟩
  exact hsilent [.handed 0] [.handed 1] hlog 1 (by simp)

end MailCue.Backend.Emails
