import MailCue.Backend.Emails.CanaryRuns

/-!
# At most one hand-over

A recipient handed to the sender stays pending in the database until its whole
batch commits, and nothing else remembers it. A run hands over nobody twice as
long as no driver is lost in that window and no second `decide` picks what
another one is still releasing.
-/
namespace MailCue.Backend.Emails
open MailCue.Lib

def handedOf (log : List Event) : List Nat :=
  log.filterMap fun
    | .handed i => some i
    | .cancelled => none

@[simp] theorem handedOf_nil : handedOf [] = [] := rfl

@[simp] theorem handedOf_append (log log' : List Event) :
    handedOf (log ++ log') = handedOf log ++ handedOf log' := List.filterMap_append

@[simp] theorem handedOf_handed (i : Nat) : handedOf [.handed i] = [i] := rfl

@[simp] theorem handedOf_cancelled : handedOf [.cancelled] = [] := rfl

/-- Whatever the driver has handed over is stored. -/
def State.Stored (s : State) (d : Driver) : Prop :=
  ∀ b, s.batch d = some b → ∀ i ∈ b.handed, s.db.Settled i

/-- A driver is lost only with its hand-overs stored, and `decide` picks nobody
another call is still releasing. -/
def OnceStep (canary : EmailSendCanary) (s : State) : Act → Prop
  | .raised d => s.Stored d
  | .crash => ∀ d, s.Stored d
  | .selectHeld c => ∀ cutoff, s.decides c = some (.observed (.release cutoff)) →
      ∀ c' b, s.batch (.decide c') = some b →
        ∀ i ∈ (releaseRemaining canary s.db cutoff).ahead, i ∉ b.due
  | _ => True

structure AtMostOnce (s : State) : Prop where
  nodup : (handedOf s.log).Nodup
  kept : ∀ i ∈ handedOf s.log,
    s.db.Settled i ∨ ∃ d b, s.batch d = some b ∧ i ∈ b.handed
  due_nodup : ∀ d b, s.batch d = some b → b.due.Nodup
  fresh : ∀ d b, s.batch d = some b → ∀ i ∈ b.ahead, i ∉ handedOf s.log
  apart : ∀ d d' b b', d ≠ d' → s.batch d = some b → s.batch d' = some b' →
    ∀ i ∈ b.due, i ∉ b'.due

theorem batch_dispatch (s : State) (dispatch : Dispatch) :
    ({ s with dispatch := dispatch } : State).batch =
      Function.update s.batch .dispatch dispatch.batch := by
  funext d
  cases d <;> rfl

theorem batch_setDecide (s : State) (c : Caller) (phase : Option Decide) :
    (s.setDecide c phase).batch =
      Function.update s.batch (.decide c) (phase.bind Decide.batch) := by
  funext d
  cases d with
  | dispatch => rfl
  | decide c' =>
    by_cases hc : c' = c
    · subst hc
      simp [State.batch, State.setDecide]
    · simp [State.batch, State.setDecide, hc]

/-- Whose batch a batch is, once driver `d` holds `b`. -/
theorem update_cases {batch : Driver → Option Batch} {d e : Driver} {b c : Batch}
    (h : Function.update batch d (some b) e = some c) :
    e = d ∧ c = b ∨ e ≠ d ∧ batch e = some c := by
  by_cases he : e = d
  · subst he
    rw [Function.update_self] at h
    exact .inl ⟨rfl, (Option.some.inj h).symm⟩
  · rw [Function.update_of_ne he] at h
    exact .inr ⟨he, h⟩

namespace AtMostOnce

variable {s s' : State}

/-- Steps that send nothing and open no batch: rows stay settled, and a batch is
closed with its hand-overs stored. -/
theorem of_no_send (h : AtMostOnce s) (hlog : handedOf s'.log = handedOf s.log)
    (hrows : ∀ i, s.db.Settled i → s'.db.Settled i)
    (hbatch : ∀ d b, s'.batch d = some b → s.batch d = some b)
    (hclosed : ∀ d b, s.batch d = some b → s'.batch d = some b ∨ ∀ i ∈ b.handed, s'.db.Settled i) :
    AtMostOnce s' where
  nodup := hlog ▸ h.nodup
  kept i hi := by
    rcases h.kept i (hlog ▸ hi) with hsettled | ⟨d, b, hb, hib⟩
    · exact .inl (hrows i hsettled)
    · rcases hclosed d b hb with hopen | hstored
      · exact .inr ⟨d, b, hopen, hib⟩
      · exact .inl (hstored i hib)
  due_nodup d b hb := h.due_nodup d b (hbatch d b hb)
  fresh d b hb i hi := hlog ▸ h.fresh d b (hbatch d b hb) i hi
  apart d d' b b' hne hb hb' := h.apart d d' b b' hne (hbatch d b hb) (hbatch d' b' hb')

/-- One driver closes its batch, if it has one. -/
theorem closed (h : AtMostOnce s) (d : Driver) (hlog : handedOf s'.log = handedOf s.log)
    (hrows : ∀ i, s.db.Settled i → s'.db.Settled i)
    (hbatch : s'.batch = Function.update s.batch d none)
    (hstored : ∀ b, s.batch d = some b → ∀ i ∈ b.handed, s'.db.Settled i) : AtMostOnce s' := by
  apply h.of_no_send hlog hrows
  · intro e c hc
    by_cases he : e = d
    · subst he
      simp [hbatch] at hc
    · rwa [hbatch, Function.update_of_ne he] at hc
  · intro e c hc
    by_cases he : e = d
    · subst he
      exact .inr (hstored c hc)
    · rw [hbatch, Function.update_of_ne he]
      exact .inl hc

/-! A wave's batch is replaced by one due the same rows. -/

theorem due_nodup_update (h : AtMostOnce s) (d : Driver) (b b' : Batch) (hb : s.batch d = some b)
    (hdue : b'.due = b.due) (e : Driver) (c : Batch)
    (hc : Function.update s.batch d (some b') e = some c) : c.due.Nodup := by
  rcases update_cases hc with ⟨rfl, rfl⟩ | ⟨_, hold⟩
  · rw [hdue]
    exact h.due_nodup e b hb
  · exact h.due_nodup e c hold

theorem apart_update (h : AtMostOnce s) (d : Driver) (b b' : Batch) (hb : s.batch d = some b)
    (hdue : b'.due = b.due) (e e' : Driver) (c c' : Batch) (hne : e ≠ e')
    (hc : Function.update s.batch d (some b') e = some c)
    (hc' : Function.update s.batch d (some b') e' = some c') : ∀ i ∈ c.due, i ∉ c'.due := by
  rcases update_cases hc with ⟨rfl, rfl⟩ | ⟨_, hold⟩ <;>
    rcases update_cases hc' with ⟨rfl, rfl⟩ | ⟨_, hold'⟩
  · exact absurd rfl hne
  · rw [hdue]
    exact h.apart e e' b c' hne hb hold'
  · rw [hdue]
    exact h.apart e e' c b hne hold hb
  · exact h.apart e e' c c' hne hold hold'

theorem fresh_update (h : AtMostOnce s) (d : Driver) (b b' : Batch) (hb : s.batch d = some b)
    (hahead : ∀ i ∈ b'.ahead, i ∈ b.ahead) (e : Driver) (c : Batch)
    (hc : Function.update s.batch d (some b') e = some c) : ∀ i ∈ c.ahead, i ∉ handedOf s.log := by
  intro i hi
  rcases update_cases hc with ⟨rfl, rfl⟩ | ⟨_, hold⟩
  · exact h.fresh e b hb i (hahead i hi)
  · exact h.fresh e c hold i hi

/-- What was handed over stays settled, or on the batch that did it. -/
theorem kept_update (h : AtMostOnce s) (d : Driver) (b b' : Batch) (hb : s.batch d = some b)
    (hhanded : ∀ i ∈ b.handed, i ∈ b'.handed) (i : Nat) (hi : i ∈ handedOf s.log) :
    s.db.Settled i ∨
      ∃ e c, Function.update s.batch d (some b') e = some c ∧ i ∈ c.handed := by
  rcases h.kept i hi with hsettled | ⟨e, c, hc, hic⟩
  · exact .inl hsettled
  · by_cases he : e = d
    · subst he
      obtain rfl : b = c := Option.some.inj (hb.symm.trans hc)
      exact .inr ⟨e, b', Function.update_self .., hhanded i hic⟩
    · exact .inr ⟨e, c, by rw [Function.update_of_ne he, hc], hic⟩

/-- One round of a wave. -/
theorem round (h : AtMostOnce s) (d : Driver) (b b' : Batch) (ok : Bool) (events : List Event)
    (hb : s.batch d = some b) (hround : b.advance ok = some (b', events))
    (hlog : s'.log = s.log ++ events) (hdb : s'.db = s.db)
    (hbatch : s'.batch = Function.update s.batch d (some b')) : AtMostOnce s' := by
  obtain ⟨hdue, hevents⟩ := b.advance_due b' ok events hround
  rcases hevents with ⟨rfl, hhanded, hahead⟩ | ⟨i, rfl, hhanded, hahead⟩
  · -- a row held back
    have hlog' : handedOf s'.log = handedOf s.log := by simp [hlog]
    constructor
    · exact hlog' ▸ h.nodup
    · intro j hj
      rw [hdb, hbatch]
      exact h.kept_update d b b' hb (fun _ => hhanded ▸ id) j (hlog' ▸ hj)
    · exact hbatch ▸ h.due_nodup_update d b b' hb hdue
    · rw [hlog', hbatch]
      exact h.fresh_update d b b' hb (fun _ => hahead ▸ id)
    · exact hbatch ▸ h.apart_update d b b' hb hdue
  · -- row `i` is handed over
    have hlog' : handedOf s'.log = handedOf s.log ++ [i] := by simp [hlog]
    have hi : i ∈ b.ahead := by simp [hahead]
    constructor
    · rw [hlog', List.nodup_append_comm]
      exact List.nodup_cons.mpr ⟨h.fresh d b hb i hi, h.nodup⟩
    · intro j hj
      rw [hlog', List.mem_append, List.mem_singleton] at hj
      rw [hdb, hbatch]
      rcases hj with hj | rfl
      · exact h.kept_update d b b' hb (fun _ hk => hhanded ▸ List.mem_append_left _ hk) j hj
      · exact .inr ⟨d, b', Function.update_self .., by simp [hhanded]⟩
    · exact hbatch ▸ h.due_nodup_update d b b' hb hdue
    · intro e c hc j hj
      rw [hbatch] at hc
      rw [hlog', List.mem_append, List.mem_singleton]
      rintro (hlogged | rfl)
      · have hsub : ∀ k ∈ b'.ahead, k ∈ b.ahead := fun k hk => hahead ▸ List.mem_cons_of_mem _ hk
        exact h.fresh_update d b b' hb hsub e c hc j hj hlogged
      · rcases update_cases hc with ⟨rfl, rfl⟩ | ⟨hne, hold⟩
        · have hnodup := (List.nodup_append.mp (h.due_nodup e b hb)).2.1
          rw [hahead] at hnodup
          exact (List.nodup_cons.mp hnodup).1 hj
        · exact h.apart d e b c (Ne.symm hne) hb hold j (List.mem_append_right _ hi)
            (List.mem_append_right _ hj)
    · exact hbatch ▸ h.apart_update d b b' hb hdue

/-- A wave over pending rows no other wave is due. -/
theorem opened (h : AtMostOnce s) (d : Driver) (b : Batch) (hnone : s.batch d = none)
    (hlog : s'.log = s.log) (hdb : s'.db = s.db)
    (hbatch : s'.batch = Function.update s.batch d (some b)) (hhanded : b.handed = [])
    (hahead : b.ahead.Nodup) (hpending : ∀ i ∈ b.ahead, ¬ s.db.Settled i)
    (hapart : ∀ d' b', s.batch d' = some b' → ∀ i ∈ b.ahead, i ∉ b'.due) : AtMostOnce s' := by
  have hdue : b.due = b.ahead := by simp [Batch.due, hhanded]
  constructor
  · exact hlog ▸ h.nodup
  · intro i hi
    rw [hlog] at hi
    rcases h.kept i hi with hsettled | ⟨e, c, hc, hic⟩
    · exact .inl (hdb ▸ hsettled)
    · have he : e ≠ d := by
        rintro rfl
        rw [hnone] at hc
        cases hc
      exact .inr ⟨e, c, by rw [hbatch, Function.update_of_ne he, hc], hic⟩
  · intro e c hc
    rw [hbatch] at hc
    rcases update_cases hc with ⟨rfl, rfl⟩ | ⟨_, hold⟩
    · rwa [hdue]
    · exact h.due_nodup e c hold
  · intro e c hc i hi
    rw [hlog]
    rw [hbatch] at hc
    rcases update_cases hc with ⟨rfl, rfl⟩ | ⟨_, hold⟩
    · intro hlogged
      rcases h.kept i hlogged with hsettled | ⟨e', c', hc', hic'⟩
      · exact hpending i hi hsettled
      · exact hapart e' c' hc' i hi (List.mem_append_left _ hic')
    · exact h.fresh e c hold i hi
  · intro e e' c c' hne hc hc' i hi
    rw [hbatch] at hc hc'
    rcases update_cases hc with ⟨rfl, rfl⟩ | ⟨_, hold⟩ <;>
      rcases update_cases hc' with ⟨rfl, rfl⟩ | ⟨_, hold'⟩
    · exact absurd rfl hne
    · exact hapart e' c' hold' i (hdue ▸ hi)
    · rw [hdue]
      exact fun hi' => hapart e c hold i hi' hi
    · exact h.apart e e' c c' hne hold hold' i hi

end AtMostOnce

theorem atMostOnce_created (canary : EmailSendCanary) (suppressed : Nat → Bool) :
    AtMostOnce (created canary suppressed) where
  nodup := List.nodup_nil
  kept i hi := by simp [created] at hi
  due_nodup d b hb := by cases d <;> cases hb
  fresh d b hb := by cases d <;> cases hb
  apart d d' b b' _ hb := by cases d <;> cases hb

theorem batch_of_decides {s : State} {c : Caller} {phase : Decide}
    (h : s.decides c = some phase) : s.batch (.decide c) = phase.batch := by
  simp [State.batch, h]

theorem batch_of_dispatch {s : State} {dispatch : Dispatch} (h : s.dispatch = dispatch) :
    s.batch .dispatch = dispatch.batch := by
  simp [State.batch, h]

theorem atMostOnce_step (canary : EmailSendCanary) (s s' : State) (a : Act)
    (h : AtMostOnce s) (hex : Exclusive s) (hsafe : OnceStep canary s a)
    (hstep : Taken canary s a s') : AtMostOnce s' := by
  have hsettled : ∀ i, s.db.Settled i → s'.db.Settled i := fun _ hi => hstep.settled hi
  -- a driver outside a wave has nothing to store
  have hquiet : ∀ {d : Driver} {db : Database}, s.batch d = none →
      ∀ b, s.batch d = some b → ∀ i ∈ b.handed, db.Settled i := by
    intro d db hnone b hb
    rw [hnone] at hb
    cases hb
  cases hstep with
  | tick idle free pending =>
    exact h.closed .dispatch rfl (fun _ => id) (batch_dispatch s .loaded)
      (hquiet (batch_of_dispatch idle))
  | selectPending loaded dispatch waveless =>
    exact h.closed .dispatch rfl (fun _ => id) (waveless ▸ batch_dispatch s dispatch)
      (hquiet (batch_of_dispatch loaded))
  | commitScores rows results sample scoring dispatch waveless =>
    exact h.closed .dispatch rfl hsettled
      (waveless ▸ batch_dispatch s dispatch) (hquiet (batch_of_dispatch scoring))
  | selectNoSample scored =>
    exact h.closed .dispatch rfl (fun _ => id) (batch_dispatch s .idle)
      (hquiet (batch_of_dispatch scored))
  | selectSample scored found =>
    have hsub := Batch.ofRows_ahead_sublist .sample s.db (s.db.selectRole canary .sample)
    refine h.opened .dispatch _ (batch_of_dispatch scored) rfl rfl
      (batch_dispatch s (.sampling (dispatchSample canary s.db))) rfl
      ((select_nodup canary s.db _).sublist hsub)
      (fun i hi => selectRole_not_settled canary s.db .sample i (hsub.subset hi)) ?_
    -- nobody decides a canary in its dispatch
    intro d b hb
    cases d with
    | dispatch => simp [batch_of_dispatch scored, Dispatch.batch] at hb
    | decide c =>
      have hnone := (hex.dispatching (by simp [scored])).2 c
      simp [State.batch, hnone] at hb
  | sendSample b b' ok events sampling round =>
    exact h.round .dispatch b b' ok events (batch_of_dispatch sampling) round rfl rfl
      (batch_dispatch s (.sampling b'))
  | sendHeld c b b' ok events releasing round =>
    exact h.round (.decide c) b b' ok events (batch_of_decides releasing) round rfl rfl
      (batch_setDecide s c (some (.releasing b')))
  | commitSample b sampling finished =>
    refine h.closed .dispatch rfl hsettled (batch_dispatch s .idle) ?_
    intro c hc i hi
    rw [batch_of_dispatch sampling] at hc
    cases hc
    exact writeStatuses_settles s.db b.changes i b.changes_ne_pending (b.handed_mem_changes i hi)
  | loadDecide c free probing =>
    exact h.closed (.decide c) rfl (fun _ => id) (batch_setDecide s c (some .loaded))
      (hquiet (by simp [State.batch, free]))
  | observe c loaded phase read =>
    have hnone : phase.batch = none := by
      rcases read with ⟨verdict, rfl⟩ | rfl <;> rfl
    refine h.closed (.decide c) rfl (fun _ => id) ?_ (hquiet (batch_of_decides loaded))
    rw [batch_setDecide, Option.bind_some, hnone]
  | selectHeld c cutoff observed =>
    have hsub := Batch.ofRows_ahead_sublist (.release cutoff) s.db (s.db.selectRole canary .held)
    refine h.opened (.decide c) _ (batch_of_decides observed) rfl rfl
      (batch_setDecide s c (some (.releasing (releaseRemaining canary s.db cutoff)))) rfl
      ((select_nodup canary s.db _).sublist hsub)
      (fun i hi => selectRole_not_settled canary s.db .held i (hsub.subset hi)) ?_
    intro d b hb
    cases d with
    | dispatch =>
      have hidle := hex.idle c (by simp [observed])
      simp [batch_of_dispatch hidle, Dispatch.batch] at hb
    | decide c' => exact hsafe cutoff observed c' b hb
  | selectBlocked c observed =>
    exact h.closed (.decide c) rfl (fun _ => id) (batch_setDecide s c _)
      (hquiet (batch_of_decides observed))
  | commitHeld c b releasing finished =>
    refine h.closed (.decide c) rfl hsettled (batch_setDecide s c (some (.settling .released))) ?_
    intro c' hc i hi
    rw [batch_of_decides releasing] at hc
    cases hc
    exact writeStatuses_settles s.db b.changes i b.changes_ne_pending (b.handed_mem_changes i hi)
  | commitBlocked c rows blocking =>
    exact h.closed (.decide c) rfl hsettled (batch_setDecide s c (some (.settling .blocked)))
      (hquiet (batch_of_decides blocking))
  | commitDecision c status settling =>
    exact h.closed (.decide c) rfl (fun _ => id) (batch_setDecide s c none)
      (hquiet (batch_of_decides settling))
  | loadCancel =>
    exact h.of_no_send rfl (fun _ => id) (fun _ _ => id) (fun _ _ => .inl)
  | commitCancel =>
    exact h.of_no_send (by simp) hsettled (fun _ _ => id) (fun _ _ => .inl)
  | bounce i outcome =>
    exact h.of_no_send rfl hsettled (fun _ _ => id) (fun _ _ => .inl)
  | dispatchRaised =>
    exact h.closed .dispatch rfl (fun _ => id) (batch_dispatch s .idle) hsafe
  | decideRaised c =>
    exact h.closed (.decide c) rfl (fun _ => id) (batch_setDecide s c none) hsafe
  | crash =>
    refine h.of_no_send rfl (fun _ => id) ?_ (fun d b hb => .inr (hsafe d b hb))
    intro d b hb
    cases d <;> cases hb

/-- **At most one hand-over.** However ticks, decisions, cancellations, bounces and
failures interleave, as long as no driver is lost with a hand-over unstored and
no `decide` picks what another one is still releasing. -/
theorem canary_handed_once (canary : EmailSendCanary) (labels : List Act) (s : State)
    (h : ((sending canary).guarded (OnceStep canary)).Run labels s) :
    (handedOf s.log).Nodup := by
  have hinv : Exclusive s ∧ AtMostOnce s := by
    apply h.invariant (P := fun _ s => Exclusive s ∧ AtMostOnce s)
    · rintro s ⟨suppressed, rfl⟩
      exact ⟨exclusive_created canary suppressed, atMostOnce_created canary suppressed⟩
    · rintro _ s a s' ⟨hex, honce⟩ ⟨hstep, hsafe⟩
      have htaken := step_taken canary s s' a hstep
      exact ⟨exclusive_step canary s s' a hex htaken,
        atMostOnce_step canary s s' a honce hex hsafe htaken⟩
  exact hinv.2.nodup

theorem canary_handed_once_pair :
    ∃ labels s, ((sending pair).guarded (OnceStep pair)).Run labels s ∧
      handedOf s.log = [0, 1] ∧ (handedOf s.log).Nodup := by
  have hstart : ((sending pair).guarded (OnceStep pair)).Run [] (created pair fun _ => false) :=
    .start _ ⟨_, rfl⟩
  have hselected := guarded_next .selectPending _ (guarded_next .tick _ hstart rfl trivial) rfl
    trivial
  have hscored := guarded_next (.commitScores (fun _ => none) fun _ => true) _ hselected rfl trivial
  have hsent := guarded_next (.send .dispatch true) _ (guarded_next (.send .dispatch true) _
    (guarded_next .selectSample _ hscored rfl trivial) rfl trivial) rfl trivial
  have hstored := guarded_next .commitSample _ hsent rfl trivial
  -- the process fails with nothing unstored
  have hcrashed := guarded_next .crash _ hstored rfl fun d b hb => by cases d <;> cases hb
  exact ⟨_, _, hcrashed, rfl, canary_handed_once pair _ _ hcrashed⟩

/-- The process fails between the first send and the commit, and the next tick
sends again. -/
theorem crash_hands_over_twice :
    ¬ ∀ (canary : EmailSendCanary) (labels : List Act) (s : State),
      (sending canary).Run labels s → (handedOf s.log).Nodup := by
  intro h
  let acts := firstSend ++ [.crash] ++ firstSend
  have hlog : (acts.foldlM (step pair) (created pair fun _ => false)).map (handedOf ·.log) =
      some [0, 0] := by decide
  obtain ⟨s, hexec, hs⟩ := Option.map_eq_some_iff.mp hlog
  have hstart : (sending pair).Run [] (created pair fun _ => false) := .start _ ⟨_, rfl⟩
  have hrun : (sending pair).Run acts s :=
    hstart.exec (step pair) acts s hexec fun _ _ _ _ ht => ht
  have hnodup := h pair acts s hrun
  rw [hs] at hnodup
  simp at hnodup

end MailCue.Backend.Emails
