import MailCue.Backend.Warmup.Campaign

/-!
# Holding a blocked provider

A permanent failure holds a provider "until an administrator fixes the
account/policy and explicitly resumes it". No slot and no rollover lifts the
block, but feedback does: whatever is not another permanent failure overwrites
it. What one step does to a blocked row is said in `step_blocked` and, for the
way in, in `blocked_step`.
-/
namespace MailCue.Backend.Warmup
open MailCue.Lib

/-- The feedback a step gives, with the provider it is about. -/
def Act.feedback (c : Campaign) : Act → Option (String × Option DeliveryFailure)
  | .dsn _ account failure => some (account.provider, some failure)
  | .finished send _ outcome =>
    if send ∈ c.sending ∧ send.direction = .localToExternal then
      some (send.account.provider, outcome)
    else none
  | _ => none

/-- Feedback about a blocked provider is one more permanent failure. -/
def PermanentWhenBlocked (c : Campaign) (a : Act) : Prop :=
  ∀ provider outcome, a.feedback c = some (provider, outcome) →
    (c.states provider).status = .blocked →
    ∃ failure, outcome = some failure ∧ failure.isPermanent = true

/-- The step is feedback that leaves the provider blocked. -/
def PutsBlocked (c : Campaign) (a : Act) (provider : String) : Prop :=
  (∃ outcome, a.feedback c = some (provider, outcome)) ∧
    ((step c a).states provider).status = .blocked

/-- Behind feedback that blocks a provider, and as long as nobody resumes it, the
provider is blocked in every state and no slot chooses a send to it. -/
def StaysBlocked (inputs : List Act) : Prop :=
  ∀ pre a mid provider, pre ++ a :: mid <+: inputs → PutsBlocked (campaign.run pre) a provider →
    .resume provider ∉ mid →
    ((campaign.run (pre ++ a :: mid)).states provider).status = .blocked ∧
      (campaign.run (pre ++ a :: mid)).sendsTo provider =
        (campaign.run (pre ++ [a])).sendsTo provider

/-! ## One step -/

@[simp] theorem updateState_states (c : Campaign) (provider other : String)
    (state : WarmupProviderState) :
    (c.updateState provider state).states other =
      if other = provider then state else c.states other := by
  simp [Campaign.updateState, Function.update_apply]

theorem schedule_sendsTo (c : Campaign) (send : Send) (provider : String)
    (h : send.direction = .localToExternal → send.account.provider ≠ provider) :
    (c.schedule send).sendsTo provider = c.sendsTo provider := by
  have hnot : (send.direction == .localToExternal && send.account.provider == provider) = false := by
    by_cases hdir : send.direction = .localToExternal
    · simpa [hdir] using h hdir
    · simp [hdir]
  simp [Campaign.sendsTo, Campaign.schedule, hnot]

theorem eligible_not_blocked {slot : Slot} {c : Campaign} {provider : String}
    (h : provider ∈ slot.eligible c) : (c.states provider).status ≠ .blocked := by
  intro hblocked
  simp [Slot.eligible, providerIsAvailable_of_blocked slot.now hblocked] at h

theorem checked_status (slot : Slot) (c : Campaign) (provider : String) :
    ((slot.checked c).states provider).status = .blocked ↔
      (c.states provider).status = .blocked := by
  by_cases hactive : provider ∈ slot.activeProviders
  · simp only [Slot.checked, if_pos hactive]
    exact providerIsAvailable_blocked _ _
  · simp [Slot.checked, hactive]

/-- What a slot can come to. -/
theorem slot_cases (slot : Slot) (c : Campaign) :
    (∃ account, slot.run c = c.schedule ⟨account, .externalToLocal⟩) ∨ slot.run c = c ∨
    slot.run c = slot.checked c ∨
    (∃ provider ∈ slot.eligible c, slot.run c = (slot.checked c).updateState provider
      { (slot.checked c).states provider with next_attempt_at := some (slot.now + minutes 15) }) ∨
    ∃ account, account.provider ∈ slot.eligible c ∧
      slot.run c = (slot.checked c).schedule ⟨account, .localToExternal⟩ := by
  unfold Slot.run
  split
  · exact .inl ⟨_, rfl⟩
  · split
    · exact .inr (.inl rfl)
    · dsimp only
      split
      · exact .inr (.inr (.inl rfl))
      · rename_i provider hprovider
        have heligible : provider ∈ slot.eligible c :=
          List.mem_of_mem_filter (choose_mem hprovider)
        split
        · exact .inr (.inr (.inr (.inl ⟨provider, heligible, rfl⟩)))
        · rename_i account haccount
          have hsame : account.provider = provider := by
            have hmem := List.of_mem_filter (choose_mem haccount)
            simp only [Bool.and_eq_true, beq_iff_eq] at hmem
            exact hmem.1
          exact .inr (.inr (.inr (.inr ⟨account, hsame ▸ heligible, rfl⟩)))

theorem slot_blocked (slot : Slot) (c : Campaign) (provider : String) :
    ((slot.run c).states provider).status = .blocked ↔ (c.states provider).status = .blocked := by
  rcases slot_cases slot c with ⟨account, h⟩ | h | h | ⟨chosen, -, h⟩ | ⟨account, -, h⟩ <;> rw [h]
  · rfl
  · exact checked_status slot c provider
  · by_cases hchosen : provider = chosen
    · subst hchosen
      simpa using checked_status slot c provider
    · simpa [hchosen] using checked_status slot c provider
  · exact checked_status slot c provider

theorem slot_sendsTo (slot : Slot) (c : Campaign) (provider : String)
    (hblocked : (c.states provider).status = .blocked) :
    (slot.run c).sendsTo provider = c.sendsTo provider := by
  rcases slot_cases slot c with ⟨account, h⟩ | h | h | ⟨chosen, -, h⟩ | ⟨account, hmem, h⟩ <;> rw [h]
  · exact schedule_sendsTo c _ provider fun hdir => by cases hdir
  · rfl
  · rfl
  · refine (schedule_sendsTo _ _ provider fun _ hsame => ?_).trans rfl
    exact eligible_not_blocked hmem (hsame ▸ hblocked)

/-- Feedback settles whether its provider is blocked. -/
theorem feedback_status {c : Campaign} {a : Act} {provider : String}
    {outcome : Option DeliveryFailure} (h : a.feedback c = some (provider, outcome)) :
    ((step c a).states provider).status = .blocked ↔
      ∃ failure, outcome = some failure ∧ failure.isPermanent = true := by
  cases a with
  | dsn now account failure =>
    obtain ⟨rfl, rfl⟩ : account.provider = provider ∧ some failure = outcome := by
      simpa [Act.feedback] using h
    simpa [step, Campaign.feedback] using
      applyProviderFeedback_blocked (c.states account.provider) now (some failure)
  | finished send now outcome' =>
    simp only [Act.feedback, Option.ite_none_right_eq_some, Option.some.injEq, Prod.mk.injEq] at h
    obtain ⟨⟨hsending, houtbound⟩, rfl, rfl⟩ := h
    simpa [step, hsending, finish, houtbound, Campaign.feedback] using
      applyProviderFeedback_blocked (c.states send.account.provider) now outcome'
  | rollover today => cases h
  | slot slot => cases h
  | resume provider => cases h

/-- What feedback about other providers and every other step leave alone. -/
theorem step_status (c : Campaign) (a : Act) (provider : String)
    (hfeedback : ∀ outcome, a.feedback c ≠ some (provider, outcome)) (hresume : a ≠ .resume provider) :
    ((step c a).states provider).status = .blocked ↔ (c.states provider).status = .blocked := by
  cases a with
  | rollover today =>
    by_cases hdate : (c.states provider).volume_date = some today <;>
      simp [step, Campaign.rollover, hdate]
  | dsn now account failure =>
    have hne : provider ≠ account.provider := by
      rintro rfl
      exact hfeedback _ rfl
    simp [step, Campaign.feedback, hne]
  | slot slot => exact slot_blocked slot c provider
  | finished send now outcome =>
    by_cases hsending : send ∈ c.sending
    · by_cases houtbound : send.direction = .localToExternal
      · have hne : provider ≠ send.account.provider := by
          rintro rfl
          exact hfeedback outcome (by simp [Act.feedback, hsending, houtbound])
        simp [step, hsending, finish, houtbound, Campaign.feedback, hne]
      · simp [step, hsending, finish, houtbound]
    · simp [step, hsending]
  | resume other =>
    have hne : provider ≠ other := by
      rintro rfl
      exact hresume rfl
    simp [step, hne]

theorem step_sendsTo (c : Campaign) (a : Act) (provider : String)
    (hblocked : (c.states provider).status = .blocked) :
    (step c a).sendsTo provider = c.sendsTo provider := by
  cases a with
  | slot slot => exact slot_sendsTo slot c provider hblocked
  | finished send now outcome =>
    by_cases hsending : send ∈ c.sending
    · by_cases houtbound : send.direction = .localToExternal <;>
        simp [step, hsending, finish, houtbound, Campaign.feedback, Campaign.sendsTo,
          Campaign.updateState]
    · simp [step, hsending]
  | rollover today => rfl
  | dsn now account failure => rfl
  | resume other => rfl

/-- A blocked provider stays so over every step but a resume, and no send to it is scheduled. -/
theorem step_blocked {c : Campaign} {a : Act} {provider : String}
    (hblocked : (c.states provider).status = .blocked) (hpermanent : PermanentWhenBlocked c a)
    (hresume : a ≠ .resume provider) :
    ((step c a).states provider).status = .blocked ∧
      (step c a).sendsTo provider = c.sendsTo provider := by
  refine ⟨?_, step_sendsTo c a provider hblocked⟩
  by_cases hfeedback : ∃ outcome, a.feedback c = some (provider, outcome)
  · obtain ⟨outcome, h⟩ := hfeedback
    exact (feedback_status h).mpr (hpermanent provider outcome h hblocked)
  · refine (step_status c a provider (fun outcome h => hfeedback ⟨outcome, h⟩) hresume).mpr hblocked

/-- Only feedback blocks a provider. -/
theorem blocked_step {c : Campaign} {a : Act} {provider : String}
    (h : ((step c a).states provider).status = .blocked) :
    PutsBlocked c a provider ∨
      (c.states provider).status = .blocked ∧ a ≠ .resume provider := by
  have hresume : a ≠ .resume provider := by
    rintro rfl
    simp [step, resumeProvider] at h
  by_cases hfeedback : ∃ outcome, a.feedback c = some (provider, outcome)
  · exact .inl ⟨hfeedback, h⟩
  · have hnone : ∀ outcome, a.feedback c ≠ some (provider, outcome) := fun outcome ho =>
      hfeedback ⟨outcome, ho⟩
    exact .inr ⟨(step_status c a provider hnone hresume).mp h, hresume⟩

/-! ## Every run -/

/-- A blocked provider was put there by feedback nobody has resumed it from. -/
theorem blocked_origin (pre : List Act) (provider : String)
    (h : ((campaign.run pre).states provider).status = .blocked) :
    ∃ before a mid, pre = before ++ a :: mid ∧ PutsBlocked (campaign.run before) a provider ∧
      .resume provider ∉ mid := by
  induction pre using List.reverseRecOn with
  | nil => cases h
  | append_singleton pre a ih =>
    rw [Machine.run_snoc] at h
    rcases blocked_step h with hputs | ⟨hbefore, hresume⟩
    · exact ⟨pre, a, [], rfl, hputs, List.not_mem_nil⟩
    · obtain ⟨before, b, mid, rfl, hputs, hmid⟩ := ih hbefore
      refine ⟨before, b, mid ++ [a], by simp, hputs, ?_⟩
      simp [hmid, hresume.symm]

theorem staysBlocked_of_permanent (inputs : List Act)
    (h : campaign.EveryStep (fun _ c a => PermanentWhenBlocked c a) inputs) :
    StaysBlocked inputs := by
  intro pre a mid provider hpre hputs
  induction mid using List.reverseRecOn with
  | nil =>
    intro _
    rw [Machine.run_snoc]
    exact ⟨hputs.2, rfl⟩
  | append_singleton mid b ih =>
    intro hresume
    have hsplit : pre ++ a :: (mid ++ [b]) = (pre ++ a :: mid) ++ [b] := by simp
    rw [hsplit] at hpre ⊢
    simp only [List.mem_append, List.mem_singleton, not_or] at hresume
    obtain ⟨hblocked, hsends⟩ := ih ((List.prefix_append _ _).trans hpre) hresume.1
    have hstep := step_blocked hblocked (h _ b hpre) (Ne.symm hresume.2)
    rw [Machine.run_snoc]
    exact ⟨hstep.1, hstep.2.trans hsends⟩

theorem permanent_of_staysBlocked (inputs : List Act) (h : StaysBlocked inputs) :
    campaign.EveryStep (fun _ c a => PermanentWhenBlocked c a) inputs := by
  intro pre a hpre provider outcome hfeedback hblocked
  obtain ⟨before, b, mid, rfl, hputs, hmid⟩ := blocked_origin pre provider hblocked
  have hresume : a ≠ .resume provider := by
    rintro rfl
    cases hfeedback
  have hafter : ((campaign.run (before ++ b :: (mid ++ [a]))).states provider).status = .blocked := by
    refine (h before b (mid ++ [a]) provider (by simpa using hpre) hputs ?_).1
    simp [hmid, hresume.symm]
  rw [show before ++ b :: (mid ++ [a]) = (before ++ b :: mid) ++ [a] by simp,
    Machine.run_snoc] at hafter
  exact (feedback_status hfeedback).mp hafter

/-- **A blocked provider is held** over a run exactly when all feedback that meets
it blocked is a permanent failure too. -/
theorem blocked_until_resumed (inputs : List Act) :
    StaysBlocked inputs ↔ campaign.EveryStep (fun _ c a => PermanentWhenBlocked c a) inputs :=
  ⟨permanent_of_staysBlocked inputs, staysBlocked_of_permanent inputs⟩

def gmailAccount : WarmupAccount := ⟨"a", "gmail"⟩

def hardBounce : DeliveryFailure := ⟨some 550, some "5.1.1", some "no such user"⟩

def deferral : DeliveryFailure := ⟨some 451, some "4.7.1", some "try again later"⟩

/-- A delayed notification about mail sent before the block takes it off again,
and the slot after its cooldown sends to the provider. -/
theorem deferral_lifts_block :
    let inputs := [.dsn 0 gmailAccount hardBounce, .dsn 0 gmailAccount deferral,
      .slot ⟨minutes 20, [gmailAccount], 1, (0, 0)⟩]
    ¬ StaysBlocked inputs ∧
      (campaign.run inputs).sendsTo "gmail" = [⟨gmailAccount, .localToExternal⟩] := by
  refine ⟨fun h => ?_, by decide⟩
  have hputs : PutsBlocked (campaign.run []) (.dsn 0 gmailAccount hardBounce) "gmail" :=
    ⟨⟨_, rfl⟩, by decide⟩
  have hcooling := (h [] (.dsn 0 gmailAccount hardBounce) [.dsn 0 gmailAccount deferral] "gmail"
    ⟨[.slot ⟨minutes 20, [gmailAccount], 1, (0, 0)⟩], rfl⟩ hputs (by simp)).1
  revert hcooling
  decide

end MailCue.Backend.Warmup
