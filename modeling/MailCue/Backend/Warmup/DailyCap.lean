import Mathlib
import MailCue.Backend.Warmup.Wedge

/-!
# The daily cap

backend/app/warmup/service.py, `process_campaign` and `set_campaign_status`, on a campaign
that is started, paused and stopped between its ticks. What is accepted is counted by the
local date that its tick read, with every provider's share of it.
-/
namespace MailCue.Backend.Warmup
open MailCue.Lib

/-! ## Campaigns over time -/

inductive CampaignStatus
  | draft | active | paused | stopped
  deriving DecidableEq, Repr

/-- An outbound message that SMTP accepted, with the times its tick read: when it began, and
for the local date. -/
structure Accepted where
  now : Int
  local_now : Int
  provider : String
  deriving DecidableEq, Repr

structure Scheduled where
  status : CampaignStatus
  started_at : Option Int
  next_run_at : Option Int
  campaign : Campaign
  /-- The latest time that was read. -/
  clock : Int
  accepted : List Accepted

inductive Action
  | start | pause | stop
  deriving DecidableEq, Repr

inductive Event
  | tick (t : Tick)
  | action (action : Action) (now : Int)
  /-- The resume endpoint. -/
  | resume (provider : String) (now : Int)

/-- `set_campaign_status` -/
def Scheduled.setStatus (s : Scheduled) (now : Int) : Action → Scheduled
  | .start =>
    { s with
      started_at := s.started_at.or (some now)
      status := .active
      next_run_at := some now }
  | .pause => { s with status := .paused, next_run_at := none }
  | .stop => { s with status := .stopped, next_run_at := none }

def Scheduled.resume (s : Scheduled) (provider : String) (now : Int) : Scheduled :=
  { s with
    campaign := step s.campaign (.resume provider)
    next_run_at := if s.status = .active then some now else s.next_run_at }

def Tick.acceptedOf (t : Tick) (sent : Option Send) : List Accepted :=
  match sent with
  | none => []
  | some send =>
    if send.direction = .localToExternal ∧ t.outcome.isNone then
      [⟨t.now, t.local_now, send.account.provider⟩]
    else []

section
variable (plan : Plan)

def Plan.startedAt (started_at : Int) : Plan := { plan with started_at := started_at }

/-- `process_campaign` -/
def Plan.processCampaign (s : Scheduled) (t : Tick) : Scheduled :=
  match s.status, s.next_run_at with
  | .active, some next_run_at =>
    let running : Running := ⟨s.campaign, next_run_at, s.clock⟩
    if !plan.due running t then s
    else if plan.accounts.isEmpty then
      { s with status := .paused, next_run_at := none, clock := t.local_now }
    else
      let plan := plan.startedAt (s.started_at.getD t.local_now)
      let after := plan.process (fun _ => false) running t
      { s with
        campaign := after.campaign
        next_run_at := some after.next_run_at
        clock := t.local_now
        accepted := s.accepted ++ t.acceptedOf (plan.sends running t) }
  | _, _ => s

/-- What happens at a time that is over is left out. -/
def Plan.handle (s : Scheduled) : Event → Scheduled
  | .tick t => plan.processCampaign s t
  | .action action now => if s.clock ≤ now then { s.setStatus now action with clock := now } else s
  | .resume provider now => if s.clock ≤ now then { s.resume provider now with clock := now } else s

/-- A campaign from its creation on. -/
def life (created_at : Int) : Machine Scheduled Event where
  start := ⟨.draft, none, none, created, created_at, []⟩
  step := plan.handle

/-! ## The property -/

def Zone.acceptedOn (zone : Zone) (accepted : List Accepted) (day : Int) : Nat :=
  accepted.countP fun a => zone.day a.local_now = day

def Zone.acceptedTo (zone : Zone) (accepted : List Accepted) (day : Int) (provider : String) : Nat :=
  accepted.countP fun a => zone.day a.local_now = day ∧ a.provider = provider

/-- What a provider is given of the daily target. -/
def Plan.providerShare (local_now : Int) : Nat :=
  let provider_count := max 1 plan.providers.length
  (plan.dailyTarget local_now + provider_count - 1) / provider_count

/-- On the local date of any time no more is accepted than its target, and to no provider
more than its share. -/
def Plan.Caps (accepted : List Accepted) : Prop :=
  ∀ local_now,
    plan.zone.acceptedOn accepted (plan.zone.day local_now) ≤ plan.dailyTarget local_now ∧
      plan.dailyTarget local_now ≤ plan.max_daily_volume ∧
      ∀ provider, plan.zone.acceptedTo accepted (plan.zone.day local_now) provider ≤
        plan.providerShare local_now

def Scheduled.WithinCap (s : Scheduled) : Prop :=
  (plan.startedAt (s.started_at.getD s.clock)).Caps s.accepted

end

/-! ## Counts of a campaign -/

/-- Neither the date nor a count differs. -/
structure SameCounts (c c' : Campaign) : Prop where
  volume_date : c'.volume_date = c.volume_date
  messages_sent_today : c'.messages_sent_today = c.messages_sent_today
  sent_today : ∀ provider, (c'.states provider).sent_today = (c.states provider).sent_today

theorem SameCounts.refl (c : Campaign) : SameCounts c c := ⟨rfl, rfl, fun _ => rfl⟩

theorem SameCounts.trans {c c' c'' : Campaign} (h : SameCounts c c') (h' : SameCounts c' c'') :
    SameCounts c c'' :=
  ⟨h'.volume_date.trans h.volume_date, h'.messages_sent_today.trans h.messages_sent_today,
    fun provider => (h'.sent_today provider).trans (h.sent_today provider)⟩

theorem sameCounts_updateState {c : Campaign} {provider : String} {state : WarmupProviderState}
    (h : state.sent_today = (c.states provider).sent_today) :
    SameCounts c (c.updateState provider state) := by
  refine ⟨rfl, rfl, fun other => ?_⟩
  rw [updateState_states]
  split
  · rename_i heq
    rw [heq]
    exact h
  · rfl

theorem failure_sent_today (state : WarmupProviderState) (now : Int) (failure : DeliveryFailure) :
    (applyProviderFeedback state now (some failure)).sent_today = state.sent_today := by
  cases hpermanent : failure.isPermanent <;> simp [applyProviderFeedback, hpermanent]

theorem sameCounts_ingest (c : Campaign) (now : Int)
    (feedback : List (WarmupAccount × DeliveryFailure)) :
    SameCounts c (ingestDeliveryFeedback c now feedback) := by
  induction feedback generalizing c with
  | nil => exact SameCounts.refl c
  | cons row rows ih =>
    exact (sameCounts_updateState (failure_sent_today _ _ _)).trans (ih _)

theorem sameCounts_checked (slot : Slot) (c : Campaign) : SameCounts c (slot.checked c) := by
  refine ⟨rfl, rfl, fun provider => ?_⟩
  simp only [Slot.checked]
  split
  · rcases checked_row (c.states provider) slot.now with h | ⟨h, -⟩
    · rw [h]
    · rw [h]
  · rfl

/-- A slot counts nothing before the outcome of what it sends is in. -/
theorem sameCounts_run (slot : Slot) (c : Campaign) : SameCounts c (slot.run c) := by
  have hchecked := sameCounts_checked slot c
  rcases slot_cases slot c with
    ⟨account, hrun⟩ | hrun | hrun | ⟨provider, -, hrun⟩ | ⟨account, -, hrun⟩
  · rw [hrun]
    exact ⟨rfl, rfl, fun _ => rfl⟩
  · rw [hrun]
    exact SameCounts.refl c
  · rw [hrun]
    exact hchecked
  · rw [hrun]
    exact hchecked.trans (sameCounts_updateState rfl)
  · rw [hrun]
    exact ⟨hchecked.volume_date, hchecked.messages_sent_today, hchecked.sent_today⟩

/-- A slot sends outbound while the target and the provider's share have room. -/
theorem room_of_chosen {slot : Slot} {c : Campaign} {send : Send} (h : slot.chosen c = some send)
    (hout : send.direction = .localToExternal) :
    c.messages_sent_today < slot.target ∧
      (c.states send.account.provider).sent_today < slot.providerTarget := by
  have hunchanged : c.scheduled[c.scheduled.length]? ≠ some send := by simp
  unfold Slot.chosen Slot.run at h
  split at h
  · rw [schedule_chosen] at h
    obtain rfl := Option.some.inj h
    cases hout
  · split at h
    · exact absurd h hunchanged
    · rename_i htarget
      dsimp only at h
      split at h
      · exact absurd h hunchanged
      · rename_i provider hprovider
        split at h
        · exact absurd h hunchanged
        · rename_i account haccount
          rw [show c.scheduled = (slot.checked c).scheduled from rfl, schedule_chosen] at h
          obtain rfl := Option.some.inj h
          have hsame : account.provider = provider := by
            have hmem := List.of_mem_filter (choose_mem haccount)
            simp only [Bool.and_eq_true, beq_iff_eq] at hmem
            exact hmem.1
          have hroom := List.of_mem_filter (List.mem_of_mem_filter (choose_mem hprovider))
          simp only [Bool.and_eq_true, decide_eq_true_eq] at hroom
          exact ⟨not_le.mp htarget, hsame ▸ hroom.2⟩

/-! ## Counts of a day -/

section
variable {zone : Zone} {accepted : List Accepted} {c c' : Campaign} {day : Int}

theorem acceptedOn_append (more : List Accepted) :
    zone.acceptedOn (accepted ++ more) day = zone.acceptedOn accepted day + zone.acceptedOn more day :=
  List.countP_append

theorem acceptedTo_append (more : List Accepted) (provider : String) :
    zone.acceptedTo (accepted ++ more) day provider =
      zone.acceptedTo accepted day provider + zone.acceptedTo more day provider :=
  List.countP_append

theorem acceptedTo_le_acceptedOn (accepted : List Accepted) (day : Int) (provider : String) :
    zone.acceptedTo accepted day provider ≤ zone.acceptedOn accepted day :=
  List.countP_mono_left fun a _ h => by
    simp only [decide_eq_true_eq] at h ⊢
    exact h.1

theorem acceptedOn_eq_zero (h : ∀ a ∈ accepted, zone.day a.local_now ≠ day) :
    zone.acceptedOn accepted day = 0 :=
  List.countP_eq_zero.mpr fun a ha => by simpa using h a ha

theorem acceptedTo_eq_zero (h : ∀ a ∈ accepted, zone.day a.local_now ≠ day) (provider : String) :
    zone.acceptedTo accepted day provider = 0 :=
  Nat.le_zero.mp ((acceptedTo_le_acceptedOn accepted day provider).trans (acceptedOn_eq_zero h).le)

/-- The campaign's counts are of what was accepted on this day. -/
structure Tallied (zone : Zone) (c : Campaign) (accepted : List Accepted) (day : Int) : Prop where
  date : c.volume_date = some (zone.isoformat day)
  total : c.messages_sent_today = zone.acceptedOn accepted day
  each : ∀ provider, (c.states provider).sent_today = zone.acceptedTo accepted day provider

theorem Tallied.same (h : Tallied zone c accepted day) (hsame : SameCounts c c') :
    Tallied zone c' accepted day :=
  ⟨hsame.volume_date.trans h.date, hsame.messages_sent_today.trans h.total,
    fun provider => (hsame.sent_today provider).trans (h.each provider)⟩

/-- What is counted is of the campaign's date, and nothing is of a later one. -/
def UpTo (zone : Zone) (c : Campaign) (accepted : List Accepted) (last : Int) : Prop :=
  (c.volume_date = none ∧ accepted = []) ∨ ∃ day, Tallied zone c accepted day ∧ day ≤ last ∧
    ∀ a ∈ accepted, zone.day a.local_now ≤ day

/-- A new date starts with counts of zero, and nothing was accepted on it. -/
theorem tallied_rollover (hdated : Dated c) (h : UpTo zone c accepted day) :
    Tallied zone (c.rollover (zone.isoformat day)) accepted day := by
  by_cases htoday : c.volume_date = some (zone.isoformat day)
  · have hsame : SameCounts c (c.rollover (zone.isoformat day)) := by
      refine ⟨htoday.symm, if_pos htoday, fun provider => ?_⟩
      simp only [Campaign.rollover]
      rw [if_pos ((hdated provider).trans htoday)]
    rcases h with ⟨hnone, -⟩ | ⟨d, htallied, -, -⟩
    · rw [hnone] at htoday
      cases htoday
    · obtain rfl : d = day :=
        zone.isoformat_injective (Option.some.inj (htallied.date.symm.trans htoday))
      exact htallied.same hsame
  · have hearlier : ∀ a ∈ accepted, zone.day a.local_now ≠ day := by
      rcases h with ⟨-, rfl⟩ | ⟨d, htallied, hle, hall⟩
      · simp
      · intro a ha hday
        have hbefore := hall a ha
        obtain rfl : d = day := le_antisymm hle (hday ▸ hbefore)
        exact htoday htallied.date
    refine ⟨rfl, ?_, fun provider => ?_⟩
    · rw [acceptedOn_eq_zero hearlier]
      exact if_neg htoday
    · rw [acceptedTo_eq_zero hearlier]
      simp only [Campaign.rollover]
      rw [if_neg (by rw [hdated provider]; exact htoday)]

/-- The outcome of a send that was accepted is counted for its provider, another one is
not. -/
theorem tallied_finish {send : Send} {t : Tick} (h : Tallied zone c accepted (zone.day t.local_now)) :
    Tallied zone (finish c send t.now t.outcome) (accepted ++ t.acceptedOf (some send))
      (zone.day t.local_now) := by
  unfold finish Tick.acceptedOf
  dsimp only
  by_cases hout : send.direction = .localToExternal
  · cases houtcome : t.outcome with
    | none =>
      simp only [hout, true_and, Option.isNone_none, if_true]
      refine ⟨h.date, ?_, fun provider => ?_⟩
      · rw [acceptedOn_append, ← h.total]
        simp [Zone.acceptedOn]
      · rw [acceptedTo_append, ← h.each]
        simp only [Campaign.feedback, updateState_states]
        by_cases hprovider : provider = send.account.provider
        · subst hprovider
          simp [Zone.acceptedTo, applyProviderFeedback]
        · simp [Zone.acceptedTo, hprovider, Ne.symm hprovider]
    | some failure =>
      simp only [hout, true_and, Option.isNone_some, Bool.false_eq_true, if_true, if_false,
        Nat.add_zero, List.append_nil]
      have hsame : SameCounts c (c.feedback send.account.provider t.now (some failure)) :=
        sameCounts_updateState (failure_sent_today _ _ _)
      exact h.same ⟨hsame.volume_date, hsame.messages_sent_today, hsame.sent_today⟩
  · simp only [hout, false_and, if_false, List.append_nil]
    exact h.same ⟨rfl, rfl, fun _ => rfl⟩

theorem tallied_record {t : Tick} (h : Tallied zone c accepted (zone.day t.local_now))
    (sent : Option Send) :
    Tallied zone (t.record (fun _ => false) sent c) (accepted ++ t.acceptedOf sent)
      (zone.day t.local_now) := by
  cases sent with
  | none => simpa [Tick.record, Tick.acceptedOf] using h
  | some send =>
    have houtcome : t.outcomeOf (fun _ => false) send = t.outcome := by
      simp [Tick.outcomeOf]
    rw [Tick.record, houtcome]
    exact tallied_finish h

theorem day_of_acceptedOf {t : Tick} {sent : Option Send} {a : Accepted} (h : a ∈ t.acceptedOf sent) :
    a.local_now = t.local_now := by
  unfold Tick.acceptedOf at h
  split at h
  · cases h
  · split at h
    · rw [List.mem_singleton.mp h]
    · cases h

end

/-! ## One event -/

section
variable {plan : Plan} {s : Scheduled}

theorem caps_nil (plan : Plan) : plan.Caps [] :=
  fun _ => ⟨Nat.zero_le _, Nat.min_le_left _ _, fun _ => Nat.zero_le _⟩

theorem dailyTarget_congr (plan : Plan) {local_now other : Int}
    (h : plan.zone.day local_now = plan.zone.day other) :
    plan.dailyTarget local_now = plan.dailyTarget other := by
  unfold Plan.dailyTarget
  rw [h]

theorem providerShare_congr (plan : Plan) {local_now other : Int}
    (h : plan.zone.day local_now = plan.zone.day other) :
    plan.providerShare local_now = plan.providerShare other := by
  unfold Plan.providerShare
  rw [dailyTarget_congr plan h]

/-- What a tick sends keeps the cap: on its date there is room for it, and on no other is
anything new. -/
theorem caps_tick {accepted : List Accepted} {t : Tick} {sent : Option Send} {c : Campaign}
    (hcaps : plan.Caps accepted) (htallied : Tallied plan.zone c accepted (plan.zone.day t.local_now))
    (hroom : ∀ send, sent = some send → send.direction = .localToExternal →
      c.messages_sent_today < plan.dailyTarget t.local_now ∧
        (c.states send.account.provider).sent_today < plan.providerShare t.local_now) :
    plan.Caps (accepted ++ t.acceptedOf sent) := by
  intro local_now
  obtain ⟨htarget, hmax, hshare⟩ := hcaps local_now
  rw [acceptedOn_append]
  simp only [acceptedTo_append]
  by_cases hday : plan.zone.day t.local_now = plan.zone.day local_now
  · rw [← hday] at htarget hshare ⊢
    rw [dailyTarget_congr plan hday.symm, providerShare_congr plan hday.symm] at *
    unfold Tick.acceptedOf
    cases sent with
    | none => exact ⟨htarget, hmax, hshare⟩
    | some send =>
      dsimp only
      split
      · rename_i haccepted
        obtain ⟨htotal, heach⟩ := hroom send rfl haccepted.1
        rw [htallied.total] at htotal
        rw [htallied.each] at heach
        refine ⟨?_, hmax, fun provider => ?_⟩
        · have hone : plan.zone.acceptedOn [⟨t.now, t.local_now, send.account.provider⟩]
              (plan.zone.day t.local_now) = 1 := by simp [Zone.acceptedOn]
          rw [hone]
          exact htotal
        · by_cases hprovider : provider = send.account.provider
          · have hone : plan.zone.acceptedTo [⟨t.now, t.local_now, send.account.provider⟩]
                (plan.zone.day t.local_now) send.account.provider = 1 := by simp [Zone.acceptedTo]
            rw [hprovider, hone]
            exact heach
          · have hnone : plan.zone.acceptedTo [⟨t.now, t.local_now, send.account.provider⟩]
                (plan.zone.day t.local_now) provider = 0 := by
              simp [Zone.acceptedTo, Ne.symm hprovider]
            rw [hnone]
            exact hshare provider
      · exact ⟨htarget, hmax, hshare⟩
  · have hnew : ∀ a ∈ t.acceptedOf sent, plan.zone.day a.local_now ≠ plan.zone.day local_now := by
      intro a ha
      rw [day_of_acceptedOf ha]
      exact hday
    rw [acceptedOn_eq_zero hnew]
    refine ⟨htarget, hmax, fun provider => ?_⟩
    rw [acceptedTo_eq_zero hnew]
    exact hshare provider

/-- What holds of a campaign all its life. -/
structure Counted (plan : Plan) (s : Scheduled) : Prop where
  dated : Dated s.campaign
  started : s.status = .active ∨ s.accepted ≠ [] → s.started_at ≠ none
  upTo : UpTo plan.zone s.campaign s.accepted (plan.zone.day s.clock)
  within : s.WithinCap plan

/-- The times of an event come after those that were read. -/
theorem UpTo.later {zone : Zone} {c : Campaign} {accepted : List Accepted} {last later : Int}
    (h : UpTo zone c accepted last) (hle : last ≤ later) : UpTo zone c accepted later := by
  rcases h with hnone | ⟨day, htallied, hday, hall⟩
  · exact .inl hnone
  · exact .inr ⟨day, htallied, hday.trans hle, hall⟩

theorem UpTo.same {zone : Zone} {c c' : Campaign} {accepted : List Accepted} {last : Int}
    (h : UpTo zone c accepted last) (hsame : SameCounts c c') : UpTo zone c' accepted last := by
  rcases h with ⟨hdate, hnil⟩ | ⟨day, htallied, hday, hall⟩
  · exact .inl ⟨hsame.volume_date.trans hdate, hnil⟩
  · exact .inr ⟨day, htallied.same hsame, hday, hall⟩

/-- The cap of a campaign that has a start does not depend on the time. -/
theorem withinCap_congr {s' : Scheduled} (hstarted : s.accepted ≠ [] → s.started_at ≠ none)
    (hkeeps : s.started_at ≠ none → s'.started_at = s.started_at)
    (haccepted : s'.accepted = s.accepted) (h : s.WithinCap plan) : s'.WithinCap plan := by
  unfold Scheduled.WithinCap at h ⊢
  rw [haccepted]
  by_cases hnil : s.accepted = []
  · rw [hnil]
    exact caps_nil _
  · obtain ⟨at_, hat⟩ := Option.ne_none_iff_exists'.mp (hstarted hnil)
    rw [hkeeps (hstarted hnil), hat]
    rwa [hat] at h

theorem counted_setStatus (hday : Monotone plan.zone.day) (h : Counted plan s) {now : Int}
    (hnow : s.clock ≤ now) (action : Action) :
    Counted plan { s.setStatus now action with clock := now } := by
  have hupTo := h.upTo.later (hday hnow)
  have hkept : s.accepted ≠ [] → s.started_at ≠ none := fun hne => h.started (.inr hne)
  cases action with
  | start =>
    refine ⟨h.dated, fun _ => ?_, hupTo, withinCap_congr hkept ?_ rfl h.within⟩
    · simp [Scheduled.setStatus]
    · intro hsome
      obtain ⟨at_, hat⟩ := Option.ne_none_iff_exists'.mp hsome
      simp [Scheduled.setStatus, hat]
  | pause =>
    refine ⟨h.dated, ?_, hupTo, withinCap_congr hkept (fun _ => rfl) rfl h.within⟩
    rintro (hactive | hne)
    · cases hactive
    · exact hkept hne
  | stop =>
    refine ⟨h.dated, ?_, hupTo, withinCap_congr hkept (fun _ => rfl) rfl h.within⟩
    rintro (hactive | hne)
    · cases hactive
    · exact hkept hne

theorem counted_resume (hday : Monotone plan.zone.day) (h : Counted plan s) {now : Int}
    (hnow : s.clock ≤ now) (provider : String) :
    Counted plan { s.resume provider now with clock := now } where
  dated := dated_updateState h.dated rfl
  started := h.started
  upTo := (h.upTo.later (hday hnow)).same (sameCounts_updateState rfl)
  within := withinCap_congr (fun hne => h.started (.inr hne)) (fun _ => rfl) rfl h.within

theorem UpTo.le {zone : Zone} {c : Campaign} {accepted : List Accepted} {last : Int}
    (h : UpTo zone c accepted last) : ∀ a ∈ accepted, zone.day a.local_now ≤ last := by
  rcases h with ⟨-, rfl⟩ | ⟨day, -, hday, hall⟩
  · simp
  · exact fun a ha => (hall a ha).trans hday

/-- A tick that is due counts what it sends, and nothing else. -/
theorem process_counts {broken : String → Bool} {running : Running} {t : Tick}
    (hdue : plan.due running t = true) :
    ∃ c, SameCounts (plan.prepared running t) c ∧
      (plan.process broken running t).campaign = t.record broken (plan.sends running t) c := by
  by_cases hopen : plan.isOpen t = true
  · refine ⟨_, sameCounts_run (plan.slot t) _, ?_⟩
    simp only [Plan.process, hdue, hopen, Bool.not_true, Bool.false_eq_true, if_false]
  · refine ⟨_, SameCounts.refl _, ?_⟩
    simp [Plan.process, Plan.sends, hdue, hopen, Tick.record]

theorem counted_sent (hday : Monotone plan.zone.day) (h : Counted plan s) {t : Tick}
    {next_run_at : Int} (hdue : plan.due ⟨s.campaign, next_run_at, s.clock⟩ t = true) {at_ : Int}
    (hstarted : s.started_at = some at_) (hclock : s.clock ≤ t.local_now) :
    let running : Running := ⟨s.campaign, next_run_at, s.clock⟩
    let after := (plan.startedAt at_).process (fun _ => false) running t
    Counted plan
      { s with
        campaign := after.campaign
        next_run_at := some after.next_run_at
        clock := t.local_now
        accepted := s.accepted ++ t.acceptedOf ((plan.startedAt at_).sends running t) } := by
  intro running after
  have hdays := hday hclock
  have hprepared : Tallied plan.zone ((plan.startedAt at_).prepared running t) s.accepted
      (plan.zone.day t.local_now) :=
    (tallied_rollover h.dated (h.upTo.later hdays)).same (sameCounts_ingest _ _ _)
  obtain ⟨c, hsame, hcampaign⟩ := @process_counts (plan.startedAt at_) (fun _ => false) running t hdue
  have htallied := tallied_record (hprepared.same hsame) ((plan.startedAt at_).sends running t)
  refine ⟨dated_process h.dated t, ?_, .inr ⟨_, hcampaign ▸ htallied, le_refl _, ?_⟩, ?_⟩
  · rw [hstarted]
    simp
  · intro a ha
    rcases List.mem_append.mp ha with hold | hnew
    · exact (h.upTo.le a hold).trans hdays
    · rw [day_of_acceptedOf hnew]
  · have hcaps := h.within
    unfold Scheduled.WithinCap at hcaps ⊢
    simp only [hstarted, Option.getD_some] at hcaps ⊢
    refine caps_tick hcaps hprepared fun send hsends hout => ?_
    unfold Plan.sends at hsends
    split at hsends
    · exact room_of_chosen hsends hout
    · cases hsends

theorem counted_tick (hday : Monotone plan.zone.day) (h : Counted plan s) (t : Tick) :
    Counted plan (plan.processCampaign s t) := by
  unfold Plan.processCampaign
  split
  · rename_i next_run_at hactive hnext
    dsimp only
    split
    · exact h
    · rename_i hdue
      have hdue : plan.due ⟨s.campaign, next_run_at, s.clock⟩ t = true := by simpa using hdue
      have hclock : s.clock ≤ t.local_now := by
        simp only [Plan.due, Bool.and_eq_true, decide_eq_true_eq] at hdue
        omega
      split
      · refine ⟨h.dated, ?_, h.upTo.later (hday hclock),
          withinCap_congr (fun hne => h.started (.inr hne)) (fun _ => rfl) rfl h.within⟩
        rintro (hactive | hne)
        · cases hactive
        · exact h.started (.inr hne)
      · obtain ⟨at_, hat⟩ := Option.ne_none_iff_exists'.mp (h.started (.inl hactive))
        have hget : s.started_at.getD t.local_now = at_ := by rw [hat, Option.getD_some]
        rw [hget]
        exact counted_sent hday h hdue hat hclock
  · exact h

theorem counted_handle (hday : Monotone plan.zone.day) (h : Counted plan s) (e : Event) :
    Counted plan (plan.handle s e) := by
  cases e with
  | tick t => exact counted_tick hday h t
  | action action now =>
    simp only [Plan.handle]
    split
    · exact counted_setStatus hday h ‹_› action
    · exact h
  | resume provider now =>
    simp only [Plan.handle]
    split
    · exact counted_resume hday h ‹_› provider
    · exact h

end

/-! ## Every life -/

/-- **The daily cap** holds at any time in the life of a campaign, in a time zone whose local
date never goes back. -/
theorem withinCap (plan : Plan) (hday : Monotone plan.zone.day) (created_at : Int)
    (events : List Event) : ((life plan created_at).run events).WithinCap plan := by
  have hcounted : (life plan created_at).Always (fun _ s => Counted plan s) events := by
    refine Machine.always_of_preserved events ?_ fun pre e h => ?_
    · exact ⟨fun _ => rfl, by simp [life], .inl ⟨rfl, rfl⟩, caps_nil _⟩
    · rw [Machine.run_snoc]
      exact counted_handle hday h e
  exact (hcounted events (List.prefix_refl events)).within

theorem utcZone_monotone : Monotone utcZone.day := by
  intro now later hle
  exact Int.ediv_le_ediv (by decide) hle

/-- A message a day, at any hour. -/
def onceADay : Plan where
  accounts := [ann, bob]
  start_daily_volume := 1
  daily_ramp := 0
  max_daily_volume := 1
  delays := ⟨5, 5, by decide, by decide, by decide⟩
  active_hour_start := 0
  active_hour_end := 24
  zone := utcZone
  started_at := 0
  ids_ok := annAndBob.ids_ok
  volume_ok := by decide
  hours_ok := annAndBob.hours_ok

/-- A message to bob at a quarter to twelve, his reply, and a tick that begins just before
midnight and reads the local date after it. -/
def beforeMidnight : List Event :=
  [.action .start (minutes 1425),
    .tick ⟨minutes 1425, minutes 1425, minutes 1425, [], (1, 0), 5, 0, none⟩,
    .tick ⟨minutes 1430, minutes 1430, minutes 1430, [], (0, 0), 5, 0, none⟩,
    .tick ⟨minutes 1440 - 1, minutes 1440, minutes 1440, [], (0, 0), 5, 0, none⟩]

theorem withinCap_beforeMidnight :
    ((life onceADay 0).run beforeMidnight).accepted.length = 2 ∧
      ((life onceADay 0).run beforeMidnight).WithinCap onceADay :=
  ⟨by decide +kernel, withinCap onceADay utcZone_monotone 0 beforeMidnight⟩

/-- By the date on which its tick began, a message may be one too many. -/
theorem begun_exceeds_target :
    (onceADay.startedAt (minutes 1425)).dailyTarget 0 <
      ((life onceADay 0).run beforeMidnight).accepted.countP fun a =>
        onceADay.zone.day a.now = onceADay.zone.day 0 := by
  decide +kernel

end MailCue.Backend.Warmup
