import Mathlib
import MailCue.Backend.Warmup.Blocked
import MailCue.Backend.Warmup.OneSlot
import MailCue.Backend.Warmup.Ticks

/-!
# An account that cannot answer

Pending conversations are completed before anything else is sent. A reply that fails leaves
its conversation pending, so where it fails on every attempt no tick sends anything else
again. Where no account's login does, each pending conversation is completed by one reply,
and a day on which the provider of an account has sent least gives the account a message.
-/
namespace MailCue.Backend.Warmup
open MailCue.Lib

/-! ## What is claimed -/

/-- Mail arrives, logins work, and nothing comes back. -/
def Nominal : Input → Prop
  | .tick t => t.feedback = [] ∧ t.outcome = none
  | .resume _ _ => False

/-- The account waits for no reply, its provider is available, and there is room today. -/
structure Ready (plan : Plan) (s : Running) (account : WarmupAccount) : Prop where
  listed : account ∈ plan.accounts
  idle : s.campaign.last account.id ≠ some .localToExternal
  available : (providerIsAvailable (s.campaign.states account.provider) s.clock).1 = true
  room : s.campaign.messages_sent_today < plan.dailyTarget s.clock

/-- Some further ticks lead to one that sends the account a message. -/
def ReachesOut (plan : Plan) (broken : String → Bool) (s : Running) (account : WarmupAccount) :
    Prop :=
  CanReach (plan.step broken) Nominal
    (fun s' => ∃ t, Nominal (.tick t) ∧ plan.sends s' t = some ⟨account, .localToExternal⟩) s

/-- A tick retries the account's reply, and no further tick does anything but fail at it. -/
def OnlyRetries (plan : Plan) (broken : String → Bool) (s : Running) (account : WarmupAccount) :
    Prop :=
  (∃ t, Nominal (.tick t) ∧ plan.sends s t = some ⟨account, .externalToLocal⟩) ∧
    ¬ CanReach (plan.step broken) Nominal
      (fun s' => ∃ t send, Nominal (.tick t) ∧ plan.sends s' t = some send ∧
        ¬ (send = ⟨account, .externalToLocal⟩ ∧ t.outcomeOf broken send ≠ none)) s

structure NeverWedged (plan : Plan) (broken : String → Bool) : Prop where
  reaches : ∀ inputs account, Ready plan ((ticks plan broken).run inputs) account →
    ReachesOut plan broken ((ticks plan broken).run inputs) account
  retries : ∀ inputs account, ¬ OnlyRetries plan broken ((ticks plan broken).run inputs) account

/-! ## Slots -/

theorem schedule_chosen (c : Campaign) (send : Send) :
    (c.schedule send).scheduled[c.scheduled.length]? = some send := by
  simp [Campaign.schedule]

theorem chosen_of_schedule {slot : Slot} {c : Campaign} {send : Send}
    (h : slot.run c = c.schedule send) : slot.chosen c = some send := by
  rw [Slot.chosen, h, schedule_chosen]

theorem chosen_of_checked {slot : Slot} {c : Campaign} {send : Send}
    (h : slot.run c = (slot.checked c).schedule send) : slot.chosen c = some send := by
  rw [Slot.chosen, h]
  exact schedule_chosen (slot.checked c) send

theorem chosen_listed {slot : Slot} {c : Campaign} {send : Send} (h : slot.chosen c = some send) :
    send.account ∈ slot.accounts := by
  have hunchanged : c.scheduled[c.scheduled.length]? ≠ some send := by simp
  unfold Slot.chosen Slot.run at h
  split at h
  · rename_i account hchoose
    rw [schedule_chosen] at h
    cases h
    exact List.mem_of_mem_filter (choose_mem hchoose)
  · split at h
    · exact absurd h hunchanged
    · dsimp only at h
      split at h
      · exact absurd h hunchanged
      · split at h
        · exact absurd h hunchanged
        · rename_i account hchoose
          rw [show c.scheduled = (slot.checked c).scheduled from rfl, schedule_chosen] at h
          cases h
          exact List.mem_of_mem_filter (choose_mem hchoose)

/-- A pending conversation is what a slot goes on with. -/
theorem run_of_pending {slot : Slot} {c : Campaign} (h : slot.replyAccounts c ≠ []) :
    ∃ account ∈ slot.replyAccounts c, slot.run c = c.schedule ⟨account, .externalToLocal⟩ := by
  have hlength : 0 < (slot.replyAccounts c).length := List.length_pos_of_ne_nil h
  have hroom : slot.draws.1 % (slot.replyAccounts c).length < (slot.replyAccounts c).length :=
    Nat.mod_lt _ hlength
  have hchoose : choose slot.draws.1 (slot.replyAccounts c) =
      some (slot.replyAccounts c)[slot.draws.1 % (slot.replyAccounts c).length] :=
    List.getElem?_eq_getElem hroom
  refine ⟨_, choose_mem hchoose, ?_⟩
  rw [Slot.run, hchoose]

/-- Any element can be drawn. -/
theorem exists_draw {α : Type} {xs : List α} {x : α} (h : x ∈ xs) : ∃ draw, choose draw xs = some x := by
  obtain ⟨i, hi⟩ := List.mem_iff_getElem?.mp h
  have hroom : i < xs.length := (List.getElem?_eq_some_iff.mp hi).1
  exact ⟨i, by rw [choose, Nat.mod_eq_of_lt hroom, hi]⟩

/-- Where nothing is pending, any account of a provider of lowest load can be drawn. -/
theorem exists_outbound {now : Int} {accounts : List WarmupAccount} {target : Nat} {c : Campaign}
    {account : WarmupAccount} (hnone : accounts.filter (c.last ·.id == some .localToExternal) = [])
    (hroom : c.messages_sent_today < target) (haccount : account ∈ accounts)
    (hlowest : account.provider ∈ Slot.lowestLoad ⟨now, accounts, target, (0, 0)⟩ c) :
    ∃ draws, Slot.run ⟨now, accounts, target, draws⟩ c =
      (Slot.checked ⟨now, accounts, target, draws⟩ c).schedule ⟨account, .localToExternal⟩ := by
  have hidle : c.last account.id ≠ some .localToExternal := by
    intro hpending
    have hmem : account ∈ accounts.filter (c.last ·.id == some .localToExternal) :=
      List.mem_filter.mpr ⟨haccount, by rw [hpending]; rfl⟩
    rw [hnone] at hmem
    cases hmem
  have houtbound : account ∈
      Slot.outboundAccounts ⟨now, accounts, target, (0, 0)⟩ c account.provider := by
    simp [Slot.outboundAccounts, haccount, hidle]
  obtain ⟨i, hi⟩ := exists_draw hlowest
  obtain ⟨j, hj⟩ := exists_draw houtbound
  refine ⟨(i, j), ?_⟩
  have hreply : choose i (Slot.replyAccounts ⟨now, accounts, target, (i, j)⟩ c) = none := by
    have hempty : Slot.replyAccounts ⟨now, accounts, target, (i, j)⟩ c = [] := hnone
    rw [hempty]
    rfl
  have hi' : choose i (Slot.lowestLoad ⟨now, accounts, target, (i, j)⟩ c) =
    some account.provider := hi
  have hj' : choose j (Slot.outboundAccounts ⟨now, accounts, target, (i, j)⟩ c account.provider) =
    some account := hj
  simp only [Slot.run, hreply, if_neg (Nat.not_le.mpr hroom), hi', hj']

theorem providerTarget_pos {slot : Slot} (h : 0 < slot.target) : 0 < slot.providerTarget := by
  unfold Slot.providerTarget
  exact Nat.div_pos (by omega) (by omega)

theorem dailyTarget_pos (plan : Plan) (local_now : Int) : 0 < plan.dailyTarget local_now := by
  have hvolume := plan.volume_ok
  unfold Plan.dailyTarget
  simp only [Nat.lt_min]
  omega

/-- A provider with room has the lowest load, or one with a lower load has. -/
theorem lowestLoad_cases {slot : Slot} {c : Campaign} {provider : String}
    (h : provider ∈ slot.eligible c) :
    provider ∈ slot.lowestLoad c ∨ ∃ other ∈ slot.lowestLoad c, Slot.load c other < Slot.load c provider := by
  obtain ⟨least, hleast, hmin⟩ := Finset.exists_min_image (slot.eligible c).toFinset (Slot.load c)
    ⟨provider, List.mem_toFinset.mpr h⟩
  have hlowest : ∀ p ∈ slot.eligible c, Slot.load c p ≤ Slot.load c least →
      p ∈ slot.lowestLoad c := by
    intro p hp hle
    refine List.mem_filter.mpr ⟨hp, List.all_eq_true.mpr fun other hother => ?_⟩
    exact decide_eq_true (hle.trans (hmin other (List.mem_toFinset.mpr hother)))
  by_cases hless : Slot.load c least < Slot.load c provider
  · exact .inr ⟨least, hlowest least (List.mem_toFinset.mp hleast) (le_refl _), hless⟩
  · exact .inl (hlowest provider h (not_lt.mp hless))

/-! ## Dates -/

/-- The counts of the providers are of the campaign's day. -/
def Dated (c : Campaign) : Prop :=
  ∀ provider, (c.states provider).volume_date = c.volume_date

theorem dated_rollover (c : Campaign) (today : String) : Dated (c.rollover today) := by
  intro provider
  simp only [Campaign.rollover]
  split
  · rename_i htoday
    exact htoday
  · rfl

theorem applyProviderFeedback_volume_date (state : WarmupProviderState) (now : Int)
    (outcome : Option DeliveryFailure) :
    (applyProviderFeedback state now outcome).volume_date = state.volume_date := by
  cases outcome with
  | none => rfl
  | some failure =>
    unfold applyProviderFeedback
    dsimp only
    split <;> rfl

theorem dated_updateState {c : Campaign} (h : Dated c) {provider : String}
    {state : WarmupProviderState} (hstate : state.volume_date = (c.states provider).volume_date) :
    Dated (c.updateState provider state) := by
  intro other
  rw [updateState_states]
  split
  · rename_i heq
    rw [hstate]
    exact h provider
  · exact h other

theorem dated_feedback {c : Campaign} (h : Dated c) (provider : String) (now : Int)
    (outcome : Option DeliveryFailure) : Dated (c.feedback provider now outcome) :=
  dated_updateState h (applyProviderFeedback_volume_date _ _ _)

theorem dated_ingest {c : Campaign} (h : Dated c) (now : Int)
    (feedback : List (WarmupAccount × DeliveryFailure)) : Dated (ingestDeliveryFeedback c now feedback) := by
  induction feedback generalizing c with
  | nil => exact h
  | cons row rows ih => exact ih (dated_feedback h _ _ _)

theorem providerIsAvailable_volume_date (state : WarmupProviderState) (now : Int) :
    (providerIsAvailable state now).2.volume_date = state.volume_date := by
  rcases checked_row state now with h | ⟨h, -⟩ <;> rw [h]

theorem dated_checked {c : Campaign} (h : Dated c) (slot : Slot) : Dated (slot.checked c) := by
  intro provider
  simp only [Slot.checked]
  split
  · rw [providerIsAvailable_volume_date]
    exact h provider
  · exact h provider

theorem dated_run {c : Campaign} (h : Dated c) (slot : Slot) : Dated (slot.run c) := by
  rcases slot_cases slot c with
    ⟨account, hrun⟩ | hrun | hrun | ⟨provider, -, hrun⟩ | ⟨account, -, hrun⟩ <;> rw [hrun]
  · exact h
  · exact h
  · exact dated_checked h slot
  · exact dated_updateState (dated_checked h slot) rfl
  · exact dated_checked h slot

theorem dated_finish {c : Campaign} (h : Dated c) (send : Send) (now : Int)
    (outcome : Option DeliveryFailure) : Dated (finish c send now outcome) := by
  unfold finish
  dsimp only
  split
  · exact dated_feedback h _ _ _
  · exact h

theorem dated_process {plan : Plan} {broken : String → Bool} {s : Running} (h : Dated s.campaign)
    (t : Tick) : Dated (plan.process broken s t).campaign := by
  have hprepared : Dated (plan.prepared s t) := dated_ingest (dated_rollover _ _) _ _
  unfold Plan.process
  dsimp only
  split
  · exact h
  · split
    · exact hprepared
    · unfold Tick.record
      split
      · exact dated_run hprepared _
      · exact dated_finish (dated_run hprepared _) _ _ _

theorem dated_reachable (plan : Plan) (broken : String → Bool) (inputs : List Input) :
    Dated ((ticks plan broken).run inputs).campaign := by
  refine Machine.always_of_preserved (P := fun _ (s : Running) => Dated s.campaign) inputs (fun _ => rfl) ?_
    inputs (List.prefix_refl inputs)
  intro pre input h
  rw [Machine.run_snoc]
  cases input with
  | tick t => exact dated_process h t
  | resume provider now =>
    simp only [ticks, Plan.step]
    split
    · exact dated_updateState h rfl
    · exact h

/-! ## A tick on a new day -/

section
variable {plan : Plan} {broken : String → Bool} {s : Running}

def dayTick (plan : Plan) (now : Int) (draws : Nat × Nat) : Tick :=
  ⟨now, now, now, [], draws, plan.delays.min_delay_minutes, 0, none⟩

/-- The campaign at a tick of a day it has not been on yet. -/
def newDay (plan : Plan) (s : Running) (now : Int) : Campaign :=
  s.campaign.rollover (plan.zone.isoformat (plan.zone.day now))

/-- It is such a day, the campaign is due and its hours are open. -/
structure OnNewDay (plan : Plan) (s : Running) (now : Int) : Prop where
  new : s.campaign.volume_date ≠ some (plan.zone.isoformat (plan.zone.day now))
  due : ∀ draws, plan.due s (dayTick plan now draws) = true
  isOpen : ∀ draws, plan.isOpen (dayTick plan now draws) = true

theorem exists_newDay (plan : Plan) (s : Running) (bound : Int) :
    ∃ now, bound ≤ now ∧ OnNewDay plan s now := by
  have hhour : plan.active_hour_start < 24 := lt_of_lt_of_le plan.hours_ok.1 plan.hours_ok.2
  obtain ⟨d, hd⟩ : ∃ d, ∀ d' > d, s.campaign.volume_date ≠ some (plan.zone.isoformat d') := by
    by_cases hone : ∃ d, s.campaign.volume_date = some (plan.zone.isoformat d)
    · obtain ⟨d, hd⟩ := hone
      refine ⟨d, fun d' hlater heq => ?_⟩
      rw [hd] at heq
      exact hlater.ne (plan.zone.isoformat_injective (Option.some.inj heq))
    · exact ⟨0, fun d' _ heq => hone ⟨d', heq⟩⟩
  obtain ⟨now, hnow, hday, hactive⟩ :=
    plan.zone.again (max bound (max s.next_run_at s.clock)) d plan.active_hour_start hhour
  refine ⟨now, by omega, hd _ hday, fun draws => ?_, fun draws => ?_⟩
  · have hdelays := plan.delays.ordered
    unfold Plan.due dayTick
    simp only [List.all_nil, Bool.and_true, Bool.and_eq_true, decide_eq_true_eq]
    omega
  · have hopen : plan.nextActiveTime now 0 = now := by
      unfold Plan.nextActiveTime
      rw [hactive]
      exact if_pos ⟨le_refl _, plan.hours_ok.1⟩
    simp [Plan.isOpen, dayTick, hopen]

theorem sends_dayTick {now : Int} (h : OnNewDay plan s now) (draws : Nat × Nat) :
    plan.sends s (dayTick plan now draws) =
      (plan.slot (dayTick plan now draws)).chosen (newDay plan s now) := by
  rw [Plan.sends, h.due, h.isOpen]
  rfl

theorem process_dayTick {now : Int} (h : OnNewDay plan s now) {draws : Nat × Nat} {send : Send}
    (hsend : (plan.slot (dayTick plan now draws)).chosen (newDay plan s now) = some send) :
    (plan.process broken s (dayTick plan now draws)).campaign =
      finish ((plan.slot (dayTick plan now draws)).run (newDay plan s now)) send now
        ((dayTick plan now draws).outcomeOf broken send) := by
  unfold Plan.process
  rw [sends_dayTick h, hsend, h.due, h.isOpen]
  rfl

/-- The row of a provider on a new day. -/
theorem newDay_states {now : Int} (hdated : Dated s.campaign) (h : OnNewDay plan s now)
    (provider : String) :
    (newDay plan s now).states provider =
      { s.campaign.states provider with
        volume_date := some (plan.zone.isoformat (plan.zone.day now)), sent_today := 0, failed_today := 0 } := by
  have hold : (s.campaign.states provider).volume_date ≠
      some (plan.zone.isoformat (plan.zone.day now)) := by
    rw [hdated provider]
    exact h.new
  simp only [newDay, Campaign.rollover, if_neg hold]

theorem load_newDay {now : Int} (hdated : Dated s.campaign) (h : OnNewDay plan s now)
    (provider : String) :
    Slot.load (newDay plan s now) provider = toLex (0, (s.campaign.states provider).total_sent) := by
  rw [Slot.load, newDay_states hdated h]

theorem room_newDay {now : Int} (h : OnNewDay plan s now) :
    (newDay plan s now).messages_sent_today < plan.dailyTarget now := by
  simp only [newDay, Campaign.rollover, if_neg h.new]
  exact dailyTarget_pos plan now

/-! ## Getting to an account -/

def Plan.providers (plan : Plan) : List String := (plan.accounts.map (·.provider)).dedup

def pending (plan : Plan) (c : Campaign) : List WarmupAccount :=
  plan.accounts.filter (c.last ·.id == some .localToExternal)

/-- How much more the provider has been sent than the others together. -/
def ahead (plan : Plan) (provider : String) (c : Campaign) : Nat :=
  (plan.providers.map fun other => (c.states provider).total_sent - (c.states other).total_sent).sum

/-- What is left of the way to a message for an account of the provider. -/
def distance (plan : Plan) (provider : String) (c : Campaign) : Nat ×ₗ Nat :=
  toLex (ahead plan provider c, (pending plan c).length)

/-- What the way leads through. -/
structure Hopeful (plan : Plan) (account : WarmupAccount) (c : Campaign) : Prop where
  dated : Dated c
  idle : c.last account.id ≠ some .localToExternal
  unblocked : (c.states account.provider).status ≠ .blocked

/-- A reply that gets through completes its conversation. -/
theorem pending_reply {c c' : Campaign} {account : WarmupAccount} (haccount : account ∈ pending plan c)
    (hlast : c'.last = Function.update c.last account.id (some .externalToLocal)) :
    (pending plan c').length < (pending plan c).length := by
  have hkept : pending plan c' = (pending plan c).filter (c'.last ·.id == some .localToExternal) := by
    rw [pending, pending, List.filter_filter]
    refine List.filter_congr fun other _ => ?_
    by_cases hsame : other.id = account.id
    · simp [hlast, hsame]
    · simp [hlast, hsame]
  rw [hkept]
  refine List.length_filter_lt_length_iff_exists.mpr ⟨account, haccount, ?_⟩
  simp [hlast]

/-- A message to a provider that has been sent less brings it closer. -/
theorem ahead_send {c c' : Campaign} {provider other : String} (hother : other ∈ plan.providers)
    (hless : (c.states other).total_sent < (c.states provider).total_sent)
    (hsent : (c'.states other).total_sent = (c.states other).total_sent + 1)
    (hkept : ∀ q, q ≠ other → (c'.states q).total_sent = (c.states q).total_sent) :
    ahead plan provider c' < ahead plan provider c := by
  have hprovider : provider ≠ other := by
    rintro rfl
    exact lt_irrefl _ hless
  refine List.sum_lt_sum _ _ (fun q _ => ?_) ⟨other, hother, ?_⟩
  · rw [hkept provider hprovider]
    by_cases hq : q = other
    · rw [hq, hsent]
      omega
    · rw [hkept q hq]
  · rw [hkept provider hprovider, hsent]
    omega

theorem finish_reply (c : Campaign) (account : WarmupAccount) (now : Int) :
    let c' := finish (c.schedule ⟨account, .externalToLocal⟩) ⟨account, .externalToLocal⟩ now none
    c'.states = c.states ∧ c'.volume_date = c.volume_date ∧
      c'.last = Function.update c.last account.id (some .externalToLocal) :=
  ⟨rfl, rfl, rfl⟩

theorem finish_outbound (c : Campaign) (account : WarmupAccount) (now : Int) :
    let c' := finish (c.schedule ⟨account, .localToExternal⟩) ⟨account, .localToExternal⟩ now none
    c'.states = Function.update c.states account.provider
        (applyProviderFeedback (c.states account.provider) now none) ∧
      c'.volume_date = c.volume_date ∧
      c'.last = Function.update c.last account.id (some .localToExternal) :=
  ⟨rfl, rfl, rfl⟩

theorem outcomeOf_nominal {now : Int} {draws : Nat × Nat} {send : Send}
    (h : broken send.account.id = false) :
    (dayTick plan now draws).outcomeOf broken send = none := by
  simp [Tick.outcomeOf, dayTick, h]

theorem mem_providers {account : WarmupAccount} (h : account ∈ plan.accounts) :
    account.provider ∈ plan.providers :=
  List.mem_dedup.mpr (List.mem_map_of_mem h)

theorem checked_total_sent (slot : Slot) (c : Campaign) (provider : String) :
    ((slot.checked c).states provider).total_sent = (c.states provider).total_sent := by
  simp only [Slot.checked]
  split
  · rcases checked_row (c.states provider) slot.now with h | ⟨h, -⟩ <;> rw [h]
  · rfl

/-- What the row waits for has come by then. -/
def resumesAt (state : WarmupProviderState) : Int :=
  (state.paused_until.or state.next_attempt_at).getD 0

theorem available_of_resumesAt {state : WarmupProviderState} {now : Int}
    (hstatus : state.status ≠ .blocked) (hlate : resumesAt state ≤ now) :
    (providerIsAvailable state now).1 = true := by
  have hover : (state.paused_until.or state.next_attempt_at).any (now < ·) = false := by
    cases hwait : state.paused_until.or state.next_attempt_at with
    | none => rfl
    | some time =>
      rw [resumesAt, hwait] at hlate
      simpa using hlate
  unfold providerIsAvailable
  rw [if_neg hstatus, hover, if_neg Bool.false_ne_true]
  split <;> rfl

/-- On a new day every provider that is not blocked, and waits no longer, has room. -/
theorem eligible_newDay {account : WarmupAccount} {now : Int} (haccount : account ∈ plan.accounts)
    (h : Hopeful plan account s.campaign) (hday : OnNewDay plan s now)
    (hlate : resumesAt (s.campaign.states account.provider) ≤ now) (draws : Nat × Nat) :
    account.provider ∈ (plan.slot (dayTick plan now draws)).eligible (newDay plan s now) := by
  refine List.mem_filter.mpr ⟨mem_providers haccount, ?_⟩
  rw [newDay_states h.dated hday, Bool.and_eq_true]
  constructor
  · exact available_of_resumesAt h.unblocked hlate
  · exact decide_eq_true (providerTarget_pos (dailyTarget_pos plan now))

/-- A slot completes one of the pending conversations. -/
theorem nearer_reply (hlogins : ∀ a ∈ plan.accounts, broken a.id = false) {account : WarmupAccount}
    (h : Hopeful plan account s.campaign) {now : Int} (hday : OnNewDay plan s now)
    (draws : Nat × Nat) (hpending : pending plan s.campaign ≠ []) :
    Hopeful plan account (plan.process broken s (dayTick plan now draws)).campaign ∧
      distance plan account.provider (plan.process broken s (dayTick plan now draws)).campaign <
        distance plan account.provider s.campaign := by
  obtain ⟨other, hother, hrun⟩ :=
    @run_of_pending (plan.slot (dayTick plan now draws)) (newDay plan s now) hpending
  have hprocess := @process_dayTick plan broken s now hday draws _ (chosen_of_schedule hrun)
  rw [hrun, outcomeOf_nominal (hlogins other (List.mem_of_mem_filter hother))] at hprocess
  have hdated : Dated (plan.process broken s (dayTick plan now draws)).campaign :=
    dated_process h.dated _
  rw [hprocess] at hdated ⊢
  obtain ⟨hstates, -, hlast⟩ := finish_reply (newDay plan s now) other now
  have hlower := pending_reply (c := s.campaign) hother hlast
  refine ⟨⟨hdated, ?_, ?_⟩, ?_⟩
  · rw [hlast, Function.update_apply]
    split
    · exact nofun
    · exact h.idle
  · rw [hstates, newDay_states h.dated hday]
    exact h.unblocked
  · refine Prod.Lex.toLex_lt_toLex.mpr (.inr ⟨?_, hlower⟩)
    simp only [ahead, hstates, newDay_states h.dated hday]

/-- A slot writes to an account of a provider that has been sent less. -/
theorem nearer_send (hlogins : ∀ a ∈ plan.accounts, broken a.id = false)
    {account other : WarmupAccount} (haccount : account ∈ plan.accounts)
    (hother : other ∈ plan.accounts) (h : Hopeful plan account s.campaign) {now : Int}
    (hday : OnNewDay plan s now) {draws : Nat × Nat}
    (hrun : (plan.slot (dayTick plan now draws)).run (newDay plan s now) =
      ((plan.slot (dayTick plan now draws)).checked (newDay plan s now)).schedule
        ⟨other, .localToExternal⟩)
    (hfewer : (s.campaign.states other.provider).total_sent <
      (s.campaign.states account.provider).total_sent) :
    Hopeful plan account (plan.process broken s (dayTick plan now draws)).campaign ∧
      distance plan account.provider (plan.process broken s (dayTick plan now draws)).campaign <
        distance plan account.provider s.campaign := by
  have hprocess := @process_dayTick plan broken s now hday draws _ (chosen_of_checked hrun)
  rw [hrun, outcomeOf_nominal (hlogins other hother)] at hprocess
  have hdated : Dated (plan.process broken s (dayTick plan now draws)).campaign :=
    dated_process h.dated _
  rw [hprocess] at hdated ⊢
  obtain ⟨hstates, -, hlast⟩ := finish_outbound
    ((plan.slot (dayTick plan now draws)).checked (newDay plan s now)) other now
  have htotal : ∀ r, (((plan.slot (dayTick plan now draws)).checked (newDay plan s now)).states
      r).total_sent = (s.campaign.states r).total_sent := by
    intro r
    rw [checked_total_sent, newDay_states h.dated hday]
  have hne : account.provider ≠ other.provider := by
    intro heq
    rw [heq] at hfewer
    exact lt_irrefl _ hfewer
  refine ⟨⟨hdated, ?_, ?_⟩, ?_⟩
  · have hid : account.id ≠ other.id := fun heq =>
      hne (congrArg (·.provider) (List.inj_on_of_nodup_map plan.ids_ok haccount hother heq))
    rw [hlast, Function.update_of_ne hid]
    exact h.idle
  · rw [hstates, Function.update_of_ne hne, Ne, checked_status, newDay_states h.dated hday]
    exact h.unblocked
  · refine Prod.Lex.toLex_lt_toLex.mpr (.inl (ahead_send (mem_providers hother) hfewer ?_ ?_))
    · rw [hstates, Function.update_self]
      exact congrArg (· + 1) (htotal other.provider)
    · intro r hr
      rw [hstates, Function.update_of_ne hr, htotal]

/-- With nothing pending, the account is written to, or one of a provider that has been
sent less. -/
theorem nearer_outbound (hlogins : ∀ a ∈ plan.accounts, broken a.id = false)
    {account : WarmupAccount} (haccount : account ∈ plan.accounts)
    (h : Hopeful plan account s.campaign) {now : Int} (hday : OnNewDay plan s now)
    (hlate : resumesAt (s.campaign.states account.provider) ≤ now)
    (hpending : pending plan s.campaign = []) :
    (∃ draws, plan.sends s (dayTick plan now draws) = some ⟨account, .localToExternal⟩) ∨
      ∃ draws, Hopeful plan account (plan.process broken s (dayTick plan now draws)).campaign ∧
        distance plan account.provider (plan.process broken s (dayTick plan now draws)).campaign <
          distance plan account.provider s.campaign := by
  rcases lowestLoad_cases (eligible_newDay haccount h hday hlate (0, 0)) with hlowest | ⟨q, hq, hless⟩
  · left
    obtain ⟨draws, hrun⟩ :=
      exists_outbound (c := newDay plan s now) hpending (room_newDay hday) haccount hlowest
    exact ⟨draws, (sends_dayTick hday draws).trans (chosen_of_checked hrun)⟩
  · right
    have hactive : q ∈ plan.providers := List.mem_of_mem_filter (List.mem_of_mem_filter hq)
    obtain ⟨other, hother, rfl⟩ := List.mem_map.mp (List.mem_dedup.mp hactive)
    obtain ⟨draws, hrun⟩ :=
      exists_outbound (c := newDay plan s now) hpending (room_newDay hday) hother hq
    have hfewer : (s.campaign.states other.provider).total_sent <
        (s.campaign.states account.provider).total_sent := by
      simp only [load_newDay h.dated hday, Prod.Lex.toLex_lt_toLex] at hless
      omega
    exact ⟨draws, nearer_send hlogins haccount hother h hday hrun hfewer⟩

/-- Where every login works, an account that waits for no reply is sent a message. -/
theorem reachesOut (hlogins : ∀ a ∈ plan.accounts, broken a.id = false) {account : WarmupAccount}
    (haccount : account ∈ plan.accounts) (h : Hopeful plan account s.campaign) :
    ReachesOut plan broken s account := by
  refine canReach_of_decreasing (Q := fun s : Running => Hopeful plan account s.campaign)
    (fun s => distance plan account.provider s.campaign) ?_ h
  intro s h
  obtain ⟨now, hlate, hday⟩ :=
    exists_newDay plan s (resumesAt (s.campaign.states account.provider))
  by_cases hpending : pending plan s.campaign = []
  · rcases nearer_outbound hlogins haccount h hday hlate hpending with
      ⟨draws, hsends⟩ | ⟨draws, hnearer⟩
    · exact .inl ⟨_, ⟨rfl, rfl⟩, hsends⟩
    · exact .inr ⟨.tick (dayTick plan now draws), ⟨rfl, rfl⟩, hnearer⟩
  · exact .inr ⟨.tick (dayTick plan now (0, 0)), ⟨rfl, rfl⟩,
      nearer_reply hlogins h hday (0, 0) hpending⟩

/-! ## Getting stuck -/

/-- The account is the one that waits for a reply. -/
structure Wedged (plan : Plan) (account : WarmupAccount) (c : Campaign) : Prop where
  waits : c.last account.id = some .localToExternal
  alone : ∀ other ∈ plan.accounts, other.id ≠ account.id → c.last other.id ≠ some .localToExternal

theorem ingest_last (c : Campaign) (now : Int) (feedback : List (WarmupAccount × DeliveryFailure)) :
    (ingestDeliveryFeedback c now feedback).last = c.last := by
  induction feedback generalizing c with
  | nil => rfl
  | cons row rows ih => exact ih _

theorem prepared_last (t : Tick) : (plan.prepared s t).last = s.campaign.last := ingest_last _ _ _

/-- A slot goes on with the one conversation that is pending. -/
theorem Wedged.run {account : WarmupAccount} (haccount : account ∈ plan.accounts) {c : Campaign}
    (h : Wedged plan account c) (t : Tick) :
    (plan.slot t).run c = c.schedule ⟨account, .externalToLocal⟩ := by
  have hpending : account ∈ (plan.slot t).replyAccounts c :=
    List.mem_filter.mpr ⟨haccount, beq_iff_eq.mpr h.waits⟩
  obtain ⟨other, hother, hrun⟩ := run_of_pending (List.ne_nil_of_mem hpending)
  obtain ⟨hlisted, hwaits⟩ := List.mem_filter.mp hother
  have hid : other.id = account.id := by
    by_contra hne
    exact h.alone other hlisted hne (beq_iff_eq.mp hwaits)
  rw [hrun, List.inj_on_of_nodup_map plan.ids_ok hlisted haccount hid]

theorem Wedged.prepared {account : WarmupAccount} (h : Wedged plan account s.campaign) (t : Tick) :
    Wedged plan account (plan.prepared s t) := by
  refine ⟨?_, ?_⟩
  · rw [prepared_last]
    exact h.waits
  · rw [prepared_last]
    exact h.alone

/-- A tick sends nothing, or the reply. -/
theorem Wedged.sends {account : WarmupAccount} (haccount : account ∈ plan.accounts)
    (h : Wedged plan account s.campaign) {t : Tick} {send : Send} (hsend : plan.sends s t = some send) :
    send = ⟨account, .externalToLocal⟩ := by
  obtain ⟨-, hchosen⟩ := Option.ite_none_right_eq_some.mp hsend
  rw [chosen_of_schedule ((h.prepared t).run haccount t)] at hchosen
  exact (Option.some.inj hchosen).symm

theorem outcomeOf_broken {account : WarmupAccount} (hbroken : broken account.id = true) (t : Tick) :
    t.outcomeOf broken ⟨account, .externalToLocal⟩ = some (t.outcome.getD loginFailure) := by
  rw [Tick.outcomeOf, if_pos ⟨rfl, hbroken⟩]

/-- A reply that fails leaves the conversation pending. -/
theorem Wedged.process {account : WarmupAccount} (haccount : account ∈ plan.accounts)
    (hbroken : broken account.id = true) (h : Wedged plan account s.campaign) (t : Tick) :
    Wedged plan account (plan.process broken s t).campaign := by
  have hprepared := h.prepared t
  unfold Plan.process
  dsimp only
  split
  · exact h
  · split
    · exact hprepared
    · rw [hprepared.run haccount t]
      unfold Tick.record
      split
      · exact ⟨hprepared.waits, hprepared.alone⟩
      · rename_i send hsend
        rw [h.sends haccount hsend, outcomeOf_broken hbroken]
        exact ⟨hprepared.waits, hprepared.alone⟩

theorem Wedged.stays {account : WarmupAccount} (haccount : account ∈ plan.accounts)
    (hbroken : broken account.id = true) (h : Wedged plan account s.campaign) {P : Running → Prop}
    (hP : ∀ s', Wedged plan account s'.campaign → ¬ P s') :
    ¬ CanReach (plan.step broken) Nominal P s := by
  refine not_canReach_of_preserved (Q := fun s' : Running => Wedged plan account s'.campaign) h ?_ hP
  intro s' input hnominal hs'
  cases input with
  | tick t => exact hs'.process haccount hbroken t
  | resume provider now => exact hnominal.elim

theorem Wedged.onlyRetries {account : WarmupAccount} (haccount : account ∈ plan.accounts)
    (hbroken : broken account.id = true) (h : Wedged plan account s.campaign) :
    OnlyRetries plan broken s account := by
  constructor
  · obtain ⟨now, -, hday⟩ := exists_newDay plan s 0
    have hwedged : Wedged plan account (newDay plan s now) := ⟨h.waits, h.alone⟩
    exact ⟨dayTick plan now (0, 0), ⟨rfl, rfl⟩,
      (sends_dayTick hday (0, 0)).trans (chosen_of_schedule (hwedged.run haccount _))⟩
  · refine h.stays haccount hbroken ?_
    rintro s' hs' ⟨t, send, -, hsend, hother⟩
    obtain rfl := hs'.sends haccount hsend
    exact hother ⟨rfl, by rw [outcomeOf_broken hbroken]; exact nofun⟩

/-- The first message of a campaign may go to any account. -/
theorem exists_wedged (broken : String → Bool) {account : WarmupAccount}
    (haccount : account ∈ plan.accounts) :
    ∃ inputs, Wedged plan account ((ticks plan broken).run inputs).campaign := by
  have hfirst : Hopeful plan account (ticks plan broken).start.campaign := ⟨fun _ => rfl, nofun, nofun⟩
  have hnone : pending plan (ticks plan broken).start.campaign = [] :=
    List.filter_eq_nil_iff.mpr fun _ _ => nofun
  obtain ⟨now, hlate, hday⟩ := exists_newDay plan (ticks plan broken).start 0
  have hlowest : account.provider ∈ Slot.lowestLoad (plan.slot (dayTick plan now (0, 0)))
      (newDay plan (ticks plan broken).start now) := by
    rcases lowestLoad_cases (eligible_newDay haccount hfirst hday hlate (0, 0)) with
      hlowest | ⟨other, -, hless⟩
    · exact hlowest
    · simp only [load_newDay hfirst.dated hday] at hless
      exact absurd hless (lt_irrefl _)
  obtain ⟨draws, hrun⟩ := exists_outbound
    (c := newDay plan (ticks plan broken).start now) hnone (room_newDay hday) haccount hlowest
  have hprocess := @process_dayTick plan broken _ now hday draws _ (chosen_of_checked hrun)
  have hlast : (plan.process broken (ticks plan broken).start (dayTick plan now draws)).campaign.last =
      Function.update (fun _ => none) account.id (some .localToExternal) := by
    rw [hprocess]
    exact congrArg (fun c : Campaign =>
      (finish c ⟨account, .localToExternal⟩ now none).last) hrun
  refine ⟨[.tick (dayTick plan now draws)], ?_⟩
  show Wedged plan account
    (plan.process broken (ticks plan broken).start (dayTick plan now draws)).campaign
  refine ⟨?_, fun other _ hne => ?_⟩
  · rw [hlast, Function.update_self]
  · rw [hlast, Function.update_of_ne hne]
    exact nofun

/-- A campaign is never wedged exactly where no account's external login fails on every
attempt. -/
theorem neverWedged_iff (plan : Plan) (broken : String → Bool) :
    NeverWedged plan broken ↔ ∀ account ∈ plan.accounts, broken account.id = false := by
  constructor
  · intro h account haccount
    by_contra hbroken
    obtain ⟨inputs, hwedged⟩ := exists_wedged broken haccount
    exact h.retries inputs account
      (hwedged.onlyRetries haccount (Bool.not_eq_false _ ▸ hbroken))
  · intro hlogins
    refine ⟨fun inputs account hready => ?_, fun inputs account hretries => ?_⟩
    · refine reachesOut hlogins hready.listed ⟨dated_reachable plan broken inputs, hready.idle, ?_⟩
      intro hblocked
      have havailable := hready.available
      rw [providerIsAvailable_of_blocked _ hblocked] at havailable
      cases havailable
    · obtain ⟨⟨t, hnominal, hsend⟩, hnever⟩ := hretries
      refine hnever (.here ⟨t, _, hnominal, hsend, fun hboth => hboth.2 ?_⟩)
      obtain ⟨-, hchosen⟩ := Option.ite_none_right_eq_some.mp hsend
      have hworks := hlogins account (chosen_listed hchosen)
      simp only [Tick.outcomeOf, hworks, Bool.false_eq_true, and_false, if_false]
      exact hnominal.2

end

/-! ## A refused login -/

/-- Only the first day is given its ISO date. -/
def utcZone : Zone where
  day now := now / minutes 1440
  hour now := (now % minutes 1440 / minutes 60).toNat
  utc day minute := day * minutes 1440 + minutes minute
  isoformat day :=
    "1970-01-01" ++ String.ofList (List.replicate (2 * day.natAbs + if day < 0 then 1 else 0) '+')
  isoformat_injective := by
    intro d d' h
    have hlength := congrArg String.length h
    simp only [String.length_append, String.length_ofList, List.length_replicate] at hlength
    split at hlength <;> split at hlength <;> omega
  again := by
    intro now d h hh
    refine ⟨(max (now / minutes 1440) d + 1) * minutes 1440 + minutes (60 * h), ?_, ?_, ?_⟩ <;>
      simp only [minutes] <;> omega

def ann : WarmupAccount := ⟨"ann", "outlook"⟩

def bob : WarmupAccount := ⟨"bob", "gmail"⟩

def annAndBob : Plan where
  accounts := [ann, bob]
  start_daily_volume := 3
  daily_ramp := 2
  max_daily_volume := 50
  delays := defaultDelays
  active_hour_start := 0
  active_hour_end := 24
  zone := utcZone
  started_at := 0
  ids_ok := by decide
  volume_ok := by decide
  hours_ok := by decide

/-- The first message goes to bob. -/
def writeToBob : Tick := ⟨0, 0, 0, [], (1, 0), 30, 0, none⟩

/-- Where bob's login is refused, nothing is sent to ann after the first message went to him. -/
theorem refused_login_wedges : ¬ NeverWedged annAndBob (· == "bob") := by
  intro h
  have hwedged : Wedged annAndBob bob
      ((ticks annAndBob (· == "bob")).run [.tick writeToBob]).campaign :=
    ⟨by decide +kernel, by decide +kernel⟩
  have hready : Ready annAndBob ((ticks annAndBob (· == "bob")).run [.tick writeToBob]) ann :=
    ⟨by decide, by decide +kernel, by decide +kernel, by decide +kernel⟩
  refine hwedged.stays (by decide) (by decide) ?_ (h.reaches [.tick writeToBob] ann hready)
  rintro s hs ⟨t, -, hsend⟩
  have hsame := hs.sends (by decide) hsend
  exact absurd hsame (by decide)

end MailCue.Backend.Warmup
