import Mathlib.Algebra.Order.Group.Unbundled.Int
import MailCue.Backend.Warmup.Blocked

/-!
# Pacing floors

"Campaign jitter can make these intervals longer, but never shorter for two
outbound deliveries to the same receiving ISP." The campaign with the time each
send was started at, which is the time its outcome is recorded under, and the
time it was handed over at. A delivery is a send whose outcome is a success.
-/
namespace MailCue.Backend.Warmup
open MailCue.Lib

structure Delivery where
  provider : String
  /-- The `now` of its slot. -/
  started : Int
  handed_at : Int
  deriving DecidableEq, Repr

structure Paced where
  campaign : Campaign
  /-- The sends under way, with the `now` of their slots. -/
  started : List (Send × Int)
  delivered : List Delivery

inductive TimedAct
  | rollover (today : String)
  | dsn (now : Int) (account : WarmupAccount) (failure : DeliveryFailure)
  | slot (slot : Slot)
  | finished (send : Send) (started handed_at : Int) (outcome : Option DeliveryFailure)
  | resume (provider : String)

/-- `process_campaign` records an outcome under the `now` it began with. -/
def TimedAct.act : TimedAct → Act
  | .rollover today => .rollover today
  | .dsn now account failure => .dsn now account failure
  | .slot s => .slot s
  | .finished send started _ outcome => .finished send started outcome
  | .resume provider => .resume provider

namespace Paced

variable (p : Paced)

/-- The sends to the provider that are under way. -/
def underWay (provider : String) : List (Send × Int) :=
  p.started.filter fun x => x.1.direction == .localToExternal && x.1.account.provider == provider

def slot (slot : Slot) : Paced :=
  let c := slot.run p.campaign
  { p with
    campaign := c
    started := p.started ++ (c.scheduled.drop p.campaign.scheduled.length).map (·, slot.now) }

def finish (send : Send) (started handed_at : Int) (outcome : Option DeliveryFailure) : Paced where
  campaign := Warmup.finish p.campaign send started outcome
  started := p.started.erase (send, started)
  delivered :=
    if send.direction = .localToExternal ∧ outcome.isNone then
      p.delivered ++ [⟨send.account.provider, started, handed_at⟩]
    else p.delivered

def step : TimedAct → Paced
  | .slot slot => p.slot slot
  | .finished send started handed_at outcome =>
    if (send, started) ∈ p.started then p.finish send started handed_at outcome else p
  | a => { p with campaign := Warmup.step p.campaign a.act }

end Paced

def paced : Machine Paced TimedAct where
  start := ⟨created, [], []⟩
  step := Paced.step

/-- No two deliveries to a provider are closer than its minimum gap. -/
def Spaced (delivered : List Delivery) : Prop :=
  delivered.Pairwise fun d d' => d.provider = d'.provider →
    minutes (providerMinGapMinutes d.provider) ≤ |d'.handed_at - d.handed_at|

/-! ## When the floor is kept -/

def gap (provider : String) : Int := minutes (providerMinGapMinutes provider)

/-- By `now` the gap since the last send is over. -/
def GapOver (row : WarmupProviderState) (now : Int) : Prop :=
  ∀ sent, row.last_sent_at = some sent → sent + gap row.provider ≤ now

/-- A temporary failure reported from outside does not end its cooldown before the
gap; a slot finds no send under way to a provider it may choose, nor one a resume
left without a time before the gap is over; and a delivery lags its slot no less
than an earlier one to the provider did. -/
def KeepsFloor (p : Paced) : TimedAct → Prop
  | .dsn now account failure =>
    failure.isPermanent = true ∨
      GapOver (p.campaign.states account.provider)
        (now + minutes (cooldownMinutes account.provider
          ((p.campaign.states account.provider).consecutive_failures + 1)))
  | .slot slot =>
    ∀ provider ∈ slot.eligible p.campaign, p.underWay provider = [] ∧
      ((p.campaign.states provider).paused_until = none →
        (p.campaign.states provider).next_attempt_at = none →
        GapOver (p.campaign.states provider) slot.now)
  | .finished send started handed_at outcome =>
    send.direction = .localToExternal → outcome = none → ∀ d ∈ p.delivered,
      d.provider = send.account.provider → d.handed_at - d.started ≤ handed_at - started
  | _ => True

/-! ## One row -/

section
variable {row : WarmupProviderState} {now : Int}

/-- A row that is not blocked has a time no sooner than the end of the gap, or no
time at all. -/
def RowFloor (row : WarmupProviderState) : Prop :=
  row.status ≠ .blocked →
    (row.paused_until = none ∧ row.next_attempt_at = none) ∨
      ((∀ until_, row.paused_until = some until_ → GapOver row until_) ∧
        ∃ until_, row.next_attempt_at = some until_ ∧ GapOver row until_)

theorem GapOver.mono {later : Int} (h : GapOver row now) (hle : now ≤ later) :
    GapOver row later := fun sent hsent => (h sent hsent).trans hle

theorem minutes_nonneg (n : Nat) : 0 ≤ minutes n := by
  unfold minutes
  omega

theorem available_gapOver (h : RowFloor row) (havailable : (providerIsAvailable row now).1 = true)
    (hbare : row.paused_until = none → row.next_attempt_at = none → GapOver row now) :
    GapOver row now := by
  unfold providerIsAvailable at havailable
  split at havailable
  · cases havailable
  · rename_i hstatus
    split at havailable
    · cases havailable
    · rename_i hpast
      rcases h hstatus with ⟨hpaused, hnext⟩ | ⟨hpaused, until_, hnext, hover⟩
      · exact hbare hpaused hnext
      · cases hcase : row.paused_until with
        | none =>
          rw [hcase, hnext] at hpast
          exact hover.mono (by simpa using hpast)
        | some paused =>
          rw [hcase] at hpast
          exact (hpaused paused hcase).mono (by simpa using hpast)

theorem checked_last (row : WarmupProviderState) (now : Int) :
    (providerIsAvailable row now).2.provider = row.provider ∧
      (providerIsAvailable row now).2.last_sent_at = row.last_sent_at := by
  rcases checked_row row now with h | ⟨h, -⟩ <;> rw [h] <;> exact ⟨rfl, rfl⟩

theorem rowFloor_checked (h : RowFloor row) (now : Int) : RowFloor (providerIsAvailable row now).2 := by
  rcases checked_row row now with hrow | ⟨hrow, hcooling⟩
  · rw [hrow]
    exact h
  · rw [hrow]
    intro _
    have hfloor := h (by rw [hcooling]; decide)
    rcases hfloor with ⟨-, hnext⟩ | ⟨-, hnext⟩
    · exact .inl ⟨rfl, hnext⟩
    · exact .inr ⟨fun _ hnone => (by cases hnone), hnext⟩

theorem rowFloor_success (row : WarmupProviderState) (now : Int) :
    RowFloor (applyProviderFeedback row now none) := by
  intro _
  refine .inr ⟨fun _ hnone => (by cases hnone), _, rfl, ?_⟩
  intro sent hsent
  cases hsent
  exact le_refl _

theorem rowFloor_failure (failure : DeliveryFailure)
    (h : failure.isPermanent = true ∨
      GapOver row (now + minutes (cooldownMinutes row.provider (row.consecutive_failures + 1)))) :
    RowFloor (applyProviderFeedback row now (some failure)) := by
  intro hstatus
  cases hpermanent : failure.isPermanent with
  | true => simp [applyProviderFeedback, hpermanent] at hstatus
  | false =>
    have hover : GapOver row
        (now + minutes (cooldownMinutes row.provider (row.consecutive_failures + 1))) := by
      rcases h with h | h
      · rw [hpermanent] at h
        cases h
      · exact h
    simp only [applyProviderFeedback, hpermanent, Bool.false_eq_true, if_false]
    right
    constructor
    · intro until_ huntil
      cases huntil
      exact hover
    · exact ⟨_, rfl, hover⟩

theorem failure_last (row : WarmupProviderState) (now : Int) (failure : DeliveryFailure) :
    (applyProviderFeedback row now (some failure)).provider = row.provider ∧
      (applyProviderFeedback row now (some failure)).last_sent_at = row.last_sent_at := by
  cases hpermanent : failure.isPermanent <;> simp [applyProviderFeedback, hpermanent]

end

/-! ## One provider -/

/-- What holds of a provider's row, the sends to it under way and the deliveries
made. -/
structure Held (provider : String) (row : WarmupProviderState) (underWay : List (Send × Int))
    (delivered : List Delivery) : Prop where
  name : row.provider = provider
  floor : RowFloor row
  one : underWay.length ≤ 1
  waits : ∀ x ∈ underWay, GapOver row x.2
  sent : ∀ d ∈ delivered, d.provider = provider →
    ∃ sent, row.last_sent_at = some sent ∧ d.started ≤ sent

section
variable {provider : String} {row row' : WarmupProviderState} {underWay : List (Send × Int)}
  {delivered : List Delivery}

/-- A step that keeps the last send and the floor. -/
theorem Held.keep (h : Held provider row underWay delivered)
    (hlast : row'.provider = row.provider ∧ row'.last_sent_at = row.last_sent_at)
    (hfloor : RowFloor row') : Held provider row' underWay delivered where
  name := hlast.1.trans h.name
  floor := hfloor
  one := h.one
  waits x hx sent hsent := by
    rw [hlast.1]
    exact h.waits x hx sent (hlast.2 ▸ hsent)
  sent d hd hprovider := by
    rw [hlast.2]
    exact h.sent d hd hprovider

/-- A step that leaves the row's status and times alone as well. -/
theorem Held.same (h : Held provider row underWay delivered)
    (hlast : row'.provider = row.provider ∧ row'.last_sent_at = row.last_sent_at)
    (hstatus : row'.status = row.status) (hpaused : row'.paused_until = row.paused_until)
    (hnext : row'.next_attempt_at = row.next_attempt_at) :
    Held provider row' underWay delivered := by
  apply h.keep hlast
  have hover : ∀ now, GapOver row' now ↔ GapOver row now := by
    intro now
    unfold GapOver
    rw [hlast.1, hlast.2]
  unfold RowFloor
  simp only [hstatus, hpaused, hnext, hover]
  exact h.floor

/-- The gap is over when a slot may choose the provider. -/
theorem Held.eligible (h : Held provider row underWay delivered) {now : Int}
    (havailable : (providerIsAvailable row now).1 = true)
    (hbare : row.paused_until = none → row.next_attempt_at = none → GapOver row now) :
    GapOver row now := available_gapOver h.floor havailable hbare

/-- The provider is to wait at least until `now`. -/
theorem Held.wait (h : Held provider row underWay delivered) {now later : Int}
    (hover : GapOver row now) (hle : now ≤ later) :
    Held provider { row with next_attempt_at := some later } underWay delivered := by
  refine h.keep ⟨rfl, rfl⟩ fun hstatus => .inr ⟨fun until_ huntil => ?_, later, rfl, hover.mono hle⟩
  rcases h.floor hstatus with ⟨hpaused, -⟩ | ⟨hpaused, -⟩
  · cases hpaused.symm.trans huntil
  · exact hpaused until_ huntil

theorem Held.begin (h : Held provider row [] delivered) {x : Send × Int} (hover : GapOver row x.2) :
    Held provider row [x] delivered where
  name := h.name
  floor := h.floor
  one := le_refl 1
  waits y hy := by
    obtain rfl := List.mem_singleton.mp hy
    exact hover
  sent := h.sent

/-- A send under way is delivered. -/
theorem Held.deliver (h : Held provider row underWay delivered) {x : Send × Int}
    (hx : x ∈ underWay) (handed_at : Int) :
    Held provider (applyProviderFeedback row x.2 none) (underWay.erase x)
      (delivered ++ [⟨provider, x.2, handed_at⟩]) := by
  have hnone : underWay.erase x = [] := by
    have hlength := List.length_erase_of_mem hx
    have hone := h.one
    apply List.eq_nil_of_length_eq_zero
    omega
  refine ⟨h.name, rowFloor_success row x.2, ?_, ?_, ?_⟩
  · simp [hnone]
  · simp [hnone]
  · intro d hd hprovider
    refine ⟨x.2, rfl, ?_⟩
    rcases List.mem_append.mp hd with hold | hnew
    · obtain ⟨sent, hsent, hle⟩ := h.sent d hold hprovider
      have hover := h.waits x hx sent hsent
      have hgap : 0 ≤ gap row.provider := minutes_nonneg _
      omega
    · rw [List.mem_singleton.mp hnew]

/-- A delivery to another provider. -/
theorem Held.other (h : Held provider row underWay delivered) {d : Delivery}
    (hother : d.provider ≠ provider) : Held provider row underWay (delivered ++ [d]) := by
  refine ⟨h.name, h.floor, h.one, h.waits, fun d' hd hprovider => ?_⟩
  rcases List.mem_append.mp hd with hold | hnew
  · exact h.sent d' hold hprovider
  · rw [List.mem_singleton.mp hnew] at hprovider
    exact absurd hprovider hother

/-- A send under way fails. -/
theorem Held.fail (h : Held provider row underWay delivered) {x : Send × Int}
    (hx : x ∈ underWay) (failure : DeliveryFailure) :
    Held provider (applyProviderFeedback row x.2 (some failure)) (underWay.erase x) delivered := by
  have hfloor : RowFloor (applyProviderFeedback row x.2 (some failure)) := by
    apply rowFloor_failure
    right
    apply (h.waits x hx).mono
    have := minutes_nonneg (cooldownMinutes row.provider (row.consecutive_failures + 1))
    omega
  have hkept := h.keep (failure_last row x.2 failure) hfloor
  refine ⟨hkept.name, hkept.floor, ?_, ?_, hkept.sent⟩
  · exact List.length_erase_le.trans hkept.one
  · intro y hy
    exact hkept.waits y (List.mem_of_mem_erase hy)

/-- The new delivery is a gap behind every earlier one. -/
theorem Held.spaced (h : Held provider row underWay delivered) {x : Send × Int}
    (hx : x ∈ underWay) {handed_at : Int}
    (hlag : ∀ d ∈ delivered, d.provider = provider → d.handed_at - d.started ≤ handed_at - x.2) :
    ∀ d ∈ delivered, d.provider = provider → d.handed_at + gap provider ≤ handed_at := by
  intro d hd hprovider
  obtain ⟨sent, hsent, hle⟩ := h.sent d hd hprovider
  have hover := h.waits x hx sent hsent
  have hbehind := hlag d hd hprovider
  rw [h.name] at hover
  omega

end

/-! ## One step -/

structure Floors (p : Paced) : Prop where
  spaced : p.delivered.Pairwise fun d d' =>
    d.provider = d'.provider → d.handed_at + gap d.provider ≤ d'.handed_at
  held : ∀ provider,
    Held provider (p.campaign.states provider) (p.underWay provider) p.delivered

section
variable {p : Paced}

theorem held_checked (h : Floors p) (slot : Slot) (provider : String) :
    Held provider ((slot.checked p.campaign).states provider) (p.underWay provider) p.delivered := by
  by_cases hactive : provider ∈ slot.activeProviders
  · simp only [Slot.checked, if_pos hactive]
    exact (h.held provider).keep (checked_last _ _) (rowFloor_checked (h.held provider).floor _)
  · simp only [Slot.checked, if_neg hactive]
    exact h.held provider

theorem eligible_gapOver (h : Floors p) {slot : Slot} (hkeeps : KeepsFloor p (.slot slot))
    {provider : String} (hmem : provider ∈ slot.eligible p.campaign) :
    GapOver ((slot.checked p.campaign).states provider) slot.now := by
  have hover : GapOver (p.campaign.states provider) slot.now := by
    apply (h.held provider).eligible
    · have hroom := List.of_mem_filter hmem
      simp only [Bool.and_eq_true] at hroom
      exact hroom.1
    · exact (hkeeps provider hmem).2
  have hactive : provider ∈ slot.activeProviders := List.mem_of_mem_filter hmem
  have hlast := checked_last (p.campaign.states provider) slot.now
  unfold GapOver
  simp only [Slot.checked, if_pos hactive, hlast.1, hlast.2]
  exact hover

/-- A slot starts what it schedules. -/
theorem slot_underWay {slot : Slot} (new : List Send)
    (hnew : (slot.run p.campaign).scheduled = p.campaign.scheduled ++ new) (provider : String) :
    (p.slot slot).underWay provider = p.underWay provider ++
      (new.map (·, slot.now)).filter fun x =>
        x.1.direction == .localToExternal && x.1.account.provider == provider := by
  simp only [Paced.underWay, Paced.slot, hnew, List.drop_left, List.filter_append]

theorem slot_floors (h : Floors p) (slot : Slot) (hkeeps : KeepsFloor p (.slot slot)) :
    Floors (p.slot slot) := by
  refine ⟨h.spaced, fun provider => ?_⟩
  have hchecked := held_checked h slot provider
  change Held provider ((slot.run p.campaign).states provider) _ p.delivered
  rcases slot_cases slot p.campaign with
    ⟨account, hrun⟩ | hrun | hrun | ⟨chosen, hmem, hrun⟩ | ⟨account, hmem, hrun⟩
  · rw [slot_underWay [⟨account, .externalToLocal⟩] (by rw [hrun]; rfl), hrun]
    simpa [Campaign.schedule] using h.held provider
  · rw [slot_underWay [] (by rw [hrun]; simp), hrun]
    simpa using h.held provider
  · rw [slot_underWay [] (by rw [hrun]; simp [Slot.checked]), hrun]
    simpa using hchecked
  · -- no account of the provider is free: it waits a quarter of an hour
    rw [slot_underWay [] (by rw [hrun]; simp [Slot.checked, Campaign.updateState]), hrun]
    by_cases hchosen : provider = chosen
    · subst hchosen
      have hwait : 0 ≤ minutes 15 := minutes_nonneg 15
      have hheld := hchecked.wait (eligible_gapOver h hkeeps hmem)
        (show slot.now ≤ slot.now + minutes 15 by omega)
      simpa using hheld
    · simpa [hchosen] using hchecked
  · rw [slot_underWay [⟨account, .localToExternal⟩] (by rw [hrun]; rfl), hrun]
    by_cases haccount : account.provider = provider
    · subst haccount
      have hover := eligible_gapOver h hkeeps hmem
      rw [(hkeeps _ hmem).1] at hchecked ⊢
      simpa [Campaign.schedule] using
        hchecked.begin (x := (⟨account, .localToExternal⟩, slot.now)) hover
    · simpa [Campaign.schedule, haccount] using hchecked

theorem finish_underWay (send : Send) (started handed_at : Int) (outcome : Option DeliveryFailure)
    (provider : String) :
    (p.finish send started handed_at outcome).underWay provider =
      (p.underWay provider).erase (send, started) := by
  unfold Paced.underWay Paced.finish
  exact List.erase_filter.symm

/-- A send that is not outbound to the provider is not among those to it. -/
theorem erase_underWay {x : Send × Int} {provider : String}
    (h : ¬ (x.1.direction = .localToExternal ∧ x.1.account.provider = provider)) :
    (p.underWay provider).erase x = p.underWay provider := by
  apply List.erase_of_not_mem
  intro hmem
  have hto := List.of_mem_filter hmem
  simp only [Bool.and_eq_true, beq_iff_eq] at hto
  exact h hto

theorem finish_states (c : Campaign) (send : Send) (now : Int) (outcome : Option DeliveryFailure)
    (provider : String) :
    (finish c send now outcome).states provider =
      if send.direction = .localToExternal ∧ send.account.provider = provider then
        applyProviderFeedback (c.states provider) now outcome
      else c.states provider := by
  by_cases hout : send.direction = .localToExternal
  · by_cases hsame : send.account.provider = provider
    · subst hsame
      simp [finish, hout, Campaign.feedback]
    · simp [finish, hout, Campaign.feedback, hsame, Ne.symm hsame]
  · simp [finish, hout]

theorem finish_floors (h : Floors p) {send : Send} {started : Int}
    (hmem : (send, started) ∈ p.started) (handed_at : Int) (outcome : Option DeliveryFailure)
    (hkeeps : KeepsFloor p (.finished send started handed_at outcome)) :
    Floors (p.finish send started handed_at outcome) := by
  have hunder : send.direction = .localToExternal →
      (send, started) ∈ p.underWay send.account.provider := by
    intro hout
    simp [Paced.underWay, hmem, hout]
  constructor
  · simp only [Paced.finish]
    split
    · rename_i hdelivered
      have hnone : outcome = none := by simpa using hdelivered.2
      have hbehind := (h.held _).spaced (hunder hdelivered.1) (hkeeps hdelivered.1 hnone)
      rw [List.pairwise_append]
      refine ⟨h.spaced, List.pairwise_singleton _ _, ?_⟩
      intro d hd d' hd' hprovider
      rw [List.mem_singleton.mp hd'] at hprovider ⊢
      have hprovider : d.provider = send.account.provider := hprovider
      rw [hprovider]
      exact hbehind d hd hprovider
    · exact h.spaced
  · intro provider
    rw [finish_underWay]
    simp only [Paced.finish, finish_states]
    by_cases hto : send.direction = .localToExternal ∧ send.account.provider = provider
    · obtain ⟨hout, rfl⟩ := hto
      simp only [hout, true_and, if_true]
      cases outcome with
      | none => exact (h.held _).deliver (hunder hout) handed_at
      | some failure => exact (h.held _).fail (hunder hout) failure
    · rw [if_neg hto, erase_underWay hto]
      split
      · rename_i hdelivered
        exact (h.held provider).other fun hsame => hto ⟨hdelivered.1, hsame⟩
      · exact h.held provider

theorem step_floors (h : Floors p) (a : TimedAct) (hkeeps : KeepsFloor p a) :
    Floors (p.step a) := by
  cases a with
  | slot slot => exact slot_floors h slot hkeeps
  | finished send started handed_at outcome =>
    simp only [Paced.step]
    split
    · rename_i hmem
      exact finish_floors h hmem handed_at outcome hkeeps
    · exact h
  | rollover today =>
    refine ⟨h.spaced, fun provider => ?_⟩
    change Held provider ((p.campaign.rollover today).states provider) (p.underWay provider)
      p.delivered
    simp only [Campaign.rollover]
    split
    · exact h.held provider
    · exact (h.held provider).same ⟨rfl, rfl⟩ rfl rfl rfl
  | dsn now account failure =>
    refine ⟨h.spaced, fun provider => ?_⟩
    change Held provider
      ((p.campaign.feedback account.provider now (some failure)).states provider)
      (p.underWay provider) p.delivered
    by_cases hsame : provider = account.provider
    · subst hsame
      have hname := (h.held account.provider).name
      simp only [Campaign.feedback, updateState_states, if_true]
      apply (h.held _).keep (failure_last _ now failure)
      apply rowFloor_failure
      rw [hname]
      exact hkeeps
    · simpa [Campaign.feedback, hsame] using h.held provider
  | resume other =>
    refine ⟨h.spaced, fun provider => ?_⟩
    change Held provider ((p.campaign.updateState other
      (resumeProvider (p.campaign.states other))).states provider) (p.underWay provider) p.delivered
    by_cases hsame : provider = other
    · subst hsame
      simp only [updateState_states, if_true]
      exact (h.held provider).keep ⟨rfl, rfl⟩ fun _ => .inl ⟨rfl, rfl⟩
    · simpa [hsame] using h.held provider

end

/-! ## Every run -/

theorem floors_start : Floors paced.start where
  spaced := List.Pairwise.nil
  held provider :=
    { name := rfl
      floor := fun _ => .inl ⟨rfl, rfl⟩
      one := Nat.zero_le 1
      waits := fun _ hx => by cases hx
      sent := fun _ hd => by cases hd }

theorem Floors.spaced_apart {p : Paced} (h : Floors p) : Spaced p.delivered := by
  refine h.spaced.imp fun {d d'} hbehind hprovider => ?_
  have hgap : d.handed_at + minutes (providerMinGapMinutes d.provider) ≤ d'.handed_at :=
    hbehind hprovider
  exact le_trans (by omega) (le_abs_self _)

def out : Send := ⟨gmailAccount, .localToExternal⟩

def reply : Send := ⟨gmailAccount, .externalToLocal⟩

def gmailSlot (now : Int) : TimedAct := .slot ⟨now, [gmailAccount], 5, (0, 0)⟩

/-- The sends under way are the campaign's. -/
def SameSends (p : Paced) : Prop := (p.started.map (·.1)).Perm p.campaign.sending

theorem slot_sends (slot : Slot) (c : Campaign) :
    ∃ new, (slot.run c).scheduled = c.scheduled ++ new ∧
      ((slot.run c).sending).Perm (c.sending ++ new) := by
  rcases slot_cases slot c with
    ⟨account, hrun⟩ | hrun | hrun | ⟨chosen, -, hrun⟩ | ⟨account, -, hrun⟩ <;> rw [hrun]
  · exact ⟨_, rfl, (List.perm_append_singleton _ _).symm⟩
  · exact ⟨[], (List.append_nil _).symm, by simp⟩
  · exact ⟨[], (List.append_nil _).symm, by simp [Slot.checked]⟩
  · exact ⟨[], (List.append_nil _).symm, by simp [Slot.checked, Campaign.updateState]⟩
  · exact ⟨_, rfl, (List.perm_append_singleton _ _).symm⟩

theorem finish_sending (c : Campaign) (send : Send) (now : Int) (outcome : Option DeliveryFailure) :
    (finish c send now outcome).sending = c.sending.erase send := by
  unfold finish
  dsimp only
  split <;> rfl

theorem sameSends_step {p : Paced} (h : SameSends p) (a : TimedAct) : SameSends (p.step a) := by
  cases a with
  | slot slot =>
    obtain ⟨new, hscheduled, hsending⟩ := slot_sends slot p.campaign
    have hstarted : ((p.slot slot).started.map (·.1)) = p.started.map (·.1) ++ new := by
      simp [Paced.slot, hscheduled, Function.comp_def]
    change ((p.slot slot).started.map (·.1)).Perm (slot.run p.campaign).sending
    rw [hstarted]
    exact (h.append_right new).trans hsending.symm
  | finished send started handed_at outcome =>
    simp only [Paced.step]
    split
    · rename_i hmem
      have hfront := List.perm_cons_erase hmem
      have hsends : (send :: (p.started.erase (send, started)).map (·.1)).Perm p.campaign.sending :=
        (hfront.map Prod.fst).symm.trans h
      change ((p.started.erase (send, started)).map (·.1)).Perm _
      simp only [Paced.finish, finish_sending]
      simpa using hsends.erase send
    · exact h
  | rollover today => exact h
  | dsn now account failure => exact h
  | resume provider => exact h

/-- The paced campaign is the campaign: what a run reaches, a run of it reaches. -/
theorem paced_refines (inputs : List TimedAct) :
    ∃ acts, campaign.run acts = (paced.run inputs).campaign := by
  have hsends : paced.Always (fun _ p => SameSends p) inputs := by
    refine Machine.always_of_preserved inputs (List.Perm.refl _) fun pre a hbefore => ?_
    rw [Machine.run_snoc]
    exact sameSends_step hbefore a
  induction inputs using List.reverseRecOn with
  | nil => exact ⟨[], rfl⟩
  | append_singleton pre a ih =>
    obtain ⟨acts, hacts⟩ := ih fun pre' hpre => hsends pre' (hpre.trans (List.prefix_append _ _))
    by_cases htaken : ((paced.run pre).step a).campaign = step (paced.run pre).campaign a.act
    · refine ⟨acts ++ [a.act], ?_⟩
      rw [Machine.run_snoc, Machine.run_snoc, hacts]
      exact htaken.symm
    · -- an outcome of a send that is not under way is no step
      refine ⟨acts, ?_⟩
      rw [Machine.run_snoc, hacts]
      cases a with
      | finished send started handed_at outcome =>
        change _ = ((paced.run pre).step (.finished send started handed_at outcome)).campaign
        simp only [Paced.step] at htaken ⊢
        split
        · rename_i hmem
          have hsending : send ∈ (paced.run pre).campaign.sending := by
            rw [← (hsends pre (List.prefix_append _ _)).mem_iff]
            exact List.mem_map_of_mem hmem
          rw [if_pos hmem] at htaken
          exact absurd (by simp [Paced.finish, step, TimedAct.act, hsending]) htaken
        · rfl
      | _ => exact absurd rfl htaken

end MailCue.Backend.Warmup
