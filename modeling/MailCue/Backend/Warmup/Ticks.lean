import MailCue.Backend.Warmup.Workers

/-!
# Ticks of a campaign

backend/app/warmup/service.py, `process_campaign` as a whole, by one worker at a time, on an
active campaign whose accounts and settings nobody edits. The external logins of some
accounts fail on every attempt. The time zone is a parameter, as is what the mailboxes and
the servers say; the random choices are inputs.
-/
namespace MailCue.Backend.Warmup
open MailCue.Lib

/-! ## Settings -/

/-- Local days and hours. Each hour of the day comes again on a later day. -/
structure Zone where
  day : Int → Int
  hour : Int → Nat
  /-- The instant of a minute of a local day. -/
  utc : Int → Nat → Int
  isoformat : Int → String
  isoformat_injective : Function.Injective isoformat
  again : ∀ (now d : Int) (h : Nat), h < 24 → ∃ later, now ≤ later ∧ d < day later ∧ hour later = h

structure Plan where
  accounts : List WarmupAccount
  start_daily_volume : Nat
  daily_ramp : Nat
  max_daily_volume : Nat
  delays : Delays
  active_hour_start : Nat
  active_hour_end : Nat
  zone : Zone
  started_at : Int
  ids_ok : (accounts.map (·.id)).Nodup
  volume_ok : 1 ≤ start_daily_volume ∧ start_daily_volume ≤ max_daily_volume
  hours_ok : active_hour_start < active_hour_end ∧ active_hour_end ≤ 24

structure Tick where
  now : Int
  /-- The clock as it is read for the local date. -/
  local_now : Int
  feedback_at : Int
  feedback : List (WarmupAccount × DeliveryFailure)
  draws : Nat × Nat
  /-- `random.randint(campaign.min_delay_minutes, campaign.max_delay_minutes)` -/
  delay : Nat
  /-- `random.randint(0, 20)` -/
  jitter : Nat
  /-- What becomes of a send, where its login does not fail. -/
  outcome : Option DeliveryFailure

/-- `_daily_target` -/
def Plan.dailyTarget (plan : Plan) (local_now : Int) : Nat :=
  let day_number := (plan.zone.day local_now - plan.zone.day plan.started_at).toNat
  min plan.max_daily_volume (plan.start_daily_volume + day_number * plan.daily_ramp)

/-- `_next_active_time` -/
def Plan.nextActiveTime (plan : Plan) (now : Int) (jitter : Nat) : Int :=
  let hour := plan.zone.hour now
  if plan.active_hour_start ≤ hour ∧ hour < plan.active_hour_end then now
  else
    let day := plan.zone.day now + if plan.active_hour_end ≤ hour then 1 else 0
    plan.zone.utc day (60 * plan.active_hour_start + jitter)

/-! ## The slot -/

/-- What the slot sends. -/
def Slot.chosen (slot : Slot) (c : Campaign) : Option Send :=
  (slot.run c).scheduled[c.scheduled.length]?

/-- The times the active providers wait for. -/
def Slot.future (slot : Slot) (c : Campaign) : List Int :=
  slot.activeProviders.flatMap fun provider =>
    let state := (slot.checked c).states provider
    ([state.paused_until, state.next_attempt_at].filterMap id).filter (slot.now < ·)

/-- The next run the slot writes. -/
def Slot.nextRunAt (slot : Slot) (c : Campaign) (tomorrow : Int) (delay : Nat) : Int :=
  match choose slot.draws.1 (slot.replyAccounts c) with
  | some _ => slot.now + minutes delay
  | none =>
    if slot.target ≤ c.messages_sent_today then tomorrow
    else
      match choose slot.draws.1 (slot.lowestLoad c) with
      | none => (slot.future c).min?.getD (slot.now + minutes 360)
      | some provider =>
        match choose slot.draws.2 (slot.outboundAccounts c provider) with
        | none => slot.now + minutes 15
        | some _ => slot.now + minutes delay

/-! ## Ticks -/

structure Running where
  campaign : Campaign
  next_run_at : Int
  /-- The `now` of the last tick. -/
  clock : Int

inductive Input
  | tick (t : Tick)
  /-- The resume endpoint. -/
  | resume (provider : String) (now : Int)

/-- The exception of a login that is refused. -/
def loginFailure : DeliveryFailure := ⟨none, none, none⟩

section
variable (plan : Plan) (broken : String → Bool)

def Plan.slot (t : Tick) : Slot := ⟨t.now, plan.accounts, plan.dailyTarget t.local_now, t.draws⟩

/-- The scheduler finds the campaign due, and the tick is one there can be. -/
def Plan.due (s : Running) (t : Tick) : Bool :=
  s.next_run_at ≤ t.now && s.clock ≤ t.now && t.now ≤ t.local_now &&
    plan.delays.min_delay_minutes ≤ t.delay && t.delay ≤ plan.delays.max_delay_minutes &&
    t.jitter ≤ 20 && t.feedback.all (·.1 ∈ plan.accounts)

def Plan.isOpen (t : Tick) : Bool := plan.nextActiveTime t.now t.jitter ≤ t.now

/-- The campaign with its date and the feedback polled. -/
def Plan.prepared (s : Running) (t : Tick) : Campaign :=
  ingestDeliveryFeedback
    (s.campaign.rollover (plan.zone.isoformat (plan.zone.day t.local_now))) t.feedback_at t.feedback

def Plan.sends (s : Running) (t : Tick) : Option Send :=
  if plan.due s t && plan.isOpen t then (plan.slot t).chosen (plan.prepared s t) else none

/-- A reply goes out through the external server. -/
def Tick.outcomeOf (t : Tick) (send : Send) : Option DeliveryFailure :=
  if send.direction = .externalToLocal ∧ broken send.account.id = true then
    some (t.outcome.getD loginFailure)
  else t.outcome

/-- The outcome of what a slot has sent is recorded. -/
def Tick.record (t : Tick) (sent : Option Send) (c : Campaign) : Campaign :=
  match sent with
  | none => c
  | some send => finish c send t.now (t.outcomeOf broken send)

def Plan.process (s : Running) (t : Tick) : Running :=
  let c := plan.prepared s t
  if !plan.due s t then s
  else if !plan.isOpen t then ⟨c, plan.nextActiveTime t.now t.jitter, t.now⟩
  else
    let tomorrow := plan.zone.utc (plan.zone.day t.local_now + 1) (60 * plan.active_hour_start) +
      minutes t.jitter
    ⟨t.record broken (plan.sends s t) ((plan.slot t).run c),
      (plan.slot t).nextRunAt c tomorrow t.delay, t.now⟩

def Plan.step (s : Running) : Input → Running
  | .tick t => plan.process broken s t
  | .resume provider now =>
    if s.clock ≤ now then ⟨Warmup.step s.campaign (.resume provider), now, now⟩ else s

/-- A campaign from its start on. -/
def ticks : Machine Running Input where
  start := ⟨created, plan.started_at, plan.started_at⟩
  step := plan.step broken

end

end MailCue.Backend.Warmup
