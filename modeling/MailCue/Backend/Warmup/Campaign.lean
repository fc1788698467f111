import Mathlib.Data.List.Dedup
import Mathlib.Data.Prod.Lex
import Mathlib.Logic.Function.Basic
import Mathlib.Algebra.Group.Nat.Defs
import MailCue.Lib.Transition

/-!
# Warmup campaigns

backend/app/warmup/service.py, with the resume endpoint of router.py: the
provider rows of one campaign, the delivery feedback that updates them and the
slot that picks the provider of the next send. A step reads and writes its rows
whole. The accounts a step reads, its random draws, the daily target and what
becomes of a send are inputs; an account's provider is given normalised. Times
are microseconds. The texts of messages, the slot times of the campaign and the
event rows other than the last direction of each account are left out.
-/
namespace MailCue.Backend.Warmup
open MailCue.Lib

/-! ## Provider rows -/

inductive ProviderStatus
  | healthy | cooling | blocked
  deriving DecidableEq, Repr

structure WarmupProviderState where
  provider : String
  status : ProviderStatus := .healthy
  sent_today : Nat := 0
  failed_today : Nat := 0
  total_sent : Nat := 0
  total_failed : Nat := 0
  consecutive_failures : Nat := 0
  volume_date : Option String := none
  next_attempt_at : Option Int := none
  paused_until : Option Int := none
  last_sent_at : Option Int := none
  last_failure_at : Option Int := none
  last_smtp_code : Option Int := none
  last_enhanced_status : Option String := none
  last_response : Option String := none

def minutes (n : Nat) : Int := n * 60000000

def providerMinGapMinutes (provider : String) : Nat :=
  ([("gmail", 30), ("yahoo", 45), ("outlook", 45), ("icloud", 45), ("custom", 30)].lookup
    provider).getD 30

/-! ## Feedback -/

structure DeliveryFailure where
  smtp_code : Option Int
  enhanced_status : Option String
  response : Option String

def DeliveryFailure.isPermanent (f : DeliveryFailure) : Bool :=
  f.smtp_code.any (fun code => 500 ≤ code && code < 600) ||
    f.enhanced_status.any fun status => "5.".toList.isPrefixOf status.toList

/-- `(response or "Unknown delivery failure")[:2000]` -/
def DeliveryFailure.text (f : DeliveryFailure) : String :=
  let response := (f.response.filter (· ≠ "")).getD "Unknown delivery failure"
  String.ofList (response.toList.take 2000)

def cooldownMinutes (provider : String) (consecutive_failures : Nat) : Nat :=
  let base := if provider = "gmail" then 10 else 15
  min 360 (max base (10 * 2 ^ (consecutive_failures - 1)))

/-- `none` is a delivery that succeeded. -/
def applyProviderFeedback (state : WarmupProviderState) (now : Int) :
    Option DeliveryFailure → WarmupProviderState
  | none =>
    { state with
      status := .healthy
      sent_today := state.sent_today + 1
      total_sent := state.total_sent + 1
      consecutive_failures := 0
      last_sent_at := some now
      last_smtp_code := none
      last_enhanced_status := none
      last_response := none
      paused_until := none
      next_attempt_at := some (now + minutes (providerMinGapMinutes state.provider)) }
  | some failure =>
    let state := { state with
      failed_today := state.failed_today + 1
      total_failed := state.total_failed + 1
      consecutive_failures := state.consecutive_failures + 1
      last_failure_at := some now
      last_smtp_code := failure.smtp_code
      last_enhanced_status := failure.enhanced_status
      last_response := some failure.text }
    if failure.isPermanent then
      { state with status := .blocked, paused_until := none, next_attempt_at := none }
    else
      let until_ := now + minutes (cooldownMinutes state.provider state.consecutive_failures)
      { state with status := .cooling, paused_until := some until_, next_attempt_at := some until_ }

/-- A permanent failure is the one kind of feedback that leaves a row blocked. -/
theorem applyProviderFeedback_blocked (state : WarmupProviderState) (now : Int)
    (outcome : Option DeliveryFailure) :
    (applyProviderFeedback state now outcome).status = .blocked ↔
      ∃ failure, outcome = some failure ∧ failure.isPermanent = true := by
  cases outcome with
  | none => simp [applyProviderFeedback]
  | some failure => by_cases h : failure.isPermanent <;> simp [applyProviderFeedback, h]

/-! ## Availability -/

/-- The answer, and the row as the check leaves it. -/
def providerIsAvailable (state : WarmupProviderState) (now : Int) : Bool × WarmupProviderState :=
  if state.status = .blocked then (false, state)
  else if (state.paused_until.or state.next_attempt_at).any (now < ·) then (false, state)
  else if state.status = .cooling then
    (true, { state with status := .healthy, paused_until := none })
  else (true, state)

theorem providerIsAvailable_of_blocked {state : WarmupProviderState} (now : Int)
    (h : state.status = .blocked) : providerIsAvailable state now = (false, state) := by
  simp [providerIsAvailable, h]

/-- An availability check leaves the row or takes it out of its cooldown. -/
theorem checked_row (row : WarmupProviderState) (now : Int) :
    (providerIsAvailable row now).2 = row ∨
      (providerIsAvailable row now).2 = { row with status := .healthy, paused_until := none } ∧
        row.status = .cooling := by
  unfold providerIsAvailable
  split
  · exact .inl rfl
  · split
    · exact .inl rfl
    · split
      · rename_i hcooling
        exact .inr ⟨rfl, hcooling⟩
      · exact .inl rfl

theorem providerIsAvailable_blocked (state : WarmupProviderState) (now : Int) :
    (providerIsAvailable state now).2.status = .blocked ↔ state.status = .blocked := by
  rcases checked_row state now with h | ⟨h, hcooling⟩
  · rw [h]
  · simp [h, hcooling]

/-! ## The campaign -/

inductive Direction
  | localToExternal | externalToLocal
  deriving DecidableEq, Repr

structure WarmupAccount where
  id : String
  provider : String
  deriving DecidableEq, Repr

structure Send where
  account : WarmupAccount
  direction : Direction
  deriving DecidableEq, Repr

structure Campaign where
  states : String → WarmupProviderState
  /-- Direction of the last event of an account that was sent. -/
  last : String → Option Direction
  volume_date : Option String
  messages_sent_today : Nat
  /-- Sends handed to the network whose outcome is not in yet. -/
  sending : List Send
  /-- Every send a slot has chosen, in order. -/
  scheduled : List Send

def created : Campaign where
  states provider := { provider := provider }
  last _ := none
  volume_date := none
  messages_sent_today := 0
  sending := []
  scheduled := []

namespace Campaign

def updateState (c : Campaign) (provider : String) (state : WarmupProviderState) : Campaign :=
  { c with states := Function.update c.states provider state }

def feedback (c : Campaign) (provider : String) (now : Int) (outcome : Option DeliveryFailure) :
    Campaign :=
  c.updateState provider (applyProviderFeedback (c.states provider) now outcome)

def schedule (c : Campaign) (send : Send) : Campaign :=
  { c with sending := send :: c.sending, scheduled := c.scheduled ++ [send] }

/-- The sends to an account of this provider. -/
def sendsTo (c : Campaign) (provider : String) : List Send :=
  c.scheduled.filter fun send =>
    send.direction == .localToExternal && send.account.provider == provider

def rollover (c : Campaign) (today : String) : Campaign :=
  { c with
    volume_date := some today
    messages_sent_today := if c.volume_date = some today then c.messages_sent_today else 0
    states := fun provider =>
      let state := c.states provider
      if state.volume_date = some today then state
      else { state with volume_date := some today, sent_today := 0, failed_today := 0 } }

end Campaign

/-! ## The slot of a campaign -/

/-- `random.choice` -/
def choose {α : Type} (draw : Nat) (xs : List α) : Option α := xs[draw % xs.length]?

theorem choose_mem {α : Type} {draw : Nat} {xs : List α} {x : α} (h : choose draw xs = some x) :
    x ∈ xs := List.mem_of_getElem? h

structure Slot where
  now : Int
  accounts : List WarmupAccount
  target : Nat
  draws : Nat × Nat

namespace Slot

variable (slot : Slot) (c : Campaign)

def activeProviders : List String := (slot.accounts.map (·.provider)).dedup

def replyAccounts : List WarmupAccount :=
  slot.accounts.filter fun account => c.last account.id == some .localToExternal

def providerTarget : Nat :=
  let provider_count := max 1 slot.activeProviders.length
  (slot.target + provider_count - 1) / provider_count

/-- The providers with room for a send now. -/
def eligible : List String :=
  slot.activeProviders.filter fun provider =>
    (providerIsAvailable (c.states provider) slot.now).1 &&
      (c.states provider).sent_today < slot.providerTarget

/-- Every active row, as its availability check leaves it. -/
def checked : Campaign :=
  { c with states := fun provider =>
      if provider ∈ slot.activeProviders then (providerIsAvailable (c.states provider) slot.now).2
      else c.states provider }

def load (provider : String) : Nat ×ₗ Nat :=
  toLex ((c.states provider).sent_today, (c.states provider).total_sent)

/-- The eligible providers no other eligible provider has a lower load than. -/
def lowestLoad : List String :=
  (slot.eligible c).filter fun provider =>
    (slot.eligible c).all fun other => decide (load c provider ≤ load c other)

def outboundAccounts (provider : String) : List WarmupAccount :=
  slot.accounts.filter fun account =>
    account.provider == provider && c.last account.id != some .localToExternal

/-- `process_campaign` from the choice of a direction to the claim of the next slot. -/
def run : Campaign :=
  match choose slot.draws.1 (slot.replyAccounts c) with
  | some account => c.schedule ⟨account, .externalToLocal⟩
  | none =>
    if slot.target ≤ c.messages_sent_today then c
    else
      let c' := slot.checked c
      match choose slot.draws.1 (slot.lowestLoad c) with
      | none => c'
      | some provider =>
        match choose slot.draws.2 (slot.outboundAccounts c provider) with
        | none =>
          c'.updateState provider
            { c'.states provider with next_attempt_at := some (slot.now + minutes 15) }
        | some account => c'.schedule ⟨account, .localToExternal⟩

end Slot

/-! ## Steps -/

inductive Act
  | rollover (today : String)
  /-- One row of `ingest_delivery_feedback`. -/
  | dsn (now : Int) (account : WarmupAccount) (failure : DeliveryFailure)
  | slot (slot : Slot)
  | finished (send : Send) (now : Int) (outcome : Option DeliveryFailure)
  | resume (provider : String)

def finish (c : Campaign) (send : Send) (now : Int) (outcome : Option DeliveryFailure) : Campaign :=
  let c := { c with
    sending := c.sending.erase send
    last := if outcome.isNone then Function.update c.last send.account.id (some send.direction)
      else c.last }
  if send.direction = .localToExternal then
    { c.feedback send.account.provider now outcome with
      messages_sent_today := c.messages_sent_today + if outcome.isNone then 1 else 0 }
  else c

def resumeProvider (state : WarmupProviderState) : WarmupProviderState :=
  { state with
    status := .healthy, consecutive_failures := 0, paused_until := none, next_attempt_at := none }

def step (c : Campaign) : Act → Campaign
  | .rollover today => c.rollover today
  | .dsn now account failure => c.feedback account.provider now (some failure)
  | .slot slot => slot.run c
  | .finished send now outcome => if send ∈ c.sending then finish c send now outcome else c
  | .resume provider => c.updateState provider (resumeProvider (c.states provider))

/-- A campaign from its creation on. -/
def campaign : Machine Campaign Act where
  start := created
  step := step

/-- `ingest_delivery_feedback` on the rows it parsed, whose accounts are known. -/
def ingestDeliveryFeedback (c : Campaign) (now : Int)
    (feedback : List (WarmupAccount × DeliveryFailure)) : Campaign :=
  feedback.foldl (fun c (account, failure) => c.feedback account.provider now (some failure)) c

theorem ingestDeliveryFeedback_eq (c : Campaign) (now : Int)
    (feedback : List (WarmupAccount × DeliveryFailure)) :
    ingestDeliveryFeedback c now feedback =
      (feedback.map fun (account, failure) => Act.dsn now account failure).foldl step c := by
  induction feedback generalizing c with
  | nil => rfl
  | cons row rows ih => exact ih _

end MailCue.Backend.Warmup
