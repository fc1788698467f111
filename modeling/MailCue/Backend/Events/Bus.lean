import Mathlib
import MailCue.Lib.Json
import MailCue.Lib.Table
import MailCue.Lib.Transition

/-!
# The event bus

backend/app/events/bus.py. A publish is one step up to the call of its listeners, of whom
nothing is modelled but that they may do anything afterwards. A queue is named by the number
of those made before it; what its reader takes is a step of its own.
-/
namespace MailCue.Backend.Events
open MailCue.Lib

structure Message where
  event : String
  data : Json.Fields

structure Queue where
  /-- What the reader has taken. -/
  taken : List Message
  pending : List Message

def maxsize : Nat := 256

namespace Queue

def empty : Queue := ⟨[], []⟩

def isFull (q : Queue) : Bool := maxsize ≤ q.pending.length

def put (q : Queue) (message : Message) : Queue := { q with pending := q.pending ++ [message] }

def take (q : Queue) : Queue :=
  match q.pending with
  | [] => q
  | message :: rest => ⟨q.taken ++ [message], rest⟩

/-- Every message that was put, in order. -/
def received (q : Queue) : List Message := q.taken ++ q.pending

@[simp] theorem received_put (q : Queue) (message : Message) :
    (q.put message).received = q.received ++ [message] := by
  simp [received, put]

@[simp] theorem received_take (q : Queue) : q.take.received = q.received := by
  unfold take
  split
  · rfl
  · rename_i hpending
    simp [received, hpending]

end Queue

structure Subscriber where
  client_id : String
  queue : Nat
  allowed_mailboxes : List Text
  deriving DecidableEq

structure EventBus where
  subscribers : Table Subscriber.client_id
  queues : Nat → Queue
  /-- How many queues there are. -/
  made : Nat

inductive Op
  /-- With the client's id as it is given or drawn. -/
  | subscribe (client_id : String) (allowed_mailboxes : List Text)
  | unsubscribe (client_id : String)
  | publish (event_type : String) (data : Json.Fields)
  /-- `queue.get()` -/
  | take (queue : Nat)

section
variable (lower : Text → Text)

/-- `_event_mailbox` -/
def eventMailbox (event_type : String) (data : Json.Fields) : Option Text :=
  let candidate :=
    if event_type = "email.sent" then data.lookup "from"
    else (data.lookup "mailbox").or (data.lookup "address")
  match candidate with
  | some (.str candidate) => if '@' ∈ candidate then some (lower candidate) else none
  | _ => none

def Subscriber.allows (subscriber : Subscriber) (event_mailbox : Option Text) : Bool :=
  event_mailbox.any (· ∈ subscriber.allowed_mailboxes)

namespace EventBus

def start : EventBus := ⟨Table.empty, fun _ => .empty, 0⟩

def subscribe (bus : EventBus) (client_id : String) (allowed_mailboxes : List Text) : EventBus where
  subscribers := bus.subscribers.put ⟨client_id, bus.made, allowed_mailboxes.map lower⟩
  queues := Function.update bus.queues bus.made .empty
  made := bus.made + 1

def unsubscribe (bus : EventBus) (client_id : String) : EventBus :=
  { bus with subscribers := bus.subscribers.erase client_id }

/-- One turn of the loop over the subscribers, with the queues and the stale clients. -/
def offer (message : Message) (event_mailbox : Option Text) (state : (Nat → Queue) × List String)
    (subscriber : Subscriber) : (Nat → Queue) × List String :=
  let (queues, stale) := state
  if !subscriber.allows event_mailbox then state
  else if (queues subscriber.queue).isFull then (queues, stale ++ [subscriber.client_id])
  else
    (Function.update queues subscriber.queue ((queues subscriber.queue).put message), stale)

/-- `publish` up to its listeners. -/
def publish (bus : EventBus) (event_type : String) (data : Json.Fields) : EventBus :=
  let event_mailbox := eventMailbox lower event_type data
  let (queues, stale) :=
    bus.subscribers.rows.foldl (offer ⟨event_type, data⟩ event_mailbox) (bus.queues, [])
  { bus with queues := queues, subscribers := stale.foldl Table.erase bus.subscribers }

def step (bus : EventBus) : Op → EventBus
  | .subscribe client_id allowed_mailboxes => bus.subscribe lower client_id allowed_mailboxes
  | .unsubscribe client_id => bus.unsubscribe client_id
  | .publish event_type data => bus.publish lower event_type data
  | .take queue =>
    { bus with queues := Function.update bus.queues queue (bus.queues queue).take }

end EventBus

def eventBus : Machine EventBus Op where
  start := .start
  step := EventBus.step lower

/-! ## The property -/

/-- The message that a subscriber with these mailboxes is sent. -/
def delivery (allowed_mailboxes : List Text) : Op → Option Message
  | .publish event_type data =>
    if (eventMailbox lower event_type data).any (· ∈ allowed_mailboxes.map lower) then
      some ⟨event_type, data⟩
    else none
  | _ => none

/-- The subscriber unsubscribes, another one takes its id, or a message for it finds its
queue full. -/
def Removes (bus : EventBus) (subscriber : Subscriber) : Op → Prop
  | .subscribe client_id _ => client_id = subscriber.client_id
  | .unsubscribe client_id => client_id = subscriber.client_id
  | .publish event_type data =>
    subscriber.allows (eventMailbox lower event_type data) = true ∧
      (bus.queues subscriber.queue).isFull = true
  | .take _ => False

end

end MailCue.Backend.Events
