import Mathlib.Data.List.Nodup
import Mathlib.Logic.Function.Basic
import Mathlib.Data.Rat.Defs
import Mathlib.Algebra.Order.Ring.Unbundled.Rat
import MailCue.Lib.Transition

/-!
# Staged sends

backend/app/emails/canary.py, with canary_scheduler.py and the decide and cancel
endpoints of validation_router.py: one staged send as the database and its
drivers see it. The scheduler is one loop, so it runs one dispatch or one
decision at a time; decisions and cancellations also come through the API, any
number at once. Every `await` at which another driver may run ends a step, a
session writes the rows and the status where the code commits and not before,
and what it writes are the attributes it changed, over whatever is stored by
then.

The scores and deliverability of `validate_batch`, the recipients
`choose_sample` picks, whether a send succeeds and what bounces are left open.
Scores and the bounce rate are exact. Timestamps and reason texts are left out,
and so is the hold window: a due decision may come at any time.
-/
namespace MailCue.Backend.Emails
open MailCue.Lib

/-! ## Rows -/

inductive CanaryStatus
  | pending | probing | released | blocked | failed | cancelled
  deriving DecidableEq, Repr

inductive RecipientStatus
  | pending | skipped | sent | delivered | hard_bounce | soft_bounce | released | blocked
  deriving DecidableEq, Repr

inductive Role
  | sample | held
  deriving DecidableEq, Repr

structure EmailSendCanaryRecipient where
  role : Role
  status : RecipientStatus
  risk_score : Option Rat

/-- What creation fixes: the recipients, one row each, and the settings `decide` reads. -/
structure EmailSendCanary where
  recipients : List Nat
  nodup : recipients.Nodup
  bounce_threshold : Rat
  auto_release : Bool

structure Database where
  status : CanaryStatus
  rows : Nat → EmailSendCanaryRecipient

namespace Database

variable (canary : EmailSendCanary) (db : Database)

def select (p : EmailSendCanaryRecipient → Bool) : List Nat :=
  canary.recipients.filter fun i => p (db.rows i)

def selectPending : List Nat :=
  db.select canary fun row => row.status == .pending

def selectRole (role : Role) : List Nat :=
  db.select canary fun row => row.role == role && row.status == .pending

/-- The commit of rows whose status alone changed. -/
def writeStatuses (changes : List (Nat × RecipientStatus)) : Database :=
  { db with rows := fun i =>
      match changes.lookup i with
      | some status => { db.rows i with status := status }
      | none => db.rows i }

/-- The `UPDATE` of the cancel endpoint, with its status, in one commit. -/
def cancel : Database where
  status := .cancelled
  rows i :=
    if (db.rows i).status = .pending then { db.rows i with status := .blocked } else db.rows i

end Database

def createCanary (canary : EmailSendCanary) (suppressed : Nat → Bool) : Database where
  status := if canary.recipients.filter (fun i => !suppressed i) = [] then .blocked else .pending
  rows i :=
    { role := .held, status := if suppressed i then .skipped else .pending, risk_score := none }

/-! ## Scoring -/

structure BatchValidationItem where
  risk_score : Rat
  deliverable : Option Bool

def undeliverable (results : Nat → Option BatchValidationItem) (i : Nat) : Bool :=
  ((results i).map (·.deliverable)) == some (some false)

def assignRow (results : Nat → Option BatchValidationItem) (sample : Nat → Bool) (i : Nat)
    (row : EmailSendCanaryRecipient) : EmailSendCanaryRecipient :=
  let risk_score := (results i).elim (1 / 8) (·.risk_score)
  if undeliverable results i then
    { row with risk_score := some risk_score, status := .skipped }
  else
    -- a row picked by an earlier pass keeps the sample role
    { row with risk_score := some risk_score, role := if sample i then .sample else row.role }

def scored (results : Nat → Option BatchValidationItem) (rows : List Nat) : List Nat :=
  rows.filter fun i => !undeliverable results i

/-- The commit of a scoring pass over the rows it selected. -/
def scoreAndAssignSample (rows : List Nat) (results : Nat → Option BatchValidationItem)
    (sample : Nat → Bool) (db : Database) : Database where
  status := if scored results rows = [] then .blocked else db.status
  rows i := if i ∈ rows then assignRow results sample i (db.rows i) else db.rows i

/-! ## Sending a batch -/

/-- `dispatch_sample`, or `release_remaining` with its cutoff. -/
inductive Wave
  | sample
  | release (cutoff : Rat)

inductive Outcome
  | sent | failed | heldBack
  deriving DecidableEq

def Wave.heldBack : Wave → Option Rat → Bool
  | .release cutoff, some risk_score => cutoff ≤ risk_score
  | _, _ => false

def Wave.status : Wave → Outcome → RecipientStatus
  | .sample, .sent => .sent
  | .release _, .sent => .released
  | _, .failed => .skipped
  | _, .heldBack => .blocked

inductive Event
  | handed (i : Nat)
  | cancelled
  deriving DecidableEq, Repr

/-- The loop of a wave: rows with the score they were read with, and what the
session holds of the rows behind it, uncommitted. -/
structure Batch where
  wave : Wave
  todo : List (Nat × Option Rat)
  done : List (Nat × Outcome)

namespace Batch

def ofRows (wave : Wave) (db : Database) (rows : List Nat) : Batch where
  wave := wave
  todo := rows.map fun i => (i, (db.rows i).risk_score)
  done := []

/-- One round of the loop. The sender sees the recipient whether or not it then
raises; `ok` says which. -/
def advance (ok : Bool) (b : Batch) : Option (Batch × List Event) :=
  match b.todo with
  | [] => none
  | (i, risk_score) :: todo =>
    if b.wave.heldBack risk_score then
      some ({ b with todo := todo, done := b.done ++ [(i, .heldBack)] }, [])
    else
      some ({ b with todo := todo, done := b.done ++ [(i, if ok then .sent else .failed)] },
        [.handed i])

def changes (b : Batch) : List (Nat × RecipientStatus) :=
  b.done.map fun (i, outcome) => (i, b.wave.status outcome)

/-- The rows this loop has handed to the sender. -/
def handed (b : Batch) : List Nat :=
  (b.done.filter fun (_, outcome) => outcome != .heldBack).map (·.1)

/-- The rows this loop has yet to hand to the sender. -/
def ahead (b : Batch) : List Nat :=
  (b.todo.filter fun (_, risk_score) => !b.wave.heldBack risk_score).map (·.1)

end Batch

def dispatchSample (canary : EmailSendCanary) (db : Database) : Batch :=
  .ofRows .sample db (db.selectRole canary .sample)

def releaseRemaining (canary : EmailSendCanary) (db : Database) (cutoff : Rat) : Batch :=
  .ofRows (.release cutoff) db (db.selectRole canary .held)

/-! ## Deciding -/

inductive Verdict
  | failed
  | release (cutoff : Rat)
  | block

/-- What `decide` makes of the sample rows as it reads them. -/
def decideVerdict (canary : EmailSendCanary) (db : Database) : Verdict :=
  let rows := (db.select canary fun row => row.role == .sample).map db.rows
  let observed := rows.filter fun row =>
    row.status == .sent || row.status == .delivered || row.status == .hard_bounce
  let bounced := observed.filter fun row => row.status == .hard_bounce
  if observed = [] then .failed
  else if (bounced.length : Rat) / observed.length ≤ canary.bounce_threshold then
    .release (11 / 10)
  else if bounced.length = observed.length then .block
  else .release ((bounced.filterMap (·.risk_score)).min?.getD 1)

/-! ## Drivers -/

/-- Where `_dispatch_pending` is with this canary. -/
inductive Dispatch
  | idle
  | loaded
  | scoring (rows : List Nat)
  | scored
  | sampling (batch : Batch)

/-- Where a call of `decide` is. -/
inductive Decide
  | loaded
  | observed (verdict : Verdict)
  | releasing (batch : Batch)
  | blocking (rows : List Nat)
  | settling (status : CanaryStatus)

def Dispatch.batch : Dispatch → Option Batch
  | .sampling b => some b
  | _ => none

def Decide.batch : Decide → Option Batch
  | .releasing b => some b
  | _ => none

inductive Caller
  | scheduler
  | api (n : Nat)
  deriving DecidableEq

inductive Driver
  | dispatch
  | decide (c : Caller)
  deriving DecidableEq

structure State where
  db : Database
  dispatch : Dispatch
  decides : Caller → Option Decide
  /-- Cancel requests past their status check. -/
  cancels : Nat
  /-- Hand-overs to the sender and committed cancellations, in order. -/
  log : List Event

namespace State

/-- The wave a driver is in the middle of. -/
def batch (s : State) : Driver → Option Batch
  | .dispatch => s.dispatch.batch
  | .decide c => (s.decides c).bind Decide.batch

/-- The scheduler decides in the same loop it dispatches in, and only on its own account. -/
def mayDecide (canary : EmailSendCanary) (s : State) : Bool :=
  match s.dispatch with
  | .idle => canary.auto_release
  | _ => false

def setDecide (s : State) (c : Caller) (phase : Option Decide) : State :=
  { s with decides := Function.update s.decides c phase }

end State

def created (canary : EmailSendCanary) (suppressed : Nat → Bool) : State where
  db := createCanary canary suppressed
  dispatch := .idle
  decides _ := none
  cancels := 0
  log := []

/-! ## Steps -/

inductive Act
  | tick
  | selectPending
  | commitScores (results : Nat → Option BatchValidationItem) (sample : Nat → Bool)
  | selectSample
  | send (d : Driver) (ok : Bool)
  | commitSample
  | loadDecide (c : Caller)
  | observe (c : Caller)
  | selectHeld (c : Caller)
  | commitHeld (c : Caller)
  | commitDecision (c : Caller)
  | loadCancel
  | commitCancel
  | bounce (i : Nat) (outcome : RecipientStatus)
  | raised (d : Driver)
  | crash

/-- `apply_bounce` on one row. -/
def bounceStatus (outcome : RecipientStatus) : RecipientStatus :=
  if outcome = .hard_bounce ∨ outcome = .soft_bounce then outcome else .delivered

def step (canary : EmailSendCanary) (s : State) : Act → Option State
  | .tick =>
    match s.dispatch, s.decides .scheduler, s.db.status with
    | .idle, none, .pending => some { s with dispatch := .loaded }
    | _, _, _ => none
  | .selectPending =>
    match s.dispatch with
    | .loaded =>
      let rows := s.db.selectPending canary
      some { s with dispatch := if rows = [] then .idle else .scoring rows }
    | _ => none
  | .commitScores results sample =>
    match s.dispatch with
    | .scoring rows =>
      some { s with
        db := scoreAndAssignSample rows results sample s.db
        dispatch := if scored results rows = [] then .idle else .scored }
    | _ => none
  | .selectSample =>
    match s.dispatch with
    | .scored =>
      let b := dispatchSample canary s.db
      some { s with dispatch := if b.todo = [] then .idle else .sampling b }
    | _ => none
  | .send .dispatch ok =>
    match s.dispatch with
    | .sampling b =>
      (b.advance ok).map fun (b, events) =>
        { s with dispatch := .sampling b, log := s.log ++ events }
    | _ => none
  | .send (.decide c) ok =>
    match s.decides c with
    | some (.releasing b) =>
      (b.advance ok).map fun (b, events) =>
        { s.setDecide c (some (.releasing b)) with log := s.log ++ events }
    | _ => none
  | .commitSample =>
    match s.dispatch with
    | .sampling b =>
      if b.todo = [] then
        some { s with
          db := { s.db.writeStatuses b.changes with status := .probing }
          dispatch := .idle }
      else none
    | _ => none
  | .loadDecide c =>
    if (s.decides c).isNone ∧ s.db.status = .probing ∧ (c = .scheduler → s.mayDecide canary) then
      some (s.setDecide c (some .loaded))
    else none
  | .observe c =>
    match s.decides c with
    | some .loaded =>
      match decideVerdict canary s.db with
      | .failed => some (s.setDecide c (some (.settling .failed)))
      | verdict => some (s.setDecide c (some (.observed verdict)))
    | _ => none
  | .selectHeld c =>
    match s.decides c with
    | some (.observed (.release cutoff)) =>
      some (s.setDecide c (some (.releasing (releaseRemaining canary s.db cutoff))))
    | some (.observed .block) =>
      some (s.setDecide c (some (.blocking (s.db.selectRole canary .held))))
    | _ => none
  | .commitHeld c =>
    match s.decides c with
    | some (.releasing b) =>
      if b.todo = [] then
        some { s.setDecide c (some (.settling .released)) with db := s.db.writeStatuses b.changes }
      else none
    | some (.blocking rows) =>
      some { s.setDecide c (some (.settling .blocked)) with
        db := s.db.writeStatuses (rows.map (·, .blocked)) }
    | _ => none
  | .commitDecision c =>
    match s.decides c with
    | some (.settling status) =>
      some { s.setDecide c none with db := { s.db with status := status } }
    | _ => none
  | .loadCancel =>
    if s.db.status = .released ∨ s.db.status = .blocked ∨ s.db.status = .cancelled then none
    else some { s with cancels := s.cancels + 1 }
  | .commitCancel =>
    if s.cancels = 0 then none
    else some { s with db := s.db.cancel, cancels := s.cancels - 1, log := s.log ++ [.cancelled] }
  | .bounce i outcome =>
    if (s.db.rows i).status = .sent then
      some { s with db := s.db.writeStatuses [(i, bounceStatus outcome)] }
    else none
  | .raised .dispatch => some { s with dispatch := .idle }
  | .raised (.decide c) => some (s.setDecide c none)
  | .crash => some { s with dispatch := .idle, decides := fun _ => none, cancels := 0 }

/-- A staged send from its creation on. -/
def sending (canary : EmailSendCanary) : System State Act where
  init s := ∃ suppressed, s = created canary suppressed
  step s a s' := step canary s a = some s'

end MailCue.Backend.Emails
