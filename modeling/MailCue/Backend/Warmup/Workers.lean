import MailCue.Backend.Warmup.Campaign

/-!
# Workers on one campaign

backend/app/warmup/service.py, `process_campaign`, of any number of workers. A worker reads
the clock, takes the campaign for five minutes where it is due, polls, and moves the
campaign to its next slot before it sends. All it writes is reckoned from the clock as it
first read it. What is decided between polling and the move is any decision of the source's.
-/
namespace MailCue.Backend.Warmup
open MailCue.Lib

/-- The bounds `WarmupCampaignCreate` keeps of the random delay. -/
structure Delays where
  min_delay_minutes : Nat
  max_delay_minutes : Nat
  min_ok : 5 ≤ min_delay_minutes
  max_ok : max_delay_minutes ≤ 1440
  ordered : min_delay_minutes ≤ max_delay_minutes

inductive Decision
  | noAccounts
  /-- Outside the campaign's active hours. -/
  | inactive (active_time : Int)
  | targetReached (tomorrow : Int)
  /-- `future`: the times the providers are waiting for. -/
  | noProvider (future : List Int)
  | noAccount
  | send (delay : Nat)
  deriving DecidableEq

/-- What a worker that began at `now` may decide. -/
def Decision.allowed (delays : Delays) (now : Int) : Decision → Bool
  | .inactive active_time => now < active_time
  | .noProvider future => future.all (now < ·)
  | .send delay => delays.min_delay_minutes ≤ delay && delay ≤ delays.max_delay_minutes
  | .noAccounts | .targetReached _ | .noAccount => true

def Decision.nextRunAt (now : Int) : Decision → Option Int
  | .noAccounts => none
  | .inactive active_time => some active_time
  | .targetReached tomorrow => some tomorrow
  | .noProvider future => some (future.min?.getD (now + minutes 360))
  | .noAccount => some (now + minutes 15)
  | .send delay => some (now + minutes delay)

structure Row where
  active : Bool
  next_run_at : Option Int
  /-- Counts the slots; a lease belongs to the slot it was taken for. -/
  slot : Nat
  deriving DecidableEq

inductive Worker
  /-- The clock has been read. -/
  | started (now : Int)
  /-- The lease is written. -/
  | claimed (now : Int) (slot : Nat)
  /-- The row has been loaded. -/
  | polling (now : Int) (slot : Nat) (loaded : Option Int)
  /-- The campaign is moved to its next slot. -/
  | sending (slot : Nat) (next_run_at : Int)
  /-- The message was handed over. -/
  | recording (next_run_at : Int)
  | done
  deriving DecidableEq

structure Workers where
  clock : Int
  row : Row
  workers : List Worker
  /-- The slots of the deliveries that were attempted. -/
  attempts : List Nat
  deriving DecidableEq

inductive WorkerEvent
  | tick (clock : Int)
  | start
  | claim (w : Nat)
  | load (w : Nat)
  | decide (w : Nat) (decision : Decision)
  | attempt (w : Nat)
  | record (w : Nat)
  /-- The worker ends wherever it is. -/
  | exit (w : Nat)
  deriving DecidableEq

/-- `now + timedelta(minutes=5)` -/
def leaseEnd (now : Int) : Int := now + minutes 5

def Row.due (row : Row) (now : Int) : Bool := row.active && row.next_run_at.any (· ≤ now)

/-- Columns that are as they were loaded are not written. -/
def Row.moved (row : Row) (now : Int) (loaded : Option Int) (decision : Decision) : Row where
  active := row.active && decision ≠ .noAccounts
  next_run_at :=
    if decision.nextRunAt now = loaded then row.next_run_at else decision.nextRunAt now
  slot := row.slot + 1

def Decision.worker (now : Int) (slot : Nat) : Decision → Worker
  | .send delay => .sending slot (now + minutes delay)
  | _ => .done

namespace Workers

section
variable (s : Workers)

def set (w : Nat) (worker : Worker) : Workers := { s with workers := s.workers.set w worker }

def claim (w : Nat) : Option Workers :=
  match s.workers[w]? with
  | some (.started now) =>
    if s.row.due now then
      some { s.set w (.claimed now s.row.slot) with
        row := { s.row with next_run_at := some (leaseEnd now) } }
    else some (s.set w .done)
  | _ => none

def load (w : Nat) : Option Workers :=
  match s.workers[w]? with
  | some (.claimed now slot) => some (s.set w (.polling now slot s.row.next_run_at))
  | _ => none

def decide (delays : Delays) (w : Nat) (decision : Decision) : Option Workers :=
  match s.workers[w]? with
  | some (.polling now slot loaded) =>
    if decision.allowed delays now then
      some { s.set w (decision.worker now slot) with row := s.row.moved now loaded decision }
    else none
  | _ => none

def attempt (w : Nat) : Option Workers :=
  match s.workers[w]? with
  | some (.sending slot next_run_at) =>
    some { s.set w (.recording next_run_at) with attempts := s.attempts ++ [slot] }
  | _ => none

def record (w : Nat) : Option Workers :=
  match s.workers[w]? with
  | some (.recording _) => some (s.set w .done)
  | _ => none

end

def step (delays : Delays) (s : Workers) : WorkerEvent → Option Workers
  | .tick clock => if s.clock ≤ clock then some { s with clock } else none
  | .start => some { s with workers := s.workers ++ [.started s.clock] }
  | .claim w => s.claim w
  | .load w => s.load w
  | .decide w decision => s.decide delays w decision
  | .attempt w => s.attempt w
  | .record w => s.record w
  | .exit w => if w < s.workers.length then some (s.set w .done) else none

end Workers

def workers (delays : Delays) : System Workers WorkerEvent where
  init s := s.workers = [] ∧ s.attempts = []
  step s e s' := s.step delays e = some s'

end MailCue.Backend.Warmup
