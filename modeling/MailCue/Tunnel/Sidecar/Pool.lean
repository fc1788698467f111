import Mathlib.Algebra.Group.Nat.Defs
import Mathlib.Data.List.AList
import MailCue.Lib.Transition

/-!
# The sidecar's connection pool

tunnel/crates/sidecar/src/pool.rs, with the tasks that use it: the relays and
probes of relay.rs over the candidates of selector.rs, the keepalive loop and the
reload loop of main.rs. A task is stopped wherever it awaits or gives the pool's
lock back, so that every interleaving of the tasks is a list of acts; what an edge
or the network does is part of the act. Logging, the metrics and the number of
bytes are left out, and the selection strategy but for whether an edge's verdict
ends a relay.
-/
namespace MailCue.Tunnel.Sidecar.Pool
open MailCue.Lib

set_option linter.dupNamespace false

/-! ## The registry -/

structure Tunnel where
  id : String
  host : String
  port : UInt16
  edge_pubkey : List UInt8
  enabled : Bool := true
  deriving DecidableEq, Repr

def Tunnel.endpoint (t : Tunnel) : String := s!"{t.host}:{t.port}"

structure TunnelsView where
  ordered_failover : Bool := true
  tunnels : List Tunnel := []
  deriving DecidableEq, Repr

def TunnelsView.ids (view : TunnelsView) : List String := view.tunnels.map (·.id)

/-- What config.rs hands on: two of its numbers it raises to one. -/
structure SidecarConfig where
  pool_idle_per_tunnel : Nat := 2
  pool_idle_timeout_secs : Nat := 60
  unhealthy_after_consecutive_failures : Nat := 3
  idle_pos : 0 < pool_idle_per_tunnel := by decide
  unhealthy_after_pos : 0 < unhealthy_after_consecutive_failures := by decide
  deriving DecidableEq, Repr

/-! ## The slots -/

/-- `channel` is the endpoint it was opened to and the key its peer proved. -/
structure Conn where
  tunnel_id : String
  endpoint : String
  edge_pubkey : List UInt8
  last_used : Nat
  deriving DecidableEq, Repr

structure TunnelStats where
  consecutive_failures : Nat := 0
  healthy : Bool := true
  inflight : Nat := 0
  requests_ok : Nat := 0
  requests_err : Nat := 0
  last_success : Option Nat := none
  deriving DecidableEq, Repr

structure TunnelSlot where
  idle : List Conn := []
  stats : TunnelStats := {}
  deriving DecidableEq, Repr

abbrev Slots := AList fun _ : String => TunnelSlot

/-- `saturating_add(1)` of `bits` bits. -/
def saturatingInc (bits n : Nat) : Nat := min (n + 1) (2 ^ bits - 1)

/-- `entry(id).or_default()`, read. -/
def entry (id : String) (slots : Slots) : TunnelSlot := (slots.lookup id).getD {}

/-- `entry(id).or_default()`, changed. -/
def modify (id : String) (f : TunnelSlot → TunnelSlot) (slots : Slots) : Slots :=
  slots.insert id (f (entry id slots))

def retain (keep_ids : List String) (slots : Slots) : Slots :=
  (slots.keys.filter fun id => id ∉ keep_ids).foldl (fun slots id => slots.erase id) slots

def ensure (id : String) : Slots → Slots := modify id fun slot => slot

def markedHealthy (id : String) (slots : Slots) : Bool :=
  (slots.lookup id).any (·.stats.healthy)

/-- The seconds of a clock in milliseconds. -/
def unixNow (now : Nat) : Nat := now / 1000

def TunnelStats.succeeded (now : Nat) (stats : TunnelStats) : TunnelStats :=
  { stats with healthy := true, consecutive_failures := 0, last_success := some (unixNow now) }

def TunnelStats.failed (cfg : SidecarConfig) (stats : TunnelStats) : TunnelStats :=
  let failures := saturatingInc 32 stats.consecutive_failures
  { stats with
    consecutive_failures := failures
    requests_err := saturatingInc 64 stats.requests_err
    healthy := stats.healthy && failures < cfg.unhealthy_after_consecutive_failures }

namespace TunnelSlot

def popped (slot : TunnelSlot) : TunnelSlot := { slot with idle := slot.idle.drop 1 }

def released (cfg : SidecarConfig) (now : Nat) (conn : Conn) (slot : TunnelSlot) : TunnelSlot where
  stats :=
    { slot.stats.succeeded now with
      requests_ok := saturatingInc 64 slot.stats.requests_ok
      inflight := slot.stats.inflight - 1 }
  idle :=
    if slot.idle.length < cfg.pool_idle_per_tunnel then
      slot.idle ++ [{ conn with last_used := now }]
    else slot.idle

def discarded (cfg : SidecarConfig) (slot : TunnelSlot) : TunnelSlot :=
  { slot with stats := { slot.stats.failed cfg with inflight := slot.stats.inflight - 1 } }

def openFailed (cfg : SidecarConfig) (slot : TunnelSlot) : TunnelSlot :=
  { slot with stats := slot.stats.failed cfg }

def opened (now : Nat) (slot : TunnelSlot) : TunnelSlot :=
  { slot with stats := slot.stats.succeeded now }

def marked (slot : TunnelSlot) : TunnelSlot :=
  { slot with stats := { slot.stats with inflight := saturatingInc 64 slot.stats.inflight } }

end TunnelSlot

/-- `idle.pop_front()`. -/
def popFront (id : String) (slots : Slots) : Option Conn × Slots :=
  ((entry id slots).idle.head?, modify id TunnelSlot.popped slots)

def release (cfg : SidecarConfig) (now : Nat) (conn : Conn) : Slots → Slots :=
  modify conn.tunnel_id (TunnelSlot.released cfg now conn)

def discard (cfg : SidecarConfig) (conn : Conn) : Slots → Slots :=
  modify conn.tunnel_id (TunnelSlot.discarded cfg)

def noteOpenFailure (cfg : SidecarConfig) (id : String) : Slots → Slots :=
  modify id (TunnelSlot.openFailed cfg)

/-- The end of `open`: a success for the tunnel's health. -/
def noteOpened (now : Nat) (id : String) : Slots → Slots := modify id (TunnelSlot.opened now)

def markInflight (id : String) : Slots → Slots := modify id TunnelSlot.marked

@[simp] theorem lookup_modify_self (id : String) (f : TunnelSlot → TunnelSlot) (slots : Slots) :
    (modify id f slots).lookup id = some (f (entry id slots)) := AList.lookup_insert ..

theorem lookup_modify_ne {id k : String} (h : k ≠ id) (f : TunnelSlot → TunnelSlot)
    (slots : Slots) : (modify id f slots).lookup k = slots.lookup k := AList.lookup_insert_ne h

theorem mem_modify {id k : String} {f : TunnelSlot → TunnelSlot} {slots : Slots} :
    k ∈ modify id f slots ↔ k = id ∨ k ∈ slots := AList.mem_insert slots

theorem lookup_foldl_erase (ids : List String) (k : String) (slots : Slots) :
    (ids.foldl (fun slots id => slots.erase id) slots).lookup k =
      if k ∈ ids then none else slots.lookup k := by
  induction ids generalizing slots with
  | nil => simp
  | cons id ids ih =>
    rw [List.foldl_cons, ih]
    by_cases hid : k = id
    · subst hid
      simp
    · simp [hid, AList.lookup_erase_ne hid]

/-- A slot that is retained is left as it is. -/
theorem lookup_retain (keep_ids : List String) (k : String) (slots : Slots) :
    (retain keep_ids slots).lookup k = if k ∈ keep_ids then slots.lookup k else none := by
  unfold retain
  rw [lookup_foldl_erase]
  by_cases hkeep : k ∈ keep_ids
  · simp [hkeep]
  · by_cases hk : k ∈ slots.keys
    · simp [hkeep, hk]
    · simp [hkeep, hk, AList.lookup_eq_none.mpr hk]

/-! ## The tasks -/

/-- Where a relay or a probe is. It selects with the configuration it read first. -/
inductive Phase where
  | selecting (probe : Bool) (view : TunnelsView)
  | between
  | popping (t : Tunnel)
  | opening (t : Tunnel)
  | marking (t : Tunnel) (conn : Conn)
  | leased (conn : Conn)
  deriving DecidableEq, Repr

/-- A relay, or one tunnel of a probe: the candidates it has not come to yet, and
whether an edge's verdict ends it. -/
structure Worker where
  ordered : Bool
  rest : List Tunnel := []
  phase : Phase
  deriving DecidableEq, Repr

inductive Keepalive where
  | sleeping
  | round (ids : List String)
  | pinging (conn : Conn) (ids : List String)
  deriving DecidableEq, Repr

inductive Reload where
  | waiting
  | woken
  | retaining (ids : List String)
  | ensuring (ids : List String)
  deriving DecidableEq, Repr

/-- A connection `lease` returned, for which tunnel and under which configuration. -/
structure HandOut where
  asked : Tunnel
  conn : Conn
  view : TunnelsView
  deriving DecidableEq, Repr

/-- `handed` is a record kept beside the program. -/
structure State where
  view : TunnelsView
  pending : Bool := true
  slots : Slots
  now : Nat := 0
  workers : List Worker := []
  keepalive : Keepalive := .sleeping
  reload : Reload := .waiting
  handed : List HandOut := []

inductive Act where
  | tick (elapsed : Nat)
  | set (view : TunnelsView)
  | wake
  | snapshot
  | retain
  | ensureNext
  | request (probe : Bool)
  | select (i : Nat) (picked : List Tunnel)
  | advance (i : Nat)
  | pop (i : Nat)
  | opened (i : Nat)
  | openFailed (i : Nat) (counted : Bool)
  | mark (i : Nat)
  | finish (i : Nat) (undelivered : Bool)
  | fail (i : Nat)
  | collect (ids : List String)
  | pingNext
  | pong
  | pingFailed
  deriving DecidableEq, Repr

/-- The candidates of `pick_all`, which orders them. -/
def candidates (view : TunnelsView) (slots : Slots) : List Tunnel :=
  view.tunnels.filter fun t => t.enabled && markedHealthy t.id slots

def State.setWorker (s : State) (i : Nat) (w : Worker) : State :=
  { s with workers := s.workers.set i w }

/-- The ids the keepalive loop collects, in some order. -/
def State.idleIds (s : State) : List String :=
  (s.slots.entries.filter fun e => !e.2.idle.isEmpty).map (·.1)

def expired (cfg : SidecarConfig) (now : Nat) (conn : Conn) : Bool :=
  now - conn.last_used > cfg.pool_idle_timeout_secs * 1000

def openedConn (now : Nat) (t : Tunnel) : Conn := ⟨t.id, t.endpoint, t.edge_pubkey, now⟩

/-- One tunnel of a probe. -/
def probeOne (t : Tunnel) : Worker := { ordered := true, rest := [t], phase := .between }

def workerStep (cfg : SidecarConfig) (s : State) (i : Nat) (w : Worker) : Act → State
  | .select _ picked =>
    match w.phase with
    | .selecting probe view =>
      if picked.isPerm (candidates view s.slots) then
        if probe then
          let selected := s.setWorker i { w with rest := [], phase := .between }
          { selected with workers := selected.workers ++ picked.map probeOne }
        else s.setWorker i { w with rest := picked, phase := .between }
      else s
    | _ => s
  | .advance _ =>
    match w.phase, w.rest with
    | .between, t :: rest => s.setWorker i { w with phase := .popping t, rest }
    | _, _ => s
  | .pop _ =>
    match w.phase with
    | .popping t =>
      let popped := popFront t.id s.slots
      match popped.1 with
      | none => { s.setWorker i { w with phase := .opening t } with slots := popped.2 }
      | some conn =>
        if expired cfg s.now conn then { s with slots := popped.2 }
        else { s.setWorker i { w with phase := .marking t conn } with slots := popped.2 }
    | _ => s
  | .opened _ =>
    match w.phase with
    | .opening t =>
      { s.setWorker i { w with phase := .marking t (openedConn s.now t) } with
        slots := noteOpened s.now t.id s.slots }
    | _ => s
  | .openFailed _ counted =>
    match w.phase with
    | .opening t =>
      { s.setWorker i { w with phase := .between } with
        slots := if counted then noteOpenFailure cfg t.id s.slots else s.slots }
    | _ => s
  | .mark _ =>
    match w.phase with
    | .marking t conn =>
      { s.setWorker i { w with phase := .leased conn } with
        slots := markInflight t.id s.slots
        handed := s.handed ++ [⟨t, conn, s.view⟩] }
    | _ => s
  | .finish _ undelivered =>
    match w.phase with
    | .leased conn =>
      { s.setWorker i { w with
          phase := .between, rest := if w.ordered || !undelivered then [] else w.rest } with
        slots := release cfg s.now conn s.slots }
    | _ => s
  | .fail _ =>
    match w.phase with
    | .leased conn =>
      { s.setWorker i { w with phase := .between } with slots := discard cfg conn s.slots }
    | _ => s
  | _ => s

def State.onWorker (s : State) (i : Nat) (f : Worker → State) : State :=
  match s.workers[i]? with
  | some w => f w
  | none => s

/-- One step. An act that is not possible where the tasks are changes nothing. -/
def step (cfg : SidecarConfig) (s : State) (a : Act) : State :=
  match a with
  | .tick elapsed => { s with now := s.now + elapsed }
  | .set view => { s with view, pending := true }
  | .wake =>
    if s.reload = .waiting ∧ s.pending then { s with pending := false, reload := .woken } else s
  | .snapshot =>
    if s.reload = .woken then { s with reload := .retaining s.view.ids } else s
  | .retain =>
    match s.reload with
    | .retaining ids => { s with slots := Pool.retain ids s.slots, reload := .ensuring ids }
    | _ => s
  | .ensureNext =>
    match s.reload with
    | .ensuring (id :: ids) => { s with slots := ensure id s.slots, reload := .ensuring ids }
    | .ensuring [] => { s with reload := .waiting }
    | _ => s
  | .request probe =>
    { s with
      workers := s.workers ++
        [{ ordered := s.view.ordered_failover, phase := .selecting probe s.view }] }
  | .collect ids =>
    if s.keepalive = .sleeping ∧ ids.isPerm s.idleIds then { s with keepalive := .round ids } else s
  | .pingNext =>
    match s.keepalive with
    | .round (id :: ids) =>
      let popped := popFront id s.slots
      match popped.1 with
      | none => { s with slots := popped.2, keepalive := .round ids }
      | some conn => { s with slots := popped.2, keepalive := .pinging conn ids }
    | .round [] => { s with keepalive := .sleeping }
    | _ => s
  | .pong =>
    match s.keepalive with
    | .pinging conn ids =>
      { s with slots := release cfg s.now conn s.slots, keepalive := .round ids }
    | _ => s
  | .pingFailed =>
    match s.keepalive with
    | .pinging conn ids => { s with slots := discard cfg conn s.slots, keepalive := .round ids }
    | _ => s
  | .select i _ => s.onWorker i fun w => workerStep cfg s i w a
  | .advance i => s.onWorker i fun w => workerStep cfg s i w a
  | .pop i => s.onWorker i fun w => workerStep cfg s i w a
  | .opened i => s.onWorker i fun w => workerStep cfg s i w a
  | .openFailed i _ => s.onWorker i fun w => workerStep cfg s i w a
  | .mark i => s.onWorker i fun w => workerStep cfg s i w a
  | .finish i _ => s.onWorker i fun w => workerStep cfg s i w a
  | .fail i => s.onWorker i fun w => workerStep cfg s i w a

/-- The sidecar over its initial configuration, with a slot for every tunnel. -/
def start (view : TunnelsView) : State where
  view := view
  slots := view.ids.foldl (fun slots id => ensure id slots) ∅

def pool (cfg : SidecarConfig) (view : TunnelsView) : Machine State Act where
  start := start view
  step := step cfg

end MailCue.Tunnel.Sidecar.Pool
