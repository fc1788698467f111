import Mathlib.Data.List.Sort
import MailCue.Lib.Base64
import MailCue.Lib.Json
import MailCue.Tunnel.Sidecar.SmtpServer

/-!
# The sidecar's tunnels file

tunnel/crates/sidecar/src/tunnels.rs (`load_tunnels_file`, `validate`) and the
ordered strategy of selector.rs. A file is missing, blank, unreadable, no JSON, or a
JSON document; the syntax of JSON and the array form serde also takes for a struct
are left out, and so are the watcher and the other strategies.
-/
namespace MailCue.Tunnel.Sidecar.Registry
open MailCue.Lib

set_option linter.dupNamespace false

inductive SelectionStrategy
  | orderedFailover | roundRobin | random | weightedRandom
  deriving DecidableEq

def SelectionStrategy.read : Json → Option SelectionStrategy
  | .str s =>
    if s = "ordered_failover".toList then some .orderedFailover
    else if s = "round_robin".toList then some .roundRobin
    else if s = "random".toList then some .random
    else if s = "weighted_random".toList then some .weightedRandom
    else none
  | _ => none

structure RawTunnel where
  id : Text
  name : Option Text
  host : Text
  port : Nat
  edge_pubkey : Text
  weight : Nat
  enabled : Bool

def RawTunnel.read (doc : Json) : Option RawTunnel := do
  let fields ← doc.object
  let id ← Json.required Json.text fields "id"
  let name ← Json.optional Json.text fields "name"
  let host ← Json.required Json.text fields "host"
  let port ← Json.required (Json.unsigned 16) fields "port"
  let edge_pubkey ← Json.required Json.text fields "edge_pubkey"
  let weight ← Json.withDefault (Json.unsigned 32) 1 fields "weight"
  let enabled ← Json.withDefault Json.boolean true fields "enabled"
  some { id, name, host, port, edge_pubkey, weight, enabled }

structure RawDoc where
  version : Nat
  selection : SelectionStrategy
  tunnels : List RawTunnel

def RawDoc.read (doc : Json) : Option RawDoc := do
  let fields ← doc.object
  let version ← Json.withDefault (Json.unsigned 32) 1 fields "version"
  let selection ← Json.withDefault SelectionStrategy.read .orderedFailover fields "selection"
  let entries ← Json.withDefault Json.array [] fields "tunnels"
  let tunnels ← entries.mapM RawTunnel.read
  some { version, selection, tunnels }

structure Tunnel where
  id : Text
  name : Text
  host : Text
  port : Nat
  edge_pubkey : List UInt8
  weight : Nat
  enabled : Bool
  deriving DecidableEq

structure TunnelsView where
  selection : SelectionStrategy := .orderedFailover
  tunnels : List Tunnel := []

/-- Why an entry is skipped. -/
inductive Invalid
  | emptyId
  | emptyHost (id : Text)
  | portZero (id : Text)
  | keyBase64 (id : Text)
  | keyLength (id : Text) (got : Nat)
  deriving DecidableEq

def Invalid.message : Invalid → String
  | .emptyId => "empty tunnel id"
  | .emptyHost id => s!"tunnel `{String.ofList id}`: empty host"
  | .portZero id => s!"tunnel `{String.ofList id}`: port 0"
  | .keyBase64 id => s!"tunnel `{String.ofList id}`: edge_pubkey base64"
  | .keyLength id got =>
    s!"tunnel `{String.ofList id}`: edge_pubkey must decode to 32 bytes, got {got}"

def validate (raw : RawTunnel) : Except Invalid Tunnel :=
  if trim raw.id = [] then .error .emptyId
  else if trim raw.host = [] then .error (.emptyHost raw.id)
  else if raw.port = 0 then .error (.portZero raw.id)
  else
    match Base64.decode false (trim raw.edge_pubkey) with
    | none => .error (.keyBase64 raw.id)
    | some decoded =>
      if decoded.length ≠ 32 then .error (.keyLength raw.id decoded.length)
      else
        .ok {
          id := raw.id
          name := raw.name.getD raw.id
          host := raw.host
          port := raw.port
          edge_pubkey := decoded
          weight := max raw.weight 1
          enabled := raw.enabled }

inductive File
  | missing
  | blank
  | unreadable
  | malformed
  | document (doc : Json)

inductive LoadError
  | read | parse | version (found : Nat)
  deriving DecidableEq

def loadTunnelsFile : File → Except LoadError TunnelsView
  | .missing => .ok {}
  | .blank => .ok {}
  | .unreadable => .error .read
  | .malformed => .error .parse
  | .document doc =>
    match RawDoc.read doc with
    | none => .error .parse
    | some doc =>
      if doc.version ≠ 1 then .error (.version doc.version)
      else .ok ⟨doc.selection, doc.tunnels.filterMap fun raw => (validate raw).toOption⟩

/-! ## The ordered strategy -/

/-- `sort_by_key` with the reversed weight; it is stable. -/
def ordered (candidates : List Tunnel) : List Tunnel :=
  candidates.mergeSort fun a b => decide (b.weight ≤ a.weight)

/-- `pick_all` under ordered failover. -/
def pickAll (view : TunnelsView) (healthy_ids : List Text) : List Tunnel :=
  ordered (view.tunnels.filter fun t => t.enabled && healthy_ids.contains t.id)

/-- Sorting leaves what is in order as it is. -/
theorem ordered_of_pairwise {candidates : List Tunnel}
    (h : candidates.Pairwise fun a b => b.weight ≤ a.weight) : ordered candidates = candidates :=
  List.mergeSort_of_pairwise (h.imp fun hab => decide_eq_true hab)

/-! ## Trimming -/

theorem trim_of_no_whitespace {text : Text} (h : ∀ c ∈ text, isWhitespace c = false) :
    trim text = text := by
  have hnone : ∀ t : Text, (∀ c ∈ t, isWhitespace c = false) → t.dropWhile isWhitespace = t := by
    intro t ht
    cases t with
    | nil => rfl
    | cons c rest => rw [List.dropWhile_cons, if_neg (by simp [ht c (List.mem_cons_self)])]
  unfold trim trimStart
  rw [hnone text h, hnone text.reverse fun c hc => h c (List.mem_reverse.mp hc)]
  exact List.reverse_reverse text

end MailCue.Tunnel.Sidecar.Registry
