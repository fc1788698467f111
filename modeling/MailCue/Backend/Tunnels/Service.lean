import Mathlib.Data.Char
import Mathlib.Data.List.Lex
import Mathlib.Data.List.Sort
import MailCue.Lib.Base64
import MailCue.Lib.Json
import MailCue.Lib.Transition

/-!
# Tunnels of the backend

backend/app/tunnels/schemas.py and service.py: what TunnelCreate and TunnelUpdate
accept, the rows, and the document `_build_tunnels_payload` makes of them. A body
that pydantic coerces is given coerced. Notes, timestamps, health checks and the
client identity are left out.
-/
namespace MailCue.Backend.Tunnels
open MailCue.Lib

/-! ## The strict decoder of Python -/

/-- `binascii.a2b_base64` in strict mode behind the first character: the place in the
group of four, the last character's value, the padding so far, and whether there was
any. -/
def a2bFrom (quad_pos leftchar pads : Nat) (padding_started : Bool) : Text → Option (List UInt8)
  | [] => if quad_pos = 0 then some [] else none
  | c :: rest =>
    if c = '=' then
      if 2 ≤ quad_pos then
        if 4 ≤ quad_pos + (pads + 1) then
          if rest = [] then some [] else none
        else a2bFrom quad_pos leftchar (pads + 1) true rest
      else a2bFrom quad_pos leftchar pads true rest
    else
      match Base64.value c with
      | none => none
      | some v =>
        if padding_started then none
        else
          match quad_pos with
          | 0 => a2bFrom 1 v 0 padding_started rest
          | 1 => (a2bFrom 2 v 0 padding_started rest).map (Base64.octet1 leftchar v :: ·)
          | 2 => (a2bFrom 3 v 0 padding_started rest).map (Base64.octet2 leftchar v :: ·)
          | _ => (a2bFrom 0 0 0 padding_started rest).map (Base64.octet3 leftchar v :: ·)

/-- `base64.b64decode(value, validate=True)` -/
def b64decode (value : Text) : Option (List UInt8) :=
  if value.head? = some '=' then none else a2bFrom 0 0 0 false value

/-! ## Validators -/

/-- `[a-zA-Z0-9._-]` -/
def isNameChar (c : Char) : Bool :=
  ('a' ≤ c && c ≤ 'z') || ('A' ≤ c && c ≤ 'Z') || ('0' ≤ c && c ≤ '9') ||
    c == '.' || c == '_' || c == '-'

/-- What is wrong with a value, if anything. -/
def validatePubkeyB64 (value : Text) : Option String :=
  if value = [] then some "server_pubkey must be a non-empty base64 string"
  else
    match b64decode value with
    | none => some "server_pubkey is not valid base64"
    | some raw =>
      if raw.length ≠ 32 then some s!"server_pubkey must decode to 32 bytes (got {raw.length})."
      else none

def validateName (value : Text) : Option String :=
  if value ≠ Text.strip Text.isSpace value then
    some "name must not have leading or trailing whitespace"
  else if ¬ (1 ≤ value.length ∧ value.length ≤ 120) then
    some "name must be between 1 and 120 characters"
  else if ¬ (value.all isNameChar) then
    some "name may only contain letters, digits, '.', '_' and '-'."
  else none

def validateHost (value : Text) : Option String :=
  if ¬ (1 ≤ value.length ∧ value.length ≤ 255) then
    some "endpoint_host must be between 1 and 255 characters"
  else if value.any Text.isSpace then some "endpoint_host must not contain whitespace"
  else none

/-- `Field(ge=low, le=high)` -/
def checkRange (low high value : Int) : Option String :=
  if value < low then some s!"Input should be greater than or equal to {low}"
  else if high < value then some s!"Input should be less than or equal to {high}"
  else none

structure TunnelCreate where
  name : Text
  endpoint_host : Text
  endpoint_port : Int := 7843
  server_pubkey : Text
  enabled : Bool := true
  weight : Int := 1

/-- The fields with what is wrong with them. -/
def TunnelCreate.errors (payload : TunnelCreate) : List (String × String) :=
  [("name", validateName payload.name), ("endpoint_host", validateHost payload.endpoint_host),
    ("endpoint_port", checkRange 1 65535 payload.endpoint_port),
    ("server_pubkey", validatePubkeyB64 payload.server_pubkey),
    ("weight", checkRange 1 1000 payload.weight)].filterMap fun check =>
      check.2.map fun message => (check.1, message)

/-- A field that is not set, null, or a value. -/
abbrev Patch (α : Type) := Option (Option α)

structure TunnelUpdate where
  name : Patch Text := none
  endpoint_host : Patch Text := none
  endpoint_port : Patch Int := none
  server_pubkey : Patch Text := none
  enabled : Patch Bool := none
  weight : Patch Int := none

def Patch.check {α : Type} (check : α → Option String) (patch : Patch α) : Option String :=
  patch.join.bind check

def TunnelUpdate.errors (payload : TunnelUpdate) : List (String × String) :=
  [("name", Patch.check validateName payload.name),
    ("endpoint_host", Patch.check validateHost payload.endpoint_host),
    ("endpoint_port", Patch.check (checkRange 1 65535) payload.endpoint_port),
    ("server_pubkey", Patch.check validatePubkeyB64 payload.server_pubkey),
    ("weight", Patch.check (checkRange 1 1000) payload.weight)].filterMap fun check =>
      check.2.map fun message => (check.1, message)

/-! ## Rows -/

structure Tunnel where
  id : Text
  name : Text
  endpoint_host : Text
  endpoint_port : Int
  server_pubkey : Text
  enabled : Bool
  weight : Int
  deriving DecidableEq

/-- `uuid.uuid4().hex` -/
def isUuidHex (id : Text) : Bool :=
  id.length == 32 && id.all fun c => ('0' ≤ c && c ≤ '9') || ('a' ≤ c && c ≤ 'f')

inductive Failure
  | validation (errors : List (String × String))
  | conflict (name : Text)
  | notFound (id : Text)
  /-- A constraint of the table. -/
  | integrity
  deriving DecidableEq

def createTunnel (id : Text) (payload : TunnelCreate) (rows : List Tunnel) :
    Except Failure (List Tunnel) :=
  if payload.errors ≠ [] then .error (.validation payload.errors)
  else if rows.any (·.name == payload.name) then .error (.conflict payload.name)
  else if ¬ isUuidHex id ∨ rows.any (·.id == id) then .error .integrity
  else
    .ok (rows ++ [{
      id
      name := payload.name
      endpoint_host := payload.endpoint_host
      endpoint_port := payload.endpoint_port
      server_pubkey := payload.server_pubkey
      enabled := payload.enabled
      weight := payload.weight }])

/-- The row behind the assignments; null goes into no column. -/
def TunnelUpdate.assign (payload : TunnelUpdate) (t : Tunnel) : Option Tunnel := do
  let name ← payload.name.getD (some t.name)
  let endpoint_host ← payload.endpoint_host.getD (some t.endpoint_host)
  let endpoint_port ← payload.endpoint_port.getD (some t.endpoint_port)
  let server_pubkey ← payload.server_pubkey.getD (some t.server_pubkey)
  let enabled ← payload.enabled.getD (some t.enabled)
  let weight ← payload.weight.getD (some t.weight)
  some { t with name, endpoint_host, endpoint_port, server_pubkey, enabled, weight }

def updateTunnel (id : Text) (payload : TunnelUpdate) (rows : List Tunnel) :
    Except Failure (List Tunnel) :=
  if payload.errors ≠ [] then .error (.validation payload.errors)
  else
    match rows.find? (·.id == id) with
    | none => .error (.notFound id)
    | some t =>
      match payload.name.join.filter fun new_name =>
          new_name != t.name && rows.any fun other => other.name == new_name && other.id != id with
      | some new_name => .error (.conflict new_name)
      | none =>
        match payload.assign t with
        | none => .error .integrity
        | some t' => .ok (rows.map fun row => if row.id == id then t' else row)

def deleteTunnel (id : Text) (rows : List Tunnel) : Except Failure (List Tunnel) :=
  if rows.any (·.id == id) then .ok (rows.filter (·.id != id)) else .error (.notFound id)

inductive Op
  | create (id : Text) (payload : TunnelCreate)
  | update (id : Text) (payload : TunnelUpdate)
  | delete (id : Text)

def Op.apply (rows : List Tunnel) : Op → Except Failure (List Tunnel)
  | .create id payload => createTunnel id payload rows
  | .update id payload => updateTunnel id payload rows
  | .delete id => deleteTunnel id rows

/-- The table over its requests; one that fails changes nothing. -/
def table : Machine (List Tunnel) Op where
  start := []
  step rows op := (op.apply rows).toOption.getD rows

/-! ## The document -/

def entry (t : Tunnel) : Json :=
  .obj [("id", .str t.id), ("name", .str t.name), ("host", .str t.endpoint_host),
    ("port", .num t.endpoint_port), ("edge_pubkey", .str t.server_pubkey),
    ("enabled", .bool t.enabled), ("weight", .num t.weight)]

/-- `sorted(tunnels, key=lambda x: (-x.weight, x.name))` -/
def inOrder (tunnels : List Tunnel) : List Tunnel :=
  tunnels.mergeSort fun a b =>
    decide (b.weight < a.weight) || (decide (a.weight = b.weight) && decide (a.name ≤ b.name))

def buildTunnelsPayload (tunnels : List Tunnel) : Json :=
  .obj [("version", .num 1),
    ("client_static_key_path", .str "/var/lib/mailcue-sidecar/client.key".toList),
    ("selection", .str "ordered_failover".toList),
    ("tunnels", .arr ((inOrder tunnels).map entry))]

/-! ## Accepted rows -/

structure Tunnel.Accepted (t : Tunnel) : Prop where
  id : isUuidHex t.id = true
  name : validateName t.name = none
  endpoint_host : validateHost t.endpoint_host = none
  endpoint_port : 1 ≤ t.endpoint_port ∧ t.endpoint_port ≤ 65535
  server_pubkey : validatePubkeyB64 t.server_pubkey = none
  weight : 1 ≤ t.weight ∧ t.weight ≤ 1000

theorem checkRange_none {low high value : Int} (h : checkRange low high value = none) :
    low ≤ value ∧ value ≤ high := by
  unfold checkRange at h
  split at h
  · cases h
  · split at h
    · cases h
    · omega

theorem accepted_create {id : Text} {payload : TunnelCreate} {rows rows' : List Tunnel}
    (hrows : ∀ t ∈ rows, t.Accepted) (h : createTunnel id payload rows = .ok rows') :
    ∀ t ∈ rows', t.Accepted := by
  unfold createTunnel at h
  split at h
  · cases h
  · rename_i herrors
    split at h
    · cases h
    · split at h
      · cases h
      · rename_i hid
        cases h
        have hnone : payload.errors = [] := by simpa using herrors
        simp only [TunnelCreate.errors, List.filterMap_eq_nil_iff, List.mem_cons,
          List.not_mem_nil, or_false, forall_eq_or_imp, forall_eq, Option.map_eq_none_iff] at hnone
        obtain ⟨hname, hhost, hport, hkey, hweight⟩ := hnone
        intro t ht
        rcases List.mem_append.mp ht with hold | hnew
        · exact hrows t hold
        · obtain rfl := List.mem_singleton.mp hnew
          have huuid : isUuidHex id = true := by
            by_contra hnot
            exact hid (.inl hnot)
          exact ⟨huuid, hname, hhost, checkRange_none hport, hkey, checkRange_none hweight⟩

/-- What an assignment leaves of a check both the row and the body have passed. -/
theorem Patch.check_assigned {α : Type} {check : α → Option String} {patch : Patch α} {old new : α}
    (hold : check old = none) (hpatch : Patch.check check patch = none)
    (h : patch.getD (some old) = some new) : check new = none := by
  cases patch with
  | none =>
    cases h
    exact hold
  | some value =>
    have hvalue : value = some new := h
    subst hvalue
    exact hpatch

theorem checkRange_of_bounds {low high value : Int} (h : low ≤ value ∧ value ≤ high) :
    checkRange low high value = none := by
  unfold checkRange
  rw [if_neg (by omega), if_neg (by omega)]

theorem accepted_assign {payload : TunnelUpdate} {t t' : Tunnel} (ht : t.Accepted)
    (herrors : payload.errors = []) (h : payload.assign t = some t') : t'.Accepted := by
  simp only [TunnelUpdate.errors, List.filterMap_eq_nil_iff, List.mem_cons,
    List.not_mem_nil, or_false, forall_eq_or_imp, forall_eq, Option.map_eq_none_iff] at herrors
  obtain ⟨hname, hhost, hport, hkey, hweight⟩ := herrors
  simp only [TunnelUpdate.assign, Option.bind_eq_bind, Option.bind_eq_some_iff,
    Option.some.injEq] at h
  obtain ⟨name, hn, host, hh, port, hp, key, hk, enabled, -, weight, hw, rfl⟩ := h
  have hport' := Patch.check_assigned (checkRange_of_bounds ht.endpoint_port) hport hp
  have hweight' := Patch.check_assigned (checkRange_of_bounds ht.weight) hweight hw
  exact ⟨ht.id, Patch.check_assigned ht.name hname hn,
    Patch.check_assigned ht.endpoint_host hhost hh, checkRange_none hport',
    Patch.check_assigned ht.server_pubkey hkey hk, checkRange_none hweight'⟩

theorem accepted_update {id : Text} {payload : TunnelUpdate} {rows rows' : List Tunnel}
    (hrows : ∀ t ∈ rows, t.Accepted) (h : updateTunnel id payload rows = .ok rows') :
    ∀ t ∈ rows', t.Accepted := by
  unfold updateTunnel at h
  split at h
  · cases h
  · rename_i herrors
    split at h
    · cases h
    · rename_i t hfind
      split at h
      · cases h
      · split at h
        · cases h
        · rename_i t' hassign
          cases h
          have hnone : payload.errors = [] := by simpa using herrors
          have ht' : t'.Accepted :=
            accepted_assign (hrows t (List.mem_of_find?_eq_some hfind)) hnone hassign
          intro row hrow
          obtain ⟨old, hold, rfl⟩ := List.mem_map.mp hrow
          split
          · exact ht'
          · exact hrows old hold

theorem accepted_apply {op : Op} {rows rows' : List Tunnel} (hrows : ∀ t ∈ rows, t.Accepted)
    (h : op.apply rows = .ok rows') : ∀ t ∈ rows', t.Accepted := by
  cases op with
  | create id payload => exact accepted_create hrows h
  | update id payload => exact accepted_update hrows h
  | delete id =>
    simp only [Op.apply, deleteTunnel] at h
    split at h
    · cases h
      intro t ht
      exact hrows t (List.mem_of_mem_filter ht)
    · cases h

/-- Every row the requests leave has passed the checks of its fields. -/
theorem accepted_run (ops : List Op) : ∀ t ∈ table.run ops, t.Accepted := by
  induction ops using List.reverseRecOn with
  | nil =>
    intro t ht
    cases ht
  | append_singleton ops op ih =>
    rw [Machine.run_snoc]
    show ∀ t ∈ (op.apply (table.run ops)).toOption.getD (table.run ops), t.Accepted
    cases hop : op.apply (table.run ops) with
    | error failure => exact ih
    | ok rows => exact accepted_apply ih hop

end MailCue.Backend.Tunnels
