import MailCue.Backend.Addressing
import MailCue.Lib.Lines
import MailCue.Lib.Table
import MailCue.Lib.Transition

/-!
# Aliases and the map Postfix reads

backend/app/aliases/service.py. A request reads, commits, reads its own row again, queries
the enabled aliases and writes the whole file in a worker thread; between any two of these
the others go on. A session keeps its own row as it last read it, also where a later query
returns it anew.
-/
namespace MailCue.Backend.Aliases
open MailCue.Lib

/-! ## Rows and requests -/

structure Alias where
  id : Nat
  source_address : Address
  destination_address : Address
  domain : Text
  is_catchall : Bool
  enabled : Bool
  deriving DecidableEq

structure AliasCreateRequest where
  source_address : Address
  destination_address : Address
  deriving DecidableEq

structure AliasUpdateRequest where
  destination_address : Option Address
  enabled : Option Bool
  deriving DecidableEq

section
variable (lowering : Text.Lowering)

def AliasCreateRequest.validate (source_address destination_address : Text) :
    Except String AliasCreateRequest := do
  let source_address ← validateAddress lowering source_address
  let destination_address ← validateAddress lowering destination_address
  return ⟨source_address, destination_address⟩

def AliasUpdateRequest.validate (destination_address : Option Text) (enabled : Option Bool) :
    Except String AliasUpdateRequest :=
  match destination_address with
  | none => .ok ⟨none, enabled⟩
  | some value => (validateAddress lowering value).map fun address => ⟨some address, enabled⟩

end

def AliasCreateRequest.row (body : AliasCreateRequest) (id : Nat) : Alias :=
  let source := body.source_address.text
  let domain := Text.afterLast '@' source
  { id
    source_address := body.source_address
    destination_address := body.destination_address
    domain
    is_catchall := source = '@' :: domain
    enabled := true }

def AliasUpdateRequest.apply (body : AliasUpdateRequest) (row : Alias) : Alias :=
  { row with
    destination_address := body.destination_address.getD row.destination_address
    enabled := body.enabled.getD row.enabled }

/-- The row with the columns a request has changed. -/
def merge (before after row : Alias) : Alias :=
  { row with
    destination_address :=
      if after.destination_address = before.destination_address then row.destination_address
      else after.destination_address
    enabled := if after.enabled = before.enabled then row.enabled else after.enabled }

/-! ## The file -/

/-- `f"{a.source_address}    {a.destination_address}"` -/
def aliasLine (a : Alias) : Text :=
  a.source_address.text ++ "    ".toList ++ a.destination_address.text

/-- `"\n".join(lines) + "\n"` -/
def virtualAliases (aliases : List Alias) : Text :=
  ['\n'].intercalate (aliases.map aliasLine) ++ ['\n']

/-- The lines of a file that are not blank, without their ends. -/
def fileLines (file : Text) : List Text :=
  ((Lines.splitLines (· == '\n') file).map fun line => line.takeWhile (· != '\n')).filter (· ≠ [])

/-! ## Requests in their steps -/

inductive Request
  /-- No row had the source address. -/
  | creating (body : AliasCreateRequest)
  | updating (before : Alias) (body : AliasUpdateRequest)
  | deleting (row : Alias)
  /-- Committed; the row is to be refreshed. -/
  | committed (id : Nat)
  /-- To query, with its own row as the session has it. -/
  | rebuilding (own : Option Alias)
  /-- To write what its query returned. -/
  | writing (aliases : List Alias)
  | done
  deriving DecidableEq

/-- `r` counts the requests as they came in. -/
inductive Event
  | create (source_address destination_address : Text)
  | update (alias_id : Nat) (destination_address : Option Text) (enabled : Option Bool)
  | delete (alias_id : Nat)
  /-- `id` is the key the database gives to a new row. -/
  | commit (r id : Nat)
  | refresh (r : Nat)
  | query (r : Nat) (rows : List Alias)
  | write (r : Nat)
  deriving DecidableEq

structure State where
  db : Table Alias.id
  /-- `/etc/postfix/virtual_aliases` -/
  file : Text
  requests : List Request
  deriving DecidableEq

namespace State

def enabled (s : State) : List Alias := s.db.rows.filter (·.enabled)

/-- A request comes in; one that is turned away has finished. -/
def receive (s : State) (request : Option Request) : State :=
  { s with requests := s.requests ++ [request.getD .done] }

def set (s : State) (r : Nat) (request : Request) : State :=
  { s with requests := s.requests.set r request }

def create (lowering : Text.Lowering) (s : State) (source_address destination_address : Text) :
    Option Request :=
  match AliasCreateRequest.validate lowering source_address destination_address with
  | .error _ => none
  | .ok body =>
    if s.db.rows.any (·.source_address = body.source_address) then none
    else some (.creating body)

def update (lowering : Text.Lowering) (s : State) (alias_id : Nat)
    (destination_address : Option Text) (enabled : Option Bool) : Option Request :=
  match AliasUpdateRequest.validate lowering destination_address enabled with
  | .error _ => none
  | .ok body => (s.db.find alias_id).map fun row => .updating row body

def delete (s : State) (alias_id : Nat) : Option Request :=
  (s.db.find alias_id).map .deleting

def commit (s : State) (r id : Nat) : Option State :=
  match s.requests[r]? with
  | some (.creating body) =>
    -- the source address is unique in the database as well
    if s.db.rows.any (·.source_address = body.source_address) then some (s.set r .done)
    else (s.db.insert (body.row id)).map fun db => { s.set r (.committed id) with db }
  | some (.updating before body) =>
    let after := body.apply before
    -- nothing is sent where nothing was changed
    if after = before then some (s.set r (.committed before.id))
    else
      match s.db.find before.id with
      | none => some (s.set r .done)
      | some row =>
        some { s.set r (.committed before.id) with db := s.db.replace (merge before after row) }
  | some (.deleting row) => some { s.set r (.rebuilding none) with db := s.db.erase row.id }
  | _ => none

/-- The row is read again, or its request fails where it is gone. -/
def refresh (s : State) (r : Nat) : Option State :=
  match s.requests[r]? with
  | some (.committed id) =>
    match s.db.find id with
    | none => some (s.set r .done)
    | some row => some (s.set r (.rebuilding (some row)))
  | _ => none

/-- A row of the query as the session has it. -/
def held (own : Option Alias) (row : Alias) : Alias := (own.filter (·.id = row.id)).getD row

/-- The rows come in any order. -/
def query (s : State) (r : Nat) (rows : List Alias) : Option State :=
  match s.requests[r]? with
  | some (.rebuilding own) =>
    if rows.Perm s.enabled then some (s.set r (.writing (rows.map (held own)))) else none
  | _ => none

def write (s : State) (r : Nat) : Option State :=
  match s.requests[r]? with
  | some (.writing aliases) => some { s.set r .done with file := virtualAliases aliases }
  | _ => none

def step (lowering : Text.Lowering) (s : State) : Event → Option State
  | .create source_address destination_address =>
    some (s.receive (s.create lowering source_address destination_address))
  | .update alias_id destination_address enabled =>
    some (s.receive (s.update lowering alias_id destination_address enabled))
  | .delete alias_id => some (s.receive (s.delete alias_id))
  | .commit r id => s.commit r id
  | .refresh r => s.refresh r
  | .query r rows => s.query r rows
  | .write r => s.write r

end State

/-- Any number of requests, whatever the rows and the file are at first. -/
def aliases (lowering : Text.Lowering) : System State Event where
  init s := s.requests = []
  step s e s' := s.step lowering e = some s'

end MailCue.Backend.Aliases
