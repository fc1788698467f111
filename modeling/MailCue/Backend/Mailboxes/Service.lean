import Mathlib.Data.List.AList
import MailCue.Lib.Text

/-!
# Mailbox rows

backend/app/mailboxes/service.py on the table of mailboxes: the lookup, the
creation of a mailbox with its quota, the soft delete and the discovery of
Maildirs. A row is found by its unique address. What the users file, the Maildirs
and Postfix make of a row enters as the outcome of the provisioning; ids, creation
times, signatures and storage quotas are left out.
-/
namespace MailCue.Backend.Mailboxes
open MailCue.Lib

/-! ## Errors -/

structure MailCueError where
  message : String
  status_code : Nat
  deriving DecidableEq, Repr

def notFoundError (resource identifier : String) : MailCueError :=
  ⟨if identifier = "" then s!"{resource} not found" else s!"{resource} '{identifier}' not found", 404⟩

def conflictError (message : String) : MailCueError := ⟨message, 409⟩

def authorizationError (message : String) : MailCueError := ⟨message, 403⟩

def mailServerError (message : String) : MailCueError := ⟨message, 502⟩

/-! ## Rows -/

inductive Purpose
  | standard | deliverability
  deriving DecidableEq, Repr

structure Mailbox where
  display_name : Text
  domain : Text
  user_id : Option String
  is_active : Bool := true
  is_catchall : Bool := false
  purpose : Purpose := .standard
  deriving DecidableEq, Repr

/-- The table `mailboxes`, by its unique column `address`. -/
abbrev Table := AList fun _ : Text => Mailbox

structure User where
  is_admin : Bool
  is_active : Bool
  max_mailboxes : Int
  deriving DecidableEq, Repr

/-- What the functions read beside the table: the settings, the tables of users,
domains and server settings, and `str.lower`. -/
structure Server where
  lower : Text → Text
  domain : Text
  is_production : Bool
  catch_all_enabled : Bool
  users : String → Option User
  /-- `_get_catchall_owner_user_id` -/
  catchall_owner : Option String
  registered : Text → Bool
  active_domains : Nat

structure MailboxCreateRequest where
  username : Text
  password : Text
  domain : Option Text := none
  display_name : Text := []
  purpose : Purpose := .standard
  deriving DecidableEq, Repr

def address (local_part domain : Text) : Text := local_part ++ '@' :: domain

/-- Production hides catch-all mailboxes unless the server has them enabled. -/
def Server.hides (s : Server) (row : Mailbox) : Bool :=
  s.is_production && row.is_catchall && !s.catch_all_enabled

/-- The address of the row with the row. -/
def getMailboxByAddress (s : Server) (t : Table) (address : Text) :
    Except MailCueError (Text × Mailbox) :=
  match t.lookup (s.lower address) with
  | none => .error (notFoundError "Mailbox" (String.ofList address))
  | some row =>
    if s.hides row then .error (notFoundError "Mailbox" (String.ofList address))
    else .ok (s.lower address, row)

/-! ## Discovery -/

/-- One Maildir, by the names of its two directories. -/
def discover (s : Server) (t : Table) (dir : Text × Text) : Table :=
  let local_part := s.lower dir.1
  let domain := s.lower dir.2
  match t.lookup (address local_part domain) with
  | some existing =>
    if existing.is_active && existing.user_id.isNone && s.catchall_owner.isSome then
      t.insert (address local_part domain)
        { existing with user_id := s.catchall_owner, is_catchall := true }
    else t
  | none =>
    t.insert (address local_part domain)
      { display_name := local_part, domain := domain, user_id := s.catchall_owner,
        is_catchall := true }

def syncFilesystemMailboxes (s : Server) (t : Table) (maildirs : List (Text × Text)) :
    Table :=
  maildirs.foldl (discover s) t

/-! ## Creation -/

/-- The rows the quota counts. -/
def Mailbox.counted (user_id : String) (row : Mailbox) : Bool :=
  row.user_id == some user_id && row.is_active && !row.is_catchall

def currentCount (t : Table) (user_id : String) : Nat :=
  t.entries.countP fun entry => entry.2.counted user_id

/-- The limit in force for a user, where one is. -/
def Server.limit (s : Server) (user_id : String) : Option Int :=
  match s.users user_id with
  | none => none
  | some user =>
    if !user.is_admin || s.is_production || 0 < s.active_domains then some user.max_mailboxes
    else none

def quotaError (count : Nat) (limit : Int) : MailCueError :=
  authorizationError s!"Mailbox quota exceeded. You have {count}/{limit} mailboxes."

/-- The quota check of `create_mailbox`. -/
def checkQuota (s : Server) (t : Table) (user_id : Option String) : Except MailCueError Unit :=
  match user_id with
  | none => .ok ()
  | some user_id =>
    match s.limit user_id with
    | none => .ok ()
    | some limit =>
      if limit ≤ currentCount t user_id then .error (quotaError (currentCount t user_id) limit)
      else .ok ()

/-- The row a creation writes over an existing one. -/
def Mailbox.reactivated (existing : Mailbox) (body : MailboxCreateRequest) (local_part : Text)
    (user_id : Option String) : Mailbox :=
  { existing with
    is_active := true
    display_name := if body.display_name = [] then local_part else body.display_name
    purpose := body.purpose
    user_id := user_id.or existing.user_id }

def freshRow (body : MailboxCreateRequest) (local_part domain : Text) (user_id : Option String) :
    Mailbox where
  display_name := if body.display_name = [] then local_part else body.display_name
  domain := domain
  user_id := user_id
  purpose := body.purpose

/-- A mailbox a creation has committed the row of and is about to provision. -/
structure Claimed where
  address : Text
  /-- There was a row before. -/
  existed : Bool
  deriving DecidableEq, Repr

def MailboxCreateRequest.localPart (s : Server) (body : MailboxCreateRequest) : Text :=
  s.lower body.username

/-- `(body.domain or settings.domain).lower()` -/
def MailboxCreateRequest.domainOf (s : Server) (body : MailboxCreateRequest) : Text :=
  s.lower ((body.domain.filter (· ≠ [])).getD s.domain)

/-- `create_mailbox` up to the commit of the row. -/
def claimMailbox (s : Server) (t : Table) (body : MailboxCreateRequest)
    (user_id : Option String) : Except MailCueError (Claimed × Table) := do
  let domain := body.domainOf s
  let local_part := body.localPart s
  let address := address local_part domain
  if s.is_production && !s.registered domain then
    .error ⟨s!"Domain '{String.ofList domain}' is not registered. Add it via /api/v1/domains first.",
      400⟩
  checkQuota s t user_id
  match t.lookup address with
  | some existing =>
    if existing.is_active && !existing.is_catchall then
      .error (conflictError s!"Mailbox '{String.ofList address}' already exists")
    else .ok (⟨address, true⟩, t.insert address (existing.reactivated body local_part user_id))
  | none => .ok (⟨address, false⟩, t.insert address (freshRow body local_part domain user_id))

/-- The soft delete of a row. -/
def deactivate (t : Table) (address : Text) : Table :=
  match t.lookup address with
  | none => t
  | some row => t.insert address { row with is_active := false }

/-- What a failed provisioning does to the row. -/
def rollBack (t : Table) (claimed : Claimed) : Table :=
  if claimed.existed then deactivate t claimed.address else t.erase claimed.address

def createMailbox (s : Server) (t : Table) (body : MailboxCreateRequest)
    (user_id : Option String) (provisioned : Bool) : Except MailCueError Text × Table :=
  match claimMailbox s t body user_id with
  | .error e => (.error e, t)
  | .ok (claimed, t) =>
    if provisioned then (.ok claimed.address, t)
    else
      (.error (mailServerError
        s!"Failed to provision mailbox '{String.ofList claimed.address}' on the mail server"),
        rollBack t claimed)

def deleteMailbox (t : Table) (address : Text) : Except MailCueError Unit × Table :=
  match t.lookup address with
  | none => (.error (notFoundError "Mailbox" (String.ofList address)), t)
  | some _ => (.ok (), deactivate t address)

/-! ## What a creation does -/

section
variable {s : Server} {t t' : Table} {body : MailboxCreateRequest} {user_id : Option String}
  {claimed : Claimed}

def MailboxCreateRequest.address (s : Server) (body : MailboxCreateRequest) : Text :=
  Mailboxes.address (body.localPart s) (body.domainOf s)

/-- A creation passed its quota check and wrote one row: over one that was inactive
or catch-all, or a fresh one. -/
theorem claimMailbox_ok (h : claimMailbox s t body user_id = .ok (claimed, t')) :
    checkQuota s t user_id = .ok () ∧ claimed.address = body.address s ∧
      ((∃ existing, t.lookup (body.address s) = some existing ∧
          (existing.is_active = true → existing.is_catchall = true) ∧ claimed.existed = true ∧
          t' = t.insert (body.address s) (existing.reactivated body (body.localPart s) user_id)) ∨
        (t.lookup (body.address s) = none ∧ claimed.existed = false ∧
          t' = t.insert (body.address s)
            (freshRow body (body.localPart s) (body.domainOf s) user_id))) := by
  unfold claimMailbox at h
  dsimp only at h
  split at h
  · cases h
  · cases hquota : checkQuota s t user_id with
    | error e =>
      rw [hquota] at h
      cases h
    | ok _ =>
      rw [hquota] at h
      refine ⟨rfl, ?_⟩
      change (match t.lookup (body.address s) with
        | some existing => _
        | none => _) = _ at h
      split at h
      · rename_i existing hlookup
        split at h
        · cases h
        · rename_i hfree
          simp only [Bool.and_eq_true, Bool.not_eq_true', not_and, Bool.not_eq_false] at hfree
          cases h
          exact ⟨rfl, .inl ⟨existing, hlookup, hfree, rfl, rfl⟩⟩
      · rename_i hlookup
        cases h
        exact ⟨rfl, .inr ⟨hlookup, rfl, rfl⟩⟩

/-- An active mailbox that is not catch-all is not touched by a creation. -/
theorem claimMailbox_lookup (h : claimMailbox s t body user_id = .ok (claimed, t')) {a : Text}
    {row : Mailbox} (hrow : t.lookup a = some row) (hactive : row.is_active = true)
    (hown : row.is_catchall = false) : a ≠ claimed.address ∧ t'.lookup a = some row := by
  obtain ⟨-, haddress, hcases⟩ := claimMailbox_ok h
  have hne : a ≠ body.address s := by
    rintro rfl
    rcases hcases with ⟨existing, hlookup, hfree, -⟩ | ⟨hlookup, -⟩
    · cases hrow.symm.trans hlookup
      cases hown.symm.trans (hfree hactive)
    · cases hrow.symm.trans hlookup
  rw [haddress]
  refine ⟨hne, ?_⟩
  rcases hcases with ⟨existing, -, -, -, rfl⟩ | ⟨-, -, rfl⟩
  · rw [AList.lookup_insert_ne hne, hrow]
  · rw [AList.lookup_insert_ne hne, hrow]

theorem deactivate_lookup_ne {a b : Text} (hne : a ≠ b) :
    (deactivate t b).lookup a = t.lookup a := by
  unfold deactivate
  split
  · rfl
  · exact AList.lookup_insert_ne hne

theorem rollBack_lookup_ne {a : Text} (hne : a ≠ claimed.address) :
    (rollBack t claimed).lookup a = t.lookup a := by
  unfold rollBack
  split
  · exact deactivate_lookup_ne hne
  · exact AList.lookup_erase_ne hne

end

end MailCue.Backend.Mailboxes
