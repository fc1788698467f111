import Mathlib.Data.Char
import Mathlib.Data.List.Lex
import MailCue.Backend.Auth.Models

/-!
# The API-key endpoints

backend/app/auth/router.py: creating, patching and revoking keys. A new key's id and
secret are given, and so are the addresses of the user's mailboxes.
-/
namespace MailCue.Backend.Auth
open MailCue.Lib

structure APIKeyCreateRequest where
  name : Text
  scopes : Option (List String) := none
  allowed_mailboxes : Option (List Text) := none

/-- Of each field whether it is set, and null or a value. -/
structure APIKeyUpdateRequest where
  name : Option (Option Text) := none
  scopes : Option (Option (List String)) := none
  allowed_mailboxes : Option (Option (List Text)) := none

inductive KeyRequest
  | create (id : String) (raw_key : Text) (body : APIKeyCreateRequest)
  | update (key_id : String) (body : APIKeyUpdateRequest)
  | revoke (key_id : String)

/-- The addresses asked for, stripped, lowered, without repetition and in order. -/
def wantedMailboxes (l : Lowercase) (requested : Option (List Text)) : List Text :=
  (((requested.getD []).filter fun addr => Text.strip Text.isSpace addr != []).map fun addr =>
    l.lower (Text.strip Text.isSpace addr)).dedup.insertionSort (· ≤ ·)

/-- `owned` are the addresses of the user's mailboxes. -/
def resolveAllowedMailboxes (l : Lowercase) (owned : List Text) (requested : Option (List Text)) :
    Except HTTPException (Option (List Text)) :=
  let wanted := wantedMailboxes l requested
  if wanted = [] then .ok none
  else
    let invalid := wanted.filter fun addr => !(owned.map l.lower).contains addr
    if invalid ≠ [] then
      .error ⟨400, "Not your mailbox(es): " ++ ", ".intercalate (invalid.map String.ofList)⟩
    else .ok (some wanted)

/-- The guard asks whether the list is absent; an empty one is within every other. -/
def mailboxesWithin (l : Lowercase) (auth : AuthContext) (allowed_mailboxes : Option (List Text)) :
    Bool :=
  (auth.allowedMailboxes l).all fun parent =>
    match allowed_mailboxes with
    | none => false
    | some child => child.all fun m => parent.contains m

def enforceGrantWithinCaller (l : Lowercase) (auth : AuthContext) (scopes : List String)
    (allowed_mailboxes : Option (List Text)) : Except HTTPException Unit :=
  if auth.api_key.isNone then .ok ()
  else if ¬ isSubset scopes auth.scopes then
    .error ⟨403, "Cannot grant scopes broader than the API key making this request"⟩
  else if ¬ mailboxesWithin l auth allowed_mailboxes then
    .error ⟨403, "Cannot grant mailbox access broader than the API key making this request"⟩
  else .ok ()

def requestedScopes (scopes : Option (List String)) : Except HTTPException (List String) :=
  (normalizeScopes scopes).mapError fun message => ⟨400, message⟩

def createApiKey (l : Lowercase) (a : Argon2) (owned : List Text) (auth : AuthContext)
    (id : String) (raw_key : Text) (body : APIKeyCreateRequest) (keys : Table APIKey.id) :
    Except HTTPException (APIKey × Table APIKey.id) := do
  auth.requireScope apikeyManage
  let scopes ← requestedScopes body.scopes
  let allowed_mailboxes ← resolveAllowedMailboxes l owned body.allowed_mailboxes
  enforceGrantWithinCaller l auth scopes allowed_mailboxes
  let key : APIKey := {
    id
    user_id := auth.user.id
    key_hash := a.hash raw_key
    name := body.name
    key_prefix := apiKeyPrefix raw_key
    scopes := some scopes
    allowed_mailboxes }
  match keys.insert key with
  | none => .error serverError
  | some keys => .ok (key, keys)

/-- The row of the caller's user under this id. -/
def ownKey (keys : Table APIKey.id) (user : User) (key_id : String) : Option APIKey :=
  (keys.find key_id).filter fun key => key.user_id == user.id

/-- `list(api_key.scopes)`, which null is no list for. -/
def effectiveScopes (key : APIKey) (body : APIKeyUpdateRequest) :
    Except HTTPException (List String) :=
  match body.scopes with
  | some scopes => requestedScopes scopes
  | none =>
    match key.scopes with
    | none => .error serverError
    | some scopes => .ok scopes

def effectiveMailboxes (l : Lowercase) (owned : List Text) (key : APIKey)
    (body : APIKeyUpdateRequest) : Except HTTPException (Option (List Text)) :=
  match body.allowed_mailboxes with
  | some allowed_mailboxes => resolveAllowedMailboxes l owned allowed_mailboxes
  | none => .ok key.allowed_mailboxes

def updateApiKey (l : Lowercase) (owned : List Text) (auth : AuthContext) (key_id : String)
    (body : APIKeyUpdateRequest) (keys : Table APIKey.id) :
    Except HTTPException (APIKey × Table APIKey.id) := do
  auth.requireScope apikeyManage
  match ownKey keys auth.user key_id with
  | none => .error ⟨404, "API key not found"⟩
  | some key =>
    let new_scopes ← effectiveScopes key body
    let new_mailboxes ← effectiveMailboxes l owned key body
    enforceGrantWithinCaller l auth new_scopes new_mailboxes
    let key := { key with
      name := body.name.join.getD key.name
      scopes := if body.scopes.isSome then some new_scopes else key.scopes
      allowed_mailboxes :=
        if body.allowed_mailboxes.isSome then new_mailboxes else key.allowed_mailboxes }
    .ok (key, keys.replace key)

def revokeApiKey (auth : AuthContext) (key_id : String) (keys : Table APIKey.id) :
    Except HTTPException (Table APIKey.id) := do
  auth.requireScope apikeyManage
  match ownKey keys auth.user key_id with
  | none => .error ⟨404, "API key not found"⟩
  | some key => .ok (keys.erase key.id)

/-- The key made or patched, if any, and the table. -/
def KeyRequest.serve (l : Lowercase) (a : Argon2) (owned : List Text) (auth : AuthContext)
    (keys : Table APIKey.id) : KeyRequest → Except HTTPException (Option APIKey × Table APIKey.id)
  | .create id raw_key body =>
    (createApiKey l a owned auth id raw_key body keys).map fun (key, keys) => (some key, keys)
  | .update key_id body =>
    (updateApiKey l owned auth key_id body keys).map fun (key, keys) => (some key, keys)
  | .revoke key_id => (revokeApiKey auth key_id keys).map fun keys => (none, keys)

/-! ## What a request does -/

theorem enforceGrant_ok {l : Lowercase} {user : User} {caller : APIKey} {scopes : List String}
    {allowed_mailboxes : Option (List Text)} :
    enforceGrantWithinCaller l ⟨user, some caller⟩ scopes allowed_mailboxes = .ok () ↔
      isSubset scopes (caller.scopes.getD []) = true ∧
        mailboxesWithin l ⟨user, some caller⟩ allowed_mailboxes = true := by
  unfold enforceGrantWithinCaller
  simp only [Option.isNone_some, Bool.false_eq_true, if_false, AuthContext.scopes]
  by_cases hscopes : isSubset scopes (caller.scopes.getD []) = true
  · by_cases hmailboxes : mailboxesWithin l ⟨user, some caller⟩ allowed_mailboxes = true
    · simp [hscopes, hmailboxes]
    · simp [hscopes, hmailboxes]
  · simp [hscopes]

theorem resolveAllowedMailboxes_ne_empty {l : Lowercase} {owned : List Text}
    {requested : Option (List Text)} :
    resolveAllowedMailboxes l owned requested ≠ .ok (some []) := by
  intro h
  simp only [resolveAllowedMailboxes] at h
  split at h
  · cases h
  · next hwanted =>
    split at h
    · cases h
    · exact hwanted (by simpa using h)

/-- The row a request makes or patches: its scopes and its list have passed the
guard, and the list is empty only where a patch has kept an empty one. -/
structure Stored (l : Lowercase) (user : User) (caller : APIKey) (keys : Table APIKey.id)
    (request : KeyRequest) (key : APIKey) (scopes : List String) : Prop where
  scopes_eq : key.scopes = some scopes
  subset : isSubset scopes (caller.scopes.getD []) = true
  within : mailboxesWithin l ⟨user, some caller⟩ key.allowed_mailboxes = true
  kept : key.allowed_mailboxes = some [] → ∃ body old, request = .update key.id body ∧
    body.allowed_mailboxes = none ∧ keys.find key.id = some old ∧ old.user_id = user.id ∧
    old.allowed_mailboxes = some [] ∧ effectiveScopes old body = .ok scopes

theorem createApiKey_ok {l : Lowercase} {a : Argon2} {owned : List Text} {user : User}
    {caller : APIKey} {id : String} {raw_key : Text} {body : APIKeyCreateRequest}
    {keys keys' : Table APIKey.id} {key : APIKey}
    (h : createApiKey l a owned ⟨user, some caller⟩ id raw_key body keys = .ok (key, keys')) :
    keys.insert key = some keys' ∧
      ∃ scopes, Stored l user caller keys (.create id raw_key body) key scopes := by
  obtain ⟨-, -, h⟩ := ok_of_bind h
  obtain ⟨scopes, -, h⟩ := ok_of_bind h
  obtain ⟨allowed_mailboxes, hmailboxes, h⟩ := ok_of_bind h
  obtain ⟨_, hguard, h⟩ := ok_of_bind h
  obtain ⟨hsubset, hwithin⟩ := enforceGrant_ok.mp hguard
  simp only at h
  split at h
  · cases h
  · next keys hinsert =>
    cases h
    refine ⟨hinsert, scopes, rfl, hsubset, hwithin, fun hempty => ?_⟩
    have hnil : allowed_mailboxes = some [] := hempty
    exact absurd (hnil ▸ hmailboxes) resolveAllowedMailboxes_ne_empty

theorem effectiveScopes_kept {key : APIKey} {body : APIKeyUpdateRequest} {scopes : List String}
    (h : effectiveScopes key body = .ok scopes) :
    (if body.scopes.isSome then some scopes else key.scopes) = some scopes := by
  unfold effectiveScopes at h
  cases hbody : body.scopes with
  | some given => rfl
  | none =>
    rw [hbody] at h
    simp only at h
    split at h
    · cases h
    · next kept hkept =>
      cases h
      simpa using hkept

theorem effectiveMailboxes_kept {l : Lowercase} {owned : List Text} {key : APIKey}
    {body : APIKeyUpdateRequest} {allowed_mailboxes : Option (List Text)}
    (h : effectiveMailboxes l owned key body = .ok allowed_mailboxes) :
    (if body.allowed_mailboxes.isSome then allowed_mailboxes else key.allowed_mailboxes) =
      allowed_mailboxes := by
  unfold effectiveMailboxes at h
  cases hbody : body.allowed_mailboxes with
  | some given => rfl
  | none =>
    rw [hbody] at h
    simpa using h

theorem ownKey_eq_some {keys : Table APIKey.id} {user : User} {key_id : String} {key : APIKey} :
    ownKey keys user key_id = some key ↔ keys.find key_id = some key ∧ key.user_id = user.id := by
  simp [ownKey, Option.filter_eq_some_iff]

theorem updateApiKey_ok {l : Lowercase} {owned : List Text} {user : User} {caller : APIKey}
    {key_id : String} {body : APIKeyUpdateRequest} {keys keys' : Table APIKey.id} {key : APIKey}
    (h : updateApiKey l owned ⟨user, some caller⟩ key_id body keys = .ok (key, keys')) :
    (∃ old, keys.find key.id = some old) ∧ keys' = keys.replace key ∧
      ∃ scopes, Stored l user caller keys (.update key_id body) key scopes := by
  obtain ⟨-, -, h⟩ := ok_of_bind h
  split at h
  · cases h
  · next old hold =>
    obtain ⟨scopes, hscopes, h⟩ := ok_of_bind h
    obtain ⟨allowed_mailboxes, hmailboxes, h⟩ := ok_of_bind h
    obtain ⟨_, hguard, h⟩ := ok_of_bind h
    obtain ⟨hsubset, hwithin⟩ := enforceGrant_ok.mp hguard
    obtain ⟨hfind, howner⟩ := ownKey_eq_some.mp hold
    obtain ⟨-, hid⟩ := Table.find_eq_some_iff.mp hfind
    rw [effectiveScopes_kept hscopes, effectiveMailboxes_kept hmailboxes] at h
    cases h
    subst hid
    refine ⟨⟨old, hfind⟩, rfl, scopes, rfl, hsubset, hwithin, fun hempty => ?_⟩
    have hnil : allowed_mailboxes = some [] := hempty
    subst hnil
    unfold effectiveMailboxes at hmailboxes
    split at hmailboxes
    · exact absurd hmailboxes resolveAllowedMailboxes_ne_empty
    · next hbody =>
      have hkept : old.allowed_mailboxes = some [] := by simpa using hmailboxes
      exact ⟨body, old, rfl, hbody, hfind, howner, hkept, hscopes⟩

end MailCue.Backend.Auth
