import MailCue.Backend.Auth.Scopes
import MailCue.Lib.Fallible
import MailCue.Lib.Table
import MailCue.Lib.Text

/-!
# Users, API keys and who makes a request

backend/app/auth/models.py, `validate_api_key` of service.py and the `AuthContext`
of backend/app/dependencies.py. Times of creation and use are left out. Argon2 and
`str.lower` are parameters.
-/
namespace MailCue.Backend.Auth
open MailCue.Lib

structure User where
  id : String
  username : Text
  email : Text
  hashed_password : Text
  is_admin : Bool := false
  is_active : Bool := true
  totp_secret : Option Text := none
  totp_enabled : Bool := false
  failed_login_attempts : Nat := 0
  locked_until : Option Int := none
  token_version : Nat := 0
  max_mailboxes : Int := 5
  deriving DecidableEq

structure APIKey where
  id : String
  user_id : String
  key_hash : Text
  name : Text
  key_prefix : Text
  is_active : Bool := true
  /-- `none` for the null of JSON. -/
  scopes : Option (List String) := some [wildcard]
  allowed_mailboxes : Option (List Text) := none
  deriving DecidableEq

structure Database where
  users : Table User.id
  api_keys : Table APIKey.id
  deriving DecidableEq

structure HTTPException where
  status : Nat
  detail : String
  deriving DecidableEq

/-- An exception the endpoint does not turn into an answer. -/
def serverError : HTTPException := ⟨500, "Internal Server Error"⟩

/-- `str.lower`; what it has lowered it leaves as it is. -/
structure Lowercase extends Text.Lowering where
  lower_lower : ∀ text, lower (lower text) = lower text

/-- The mapping of ASCII alone. -/
def Lowercase.asciiOnly : Lowercase where
  toLowering := .asciiOnly
  lower_lower text := by simp [Text.Lowering.asciiOnly, Text.asciiLower, Text.toLower_toLower]

/-- `verify_password` and `hash_password`. -/
structure Argon2 where
  verify : Text → Text → Bool
  hash : Text → Text

/-- Hashes that are the text itself. -/
def Argon2.plain : Argon2 := ⟨fun plain hashed => plain == hashed, fun plain => plain⟩

/-! ## API keys -/

def apiKeyPrefix (raw_key : Text) : Text := raw_key.take 8

/-- The first active key that verifies and whose user is active. -/
def validateApiKey (a : Argon2) (db : Database) (raw_key : Text) : Option (User × APIKey) :=
  (db.api_keys.rows.filter fun key =>
    key.key_prefix == apiKeyPrefix raw_key && key.is_active).findSome? fun key =>
      if a.verify raw_key key.key_hash then
        (db.users.find key.user_id).bind fun user =>
          if user.is_active then some (user, key) else none
      else none

/-- The list, lowered; an absent one and an empty one restrict nothing. -/
def APIKey.mailboxes (l : Lowercase) (key : APIKey) : Option (List Text) :=
  match key.allowed_mailboxes with
  | none => none
  | some [] => none
  | some (m :: ms) => some ((m :: ms).map l.lower)

structure AuthContext where
  user : User
  /-- `none` for an interactive session. -/
  api_key : Option APIKey

namespace AuthContext

def scopes (auth : AuthContext) : List String :=
  match auth.api_key with
  | none => [wildcard]
  | some key => key.scopes.getD []

def allowedMailboxes (l : Lowercase) (auth : AuthContext) : Option (List Text) :=
  auth.api_key.bind (·.mailboxes l)

def hasScope (auth : AuthContext) (scope : String) : Bool :=
  match auth.api_key with
  | none => true
  | some key => scopeSatisfied (key.scopes.getD []) scope

def mailboxAllowed (l : Lowercase) (auth : AuthContext) (address : Text) : Bool :=
  (auth.allowedMailboxes l).all fun allowed => allowed.contains (l.lower address)

def requireScope (auth : AuthContext) (scope : String) : Except HTTPException Unit :=
  if auth.hasScope scope then .ok ()
  else .error ⟨403, s!"API key is missing the required '{scope}' permission"⟩

end AuthContext

theorem mem_of_validateApiKey {a : Argon2} {db : Database} {raw_key : Text} {user : User}
    {key : APIKey} (h : validateApiKey a db raw_key = some (user, key)) :
    key ∈ db.api_keys.rows ∧ user ∈ db.users.rows ∧ user.id = key.user_id := by
  obtain ⟨found, hfound, hone⟩ := List.exists_of_findSome?_eq_some h
  have hmem := List.mem_of_mem_filter hfound
  split at hone
  · obtain ⟨u, hu, hactive⟩ := Option.bind_eq_some_iff.mp hone
    split at hactive
    · cases hactive
      obtain ⟨huser, hid⟩ := Table.find_eq_some_iff.mp hu
      exact ⟨hmem, huser, hid⟩
    · cases hactive
  · cases hone

end MailCue.Backend.Auth
