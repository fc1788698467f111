import MailCue.Backend.Auth.Models

/-!
# Tokens and the lockout

backend/app/auth/utils.py, the lockout helpers of backend/app/auth/service.py and
`_user_from_jwt` of backend/app/dependencies.py. Instants are seconds. A token is what
the server has signed; a text it has not signed is no token. The secret key stays the
same.
-/
namespace MailCue.Backend.Auth
open MailCue.Lib

structure Settings where
  access_token_expire : Int := 30 * 60
  refresh_token_expire : Int := 7 * 24 * 60 * 60
  max_failed_login_attempts : Int := 5
  lockout_duration : Int := 15 * 60

/-- `decrypt_totp_secret`, with nothing for an `InvalidToken`, and `verify_totp_code`. -/
structure TwoFactor where
  decrypt : Text → Option Text
  verify : (secret code : Text) → (now : Int) → Bool

/-! ## Tokens -/

inductive TokenType
  | access | refresh | twoFactor
  deriving DecidableEq

structure Token where
  type : TokenType
  sub : String
  ver : Nat
  exp : Int
  deriving DecidableEq

/-- The token, if the server has signed one and it is not over. -/
def decodeJwt (now : Int) (token : Option Token) : Option Token :=
  token.filter fun t => now < t.exp

def createAccessToken (settings : Settings) (now : Int) (user_id : String) (token_version : Nat) :
    Token := ⟨.access, user_id, token_version, now + settings.access_token_expire⟩

def createRefreshToken (settings : Settings) (now : Int) (user_id : String) (token_version : Nat) :
    Token := ⟨.refresh, user_id, token_version, now + settings.refresh_token_expire⟩

def create2faTempToken (now : Int) (user_id : String) (token_version : Nat) : Token :=
  ⟨.twoFactor, user_id, token_version, now + 90⟩

/-- The row of the subject, as far as it is active and has the version of the token. -/
def tokenUser (find : String → Option User) (t : Token) : Except HTTPException User :=
  match (find t.sub).filter (·.is_active) with
  | none => .error ⟨401, "User not found or inactive"⟩
  | some user =>
    if t.ver ≠ user.token_version then .error ⟨401, "Session has been revoked"⟩ else .ok user

/-- `_user_from_jwt` -/
def userFromJwt (find : String → Option User) (now : Int) (allow_refresh : Bool)
    (token : Option Token) : Except HTTPException User :=
  match decodeJwt now token with
  | none => .error ⟨401, "Invalid or expired token"⟩
  | some t =>
    if t.type = .twoFactor ∨ (t.type = .refresh ∧ allow_refresh = false) then
      .error ⟨401, "Invalid token type"⟩
    else tokenUser find t

/-! ## The lockout -/

def isAccountLocked (now : Int) (user : User) : Bool := user.locked_until.any fun locked => now < locked

/-- The row as `record_failed_login` commits it. -/
def recordFailedLogin (settings : Settings) (now : Int) (user : User) : User :=
  let failed_login_attempts := user.failed_login_attempts + 1
  if settings.max_failed_login_attempts ≤ failed_login_attempts then
    { user with failed_login_attempts, locked_until := some (now + settings.lockout_duration) }
  else { user with failed_login_attempts }

def resetFailedLogin (user : User) : User :=
  if 0 < user.failed_login_attempts ∨ user.locked_until.isSome then
    { user with failed_login_attempts := 0, locked_until := none }
  else user

@[simp] theorem recordFailedLogin_id (settings : Settings) (now : Int) (user : User) :
    (recordFailedLogin settings now user).id = user.id := by
  unfold recordFailedLogin
  dsimp only
  split <;> rfl

@[simp] theorem recordFailedLogin_attempts (settings : Settings) (now : Int) (user : User) :
    (recordFailedLogin settings now user).failed_login_attempts = user.failed_login_attempts + 1 := by
  unfold recordFailedLogin
  dsimp only
  split <;> rfl

@[simp] theorem resetFailedLogin_id (user : User) : (resetFailedLogin user).id = user.id := by
  unfold resetFailedLogin
  split <;> rfl

@[simp] theorem resetFailedLogin_token_version (user : User) :
    (resetFailedLogin user).token_version = user.token_version := by
  unfold resetFailedLogin
  split <;> rfl

@[simp] theorem resetFailedLogin_totp_enabled (user : User) :
    (resetFailedLogin user).totp_enabled = user.totp_enabled := by
  unfold resetFailedLogin
  split <;> rfl

theorem recordFailedLogin_ne (settings : Settings) (now : Int) (user : User) :
    recordFailedLogin settings now user ≠ user := by
  intro h
  have hattempts := congrArg User.failed_login_attempts h
  rw [recordFailedLogin_attempts] at hattempts
  omega

end MailCue.Backend.Auth
