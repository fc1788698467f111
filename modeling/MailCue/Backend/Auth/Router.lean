import MailCue.Backend.Auth.ApiKeys
import MailCue.Backend.Auth.Service

/-!
# The endpoints of the auth router

backend/app/auth/router.py, each request served at once; those for API keys are in
their own module. New ids, secrets and what a secret is encrypted to are given.
Cookies, origins, QR codes and rate limits are left out.
-/
namespace MailCue.Backend.Auth
open MailCue.Lib

structure Server where
  lowercase : Lowercase
  argon2 : Argon2
  twoFactor : TwoFactor
  settings : Settings := {}

/-- Every check compares the texts as they are. -/
def Server.plain : Server where
  lowercase := .asciiOnly
  argon2 := .plain
  twoFactor := ⟨some, fun secret code _ => secret == code⟩

/-! ## Answers -/

structure UserResponse where
  id : String
  username : Text
  email : Text
  is_admin : Bool
  is_active : Bool
  totp_enabled : Bool
  max_mailboxes : Int
  deriving DecidableEq

def User.response (u : User) : UserResponse :=
  ⟨u.id, u.username, u.email, u.is_admin, u.is_active, u.totp_enabled, u.max_mailboxes⟩

inductive Response
  | session (access refresh : Token) (user : UserResponse)
  /-- The first step of a login, with the token for the second. -/
  | step (temp_token : Token)
  | user (user : UserResponse)
  | users (users : List UserResponse)
  | totp (secret : Text)
  | scopes (values : List String)
  | key (key : APIKey)
  | keys (keys : List APIKey)
  | done

def Response.session? : Response → Option (Token × Token)
  | .session access refresh _ => some (access, refresh)
  | _ => none

/-- The answer of an endpoint, and the row it commits. -/
structure Decision where
  result : Except HTTPException Response
  commit : Option User := none

def Decision.error (status : Nat) (detail : String) : Decision := { result := .error ⟨status, detail⟩ }

/-! ## Login -/

def newSession (settings : Settings) (now : Int) (user : User) (token_version : Nat) : Response :=
  .session (createAccessToken settings now user.id token_version)
    (createRefreshToken settings now user.id token_version) user.response

def login (s : Server) (now : Int) (user : Option User) (password : Text) : Decision :=
  match user with
  | none => .error 401 "Invalid credentials"
  | some user =>
    if isAccountLocked now user then
      .error 423 "Account is temporarily locked due to too many failed login attempts"
    else if ¬ s.argon2.verify password user.hashed_password then
      { result := .error ⟨401, "Invalid credentials"⟩,
        commit := some (recordFailedLogin s.settings now user) }
    else if ¬ user.is_active then .error 401 "Account is disabled"
    else if user.totp_enabled then
      { result := .ok (.step (create2faTempToken now user.id user.token_version)),
        commit := some (resetFailedLogin user) }
    else
      { result := .ok (newSession s.settings now user user.token_version),
        commit := some (resetFailedLogin user) }

/-- Whose second step a token asks for. -/
def temporaryUser (now : Int) (find : String → Option User) (temp_token : Option Token) :
    Except HTTPException User :=
  match decodeJwt now temp_token with
  | none => .error ⟨401, "Invalid or expired 2FA token"⟩
  | some t => if t.type ≠ .twoFactor then .error ⟨401, "Invalid token type"⟩ else tokenUser find t

/-- The secret, unless there is none: the empty text is none too. -/
def totpSecret (user : User) : Option Text := user.totp_secret.filter (· ≠ [])

def invalidTotpCode : HTTPException := ⟨401, "Invalid TOTP code"⟩

def login2fa (s : Server) (now : Int) (find : String → Option User) (temp_token : Option Token)
    (code : Text) : Decision :=
  match temporaryUser now find temp_token with
  | .error e => { result := .error e }
  | .ok user =>
    if isAccountLocked now user then
      .error 423 "Account is temporarily locked due to too many failed attempts"
    else
      match totpSecret user with
      | none => .error 400 "TOTP not configured"
      | some encrypted =>
        match s.twoFactor.decrypt encrypted with
        | none =>
          .error 503 "Two-factor authentication is unavailable. Contact an administrator."
        | some secret =>
          if ¬ s.twoFactor.verify secret code now then
            { result := .error invalidTotpCode,
              commit := some (recordFailedLogin s.settings now user) }
          else
            { result := .ok (newSession s.settings now user user.token_version),
              commit := some (resetFailedLogin user) }

/-! ## The caller's own account -/

def passwordTooShort : HTTPException := ⟨422, "Password must be at least 8 characters"⟩

def changePassword (s : Server) (now : Int) (user : User) (current_password new_password : Text) :
    Decision :=
  if new_password.length < 8 then { result := .error passwordTooShort }
  else if isAccountLocked now user then
    .error 423 "Account is temporarily locked due to too many failed attempts"
  else if ¬ s.argon2.verify current_password user.hashed_password then
    { result := .error ⟨401, "Current password is incorrect"⟩,
      commit := some (recordFailedLogin s.settings now user) }
  else
    let user := resetFailedLogin user
    { result := .ok .done,
      commit := some { user with
        hashed_password := s.argon2.hash new_password, token_version := user.token_version + 1 } }

def totpSetup (user : User) (secret encrypted : Text) : Decision :=
  if user.totp_enabled then .error 400 "TOTP is already enabled"
  else { result := .ok (.totp secret), commit := some { user with totp_secret := some encrypted } }

def totpConfirm (s : Server) (now : Int) (user : User) (code : Text) : Decision :=
  if user.totp_enabled then .error 400 "TOTP is already enabled"
  else
    match totpSecret user with
    | none => .error 400 "TOTP setup has not been initiated. Call POST /totp/setup first."
    | some encrypted =>
      match s.twoFactor.decrypt encrypted with
      | none =>
        { result := .error ⟨400,
            "TOTP secret could not be decrypted. Please restart setup with POST /totp/setup."⟩,
          commit := some { user with totp_secret := none } }
      | some secret =>
        if ¬ s.twoFactor.verify secret code now then
          { result := .error ⟨400, "Invalid TOTP code. Please try again."⟩,
            commit := some (recordFailedLogin s.settings now user) }
        else
          { result := .ok .done, commit := some { resetFailedLogin user with totp_enabled := true } }

def totpDisable (s : Server) (now : Int) (user : User) (password code : Text) : Decision :=
  if ¬ user.totp_enabled then .error 400 "TOTP is not enabled"
  else if isAccountLocked now user then
    .error 423 "Account is temporarily locked due to too many failed attempts"
  else if ¬ s.argon2.verify password user.hashed_password then
    { result := .error ⟨401, "Password is incorrect"⟩,
      commit := some (recordFailedLogin s.settings now user) }
  else
    match totpSecret user with
    | none => .error 400 "TOTP secret not found"
    | some encrypted =>
      match s.twoFactor.decrypt encrypted with
      | none =>
        .error 503 "Two-factor authentication is unavailable. Contact an administrator."
      | some secret =>
        if ¬ s.twoFactor.verify secret code now then
          { result := .error ⟨400, "Invalid TOTP code"⟩,
            commit := some (recordFailedLogin s.settings now user) }
        else
          { result := .ok .done,
            commit := some { resetFailedLogin user with totp_enabled := false, totp_secret := none } }

def logout (user : User) : Decision :=
  { result := .ok .done, commit := some { user with token_version := user.token_version + 1 } }

/-! ## Administration -/

structure RegisterRequest where
  username : Text
  email : Text
  password : Text
  is_admin : Bool := false
  max_mailboxes : Int := 5

structure UserUpdateRequest where
  max_mailboxes : Option Int := none
  is_active : Option Bool := none
  is_admin : Option Bool := none

def notAdmin : HTTPException := ⟨403, "Admin privileges required"⟩

def register (s : Server) (id : String) (body : RegisterRequest) (users : Table User.id) :
    Except HTTPException (User × Table User.id) :=
  if body.password.length < 8 then .error passwordTooShort
  else
    match users.rows.filter fun u => u.username == body.username || u.email == body.email with
    | [] =>
      let user : User := {
        id
        username := body.username
        email := body.email
        hashed_password := s.argon2.hash body.password
        is_admin := body.is_admin
        max_mailboxes := body.max_mailboxes }
      match users.insert user with
      | none => .error serverError
      | some users => .ok (user, users)
    | [_] => .error ⟨409, "Username or email already exists"⟩
    | _ => .error serverError

def adminResetPassword (s : Server) (user : Option User) (username new_password : Text) : Decision :=
  if new_password.length < 8 then { result := .error passwordTooShort }
  else
    match user with
    | none => { result := .error ⟨404, s!"User '{String.ofList username}' not found"⟩ }
    | some user =>
      { result := .ok .done,
        commit := some { user with
          hashed_password := s.argon2.hash new_password,
          token_version := user.token_version + 1 } }

def updateUser (admin : User) (user : Option User) (body : UserUpdateRequest) : Decision :=
  match user with
  | none => .error 404 "User not found"
  | some user =>
    if body.is_admin = some false ∧ user.id = admin.id then
      .error 400 "Cannot remove your own admin privileges"
    else if body.is_active = some false ∧ user.id = admin.id then
      .error 400 "Cannot deactivate your own account"
    else
      let user := { user with
        max_mailboxes := body.max_mailboxes.getD user.max_mailboxes
        is_active := body.is_active.getD user.is_active
        is_admin := body.is_admin.getD user.is_admin }
      { result := .ok (.user user.response), commit := some user }

def deactivateUser (admin : User) (user : Option User) : Decision :=
  match user with
  | none => .error 404 "User not found"
  | some user =>
    if user.id = admin.id then .error 400 "Cannot deactivate your own account"
    else { result := .ok .done, commit := some { user with is_active := false } }

/-! ## Requests that say who makes them -/

inductive UserRequest
  | register (id : String) (body : RegisterRequest)
  | changePassword (current_password new_password : Text)
  | adminResetPassword (username new_password : Text)
  | totpSetup (secret encrypted : Text)
  | totpConfirm (code : Text)
  | totpDisable (password code : Text)
  | getCurrentUserInfo
  | logout
  | listApiKeyScopes
  | listApiKeys
  | key (request : KeyRequest)
  | listUsers
  | updateUser (user_id : String) (body : UserUpdateRequest)
  | deactivateUser (user_id : String)

def Decision.save (d : Decision) (db : Database) : Except HTTPException Response × Database :=
  (d.result, { db with users := (d.commit.map db.users.replace).getD db.users })

/-- `require_admin` before the endpoint. -/
def requireAdmin (user : User) (d : Decision) : Decision :=
  if user.is_admin then d else { result := .error notAdmin }

/-- `select(User).where(User.username == username)`; the column is unique. -/
def findUsername (db : Database) (username : Text) : Option User :=
  db.users.rows.find? fun u => u.username == username

/-- `owned` are the addresses of the user's mailboxes. -/
def UserRequest.serve (s : Server) (now : Int) (owned : List Text) (auth : AuthContext)
    (db : Database) : UserRequest → Except HTTPException Response × Database
  | .register id body =>
    if auth.user.is_admin then
      match Auth.register s id body db.users with
      | .error e => (.error e, db)
      | .ok (user, users) => (.ok (.user user.response), { db with users })
    else (.error notAdmin, db)
  | .changePassword current_password new_password =>
    (Auth.changePassword s now auth.user current_password new_password).save db
  | .adminResetPassword username new_password =>
    (requireAdmin auth.user
      (Auth.adminResetPassword s (findUsername db username) username new_password)).save db
  | .totpSetup secret encrypted => (Auth.totpSetup auth.user secret encrypted).save db
  | .totpConfirm code => (Auth.totpConfirm s now auth.user code).save db
  | .totpDisable password code => (Auth.totpDisable s now auth.user password code).save db
  | .getCurrentUserInfo => (.ok (.user auth.user.response), db)
  | .logout => (Auth.logout auth.user).save db
  | .listApiKeyScopes => (.ok (.scopes allScopes), db)
  | .listApiKeys =>
    match auth.requireScope apikeyRead with
    | .error e => (.error e, db)
    | .ok _ => (.ok (.keys (db.api_keys.rows.filter fun key => key.user_id == auth.user.id)), db)
  | .key request =>
    match request.serve s.lowercase s.argon2 owned auth db.api_keys with
    | .error e => (.error e, db)
    | .ok (made, api_keys) => (.ok ((made.map Response.key).getD .done), { db with api_keys })
  | .listUsers =>
    if auth.user.is_admin then (.ok (.users (db.users.rows.map User.response)), db)
    else (.error notAdmin, db)
  | .updateUser user_id body =>
    (requireAdmin auth.user (Auth.updateUser auth.user (db.users.find user_id) body)).save db
  | .deactivateUser user_id =>
    (requireAdmin auth.user (Auth.deactivateUser auth.user (db.users.find user_id))).save db

end MailCue.Backend.Auth
