import MailCue.Lib.Fallible
import MailCue.Lib.Json
import MailCue.Lib.Table

/-!
# Forwarding rules

backend/app/forwarding/schemas.py, models.py and the requests of service.py that make,
change and delete rules. The column of a configuration holds it as JSON text; here it is
the document that text is read as. A body that pydantic coerces is given coerced, and the
column lengths, which SQLite does not check, are left out with the timestamps.
-/
namespace MailCue.Backend.Forwarding
open MailCue.Lib

/-! ## Configurations -/

inductive ActionType
  | smtp_forward | webhook
  deriving DecidableEq, Repr

inductive WebhookMethod
  | POST | PUT | PATCH
  deriving DecidableEq, Repr

structure SmtpForwardConfig where
  to_address : Text
  deriving DecidableEq, Repr

structure WebhookConfig where
  url : Text
  method : WebhookMethod := .POST
  headers : List (String × Text) := []
  deriving DecidableEq, Repr

/-- What the schemas use of pydantic and of the module `regex`. -/
structure Library where
  /-- `AnyHttpUrl`, as the text of the URL it makes. -/
  anyHttpUrl : Text → Option Text
  /-- `regex.compile`, with the message of what it raises. -/
  compile : Text → Except Text Unit

/-- `^[^\s@]+@[^\s@]+$` -/
def isForwardAddress (text : Text) : Bool :=
  match text.splitOn '@' with
  | [local_part, domain] =>
    !local_part.isEmpty && !domain.isEmpty && !(local_part ++ domain).any Text.isWhitespace
  | _ => false

def readMethod : Json → Option WebhookMethod
  | .str method =>
    if method = "POST".toList then some .POST
    else if method = "PUT".toList then some .PUT
    else if method = "PATCH".toList then some .PATCH
    else none
  | _ => none

/-- `dict[str, str]` -/
def readHeaders (value : Json) : Option (List (String × Text)) := do
  (← value.object).mapM fun header => (header.1, ·) <$> header.2.text

/-- `SmtpForwardConfig(**action_config)` -/
def SmtpForwardConfig.read (action_config : Json.Fields) : Option SmtpForwardConfig := do
  let to_address ← Json.required Json.text action_config "to_address"
  if 3 ≤ to_address.length ∧ to_address.length ≤ 254 ∧ isForwardAddress to_address then
    some ⟨to_address⟩
  else none

section
variable (lib : Library)

/-- `WebhookConfig(**action_config)` -/
def WebhookConfig.read (action_config : Json.Fields) : Option WebhookConfig := do
  let url ← Json.required (fun url => url.text.bind lib.anyHttpUrl) action_config "url"
  let method ← Json.withDefault readMethod .POST action_config "method"
  let headers ← Json.withDefault readHeaders [] action_config "headers"
  return { url, method, headers }

/-- The configuration is one for an action of this type. -/
def validates (action_type : ActionType) (action_config : Json.Fields) : Bool :=
  match action_type with
  | .smtp_forward => (SmtpForwardConfig.read action_config).isSome
  | .webhook => (WebhookConfig.read lib action_config).isSome

/-! ## Requests -/

/-- A field that is not set, null, or a value. -/
abbrev Patch (α : Type) := Option (Option α)

structure ForwardingRuleCreateRequest where
  name : Text
  enabled : Bool := true
  match_from : Option Text := none
  match_to : Option Text := none
  match_subject : Option Text := none
  match_mailbox : Option Text := none
  action_type : ActionType
  action_config : Json.Fields

structure ForwardingRuleUpdateRequest where
  name : Patch Text := none
  enabled : Patch Bool := none
  match_from : Patch Text := none
  match_to : Patch Text := none
  match_subject : Patch Text := none
  match_mailbox : Patch Text := none
  action_type : Patch ActionType := none
  action_config : Patch Json.Fields := none

inductive Failure
  /-- A field does not validate; the empty name stands for the body as a whole. -/
  | invalid (field : String) (message : Text)
  | notFound (rule_id : String)
  /-- `SmtpForwardConfig` or `WebhookConfig` raises in the service. -/
  | configuration
  /-- A column that cannot be null would be. -/
  | integrity

def MAX_PATTERN_LENGTH : Nat := 512

/-- `validate_regex_pattern`: no pattern for an empty one. -/
def validateRegexPattern (field : String) (v : Option Text) : Except Failure (Option Text) :=
  match v with
  | none => .ok none
  | some [] => .ok none
  | some v =>
    if MAX_PATTERN_LENGTH < v.length then
      .error (.invalid field
        s!"Regex pattern must not exceed {MAX_PATTERN_LENGTH} characters".toList)
    else
      match lib.compile v with
      | .error exc => .error (.invalid field ("Invalid regex pattern: ".toList ++ exc))
      | .ok () => .ok (some v)

/-- The validator runs on what is set. -/
def Patch.validateRegexPattern (field : String) (patch : Patch Text) :
    Except Failure (Patch Text) :=
  match patch with
  | none => .ok none
  | some v => some <$> Forwarding.validateRegexPattern lib field v

def ForwardingRuleCreateRequest.validate (body : ForwardingRuleCreateRequest) :
    Except Failure ForwardingRuleCreateRequest := do
  let match_from ← validateRegexPattern lib "match_from" body.match_from
  let match_to ← validateRegexPattern lib "match_to" body.match_to
  let match_subject ← validateRegexPattern lib "match_subject" body.match_subject
  if validates lib body.action_type body.action_config then
    return { body with match_from, match_to, match_subject }
  else .error (.invalid "" "Value error".toList)

/-- `validate_action_config`: checked when both are there. -/
def ForwardingRuleUpdateRequest.validateActionConfig (body : ForwardingRuleUpdateRequest) : Bool :=
  match body.action_type.join, body.action_config.join with
  | some action_type, some action_config => validates lib action_type action_config
  | _, _ => true

def ForwardingRuleUpdateRequest.validate (body : ForwardingRuleUpdateRequest) :
    Except Failure ForwardingRuleUpdateRequest := do
  let match_from ← body.match_from.validateRegexPattern lib "match_from"
  let match_to ← body.match_to.validateRegexPattern lib "match_to"
  let match_subject ← body.match_subject.validateRegexPattern lib "match_subject"
  if body.validateActionConfig lib then return { body with match_from, match_to, match_subject }
  else .error (.invalid "" "Value error".toList)

/-! ## The service -/

structure ForwardingRule where
  id : String
  user_id : String
  name : Text
  enabled : Bool := true
  match_from : Option Text := none
  match_to : Option Text := none
  match_subject : Option Text := none
  match_mailbox : Option Text := none
  action_type : ActionType
  action_config : Json.Fields

abbrev Rules := Table ForwardingRule.id

def getRule (rules : Rules) (rule_id user_id : String) : Except Failure ForwardingRule :=
  match rules.rows.find? fun rule => rule.id == rule_id && rule.user_id == user_id with
  | none => .error (.notFound rule_id)
  | some rule => .ok rule

/-- With the id that is drawn for the row. -/
def createRule (id user_id : String) (body : ForwardingRuleCreateRequest) (rules : Rules) :
    Except Failure Rules :=
  let rule : ForwardingRule :=
    { id, user_id, name := body.name, enabled := body.enabled
      match_from := body.match_from, match_to := body.match_to
      match_subject := body.match_subject, match_mailbox := body.match_mailbox
      action_type := body.action_type, action_config := body.action_config }
  match rules.insert rule with
  | none => .error .integrity
  | some rules => .ok rules

/-- `setattr` on a column that cannot be null. -/
def Patch.assign {α : Type} (patch : Patch α) (old : α) : Except Failure α :=
  match patch with
  | none => .ok old
  | some none => .error .integrity
  | some (some value) => .ok value

/-- The fields that are set, as they are set. -/
def ForwardingRule.assign (rule : ForwardingRule) (body : ForwardingRuleUpdateRequest) :
    Except Failure ForwardingRule := do
  let name ← body.name.assign rule.name
  let enabled ← body.enabled.assign rule.enabled
  let action_type ← body.action_type.assign rule.action_type
  let action_config ← body.action_config.assign rule.action_config
  return { rule with
    name, enabled, action_type, action_config
    match_from := body.match_from.getD rule.match_from
    match_to := body.match_to.getD rule.match_to
    match_subject := body.match_subject.getD rule.match_subject
    match_mailbox := body.match_mailbox.getD rule.match_mailbox }

def updateRule (rule_id user_id : String) (body : ForwardingRuleUpdateRequest) (rules : Rules) :
    Except Failure Rules := do
  let rule ← getRule rules rule_id user_id
  let effective_action_type := body.action_type.join.getD rule.action_type
  if body.action_config.join.any fun config => !validates lib effective_action_type config then
    .error .configuration
  else
    let rule ← rule.assign body
    return rules.replace rule

def deleteRule (rule_id user_id : String) (rules : Rules) : Except Failure Rules := do
  let rule ← getRule rules rule_id user_id
  return rules.erase rule.id

/-! ## Requests one after the other -/

inductive Request
  | create (id user_id : String) (body : ForwardingRuleCreateRequest)
  | update (rule_id user_id : String) (body : ForwardingRuleUpdateRequest)
  | delete (rule_id user_id : String)

/-- The endpoint: the body is validated first. -/
def Request.serve (rules : Rules) : Request → Except Failure Rules
  | create id user_id body => do
    let body ← body.validate lib
    createRule id user_id body rules
  | update rule_id user_id body => do
    let body ← body.validate lib
    updateRule lib rule_id user_id body rules
  | delete rule_id user_id => deleteRule rule_id user_id rules

/-- What fails leaves the rules as they are. -/
def Request.step (rules : Rules) (request : Request) : Rules :=
  match request.serve lib rules with
  | .ok rules => rules
  | .error _ => rules

end

end MailCue.Backend.Forwarding
