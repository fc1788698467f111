import MailCue.Backend.Emails.AuthenticationResults
import MailCue.Backend.Sandbox.Models
import MailCue.Backend.Sandbox.VoiceInterpreter
import MailCue.Lib.Form

/-!
# Webhooks of the Twilio sandbox

backend/app/sandbox/providers/twilio/router.py (`build_webhook_payload`,
`build_webhook_signer`), signers.py (`make_twilio_signer`) and webhook_worker.py: what is
sent to an endpoint for a message. The HMAC with its encoding is a parameter.
-/
namespace MailCue.Backend.Sandbox.Twilio
open MailCue.Lib
open MailCue.Backend.Emails.Deliverability (caselessWord)
open Voice.Ncco (get getOr)

/-- `str` of a value, and the digits of `\d`. -/
structure Python where
  str : Json → Text
  str_text : ∀ text, str (.str text) = text
  isDecimal : Char → Bool

/-- `str` of texts, and the digits of ASCII. -/
def Python.plain : Python where
  str value := value.text.getD []
  str_text _ := rfl
  isDecimal := Char.isDigit

abbrev Headers := List (String × Text)

/-- `base64(hmac_sha1(auth_token, signing_base))` -/
abbrev Mac := Text → Text → Text

/-! ## The payload -/

/-- What `len` and a loop see of a value, where it has a length. -/
def items : Json → Option (List Json)
  | .arr elements => some elements
  | .str text => some (text.map fun c => .str [c])
  | .obj fields => some (fields.map fun entry => .str entry.1.toList)
  | _ => none

def mediaUrls (message : SandboxMessage) : Option (List Json) :=
  items (getOr message.metadata_json "media_urls" (.arr []))

def accountSid (message : SandboxMessage) : Json :=
  (get message.metadata_json "account_sid").getD (.str [])

def fromNumber (message : SandboxMessage) : Json :=
  (get message.metadata_json "from").getD (.str message.sender.toList)

def toNumber (message : SandboxMessage) : Json :=
  (get message.metadata_json "to").getD (.str [])

def sid (message : SandboxMessage) : Text :=
  let derived := "SM".toList ++ message.id.toList.filter (· != '-')
  match message.external_id with
  | some external_id => if external_id.toList = [] then derived else external_id.toList
  | none => derived

def isInbound (message : SandboxMessage) : Bool := message.direction == "inbound"

def text (s : String) : Json := .str s.toList

def field (name : String) (value : Json) : Text × Json := (name.toList, value)

/-- `MediaUrl0..N` and `MediaContentType0..N`. -/
def mediaFields (media_urls : List Json) : List (Text × Json) :=
  media_urls.zipIdx.flatMap fun (url, idx) =>
    [("MediaUrl".toList ++ Nat.toDigits 10 idx, url),
      ("MediaContentType".toList ++ Nat.toDigits 10 idx, text "image/jpeg")]

/-- `status` of an event. -/
def statusOf (event_type : Text) : Text :=
  let status :=
    if '.' ∈ event_type ∧ "message.".toList.isPrefixOf event_type then
      event_type.drop "message.".toList.length
    else event_type
  if status = "created".toList ∨ status = "received".toList then "queued".toList else status

def payloadFields (message : SandboxMessage) (event_type : Text) (media_urls : List Json) :
    List (Text × Json) :=
  if isInbound message then
    [field "MessageSid" (.str (sid message)),
      field "SmsMessageSid" (.str (sid message)),
      field "SmsSid" (.str (sid message)),
      field "AccountSid" (accountSid message),
      field "From" (fromNumber message),
      field "To" (toNumber message),
      field "Body" (text (message.content.getD "")),
      field "NumMedia" (.str (Nat.toDigits 10 media_urls.length)),
      field "NumSegments" (text "1"),
      field "ApiVersion" (text "2010-04-01")] ++ mediaFields media_urls
  else
    [field "MessageSid" (.str (sid message)),
      field "SmsMessageSid" (.str (sid message)),
      field "SmsSid" (.str (sid message)),
      field "AccountSid" (accountSid message),
      field "From" (fromNumber message),
      field "To" (toNumber message),
      field "Body" (text (message.content.getD "")),
      field "MessageStatus" (.str (statusOf event_type)),
      field "NumMedia" (.str (Nat.toDigits 10 media_urls.length)),
      field "NumSegments" (text "1"),
      field "ApiVersion" (text "2010-04-01")]

/-- `build_webhook_payload`: nothing where `len` raises. -/
def buildWebhookPayload (message : SandboxMessage) (event_type : Text) :
    Option (List (Text × Json)) :=
  payloadFields message event_type <$> mediaUrls message

/-! ## The signature -/

/-- `form_params` of the signer. -/
def formParams (message : SandboxMessage) (media_urls : List Json) : List (Text × Json) :=
  [field "MessageSid" (.str (sid message)),
    field "SmsMessageSid" (.str (sid message)),
    field "SmsSid" (.str (sid message)),
    field "AccountSid" (accountSid message),
    field "From" (fromNumber message),
    field "To" (toNumber message),
    field "Body" (text (message.content.getD "")),
    field "NumMedia" (.str (Nat.toDigits 10 media_urls.length)),
    field "NumSegments" (text "1"),
    field "ApiVersion" (text "2010-04-01")] ++
  (if isInbound message then [] else [field "MessageStatus" (text "queued")]) ++
  mediaFields media_urls

/-- Names and values one behind another. -/
def joined (fields : List (Text × Text)) : Text := fields.flatMap fun pair => pair.1 ++ pair.2

section
variable (py : Python) (mac : Mac)

/-- A field that is signed. -/
def signedPair (entry : Text × Json) : Option (Text × Text) :=
  match entry.2 with
  | .null => none
  | value => some (entry.1, py.str value)

def signingBase (url : Text) (form_params : List (Text × Json)) : Text :=
  url ++ joined (Form.sortedPairs (form_params.filterMap (signedPair py)))

def signatureHeader : String := "X-Twilio-Signature"

/-- `make_twilio_signer` -/
def makeTwilioSigner (auth_token url : Text) (form_params : List (Text × Json))
    (headers : Headers) : Headers :=
  headers.filter (·.1 != signatureHeader) ++
    [(signatureHeader, mac auth_token (signingBase py url form_params))]

def authToken (provider_record : SandboxProvider) : Text :=
  py.str (getOr provider_record.credentials "auth_token" (.str []))

/-- `build_webhook_signer`: no signer without a token, and nothing where `len` raises. -/
def buildWebhookSigner (message : SandboxMessage) (provider_record : SandboxProvider)
    (url : Text) : Option (Option (Headers → Headers)) :=
  if authToken py provider_record = [] then some none
  else do
    let media_urls ← mediaUrls message
    return some (makeTwilioSigner py mac (authToken py provider_record) url
      (formParams message media_urls))

/-! ## The delivery -/

/-- A field as it is sent. -/
def sentPair (entry : Text × Json) : Text × Text :=
  match entry.2 with
  | .null => (entry.1, [])
  | value => (entry.1, py.str value)

/-- `_serialise_payload` of a dict with the content type `form`. -/
def serialisePayload (payload : List (Text × Json)) : Text :=
  Form.urlencode (payload.map (sentPair py))

def LOCALHOST_PORT_RE : Pattern :=
  .sequence [
    .group 1 (.sequence [caselessWord "http", .either (caselessWord "s") .nothing,
      caselessWord "://"]),
    .group 2 (.either (caselessWord "localhost") (caselessWord "127.0.0.1")),
    .one (· == ':'),
    .group 3 (.atLeastOne py.isDecimal),
    .either (.group 4 (.seq (.one (· == '/')) (.run (· != '\n')))) .nothing]

/-- `$` -/
def atEnd (place : Place) : Bool := place.rest == [] || place.rest == ['\n']

/-- `_rewrite_localhost_url` -/
def rewriteLocalhostUrl (url : Text) : Text :=
  match (LOCALHOST_PORT_RE py).ways (fun _ => false) { rest := url } |>.find? atEnd with
  | none => url
  | some place =>
    (place.group 1).getD [] ++ (place.group 2).getD [] ++ ":80".toList ++
      (place.group 4).getD ['/']

example : rewriteLocalhostUrl .plain "http://localhost:8088/hooks?a=1".toList =
    "http://localhost:80/hooks?a=1".toList := by decide +kernel

structure Request where
  url : Text
  headers : Headers
  body : Text

/-- What `_deliver_to_endpoint` posts, in each attempt. -/
def deliverToEndpoint (message : SandboxMessage) (provider_record : SandboxProvider)
    (endpoint : SandboxWebhookEndpoint) : Option Request := do
  let event_type :=
    if isInbound message then "message.received".toList else "message.created".toList
  let payload ← buildWebhookPayload message event_type
  let base_headers := [("Content-Type", "application/x-www-form-urlencoded".toList),
    ("User-Agent", "MailCue-Sandbox/1.0".toList)]
  let delivery_url := rewriteLocalhostUrl py endpoint.url.toList
  let signer ← buildWebhookSigner py mac message provider_record delivery_url
  return {
    url := delivery_url
    headers := signer.elim base_headers (· base_headers)
    body := serialisePayload py payload }

end

end MailCue.Backend.Sandbox.Twilio
