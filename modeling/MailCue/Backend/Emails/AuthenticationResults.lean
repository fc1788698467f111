import Mathlib.Algebra.Order.Ring.Rat
import MailCue.Backend.Emails.SmtpReply
import MailCue.Lib.Pattern

/-!
# Authentication of a received message

backend/app/emails/deliverability.py: the results a receiver wrote into the header, and
the SPF, DKIM and DMARC checks of the report. Header fields are given as the parser of
the message unfolds and decodes them. `str.lower` and the word characters run over all
of Unicode and are parameters, and so is `email.utils.parseaddr`.
-/
namespace MailCue.Backend.Emails.Deliverability
open MailCue.Lib

structure Settings where
  hostname : Text
  domain : Text

/-- The service, with what Python makes of characters and addresses. -/
structure Receiver extends PyText where
  lower_ascii : ∀ text, (∀ c ∈ text, Text.ascii c = true) →
    lowering.lower text = Text.asciiLower text
  /-- The address of the pair; of nothing it is empty. -/
  parseaddr : Text → Text
  parseaddr_nil : parseaddr [] = []
  settings : Settings

structure HeaderField where
  name : Text
  value : Text
  deriving DecidableEq

/-! ## The expressions -/

/-- What `re.IGNORECASE` takes for a small letter of ASCII. -/
def caseless (c : Char) : Char :=
  if c = '\u0130' ∨ c = '\u0131' then 'i'
  else if c = '\u017f' then 's'
  else if c = '\u212a' then 'k'
  else c.toLower

/-- `[a-z]`. -/
def isLetter (c : Char) : Bool := 'a' ≤ caseless c && caseless c ≤ 'z'

/-- `[a-z0-9_.-]`. -/
def isNameChar (c : Char) : Bool := isLetter c || c.isDigit || c == '_' || c == '.' || c == '-'

def caselessWord (letters : String) : Pattern :=
  Pattern.word (fun letter c => caseless c == letter) letters.toList

def equalsSign : Pattern :=
  .sequence [.run Text.isSpace, .one (· == '='), .run Text.isSpace]

def AUTH_RESULT_RE : Pattern :=
  .sequence [.boundary,
    .group 1 (.oneOf [caselessWord "spf", caselessWord "dkim", caselessWord "dmarc"]),
    equalsSign, .group 2 (.atLeastOne isLetter)]

def RECEIVED_SPF_RESULT_RE : Pattern :=
  .sequence [.run Text.isSpace,
    .group 1 (.oneOf (["pass", "fail", "softfail", "neutral", "none", "temperror",
      "permerror"].map caselessWord)),
    .boundary]

def PROPERTY_RE : Pattern :=
  .sequence [.boundary, .group 1 (.seq (.one isLetter) (.run isNameChar)), equalsSign,
    .either
      (.sequence [.one (· == '"'), .group 2 (.run (· != '"')), .one (· == '"')])
      (.group 3 (.atLeastOne fun c => !Text.isSpace c && c != ';'))]

/-! ## Domains -/

def orNone (text : Text) : Option Text := if text = [] then none else some text

section
variable (r : Receiver)

def Receiver.lower (text : Text) : Text := r.lowering.lower text

/-- `_domain`. -/
def Receiver.domain (address : Text) : Option Text :=
  let parsed := r.lower (r.parseaddr address)
  if '@' ∈ parsed then orNone ((Text.afterLast '@' parsed).rdropWhile (· == '.')) else none

def Receiver.identityDomain (value : Option Text) : Option Text :=
  let trimmed := Text.strip (fun c => c == '<' || c == '>') (Text.strip Text.isSpace (value.getD []))
  let normalized := (r.lower trimmed).rdropWhile (· == '.')
  if value.getD [] = [] then none
  else if normalized = [] then none
  else if '@' ∈ normalized then r.domain normalized
  else some normalized

def Receiver.aligned (left right : Option Text) : Bool :=
  match r.identityDomain left, r.identityDomain right with
  | some left, some right =>
    left == right || ('.' :: right).isSuffixOf left || ('.' :: left).isSuffixOf right
  | _, _ => false

/-! ## The results in the header -/

def Receiver.trustedAuthservIds : List Text :=
  ["mailcue".toList, r.settings.hostname, "mx1.".toList ++ r.settings.domain].filterMap fun candidate =>
    let candidate := Text.strip Text.isSpace candidate
    if candidate = [] then none else some ((r.lower candidate).rdropWhile (· == '.'))

def Receiver.authservId (value : Text) : Option Text :=
  if ';' ∈ value then
    let preamble := value.takeWhile (· != ';')
    let token := (preamble.dropWhile Text.isSpace).takeWhile fun c => !Text.isSpace c
    orNone ((r.lower (Text.strip (· == '"') token)).rdropWhile (· == '.'))
  else none

def Receiver.trusts (id : Option Text) : Bool := id.any fun id => r.trustedAuthservIds.contains id

/-- `msg.get_all`, by the name in lower case. -/
def Receiver.getAll (fields : List HeaderField) (name : String) : List Text :=
  (fields.filter fun field => r.lower field.name == name.toList).map (·.value)

/-- A dictionary as its comprehension makes it, the last value of a key on top. -/
abbrev Properties := List (Text × Option Text)

def Properties.get (properties : Properties) (key : String) : Option (Option Text) :=
  (properties.find? fun entry => entry.1 == key.toList).map (·.2)

def Receiver.properties (text : Text) : Properties :=
  ((Pattern.allMatches r.isWord PROPERTY_RE text).map fun found =>
    (r.lower ((found.group 1).getD []), ((found.group 2).bind orNone).or (found.group 3))).reverse

/-- Of one segment of the field: the method, the result and the properties. -/
def Receiver.segmentResult (segment : Text) : Option (Text × Text × Properties) :=
  (Pattern.search r.isWord AUTH_RESULT_RE segment).map fun found =>
    (r.lower ((found.group 1).getD []), r.lower ((found.group 2).getD []), r.properties segment)

def Receiver.fieldResults (value : Text) : List (Text × Text × Properties) :=
  if r.trusts (r.authservId value) then ((value.splitOn ';').tail).filterMap r.segmentResult else []

def Receiver.authenticationResults (fields : List HeaderField) : List (Text × Text × Properties) :=
  (r.getAll fields "authentication-results").flatMap r.fieldResults

def Receiver.receivedSpf (value : Text) : Option (Text × Properties) :=
  (Pattern.atStart r.isWord RECEIVED_SPF_RESULT_RE value).bind fun found =>
    let properties := r.properties value
    if r.trusts (r.identityDomain (properties.get "receiver").join) then
      some (r.lower ((found.group 1).getD []),
        [("smtp.mailfrom".toList, (properties.get "envelope-from").getD (some [])),
          ("smtp.helo".toList, (properties.get "helo").getD (some []))])
    else none

/-- Those of one method; `Received-SPF` counts where no other field has a result of SPF. -/
def Receiver.parsedAuthenticationResults (fields : List HeaderField) (method : Text) :
    List (Text × Properties) :=
  let parsed := ((r.authenticationResults fields).filter fun result => result.1 == method).map (·.2)
  if method = "spf".toList ∧ parsed = [] then
    ((r.getAll fields "received-spf").findSome? r.receivedSpf).toList
  else parsed

/-! ## The checks -/

inductive CheckStatus where
  | pass | warning | fail | info
  deriving DecidableEq

structure DeliverabilityCheck where
  id : String
  category : String
  title : String
  status : CheckStatus
  summary : Text
  details : List Text := []
  recommendation : Option String
  points : Rat
  max_points : Rat
  deriving DecidableEq

inductive AuthMethod where
  | spf | dkim | dmarc
  deriving DecidableEq

namespace AuthMethod

def name : AuthMethod → String
  | spf => "spf"
  | dkim => "dkim"
  | dmarc => "dmarc"

def title : AuthMethod → String
  | spf => "SPF"
  | dkim => "DKIM"
  | dmarc => "DMARC"

def weight : AuthMethod → Rat
  | spf => 10
  | dkim => 15
  | dmarc => 15

def recommendation : AuthMethod → String
  | spf => "Publish SPF for the envelope sender and authorize this sending IP."
  | dkim => "Sign the message with DKIM using the visible From domain."
  | dmarc => "Publish DMARC and align SPF or DKIM with the visible From domain."

end AuthMethod

def best (results : List (Text × Properties)) : Option (Text × Properties) :=
  (results.find? fun item => item.1 == "pass".toList).or results.head?

def Receiver.authDomain (method : AuthMethod) (properties : Properties) : Option Text :=
  match method with
  | .spf => (r.identityDomain (properties.get "smtp.mailfrom").join).or
      (r.identityDomain (properties.get "smtp.helo").join)
  | .dkim => r.identityDomain (properties.get "header.d").join
  | .dmarc => r.identityDomain (properties.get "header.from").join

/-- Status, points and summary of a result. -/
def AuthMethod.verdict (method : AuthMethod) (result : Text) (alignment : Bool) :
    CheckStatus × Rat × Text :=
  if result = "pass".toList ∧ (method = .dmarc ∨ alignment) then
    (.pass, method.weight, s!"{method.title} passed".toList ++
      (if method = .dmarc then "." else " with aligned identity.").toList)
  else if result = "pass".toList then
    (.warning, method.weight * (6 / 10),
      s!"{method.title} passed, but its domain is not aligned with the visible From domain.".toList)
  else if ["neutral", "none", "softfail", "temperror"].any fun word => word.toList == result then
    (.warning, method.weight * (25 / 100),
      s!"The receiver reported {method.title} ".toList ++ result ++ ['.'])
  else (.fail, 0, s!"The receiver reported {method.title} ".toList ++ result ++ ['.'])

def Receiver.resultCheck (method : AuthMethod) (sender_domain : Option Text) (result : Text)
    (properties : Properties) : DeliverabilityCheck :=
  let auth_domain := r.authDomain method properties
  let alignment := r.aligned auth_domain sender_domain
  let verdict := method.verdict result alignment
  { id := method.name, category := "authentication", title := method.title
    status := verdict.1, summary := verdict.2.2
    details := ("Receiver result: ".toList ++ result) ::
      ((auth_domain.map fun domain => "Authenticated domain: ".toList ++ domain).toList ++
        if method ≠ .dmarc ∧ result = "pass".toList then
          ["Visible From alignment: ".toList ++
            (if alignment then "aligned" else "not aligned").toList]
        else [])
    recommendation := if verdict.1 = .pass then none else some method.recommendation
    points := verdict.2.1, max_points := method.weight }

def Receiver.authenticationCheck (fields : List HeaderField) (sender_domain : Option Text)
    (method : AuthMethod) : DeliverabilityCheck :=
  match best (r.parsedAuthenticationResults fields method.name.toList) with
  | none =>
    { id := method.name, category := "authentication", title := method.title, status := .fail
      summary := s!"No receiver-verified {method.title} result was found.".toList
      recommendation := some method.recommendation, points := 0, max_points := method.weight }
  | some (result, properties) => r.resultCheck method sender_domain result properties

def Receiver.authenticationChecks (fields : List HeaderField) (sender_domain : Option Text) :
    List DeliverabilityCheck :=
  [.spf, .dkim, .dmarc].map (r.authenticationCheck fields sender_domain)

/-- `_domain(str(msg.get("From", "")))`. -/
def Receiver.senderDomain (fields : List HeaderField) : Option Text :=
  r.domain ((r.getAll fields "from").head?.getD [])

/-- The group `authentication` of `score_deliverability`. -/
def Receiver.scoreAuthentication (fields : List HeaderField) : List DeliverabilityCheck :=
  r.authenticationChecks fields (r.senderDomain fields)

end

end MailCue.Backend.Emails.Deliverability
