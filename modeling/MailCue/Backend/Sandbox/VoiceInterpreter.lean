import MailCue.Lib.Json

/-!
# Voice documents

backend/app/sandbox/voice/interpreter.py: TwiML, TeXML, BXML, Plivo XML and NCCO, read
into the actions of a call. Reading XML and JSON, Python's `int`, `float` and `str` and
the case of a text are parameters. What no worker reads of an action is left out where
reading it cannot raise.
-/
namespace MailCue.Backend.Sandbox.Voice
open MailCue.Lib

inductive VoiceActionType
  | say | play | gather | record | pause | hangup | redirect | dial | reject | conversation
  deriving DecidableEq, Repr

structure VoiceAction where
  type : VoiceActionType
  text : Option Text := none
  url : Option Text := none
  method : Text := "POST".toList
  timeout : Int := 5
  num_digits : Option Int := none
  action_url : Option Text := none
  action_method : Text := "POST".toList
  max_length : Option Int := none
  loop : Int := 1
  dial_to : Json := .null
  input_types : List Text := ["dtmf".toList]

/-- An XML element; `text` is what stands in front of its first child. -/
inductive Element
  | mk (tag : Text) (attrib : List (Text × Text)) (text : Option Text) (children : List Element)

/-- A document whose reading raises. -/
inductive Unreadable
  | raised
  deriving DecidableEq, Repr

structure Python where
  /-- `ET.fromstring`, `none` for a `ParseError`. -/
  fromstring : Text → Except Unreadable (Option Element)
  /-- `json.loads`, `none` for a `JSONDecodeError`. -/
  loads : Text → Except Unreadable (Option Json)
  lower : Text → Text
  upper : Text → Text
  /-- `none` where these raise. -/
  int : Text → Option Int
  intOfFloat : Text → Option Int
  intOfJson : Json → Option Int
  str : Json → Text

variable (py : Python)

/-! ## Elements -/

namespace Element

def tag : Element → Text
  | mk tag _ _ _ => py.lower tag

def children : Element → List Element
  | mk _ _ _ children => children

def stripped : Element → Text
  | mk _ _ text _ => Text.strip Text.isSpace (text.getD [])

/-- Of two attributes whose names differ in case only, the last counts. -/
def attr (name : String) : Element → Option Text
  | mk _ attrib _ _ =>
    (attrib.reverse.find? fun (key, _) => py.lower key == name.toList).map Prod.snd

def attrD (name : String) (default : String) (e : Element) : Text :=
  (e.attr py name).getD default.toList

def method (name : String) (e : Element) : Text := py.upper (e.attrD py name "POST")

end Element

def number (read : Text → Option Int) (value : Text) : Except Unreadable Int :=
  match read value with
  | some n => .ok n
  | none => .error .raised

/-- `int(attrs.get(name, default))` -/
def intAttr (name : String) (default : Int) (e : Element) : Except Unreadable Int :=
  match e.attr py name with
  | none => .ok default
  | some value => number py.int value

def intAttr? (name : String) (e : Element) : Except Unreadable (Option Int) :=
  match e.attr py name with
  | none => .ok none
  | some value => (number py.int value).map some

/-- A text that is not empty. -/
def present (text : Text) : Option Text := if text = [] then none else some text

/-- `text or fallback` -/
def orElse (text fallback : Option Text) : Option Text :=
  match text with
  | some (c :: rest) => some (c :: rest)
  | _ => fallback

/-- What the elements inside say. -/
def prompts (e : Element) : Option Text :=
  present (" ".toList.intercalate ((e.children.map Element.stripped).filter (· ≠ [])))

/-- The text of the last element inside with this tag. -/
def inner (tag : String) (e : Element) : Option Text :=
  ((e.children.reverse.find? (·.tag py == tag.toList)).map Element.stripped).bind present

def dialTo (number : Option Text) : Json := (number.map Json.str).getD .null

/-- The `<Response>` of a document, verb by verb; of one that is not XML or has another
root there are no actions. -/
def response (verb : Element → Except Unreadable (Option VoiceAction)) (body : Text) :
    Except Unreadable (List VoiceAction) := do
  match ← py.fromstring (Text.strip Text.isSpace body) with
  | none => return []
  | some root =>
    if root.tag py ≠ "response".toList then return []
    else return (← root.children.mapM verb).reduceOption

/-! ## TwiML and TeXML -/

def twimlVerb (child : Element) : Except Unreadable (Option VoiceAction) := do
  let tag := String.ofList (child.tag py)
  let text := child.stripped
  if tag = "say" then
    let loop ← intAttr py "loop" 1 child
    return some { type := .say, text := some text, loop := loop }
  else if tag = "play" then
    let loop ← intAttr py "loop" 1 child
    return some { type := .play, url := present text, loop := loop }
  else if tag = "pause" then
    let timeout ← intAttr py "length" 1 child
    return some { type := .pause, timeout := timeout }
  else if tag = "hangup" then return some { type := .hangup }
  else if tag = "reject" then return some { type := .reject }
  else if tag = "redirect" then
    return some { type := .redirect, url := orElse (some text) (child.attr py "url"),
                  method := child.method py "method" }
  else if tag = "gather" then
    let timeout ← intAttr py "timeout" 5 child
    let num_digits ← intAttr? py "numdigits" child
    return some { type := .gather, text := prompts child, action_url := child.attr py "action",
                  action_method := child.method py "method", timeout := timeout,
                  num_digits := num_digits,
                  input_types :=
                    ((child.attrD py "input" "dtmf").splitOnP Text.isSpace).filter (· ≠ []) }
  else if tag = "record" then
    let max_length ← intAttr py "maxlength" 3600 child
    return some { type := .record, action_url := child.attr py "action",
                  action_method := child.method py "method", max_length := some max_length }
  else if tag = "dial" then
    let timeout ← intAttr py "timeout" 30 child
    return some { type := .dial, dial_to := dialTo (orElse (some text) (inner py "number" child)),
                  action_url := child.attr py "action", timeout := timeout }
  else return none

def parseTwiml : Text → Except Unreadable (List VoiceAction) := response py (twimlVerb py)

def parseTexml : Text → Except Unreadable (List VoiceAction) := parseTwiml py

/-! ## BXML -/

def bxmlVerb (child : Element) : Except Unreadable (Option VoiceAction) := do
  let tag := String.ofList (child.tag py)
  let text := child.stripped
  if tag = "speaksentence" then return some { type := .say, text := some text }
  else if tag = "playaudio" then return some { type := .play, url := present text }
  else if tag = "pause" then
    let timeout ← number py.intOfFloat (child.attrD py "duration" "1")
    return some { type := .pause, timeout := timeout }
  else if tag = "hangup" then return some { type := .hangup }
  else if tag = "redirect" then
    return some { type := .redirect, url := child.attr py "redirecturl",
                  method := child.method py "redirectmethod" }
  else if tag = "gather" then
    let timeout ← intAttr py "firstdigittimeout" 5 child
    let num_digits ← intAttr? py "maxdigits" child
    return some { type := .gather, text := prompts child, action_url := child.attr py "gatherurl",
                  action_method := child.method py "gathermethod", timeout := timeout,
                  num_digits := num_digits }
  else if tag = "record" then
    let max_length ← intAttr py "maxduration" 300 child
    return some { type := .record, action_url := child.attr py "recordcompleteurl",
                  action_method := child.method py "recordcompletemethod",
                  max_length := some max_length }
  else if tag = "transfer" then
    return some { type := .dial, dial_to := dialTo (inner py "phonenumber" child),
                  action_url := child.attr py "transfercompleteurl" }
  else return none

def parseBxml : Text → Except Unreadable (List VoiceAction) := response py (bxmlVerb py)

/-! ## Plivo XML -/

def plivoVerb (child : Element) : Except Unreadable (Option VoiceAction) := do
  let tag := String.ofList (child.tag py)
  let text := child.stripped
  if tag = "speak" then
    let loop ← intAttr py "loop" 1 child
    return some { type := .say, text := some text, loop := loop }
  else if tag = "play" then return some { type := .play, url := present text }
  else if tag = "wait" then
    let timeout ← intAttr py "length" 1 child
    return some { type := .pause, timeout := timeout }
  else if tag = "hangup" then return some { type := .hangup }
  else if tag = "redirect" then
    return some { type := .redirect, url := orElse (some text) (child.attr py "url"),
                  method := child.method py "method" }
  else if tag = "getdigits" then
    let timeout ← intAttr py "timeout" 5 child
    let num_digits ← intAttr? py "numdigits" child
    return some { type := .gather, action_url := child.attr py "action",
                  action_method := child.method py "method", timeout := timeout,
                  num_digits := num_digits }
  else if tag = "record" then
    let max_length ← intAttr py "maxlength" 60 child
    return some { type := .record, action_url := child.attr py "action",
                  action_method := child.method py "method", max_length := some max_length }
  else if tag = "dial" then
    let timeout ← intAttr py "timeout" 30 child
    return some { type := .dial,
                  dial_to := dialTo (orElse (inner py "number" child) (present text)),
                  action_url := child.attr py "action", timeout := timeout }
  else return none

def parsePlivoXml : Text → Except Unreadable (List VoiceAction) := response py (plivoVerb py)

/-! ## NCCO -/

namespace Ncco

/-- `entry.get(name)`; of a name that is there twice the last counts. -/
def get (entry : Json.Fields) (name : String) : Option Json :=
  (entry.reverse.find? (·.1 == name)).map Prod.snd

def truthy : Json → Bool
  | .null => false
  | .bool b => b
  | .num n => n != 0
  | .str s => !s.isEmpty
  | .arr elements => !elements.isEmpty
  | .obj fields => !fields.isEmpty

/-- `entry.get(name) or default` -/
def getOr (entry : Json.Fields) (name : String) (default : Json) : Json :=
  match get entry name with
  | some value => if truthy value then value else default
  | none => default

def int (value : Json) : Except Unreadable Int :=
  match py.intOfJson value with
  | some n => .ok n
  | none => .error .raised

def intField (entry : Json.Fields) (name : String) (default : Int) : Except Unreadable Int :=
  int py ((get entry name).getD (.num default))

def strField (entry : Json.Fields) (name : String) (default : String) : Text :=
  py.str ((get entry name).getD (.str default.toList))

/-- The first of the URLs, where the field is a list. -/
def firstUrl (entry : Json.Fields) (name : String) : Option Text :=
  match getOr entry name (.arr []) with
  | .arr (url :: _) => some (py.str url)
  | _ => none

def inputTypes (entry : Json.Fields) : List Text :=
  match getOr entry "type" (.arr [.str "dtmf".toList]) with
  | .arr types => types.map py.str
  | _ => ["dtmf".toList]

def endpoint (entry : Json.Fields) : Json :=
  match getOr entry "endpoint" (.arr []) with
  | .arr (.obj fields :: _) => (get fields "number").getD .null
  | _ => .null

def action (entry : Json.Fields) : Except Unreadable (Option VoiceAction) := do
  let action_name := String.ofList (py.lower (strField py entry "action" ""))
  if action_name = "talk" then
    let loop ← intField py entry "loop" 1
    return some { type := .say, text := some (strField py entry "text" ""), loop := loop }
  else if action_name = "stream" then
    return (firstUrl py entry "streamUrl").map fun url => { type := .play, url := some url }
  else if action_name = "input" then
    let dtmf := match getOr entry "dtmf" (.obj []) with
      | .obj fields => some fields
      | _ => none
    let timeout ← match dtmf with
      | some fields => intField py fields "timeOut" 5
      | none => .ok 5
    let num_digits ← match dtmf.bind (get · "maxDigits") with
      | some digits => (int py digits).map some
      | none => .ok none
    return some { type := .gather, action_url := firstUrl py entry "eventUrl",
                  action_method := py.upper (strField py entry "eventMethod" "POST"),
                  timeout := timeout, num_digits := num_digits, input_types := inputTypes py entry }
  else if action_name = "record" then
    let max_length ← match get entry "endOnSilence" with
      | some silence => int py silence
      | none => int py (getOr entry "endOnKey" (.num 3600))
    return some { type := .record, action_url := firstUrl py entry "eventUrl",
                  action_method := py.upper (strField py entry "eventMethod" "POST"),
                  max_length := some max_length }
  else if action_name = "connect" then
    let timeout ← intField py entry "timeout" 30
    return some { type := .dial, dial_to := endpoint entry, timeout := timeout }
  else if action_name = "conversation" then return some { type := .conversation }
  else return none

end Ncco

def parseNcco (body : Text) : Except Unreadable (List VoiceAction) := do
  match ← py.loads body with
  | some (.arr entries) =>
    let actions ← entries.mapM fun entry =>
      match entry with
      | .obj fields => Ncco.action py fields
      | _ => .ok none
    return actions.reduceOption
  | _ => return []

/-! ## By provider -/

/-- `_parse_for_provider` -/
def parseForProvider (provider_type : String) (body : Text) :
    Except Unreadable (List VoiceAction) :=
  if provider_type = "twilio" then parseTwiml py body
  else if provider_type = "bandwidth" then parseBxml py body
  else if provider_type = "plivo" then parsePlivoXml py body
  else if provider_type = "telnyx" then parseTexml py body
  else if provider_type = "vonage" then parseNcco py body
  else .ok []

end MailCue.Backend.Sandbox.Voice
