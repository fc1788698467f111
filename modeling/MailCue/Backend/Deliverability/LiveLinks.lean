import Mathlib
import MailCue.Backend.Emails.DeliverabilityScore

/-!
# Live links

backend/app/deliverability/links.py: the links of a message's HTML, and what a request to
each of them says. `asyncio.gather` gives all that is found, or what the first of them
raises.
-/
namespace MailCue.Backend.LiveLinks
open MailCue.Lib
open Emails.Inspector (ContentInspector)
open Emails.Deliverability (Raised Part Library ScoredCheck CheckStatus DeliverabilityCategory
  Points check number percentage)

/-- The network beside the libraries. -/
structure Network extends Library where
  /-- The addresses of a host, within the timeout. -/
  getaddrinfo : Text → Nat → Except Raised (List Text)
  /-- The status of a request: its method, URL and `Host`. -/
  request : String → Text → Text → Except Raised Nat
  ipv6 : IpAddress.Rendering

inductive EvidenceCode
  | unsupported | blocked_port | unsafe_or_unresolved | connection_error | redirect | ok
  | http_error
  deriving DecidableEq

inductive EvidenceValue
  | text (value : String)
  | status (code : Nat)
  deriving DecidableEq

structure DeliverabilityEvidence where
  code : EvidenceCode
  title : Text
  value : EvidenceValue
  description : String
  deriving DecidableEq

section
variable (net : Network)

/-! ## Links -/

/-- `feed`, with what it raises. -/
def feedAll (py : Emails.Inspector.Characters) :
    List Emails.Inspector.Event → ContentInspector → Except Raised ContentInspector
  | [], s => .ok s
  | event :: rest, s =>
    match event.handle py s with
    | (.ok (), s) => feedAll py rest s
    | (.error (), _) => .error .other

/-- An inspector fed with the text. -/
def Network.inspected (text : Text) : Except Raised ContentInspector := do
  let inspector ← feedAll net.characters (net.parser text).1 {}
  match (net.parser text).2 with
  | none => return inspector
  | some raised => .error raised

/-- `suppress(LookupError, UnicodeError)` around what adds links. -/
def suppressed : Except Raised (List Text) → Except Raised (List Text)
  | .error .lookupError => .ok []
  | .error .unicodeError => .ok []
  | links => links

def isHtml (part : Part) : Bool :=
  part.content_type == "text/html".toList && !part.isAttachment

/-- The links of one part. -/
def Network.partLinks (part : Part) : Except Raised (List Text) :=
  suppressed do
    let body ← part.content
    let inspector ← net.inspected (body.take 2000000)
    return inspector.links

def MAX_LINKS : Nat := 25

/-- `_extract_links` -/
def Network.extractLinks (raw : List UInt8) : Except Raised (List Text) := do
  let links ← ((net.message_from_bytes raw).parts.filter isHtml).mapM net.partLinks
  return links.flatten.eraseDups.take MAX_LINKS

/-! ## Requests -/

/-- `_display_url` of a URL that is split. -/
def displayUrl (parsed : Url.SplitResult) : Text :=
  (Url.urlunsplit { parsed with path := parsed.path.take 300, query := [], fragment := [] }).take
    500

/-- `_public_addresses` -/
def Network.publicAddresses (host : Text) (port : Nat) : Except Raised (List Text) :=
  match net.getaddrinfo host port with
  | .error .osError => .ok []
  | .error .timeoutError => .ok []
  | .error raised => .error raised
  | .ok resolved =>
    match resolved.eraseDups.mapM IpAddress.read with
    | none => .ok []
    | some parsed =>
      if parsed.all IpAddress.isGlobal then .ok (parsed.map (IpAddress.write net.ipv6)) else .ok []

/-- Evidence on a URL, whose title pydantic may refuse. -/
def Network.evidence (parsed : Url.SplitResult) (code : EvidenceCode) (value : EvidenceValue)
    (description : String) : Except Raised DeliverabilityEvidence :=
  if net.isUnicode (displayUrl parsed) then .ok ⟨code, displayUrl parsed, value, description⟩
  else .error .other

/-- The status code, by GET where HEAD is not supported. -/
def Network.statusCode (pinned_url host_header : Text) : Except Raised Nat := do
  let status_code ← net.request "HEAD" pinned_url host_header
  if status_code = 405 ∨ status_code = 501 then net.request "GET" pinned_url host_header
  else return status_code

/-- What a status code says. -/
def verdictOf (status_code : Nat) : EvidenceCode × String :=
  if 200 ≤ status_code ∧ status_code < 400 then
    if 300 ≤ status_code then
      (.redirect, "The destination responds with a redirect. Redirects are not followed.")
    else (.ok, "The destination responded successfully.")
  else (.http_error, "The destination returned an error status.")

/-- The URL with an address in place of the host. -/
def pinnedUrl (parsed : Url.SplitResult) (port default_port : Nat) (address : Text) : Text :=
  let netloc := if ':' ∈ address then '[' :: address ++ [']'] else address
  let netloc := if port = default_port then netloc else netloc ++ ':' :: number port
  let path := if parsed.path.isEmpty then ['/'] else parsed.path
  Url.urlunsplit ⟨parsed.scheme, netloc, path, parsed.query, []⟩

/-- The host of a link that is checked, which is over the web and without credentials. -/
def Network.checkedHost (parsed : Url.SplitResult) : Option Text :=
  if parsed.scheme ∈ ["http".toList, "https".toList] ∧ !parsed.hasCredentials then
    parsed.hostname net.lower
  else none

def defaultPort (parsed : Url.SplitResult) : Nat :=
  if parsed.scheme = "https".toList then 443 else 80

/-- The port of a link: port zero is the default one. -/
def linkPort (parsed : Url.SplitResult) : Except Raised Nat :=
  match parsed.port with
  | none => .error .other
  | some none => .ok (defaultPort parsed)
  | some (some port) => .ok (if port = 0 then defaultPort parsed else port)

/-- The requests to a public address of the host. -/
def Network.visit (parsed : Url.SplitResult) (host : Text) (port : Nat) (address : Text) :
    Except Raised DeliverabilityEvidence :=
  match net.statusCode (pinnedUrl parsed port (defaultPort parsed) address) host with
  | .ok status_code =>
    net.evidence parsed (verdictOf status_code).1 (.status status_code) (verdictOf status_code).2
  | .error raised =>
    if raised ∈ [.httpError, .osError, .timeoutError] then
      net.evidence parsed .connection_error (.text "error")
        "The public destination could not be reached within the check budget."
    else .error raised

/-- `_probe` -/
def Network.probe (url : Text) : Except Raised DeliverabilityEvidence := do
  let parsed ← net.urlparse url
  match net.checkedHost parsed with
  | none =>
    net.evidence parsed .unsupported (.text "not_checked")
      "Only credential-free HTTP and HTTPS links are checked."
  | some host => do
    let port ← linkPort parsed
    if port = 80 ∨ port = 443 then
      match ← net.publicAddresses host port with
      | [] =>
        net.evidence parsed .unsafe_or_unresolved (.text "not_checked")
          "The host did not resolve exclusively to globally routable addresses."
      | address :: _ => net.visit parsed host port address
    else
      net.evidence parsed .blocked_port (.text "not_checked")
        "The destination uses a port outside the allowed web ports."

/-! ## The category -/

/-- The points of so many successes and failures. -/
def linkPoints (successes failures : Nat) : Rat :=
  if successes + failures = 0 then 0
  else Rounding.roundDigits 1 (4 * successes / (successes + failures : Nat))

theorem linkPoints_nonneg (successes failures : Nat) : 0 ≤ linkPoints successes failures := by
  unfold linkPoints
  split
  · exact le_refl _
  · calc (0 : Rat) = Rounding.roundDigits 1 (0 : Rat) := by decide +kernel
      _ ≤ Rounding.roundDigits 1 (4 * (successes : Rat) / (successes + failures : Nat)) :=
        Rounding.roundDigits_mono 1 (by positivity)

theorem linkPoints_le (successes failures : Nat) : linkPoints successes failures ≤ 4 := by
  unfold linkPoints
  split
  · norm_num
  · rename_i hchecked
    have hpos : (0 : Rat) < (successes + failures : Nat) := by
      exact_mod_cast Nat.pos_of_ne_zero hchecked
    have hfailures : (0 : Rat) ≤ failures := Nat.cast_nonneg _
    have hquotient : 4 * (successes : Rat) / (successes + failures : Nat) ≤ 4 := by
      rw [div_le_iff₀ hpos]
      push_cast
      linarith
    calc Rounding.roundDigits 1 (4 * (successes : Rat) / (successes + failures : Nat))
      _ ≤ Rounding.roundDigits 1 (4 : Rat) := Rounding.roundDigits_mono 1 hquotient
      _ = 4 := by decide +kernel

def worth (successes failures : Nat) : Points :=
  if successes + failures = 0 then .of 0 0 Points.none_of_none
  else ⟨linkPoints successes failures, 4, linkPoints_nonneg _ _, linkPoints_le _ _⟩

def summaryOf (successes failures : Nat) : CheckStatus × Text :=
  let checked := successes + failures
  if failures ≠ 0 then
    (.warning, number failures ++ " of ".toList ++ number checked ++
      " checked link(s) failed.".toList)
  else if checked ≠ 0 then
    (.pass, "All ".toList ++ number checked ++ " checked link(s) responded.".toList)
  else
    (.info, "Links were found, but none met the safe public-destination requirements.".toList)

/-- A category, with the evidence of its check beside it. -/
structure LinkCategory extends DeliverabilityCategory where
  evidence : List DeliverabilityEvidence

/-- The category of what was found. -/
def linkCategory (evidence : List DeliverabilityEvidence) : LinkCategory :=
  let successes := evidence.countP fun item => item.code = .ok ∨ item.code = .redirect
  let failures := evidence.countP fun item =>
    item.code = .http_error ∨ item.code = .connection_error
  let found := worth successes failures
  { id := "links"
    title := "Live links"
    score := if successes + failures = 0 then none else some (percentage found.reached 4)
    points := found.reached
    max_points := found.maximum
    checks := [check "links" "link_validation" "Live link validation"
      (summaryOf successes failures).1 (summaryOf successes failures).2 found []
      (if failures = 0 then none
        else some "Repair or remove destinations that return errors.")]
    evidence }

def noLinks : LinkCategory where
  id := "links"
  title := "Live links"
  score := none
  points := 0
  max_points := 0
  checks := [check "links" "link_validation" "Live link validation" .info
    "No HTTP or HTTPS links were available for live validation.".toList (.of 0 0 Points.none_of_none) [] none]
  evidence := []

/-- `analyze_links` -/
def Network.analyzeLinks (raw : List UInt8) : Except Raised LinkCategory := do
  let links ← net.extractLinks raw
  if links.isEmpty then return noLinks
  else return linkCategory (← links.mapM net.probe)

end

end MailCue.Backend.LiveLinks
