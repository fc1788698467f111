import Mathlib
import MailCue.Backend.Emails.AuthenticationResults
import MailCue.Backend.Emails.ContentInspector
import MailCue.Lib.Fallible
import MailCue.Lib.Rounding
import MailCue.Lib.Url

/-!
# The report on a message

backend/app/emails/deliverability.py: `_message_bodies`, `_preheader_text`, `_content_checks`,
`_attachment_checks`, `_header_checks`, `_transport_checks`, `_spam_filter_checks` and
`score_deliverability`. A message is given as the email package reads it; what a charset, an
HTML parser, a character reference or a link make it raise is kept. Points are exact; the
evidence of the spam filter, which none depend on, is left out.
-/
namespace MailCue.Backend.Emails.Deliverability
open MailCue.Lib
open Inspector (ContentInspector)

/-! ## Messages -/

/-- What is raised, by the classes that are caught somewhere. -/
inductive Raised
  | lookupError | unicodeError | osError | timeoutError | httpError | other
  deriving DecidableEq

/-- A part of the message. `replaced` is its payload as UTF-8 with replacement characters,
and `size` the length of what is decoded of it. -/
structure Part where
  content_type : Text
  disposition : Option Text
  content : Except Raised Text
  replaced : Text
  filename : Option Text
  size : Nat

/-- `parts` are those of `walk`, and texts those `str` gives of header fields. `raised` is what
reading these makes the email package raise. -/
structure Message where
  fields : List HeaderField
  raised : Option Raised
  is_multipart : Bool
  parts : List Part

/-- What is used of libraries beside texts. -/
structure Library extends Receiver where
  message_from_bytes : List UInt8 → Message
  characters : Inspector.Characters
  /-- `HTMLParser`: the events of a text, and what it raises behind them. -/
  parser : Text → List Inspector.Event × Option Raised
  /-- `html.unescape`. A reference may have more digits than `int` takes. -/
  unescape : Text → Except Raised Text
  nfkc : Text → Text
  isUpper : Text → Bool
  /-- The characters that stand for lone surrogates. -/
  isSurrogate : Char → Bool
  isSurrogate_ascii : ∀ c, Text.ascii c = true → isSurrogate c = false
  /-- `parsedate_to_datetime` returns. -/
  parsesDate : Text → Bool
  /-- `_inline_contrast_failures`, of colours in floating point. -/
  contrastFailures : List Text → List Text
  /-- `float(required) - float(score) >= margin` -/
  marginAtLeast : Text → Text → Rat → Bool
  /-- `f"{float(text):g}"` -/
  general : Text → Text

section
variable (lib : Library)

/-- `str(msg.get(name, ""))`, by the name in lower case. -/
def Library.header (msg : Message) (name : String) : Text :=
  (lib.getAll msg.fields name).head?.getD []

/-- A check with points between none and all there are. -/
structure ScoredCheck extends DeliverabilityCheck where
  points_nonneg : 0 ≤ points
  points_le : points ≤ max_points
  deriving DecidableEq

/-- Points, and how many there are to be had. -/
structure Points where
  reached : Rat
  maximum : Rat
  reached_nonneg : 0 ≤ reached
  reached_le : reached ≤ maximum

def Points.of (reached maximum : Rat) (h : 0 ≤ reached ∧ reached ≤ maximum := by norm_num) :
    Points := ⟨reached, maximum, h.1, h.2⟩

theorem Points.none_of_none : (0 : Rat) ≤ 0 ∧ (0 : Rat) ≤ 0 := ⟨le_rfl, le_rfl⟩

/-- `_check` -/
def check (category id title : String) (status : CheckStatus) (summary : Text) (points : Points)
    (details : List Text) (recommendation : Option String) : ScoredCheck where
  id := id
  category := category
  title := title
  status := status
  summary := summary
  details := details
  recommendation := recommendation
  points := points.reached
  max_points := points.maximum
  points_nonneg := points.reached_nonneg
  points_le := points.reached_le

/-- The texts that pydantic takes. -/
def Library.isUnicode (text : Text) : Bool := !text.any lib.isSurrogate

/-- A check whose details hold texts of the body: pydantic may refuse one. -/
def Library.checked (found : ScoredCheck) : Except Raised ScoredCheck :=
  if found.details.all lib.isUnicode then .ok found else .error .other

def number (n : Nat) : Text := Nat.toDigits 10 n

/-! ## Bodies -/

/-- `get_content`, or the payload where the charset is unknown or wrong. -/
def Part.text (part : Part) : Except Raised Text :=
  match part.content with
  | .ok value => .ok value
  | .error .lookupError => .ok part.replaced
  | .error .unicodeError => .ok part.replaced
  | .error raised => .error raised

def Part.isAttachment (part : Part) : Bool := part.disposition == some "attachment".toList

def Part.isBody (part : Part) : Bool :=
  !part.isAttachment &&
    (part.content_type == "text/plain".toList || part.content_type == "text/html".toList)

def Message.bodies (msg : Message) : List Part := msg.parts.filter Part.isBody

/-- `"\n".join(texts).strip()` -/
def joinBodies (texts : List Text) : Text := Text.strip Text.isSpace (['\n'].intercalate texts)

structure Bodies where
  plain : Text
  html : Text
  inspector : ContentInspector

/-- The bodies of the types and texts of the parts. -/
def Library.bodiesOf (texts : List (Text × Text)) : Bodies :=
  let of (content_type : String) : Text :=
    joinBodies ((texts.filter fun entry => entry.1 == content_type.toList).map (·.2))
  let html := of "text/html"
  { plain := of "text/plain"
    html
    inspector := if html.isEmpty then {} else Inspector.feed lib.characters (lib.parser html).1 {} }

/-- `_message_bodies` -/
def Library.messageBodies (msg : Message) : Except Raised Bodies := do
  let texts ← msg.bodies.mapM fun part => do return (part.content_type, ← part.text)
  return lib.bodiesOf texts

/-! ## Preheaders -/

def spaced (text : String) : Pattern :=
  .sequence [.run Text.isSpace, caselessWord text, .run Text.isSpace]

def isQuote (c : Char) : Bool := c == '\'' || c == '"'

def blockNames : Pattern := .oneOf [caselessWord "div", caselessWord "span", caselessWord "p"]

/-- A declaration that hides what it is about. -/
def HIDING : Pattern :=
  .oneOf [.seq (caselessWord "display") (.seq (spaced ":") (caselessWord "none")),
    .seq (caselessWord "max-height") (.seq (spaced ":") (caselessWord "0")),
    .seq (caselessWord "opacity") (.seq (spaced ":") (caselessWord "0"))]

/-- The start of a hidden block. -/
def HIDDEN_BLOCK : Pattern :=
  .sequence [.one (· == '<'), blockNames, .run (· != '>'), caselessWord "style", spaced "=",
    .one isQuote, .run (!isQuote ·), HIDING, .run (!isQuote ·), .one isQuote, .run (· != '>'),
    .one (· == '>')]

def BLOCK_END : Pattern := .sequence [.one (· == '<'), .one (· == '/'), blockNames, .one (· == '>')]

/-- What stands in front of the first end of a block. -/
def Library.untilBlockEnd (text : Text) : Option Text :=
  ((text.inits.zip text.tails).find? fun cut =>
    (Pattern.atStart lib.isWord BLOCK_END cut.2).isSome).map (·.1)

/-- `re.search`: what the first hidden block holds. -/
def Library.hiddenBlock (html : Text) : Option Text :=
  html.tails.findSome? fun rest =>
    (Pattern.ways lib.isWord HIDDEN_BLOCK { rest }).findSome? fun place =>
      lib.untilBlockEnd place.rest

/-- `re.sub(r"<[^>]+>", "", text)` -/
def dropTags : Text → Text
  | [] => []
  | '<' :: rest =>
    let inner := rest.takeWhile (· != '>')
    if inner.isEmpty || !rest.contains '>' then '<' :: dropTags rest
    else dropTags (rest.drop (inner.length + 1))
  | c :: rest => c :: dropTags rest
termination_by text => text.length
decreasing_by all_goals simp_wf; try omega

/-- `re.sub(r"\s+", " ", text).strip()` -/
def collapse (text : Text) : Text :=
  [' '].intercalate ((text.splitOnP Text.isSpace).filter (!·.isEmpty))

/-- `_preheader_text`, for an HTML body. -/
def Library.preheaderText (html : Text) : Except Raised Text :=
  match if html.isEmpty then none else lib.hiddenBlock (html.take 20000) with
  | none => .ok []
  | some block => do return (collapse (← lib.unescape (dropTags block))).take 500

/-! ## The checks -/

def bodyAlternatives (plain html : Text) : ScoredCheck :=
  let body := check "content" "body_alternatives" "Body alternatives"
  if !plain.isEmpty && !html.isEmpty then
    body .pass "Both plain-text and HTML versions are present.".toList (.of 4 4) [] none
  else if !plain.isEmpty then
    body .pass "A readable plain-text body is present.".toList (.of 4 4) [] none
  else if !html.isEmpty then
    body .warning "The message has HTML but no plain-text alternative.".toList (.of 2 4) []
      (some ("Add a meaningful text/plain alternative for accessibility and filtering " ++
        "resilience."))
  else
    body .fail "No readable text or HTML body was found.".toList (.of 0 4) []
      (some "Include a non-empty message body.")

/-- `", ".join(texts)` -/
def commas (texts : List Text) : Text := ", ".toList.intercalate texts

/-- `f"{tag} ({count})"` for the tags that are there, in alphabetical order. -/
def unsupportedTags (inspector : ContentInspector) : List Text :=
  (Inspector.FORBIDDEN_TAGS.map String.toList).filterMap fun tag =>
    let count := inspector.forbidden_tags.count tag
    if count = 0 then none else some (tag ++ " (".toList ++ number count ++ [')'])

def htmlQuality (html visible_html : Text) (inspector : ContentInspector) : ScoredCheck :=
  let quality := check "content" "html_quality" "HTML quality"
  if html.isEmpty then
    quality .info "No HTML body was supplied, so HTML checks do not apply.".toList (.of 0 0) [] none
  else if inspector.forbidden_tags.length + inspector.forms ≠ 0 then
    quality .fail "The HTML contains unsupported active content.".toList (.of 0 4)
      ["Unsupported tags: ".toList ++ commas (unsupportedTags inspector),
        "Form tags: ".toList ++ number inspector.forms]
      (some "Remove scripts and forms from email HTML.")
  else if visible_html.length < 40 ∧ 500 < html.length then
    quality .warning "The HTML contains very little visible text.".toList (.of 2 4) []
      (some "Add useful copy and avoid an image-only message.")
  else if 30 * max visible_html.length 1 < html.length then
    quality .warning "The HTML-to-visible-text ratio is unusually high.".toList (.of (5 / 2) 4) []
      (some "Simplify the markup and include more meaningful visible text.")
  else
    quality .pass "The HTML has a reasonable amount of visible content.".toList (.of 4 4) [] none

def Library.subjectQuality (subject : Text) : ScoredCheck :=
  let quality := check "content" "subject_quality" "Subject line"
  if subject.isEmpty then
    quality .fail "The subject line is missing.".toList (.of 0 4) []
      (some "Add a concise subject that accurately describes the message.")
  else if 120 < subject.length ∨ 4 ≤ subject.count '!' ∨
      (lib.isUpper subject ∧ 8 < subject.length) then
    quality .warning
      "The subject uses patterns commonly associated with low-quality mail.".toList (.of 2 4)
      ["Length: ".toList ++ number subject.length ++ " characters".toList]
      (some ("Use a concise, natural subject with restrained punctuation and " ++
        "capitalization."))
  else
    quality .pass "The subject is present and reasonably formatted.".toList (.of 4 4) [] none

/-- In alphabetical order. -/
def RISKY_PHRASES : List String :=
  ["act now", "buy now", "click here", "free money", "guaranteed income", "limited time",
    "risk free", "urgent action", "winner"]

def riskyLanguage (combined : Text) : ScoredCheck :=
  let language := check "content" "risky_language" "Promotional language"
  let phrases := (RISKY_PHRASES.map String.toList).filter (Text.contains combined)
  if 3 ≤ phrases.length then
    language .warning "Several high-pressure phrases were detected.".toList (.of 1 4) phrases
      (some "Rewrite high-pressure or misleading language in a direct, specific tone.")
  else if !phrases.isEmpty then
    language .warning "A potentially high-pressure phrase was detected.".toList (.of 3 4) phrases
      (some "Review the flagged phrase in context.")
  else
    language .pass "No obvious high-pressure phrase patterns were detected.".toList (.of 4 4) []
      none

/-! ## Links -/

/-- `urlparse`, as far as it is used. -/
def Library.urlparse (url : Text) : Except Raised Url.SplitResult :=
  match Url.urlsplit lib.nfkc url with
  | none => .error .other
  | some parsed => .ok parsed

/-- `\d{1,3}(?:\.\d{1,3}){3}` -/
def Library.isRawAddress (hostname : Text) : Bool :=
  let parts := hostname.splitOn '.'
  parts.length == 4 && parts.all fun part =>
    !part.isEmpty && part.length ≤ 3 && part.all lib.isDigit

def Library.isUnsafe (parsed : Url.SplitResult) : Bool :=
  !(parsed.scheme ∈ ["http", "https", "mailto", "tel", ""].map String.toList) ||
    (parsed.hostname lib.lower).any lib.isRawAddress

/-- The links with suspicious targets. -/
def Library.unsafeLinks (links : List Text) : Except Raised (List Text) := do
  let parsed ← links.mapM fun link => do return (link, lib.isUnsafe (← lib.urlparse link))
  return (parsed.filter (·.2)).map (·.1)

def linkHygiene (links unsafe_links : List Text) : ScoredCheck :=
  let hygiene := check "content" "link_hygiene" "Link hygiene"
  if !unsafe_links.isEmpty then
    hygiene .fail "The message contains suspicious link targets.".toList (.of 0 2)
      (unsafe_links.take 10)
      (some ("Use HTTPS links on recognizable domains and remove executable or raw-IP " ++
        "targets."))
  else
    hygiene .pass ("No suspicious targets were found across ".toList ++ number links.length ++
      " link(s).".toList) (.of 2 2) [] none

def URL_LABEL : Pattern :=
  .group 1 (.sequence [caselessWord "http", .either (caselessWord "s") .nothing,
    caselessWord "://", .atLeastOne fun c => !Text.isSpace c && c != '<' && c != '>'])

/-- The URL that a label shows, without punctuation at its end. -/
def Library.shownUrl (label : Text) : Option Text :=
  (Pattern.search lib.isWord URL_LABEL label).map fun found =>
    ((found.group 1).getD []).rdropWhile fun c => c ∈ ".,;)".toList

/-- The URL shown by the label of a link that has a host. -/
def Library.labelUrl (target : Url.SplitResult) (label : Text) : Option Text :=
  if (target.hostname lib.lower).isSome then lib.shownUrl label else none

/-- What is displayed, where it is another host than that of the link. -/
def Library.mismatch (target label : Url.SplitResult) : Option Text := do
  let hostname ← target.hostname lib.lower
  let label_host ← label.hostname lib.lower
  if lib.lower label_host ≠ lib.lower hostname then
    some ("Displayed ".toList ++ label_host ++ ", targets ".toList ++ hostname)
  else none

/-- One turn of the loop over the labels: whether the link is insecure, and what is displayed. -/
def Library.labelIdentity (link : Text × Text) : Except Raised (Bool × Option Text) := do
  let target ← lib.urlparse link.1
  let insecure := target.scheme == "http".toList
  match lib.labelUrl target link.2 with
  | none => return (insecure, none)
  | some shown => return (insecure, lib.mismatch target (← lib.urlparse shown))

def linkIdentity (identities : List (Bool × Option Text)) : ScoredCheck :=
  let identity := check "content" "link_identity" "Link identity"
  let mismatched_links := identities.filterMap (·.2)
  let insecure_links := identities.countP (·.1)
  if !mismatched_links.isEmpty then
    identity .fail "Some visible URL labels point to a different host.".toList (.of 0 2)
      (mismatched_links.take 10)
      (some "Make displayed URL hosts match their actual destinations.")
  else if insecure_links ≠ 0 then
    identity .warning "Some web links use unencrypted HTTP.".toList (.of 1 2)
      ["HTTP links: ".toList ++ number insecure_links]
      (some "Use HTTPS for web destinations.")
  else
    identity .pass
      "Visible link labels and target schemes do not show obvious deception.".toList (.of 2 2) []
      none

/-! ## Markup -/

def hiddenContent (inspector : ContentInspector) (preheader : Text) : ScoredCheck :=
  let hidden := check "content" "hidden_content" "Hidden content"
  let suspicious_hidden := inspector.hidden_elements - if preheader.isEmpty then 0 else 1
  if suspicious_hidden ≠ 0 then
    hidden .warning
      "The HTML contains visually hidden elements that filters may scrutinize.".toList (.of 1 2)
      ["Hidden elements outside the detected preheader: ".toList ++ number suspicious_hidden]
      (some "Remove hidden copy unless it has a clear accessibility or layout purpose.")
  else hidden .pass "No common hidden-text techniques were detected.".toList (.of 2 2) [] none

def trackingPixels (inspector : ContentInspector) : ScoredCheck :=
  let tracking := check "content" "tracking_pixels" "Tracking pixels"
  if inspector.tracking_pixels ≠ 0 then
    tracking .warning "Tiny remote images consistent with tracking pixels were detected.".toList
      (.of 0 1) ["Likely tracking pixels: ".toList ++ number inspector.tracking_pixels]
      (some ("Use tracking only when consent, privacy policy, and message purpose allow " ++
        "it."))
  else tracking .pass "No tiny remote tracking images were detected.".toList (.of 1 1) [] none

def documentAccessibility (html : Text) (inspector : ContentInspector) : ScoredCheck :=
  let accessibility := check "content" "document_accessibility" "Document accessibility"
  if !html.isEmpty && inspector.document_language.isEmpty then
    accessibility .warning "The HTML document does not declare a language.".toList (.of 1 2) []
      (some "Set the html lang attribute to the message language.")
  else
    accessibility .pass
      "The HTML language is declared or the message is plain text.".toList (.of 2 2) [] none

def preheaderCheck (preheader : Text) : ScoredCheck :=
  let found := check "content" "preheader" "Preview preheader"
  if 40 ≤ preheader.length ∧ preheader.length ≤ 130 then
    found .pass "A concise hidden preheader was detected.".toList (.of 1 1)
      ["Detected preheader length: ".toList ++ number preheader.length ++ " characters".toList]
      none
  else if !preheader.isEmpty then
    found .warning "The hidden preheader may be too short or too long.".toList (.of 0 1)
      ["Detected preheader length: ".toList ++ number preheader.length ++ " characters".toList]
      (some "Use a useful preheader of roughly 40 to 130 characters.")
  else
    found .info
      "No common hidden preheader pattern was detected. This is optional.".toList (.of 0 0) [] none

/-- Levels below the one in front by more than one. -/
def headingSkips (levels : List Nat) : Nat :=
  (levels.zip levels.tail).countP fun pair => pair.1 + 1 < pair.2

def headingOrder (inspector : ContentInspector) : ScoredCheck :=
  let order := check "content" "heading_order" "Heading order"
  let heading_skips := headingSkips inspector.heading_levels
  let details := if inspector.heading_levels.isEmpty then [] else
    ["Heading sequence: ".toList ++ commas (inspector.heading_levels.map fun level =>
      'h' :: number level)]
  if heading_skips ≠ 0 then
    order .warning ("The heading structure skips ".toList ++ number heading_skips ++
      " level(s).".toList) (.of 0 1) details
      (some "Use headings in a logical sequence without skipping levels.")
  else order .pass "No skipped HTML heading levels were detected.".toList (.of 1 1) details none

def Library.colorContrast (inspector : ContentInspector) : ScoredCheck :=
  let contrast := check "content" "inline_color_contrast" "Inline color contrast"
  let contrast_failures := lib.contrastFailures inspector.inline_styles
  if !contrast_failures.isEmpty then
    contrast .warning
      "Some explicit inline foreground and background colors are below 4.5:1.".toList (.of 0 2)
      contrast_failures
      (some ("Use WCAG AA color contrast and verify inherited, image, and dark-mode colors " ++
        "in previews."))
  else
    contrast .pass
      "No low-contrast explicit inline color pairs were detected.".toList (.of 2 2) [] none

def tapTargetSize (inspector : ContentInspector) : ScoredCheck :=
  let size := check "content" "tap_target_size" "Tap target size"
  if inspector.small_explicit_tap_targets ≠ 0 then
    size .warning (number inspector.small_explicit_tap_targets ++
      (" explicitly sized link or button target(s) are below 44 by 44 pixels.").toList) (.of 0 1) []
      (some "Make important touch targets at least 44 by 44 CSS pixels.")
  else
    size .pass
      ("No undersized explicitly dimensioned link or button targets were " ++
        "detected.").toList (.of 1 1) [] none

/-- The features with uneven support, each with what finds it. -/
def CSS_RISKS : List (String × Pattern) :=
  [("CSS animations", .either (caselessWord "@keyframes")
      (.sequence [.boundary, caselessWord "animation", spaced ":"])),
    ("CSS variables", .either
      (.sequence [caselessWord "var", .run Text.isSpace, caselessWord "(--"])
      (.sequence [caselessWord "--", .atLeastOne fun c =>
        isLetter c || c.isDigit || c == '_' || c == '-', .run Text.isSpace, .one (· == ':')])),
    ("Fixed positioning", .sequence [caselessWord "position", spaced ":", caselessWord "fixed"]),
    ("Grid layout", .sequence [caselessWord "display", spaced ":", caselessWord "grid"]),
    ("External font imports", .either
      (.sequence [caselessWord "@import", .atLeastOne Text.isSpace, caselessWord "url"])
      (.sequence [caselessWord "@font-face", .run (· != '\x7d'), caselessWord "http",
        .either (caselessWord "s") .nothing, caselessWord "://"]))]

/-- `f"{name}: {count}"` for the features that are there. -/
def Library.foundCssRisks (html : Text) : List Text :=
  CSS_RISKS.filterMap fun (name, pattern) =>
    let count := (Pattern.allMatches lib.isWord pattern html).length
    if count = 0 then none else some (name.toList ++ ": ".toList ++ number count)

def Library.emailClientCss (html : Text) : ScoredCheck :=
  let css := check "content" "email_client_css" "Email client CSS compatibility"
  let found_css_risks := lib.foundCssRisks html
  if !found_css_risks.isEmpty then
    css .warning "The HTML uses CSS features with uneven email-client support.".toList (.of 1 2)
      found_css_risks
      (some ("Use progressively enhanced, inlined email CSS and test critical " ++
        "clients."))
  else css .pass "No commonly unsupported CSS feature was detected.".toList (.of 2 2) [] none

def imageAccessibility (inspector : ContentInspector) : ScoredCheck :=
  let accessibility := check "content" "image_accessibility" "Image accessibility"
  if inspector.images ≠ 0 ∧ inspector.images_without_alt ≠ 0 then
    accessibility .warning "Some images are missing alternative text.".toList (.of 1 2)
      ["Images without alt text: ".toList ++ number inspector.images_without_alt ++
        " of ".toList ++ number inspector.images]
      (some ("Add concise alt text to meaningful images and empty alt text to decorative " ++
        "images."))
  else
    accessibility .pass
      "Images include alternative text or no images are present.".toList (.of 2 2) [] none

/-- The checks of an HTML body. -/
def Library.htmlChecks (html preheader : Text) (inspector : ContentInspector) :
    List ScoredCheck :=
  if html.isEmpty then []
  else [preheaderCheck preheader, headingOrder inspector, lib.colorContrast inspector,
    tapTargetSize inspector, lib.emailClientCss html]

/-- `_content_checks` -/
def Library.contentChecks (msg : Message) : Except Raised (List ScoredCheck) := do
  let bodies ← lib.messageBodies msg
  let html := bodies.html
  let inspector := bodies.inspector
  let preheader ← lib.preheaderText html
  let visible_html := collapse ([' '].intercalate inspector.text)
  let body := if bodies.plain.isEmpty then visible_html else bodies.plain
  let combined := lib.lower (lib.header msg "subject" ++ ' ' :: body)
  let unsafe_links ← lib.unsafeLinks inspector.links
  let link_hygiene ← lib.checked (linkHygiene inspector.links unsafe_links)
  let identities ← inspector.link_labels.mapM lib.labelIdentity
  let link_identity ← lib.checked (linkIdentity identities)
  return [bodyAlternatives bodies.plain html, htmlQuality html visible_html inspector,
      lib.subjectQuality (Text.strip Text.isSpace (lib.header msg "subject")),
      riskyLanguage combined, link_hygiene, link_identity, hiddenContent inspector preheader,
      trackingPixels inspector, documentAccessibility html inspector] ++
    lib.htmlChecks html preheader inspector ++ [imageAccessibility inspector]

end

section
variable (lib : Library)

/-! ## Attachments -/

def DANGEROUS_EXTENSIONS : List String :=
  [".app", ".bat", ".cmd", ".com", ".exe", ".hta", ".jar", ".js", ".lnk", ".msi", ".ps1",
    ".scr", ".vbs"]

/-- `[a-z0-9]`, without `re.I`. -/
def isSuffixChar (c : Char) : Bool := ('a' ≤ c && c ≤ 'z') || ('0' ≤ c && c ≤ '9')

/-- `re.findall(r"\.[a-z0-9]{1,8}", filename)` -/
def suffixes (filename : Text) : List Text :=
  (filename.splitOn '.').tail.filterMap fun piece =>
    let suffix := (piece.takeWhile isSuffixChar).take 8
    if suffix.isEmpty then none else some ('.' :: suffix)

def Part.name (part : Part) : Text :=
  match part.filename with
  | some (c :: rest) => c :: rest
  | _ => "unnamed attachment".toList

def Library.isDangerous (part : Part) : Bool :=
  (suffixes part.name).any fun suffix =>
    DANGEROUS_EXTENSIONS.any fun extension => extension.toList == lib.lower suffix

/-- `f"{size / 1024 / 1024:.1f} MB"` -/
def megabytes (size : Nat) : Text :=
  let tenths := (Rounding.roundHalfEven ((size : Rat) / 1024 / 1024 * 10)).toNat
  number (tenths / 10) ++ '.' :: number (tenths % 10) ++ " MB".toList

/-- `_attachment_checks` -/
def Library.attachmentChecks (msg : Message) : List ScoredCheck :=
  let safety := check "attachments" "attachment_safety" "Attachment safety"
  let attachments := msg.parts.filter Part.isAttachment
  if attachments.isEmpty then
    [safety .info "The message has no attachments.".toList (.of 0 0) [] none]
  else
    let counted := attachments.take 100
    let dangerous := (counted.filter lib.isDangerous).map Part.name
    let oversized := (counted.filter fun part => 10 * 1024 * 1024 < part.size).map fun part =>
      part.name ++ ": ".toList ++ megabytes part.size
    let total_bytes := (counted.map Part.size).sum
    let details := ["Attachments: ".toList ++ number attachments.length,
      "Decoded attachment size: ".toList ++ megabytes total_bytes]
    [if !dangerous.isEmpty then
        safety .fail
          "Executable or commonly blocked attachment types were detected.".toList (.of 0 5)
          (details ++ dangerous.take 20)
          (some ("Remove executable attachments and share files through a trusted HTTPS " ++
            "service."))
      else if !oversized.isEmpty ∨ 20 * 1024 * 1024 < total_bytes then
        safety .warning "Attachment size may exceed receiving-provider limits.".toList (.of 2 5)
          (details ++ oversized.take 20)
          (some ("Keep the encoded message below common provider limits or send a download " ++
            "link."))
      else
        safety .pass ("Attachment names, types, and decoded size do not show common delivery " ++
          "risks.").toList (.of 5 5) details none]

/-! ## Headers -/

def Library.fromHeader (msg : Message) : ScoredCheck :=
  let identity := check "headers" "from_header" "From identity"
  let valid_from := match lib.getAll msg.fields "from" with
    | [value] => !(lib.parseaddr value).isEmpty
    | _ => false
  if valid_from then
    identity .pass "One valid From identity is present.".toList (.of 3 3) [] none
  else
    identity .fail "The message must contain exactly one valid From header.".toList (.of 0 3) []
      (some "Send with exactly one syntactically valid From mailbox.")

def SINGLETON_NAMES : List (String × String) :=
  [("Date", "date"), ("From", "from"), ("Message-ID", "message-id"), ("Reply-To", "reply-to"),
    ("Subject", "subject")]

def Library.duplicateHeaders (msg : Message) : ScoredCheck :=
  let duplicates := check "headers" "duplicate_headers" "Duplicate identity headers"
  let duplicate_names := (SINGLETON_NAMES.filter fun name =>
    1 < (lib.getAll msg.fields name.2).length).map fun name => name.1.toList
  if !duplicate_names.isEmpty then
    duplicates .fail "Conflicting singleton headers were found.".toList (.of 0 2) duplicate_names
      (some "Emit only one Date, From, Message-ID, Reply-To, and Subject header.")
  else
    duplicates .pass
      "No conflicting singleton identity headers were found.".toList (.of 2 2) [] none

/-- `\s*<[^<>\s]+@[^<>\s]+>\s*`, of the whole text. -/
def isMessageId (text : Text) : Bool :=
  match Text.strip Text.isSpace text with
  | '<' :: rest =>
    let inner := rest.dropLast
    rest.getLast? == some '>' && inner.all (fun c => !Text.isSpace c && c != '<' && c != '>') &&
      inner.dropLast.tail.contains '@'
  | _ => false

def Library.messageId (msg : Message) : ScoredCheck :=
  let id := check "headers" "message_id" "Message ID"
  let valid_message_id := match lib.getAll msg.fields "message-id" with
    | [value] => isMessageId value
    | _ => false
  if valid_message_id then
    id .pass "A well-formed Message-ID is present.".toList (.of 3 3) [] none
  else
    id .warning "A unique, well-formed Message-ID was not found.".toList (.of 1 3) []
      (some "Generate one stable Message-ID in angle brackets for each message.")

def Library.dateHeader (msg : Message) : ScoredCheck :=
  let date := check "headers" "date_header" "Date header"
  if lib.parsesDate (lib.header msg "date") then
    date .pass "The Date header is valid.".toList (.of 2 2) [] none
  else
    date .warning "The Date header is missing or invalid.".toList (.of 1 2) []
      (some "Add an RFC 5322 Date header when the message is created.")

def Library.mimeStructure (msg : Message) : ScoredCheck :=
  let mime := check "headers" "mime_structure" "MIME structure"
  if !msg.is_multipart || lib.header msg "mime-version" == "1.0".toList then
    mime .pass "The MIME declaration matches the message structure.".toList (.of 2 2) [] none
  else
    mime .warning "A multipart message is missing MIME-Version: 1.0.".toList (.of 1 2) []
      (some "Add MIME-Version: 1.0 and validate MIME boundaries.")

def Library.unsubscribe (msg : Message) : ScoredCheck :=
  let support := check "headers" "unsubscribe" "Unsubscribe support"
  let has (name : String) : Bool := !(lib.header msg name).isEmpty
  let bulk := ["list-id", "precedence", "list-unsubscribe"].any has
  let unsubscribe := has "list-unsubscribe"
  let one_click := Text.contains (lib.lower (lib.header msg "list-unsubscribe-post"))
    "list-unsubscribe=one-click".toList
  if !bulk then
    support .info ("The message does not identify itself as bulk mail, so unsubscribe headers " ++
      "are not required.").toList (.of 0 0) [] none
  else if unsubscribe && one_click then
    support .pass "Bulk mail includes unsubscribe and one-click support.".toList (.of 3 3) [] none
  else if unsubscribe then
    support .warning ("An unsubscribe method is present, but RFC 8058 one-click support is " ++
      "missing.").toList (.of 2 3) []
      (some ("Add List-Unsubscribe-Post: List-Unsubscribe=One-Click for eligible bulk " ++
        "mail."))
  else
    support .fail "Bulk mail does not include a List-Unsubscribe header.".toList (.of 0 3) []
      (some "Add working mailto or HTTPS List-Unsubscribe options.")

def Library.envelopeAlignment (msg : Message) (sender_domain : Option Text) :
    ScoredCheck :=
  let alignment := check "headers" "envelope_alignment" "Envelope alignment"
  match lib.domain (lib.header msg "return-path") with
  | some return_path_domain =>
    if lib.aligned (some return_path_domain) sender_domain then
      alignment .pass
        "The Return-Path domain aligns with the visible From domain.".toList (.of 2 2) [] none
    else
      alignment .warning
        "The Return-Path domain does not align with the visible From domain.".toList (.of 1 2)
        ["Return-Path domain: ".toList ++ return_path_domain]
        (some "Use an aligned custom bounce domain when possible.")
  | none =>
    alignment .warning "No usable Return-Path domain was found.".toList (.of 1 2) []
      (some "Configure a valid envelope sender for bounce handling and SPF alignment.")

def Library.replyToIdentity (msg : Message) (sender_domain : Option Text) :
    ScoredCheck :=
  let identity := check "headers" "reply_to_identity" "Reply-To identity"
  let reply_to := lib.header msg "reply-to"
  let reply_domain := lib.domain reply_to
  if reply_to.isEmpty then
    identity .info "No Reply-To override is present.".toList (.of 0 0) [] none
  else if reply_domain.isSome && lib.aligned reply_domain sender_domain then
    identity .pass "The Reply-To domain aligns with the visible From domain.".toList (.of 2 2) []
      none
  else
    identity .warning
      "The Reply-To address is invalid or uses an unrelated domain.".toList (.of 1 2)
      ["Reply-To: ".toList ++ reply_to.take 320]
      (some ("Use an expected, monitored Reply-To domain and explain intentional " ++
        "differences."))

/-- `_header_checks` -/
def Library.headerChecks (msg : Message) (sender_domain : Option Text) :
    List ScoredCheck :=
  [lib.fromHeader msg, lib.duplicateHeaders msg, lib.messageId msg, lib.dateHeader msg,
    lib.mimeStructure msg, lib.unsubscribe msg, lib.envelopeAlignment msg sender_domain,
    lib.replyToIdentity msg sender_domain]

/-! ## Transport -/

def TLS_HOP : Pattern :=
  .sequence [.boundary, .oneOf [caselessWord "tls", caselessWord "esmtps"], .boundary]

def NAMED_ORIGIN : Pattern :=
  .sequence [.boundary, caselessWord "from", .atLeastOne Text.isSpace,
    .one fun c => isLetter c || c.isDigit || c == '.' || c == '-']

/-- `_transport_checks` -/
def Library.transportChecks (msg : Message) : List ScoredCheck :=
  let found := check "transport"
  let received := lib.getAll msg.fields "received"
  let tls_hops := received.filter fun value => (Pattern.search lib.isWord TLS_HOP value).isSome
  let named_origin := received.getLast?.any fun value =>
    (Pattern.search lib.isWord NAMED_ORIGIN value).isSome
  let arc := !(lib.header msg "arc-seal").isEmpty &&
    !(lib.header msg "arc-message-signature").isEmpty
  let tls := found "transport_tls" "Transport encryption"
  let origin := found "origin_identity" "Origin identity"
  [if !received.isEmpty && !tls_hops.isEmpty then
      tls .pass "At least one recorded delivery hop used TLS.".toList (.of 4 4)
        ["TLS hops: ".toList ++ number tls_hops.length ++ " of ".toList ++ number received.length]
        none
    else if !received.isEmpty then
      tls .warning "No TLS evidence was found in the recorded delivery route.".toList (.of 1 4) []
        (some ("Require opportunistic or enforced TLS between sending and receiving " ++
          "MTAs."))
    else
      tls .info ("No Received route was available, so transport encryption cannot be " ++
        "assessed.").toList (.of 0 0) [] none,
    if !received.isEmpty then
      found "received_route" "Delivery route" .pass
        ("The message contains ".toList ++ number received.length ++ " delivery hop(s).".toList)
        (.of 2 2) [] none
    else
      found "received_route" "Delivery route" .info
        "No delivery route is available for this message.".toList (.of 0 0) [] none,
    if named_origin then
      origin .pass
        "The earliest recorded hop includes a named sending host.".toList (.of 2 2) [] none
    else if !received.isEmpty then
      origin .warning
        "The sending host identity could not be established from the route.".toList (.of 1 2) []
        (some "Configure a stable sending hostname and matching reverse DNS.")
    else
      origin .info
        "The sending host identity could not be established from the route.".toList (.of 0 0) []
        none,
    if arc then
      found "arc" "ARC chain" .pass
        "An ARC chain is present for forwarded authentication evidence.".toList (.of 2 2) [] none
    else
      found "arc" "ARC chain" .info ("No ARC chain is present. ARC is optional unless the " ++
        "message was forwarded.").toList (.of 0 0) [] none]

/-! ## The spam filter -/

/-- `(-?\d+(?:\.\d+)?)` behind a name and an equals sign. -/
def Library.numberOf (name : String) : Pattern :=
  .sequence [.boundary, caselessWord name, .one (· == '='),
    .group 1 (.sequence [.either (.one (· == '-')) .nothing, .atLeastOne lib.isDigit,
      .either (.seq (.one (· == '.')) (.atLeastOne lib.isDigit)) .nothing])]

/-- The text that `float` reads. -/
def Library.recorded (name : String) (status_value : Text) : Option Text :=
  (Pattern.search lib.isWord (lib.numberOf name) status_value).bind (·.group 1)

/-- `_spam_filter_checks` -/
def Library.spamFilterChecks (msg : Message) : List ScoredCheck :=
  let assassin := check "spam_filter" "spamassassin" "SpamAssassin"
  let flag := check "spam_filter" "spam_flag" "Spam flag"
  let status_value := lib.header msg "x-spam-status"
  let flag_value := lib.header msg "x-spam-flag"
  let review :=
    "Review the SpamAssassin rules in X-Spam-Report and fix the highest-impact findings."
  let score := lib.recorded "score" status_value
  let required := (lib.recorded "required" status_value).getD "5.0".toList
  let flagged := lib.lower (Text.strip Text.isSpace flag_value) == "yes".toList ||
    "yes".toList.isPrefixOf (lib.lower status_value)
  let details := score.toList.map fun score =>
    "SpamAssassin score: ".toList ++ lib.general score ++ ", threshold: ".toList ++
      lib.general required
  if status_value.isEmpty && flag_value.isEmpty then
    [assassin .info
      "No local SpamAssassin result was attached to this message.".toList (.of 0 0) [] none]
  else if flagged then
    [assassin .fail "The local spam filter classified the message as spam.".toList (.of 0 12)
        details (some review),
      flag .fail "X-Spam-Flag is YES.".toList (.of 0 3) [] none]
  else
    [match score with
      | none => assassin .warning ("The local spam filter did not flag the message, but no " ++
          "numeric score was recorded.").toList (.of 9 12) details (some review)
      | some score =>
        if lib.marginAtLeast required score 2 then
          assassin .pass "The local spam filter accepted the message.".toList (.of 12 12) details
            none
        else
          assassin .warning
            "The message passed the local spam filter with limited margin.".toList
            (if lib.marginAtLeast required score (1 / 2) then .of 9 12 else .of 6 12) details
            (some review),
      flag .pass "X-Spam-Flag does not classify the message as spam.".toList (.of 3 3) [] none]

/-! ## Authentication -/

theorem verdict_points (method : AuthMethod) (result : Text) (alignment : Bool) :
    0 ≤ (method.verdict result alignment).2.1 ∧
      (method.verdict result alignment).2.1 ≤ method.weight := by
  have hweight : 0 ≤ method.weight := by cases method <;> norm_num [AuthMethod.weight]
  unfold AuthMethod.verdict
  split
  · exact ⟨hweight, le_refl _⟩
  · split
    · exact ⟨by positivity, by linarith⟩
    · split
      · exact ⟨by positivity, by linarith⟩
      · exact ⟨le_refl _, hweight⟩

/-- A receiver's check has at most its weight in points. -/
theorem authenticationCheck_points (r : Receiver) (fields : List HeaderField)
    (sender_domain : Option Text) (method : AuthMethod) :
    0 ≤ (r.authenticationCheck fields sender_domain method).points ∧
      (r.authenticationCheck fields sender_domain method).points ≤
        (r.authenticationCheck fields sender_domain method).max_points := by
  unfold Receiver.authenticationCheck
  split
  · cases method <;> norm_num [AuthMethod.weight]
  · exact verdict_points _ _ _

/-- `_authentication_checks` -/
def Library.authenticationGroup (msg : Message) (sender_domain : Option Text) :
    List ScoredCheck :=
  [.spf, .dkim, .dmarc].map fun method =>
    { lib.authenticationCheck msg.fields sender_domain method with
      points_nonneg := (authenticationCheck_points _ _ _ _).1
      points_le := (authenticationCheck_points _ _ _ _).2 }

/-! ## The report -/

structure DeliverabilityCategory where
  id : String
  title : String
  score : Option Int
  points : Rat
  max_points : Rat
  checks : List ScoredCheck
  deriving DecidableEq

structure DeliverabilityReport where
  score_version : String
  score : Int
  verdict : String
  summary : String
  message_id : Text
  sender_domain : Option Text
  categories : List DeliverabilityCategory
  top_recommendations : List String
  limitations : List String

def pointsOf (checks : List ScoredCheck) : Rat := (checks.map (·.points)).sum

def maxPointsOf (checks : List ScoredCheck) : Rat := (checks.map (·.max_points)).sum

/-- `round(points / max_points * 100)` -/
def percentage (points max_points : Rat) : Int :=
  Rounding.roundHalfEven (points / max_points * 100)

def categoryOf (id title : String) (checks : List ScoredCheck) :
    DeliverabilityCategory where
  id := id
  title := title
  score :=
    if maxPointsOf checks = 0 then none
    else some (percentage (pointsOf checks) (maxPointsOf checks))
  points := Rounding.roundDigits 1 (pointsOf checks)
  max_points := Rounding.roundDigits 1 (maxPointsOf checks)
  checks := checks

def verdictOf (score : Int) : String × String :=
  if 90 ≤ score then
    ("excellent", "Strong technical setup with no major deliverability issues detected.")
  else if 75 ≤ score then ("good", "Good foundation with a few improvements worth making.")
  else if 50 ≤ score then
    ("needs_work", "Several issues may reduce inbox placement and sender trust.")
  else ("poor", "Critical issues are likely to harm delivery or filtering outcomes.")

/-- The key recommendations are sorted by: the points reached, then the points to be had, most
first, then the id. -/
def rankedBefore (a b : ScoredCheck) : Bool :=
  let (x, y) := (a.points / a.max_points, b.points / b.max_points)
  x < y || x == y && (b.max_points < a.max_points ||
    a.max_points == b.max_points && decide (a.id ≤ b.id))

def topRecommendations (checks : List ScoredCheck) : List String :=
  let ranked := (checks.filter fun found =>
    found.recommendation.isSome && found.max_points ≠ 0).mergeSort rankedBefore
  (ranked.filterMap (·.recommendation)).eraseDups.take 5

/-- The header is read. -/
def Message.read (msg : Message) : Except Raised Unit :=
  match msg.raised with
  | none => .ok ()
  | some raised => .error raised

/-- `score_deliverability`, without what it is told of the mailbox and the time. -/
def Library.scoreDeliverability (raw : List UInt8) : Except Raised DeliverabilityReport := do
  let msg := lib.message_from_bytes raw
  msg.read
  let sender_domain := lib.domain (lib.header msg "from")
  let content ← lib.contentChecks msg
  let categories := [
    categoryOf "authentication" "Authentication"
      (lib.authenticationGroup msg sender_domain),
    categoryOf "content" "Content quality" content,
    categoryOf "headers" "Message setup" (lib.headerChecks msg sender_domain),
    categoryOf "transport" "Transport" (lib.transportChecks msg),
    categoryOf "spam_filter" "Spam filter" (lib.spamFilterChecks msg),
    categoryOf "attachments" "Attachments" (lib.attachmentChecks msg)]
  let all_checks := categories.flatMap (·.checks)
  let score :=
    if maxPointsOf all_checks = 0 then 0
    else max 0 (min 100 (percentage (pointsOf all_checks) (maxPointsOf all_checks)))
  return {
    score_version := "2.3"
    score
    verdict := (verdictOf score).1
    summary := (verdictOf score).2
    message_id := lib.header msg "message-id"
    sender_domain
    categories
    top_recommendations := topRecommendations all_checks
    limitations := [
      "This report does not measure sender reputation or provider-specific inbox placement.",
      "Blocklist checks are not run because public DNS lists have provider and privacy " ++
        "constraints.",
      "A high score improves readiness but cannot guarantee inbox placement."] }

end

end MailCue.Backend.Emails.Deliverability
