import Mathlib.Data.List.Dedup
import MailCue.Lib.Text

/-!
# The HTML inspector

backend/app/emails/deliverability.py `_ContentInspector` and the `feed` of `_message_bodies`,
which suppresses what is raised: the parser then stops where it is, and the inspector keeps
what it has. The parser enters as the events it calls the handlers with; a tag that closes
itself is a start and an end.
-/
namespace MailCue.Backend.Emails.Inspector
open MailCue.Lib

/-- What Python makes of characters and texts. -/
structure Characters where
  lower : Text → Text
  /-- As `re.I` compares letters. -/
  fold : Char → Char
  /-- The value of what `\d` and `int` take for a digit. -/
  decimal : Char → Option Nat
  /-- Of which texts `isdigit` holds: superscripts too. -/
  isDigit : Char → Bool
  isDigit_of_decimal : ∀ c, (decimal c).isSome → isDigit c = true

abbrev Attrs := List (Text × Option Text)

inductive Event
  | starttag (tag : Text) (attrs : Attrs)
  | endtag (tag : Text)
  | data (text : Text)

/-- The parser's own fields are left out, and the counter of tags is the tags one by one. -/
structure ContentInspector where
  text : List Text := []
  links : List Text := []
  link_labels : List (Text × Text) := []
  images : Nat := 0
  images_without_alt : Nat := 0
  remote_images : Nat := 0
  tracking_pixels : Nat := 0
  scripts : Nat := 0
  forms : Nat := 0
  forbidden_tags : List Text := []
  hidden_elements : Nat := 0
  duplicate_attributes : Nat := 0
  document_language : Text := []
  heading_count : Nat := 0
  heading_levels : List Nat := []
  inline_styles : List Text := []
  small_explicit_tap_targets : Nat := 0
  hidden_depth : Nat := 0
  anchor_href : Option Text := none
  anchor_text : List Text := []

/-- A handler may raise a ValueError, and keeps what it has changed before. -/
abbrev Handler := ContentInspector → Except Unit Unit × ContentInspector

/-- An `if` of a handler without an `else`. -/
def applyIf (condition : Bool) (change : ContentInspector → ContentInspector)
    (s : ContentInspector) : ContentInspector :=
  if condition then change s else s

def isOneOf (text : Text) (names : List String) : Bool := names.any fun name => name.toList == text

/-- The limit of `int` on digits. -/
def MAX_STR_DIGITS : Nat := 4300

section
variable (py : Characters)

/-! ## Numbers -/

/-- `isdigit` of a text. -/
def isDigits (text : Text) : Bool := !text.isEmpty && text.all py.isDigit

/-- The number that decimal digits stand for. -/
def number (text : Text) : Option Nat :=
  if text.isEmpty then none
  else text.foldlM (fun n c => (10 * n + ·) <$> py.decimal c) 0

/-- `int` -/
def parseInt (text : Text) : Except Unit Nat :=
  if MAX_STR_DIGITS < text.length then .error ()
  else
    match number py text with
    | none => .error ()
    | some n => .ok n

/-- `(width|height|min-width|min-height)\s*:\s*(\d+)px` behind what `\s*` takes. -/
def sizeIn (declaration : Text) : Option (Text × Text) := do
  let text := declaration.dropWhile Text.isSpace
  let name ← ["width", "height", "min-width", "min-height"].find? fun name =>
    (text.take name.length).map py.fold == name.toList
  match (text.drop name.length).dropWhile Text.isSpace with
  | ':' :: rest =>
    let rest := rest.dropWhile Text.isSpace
    let size := rest.takeWhile fun c => (py.decimal c).isSome
    if size ≠ [] ∧ ((rest.drop size.length).take 2).map py.fold = "px".toList then
      some (text.take name.length, size)
    else none
  | _ => none

/-- `re.findall`: a match starts in front or at a semicolon and holds no other. -/
def sizesIn (style : Text) : List (Text × Text) := (style.splitOn ';').filterMap (sizeIn py)

/-! ## Attributes -/

/-- `values.get(key)`: the last attribute of the name. -/
def value (attrs : Attrs) (key : String) : Option Text :=
  (attrs.reverse.find? fun attr => py.lower attr.1 == key.toList).map fun attr => attr.2.getD []

/-- `values.get(key, "")` -/
def valueOr (attrs : Attrs) (key : String) : Text := (value py attrs key).getD []

/-- `values.get("style", "").replace(" ", "").lower()` -/
def hides (attrs : Attrs) : Bool :=
  let style := py.lower ((valueOr py attrs "style").filter (· != ' '))
  Text.contains style "display:none".toList || Text.contains style "visibility:hidden".toList ||
    Text.contains style "font-size:0".toList

/-- `.strip().rstrip("px")` -/
def pixels (attrs : Attrs) (key : String) : Text :=
  (Text.strip Text.isSpace (valueOr py attrs key)).rdropWhile fun c => c == 'p' || c == 'x'

/-- A Python `or` between numbers: zero is none. -/
def orElse (a b : Option Nat) : Option Nat := if a.getD 0 = 0 then b else a

/-! ## The handlers -/

/-- The comprehension of `style_dimensions`, the last of a name behind the others. -/
def styleDimensions (style : Text) : Except Unit (List (Text × Nat)) :=
  (sizesIn py style).mapM fun (name, size) => do return (py.lower name, ← parseInt py size)

def dimension (dimensions : List (Text × Nat)) (key : String) : Option Nat :=
  (dimensions.reverse.find? fun entry => entry.1 == key.toList).map (·.2)

/-- `int(values[key]) if values.get(key, "").isdigit() else None` -/
def explicit (attrs : Attrs) (key : String) : Except Unit (Option Nat) :=
  if isDigits py (valueOr py attrs key) then some <$> parseInt py (valueOr py attrs key)
  else .ok none

/-- Whether a link or a button is explicitly smaller than 44 pixels. -/
def smallTapTarget (attrs : Attrs) : Except Unit Bool := do
  let dimensions ← styleDimensions py (valueOr py attrs "style")
  let tap_width ← explicit py attrs "width"
  let tap_height ← explicit py attrs "height"
  let tap_width := orElse (orElse tap_width (dimension dimensions "min-width"))
    (dimension dimensions "width")
  let tap_height := orElse (orElse tap_height (dimension dimensions "min-height"))
    (dimension dimensions "height")
  return match tap_width, tap_height with
    | some width, some height => width < 44 || height < 44
    | _, _ => false

/-- Whether an image is at most two pixels wide and high. -/
def tinyImage (attrs : Attrs) : Except Unit Bool :=
  if isDigits py (pixels py attrs "width") && isDigits py (pixels py attrs "height") then do
    let width ← parseInt py (pixels py attrs "width")
    if width ≤ 2 then
      let height ← parseInt py (pixels py attrs "height")
      return height ≤ 2
    else return false
  else .ok false

/-- Up to the sizes of links and buttons. -/
def outline (lower : Text) (attrs : Attrs) (s : ContentInspector) : ContentInspector :=
  let duplicates := attrs.length - (attrs.map fun attr => py.lower attr.1).dedup.length
  let s := { s with duplicate_attributes := s.duplicate_attributes + duplicates }
  let s := applyIf (isOneOf lower ["html"]) (fun s =>
    { s with document_language := Text.strip Text.isSpace (valueOr py attrs "lang") }) s
  let s := applyIf (isOneOf lower ["h1", "h2", "h3", "h4", "h5", "h6"]) (fun s =>
    { s with
      heading_count := s.heading_count + 1
      heading_levels := s.heading_levels ++ [(lower.getD 1 '0').toNat - '0'.toNat] }) s
  applyIf (valueOr py attrs "style" != []) (fun s =>
    { s with inline_styles := s.inline_styles ++ [valueOr py attrs "style"] }) s

/-- The branch for an image, up to its sizes. -/
def tallyImage (attrs : Attrs) (s : ContentInspector) : ContentInspector :=
  let s := { s with images := s.images + 1 }
  let s := applyIf (Text.strip Text.isSpace (valueOr py attrs "alt")).isEmpty (fun s =>
    { s with images_without_alt := s.images_without_alt + 1 }) s
  let source := py.lower (valueOr py attrs "src")
  applyIf ("http://".toList.isPrefixOf source || "https://".toList.isPrefixOf source) (fun s =>
    { s with remote_images := s.remote_images + 1 }) s

/-- The branches for single tags. -/
def tallyTag (lower : Text) (attrs : Attrs) (s : ContentInspector) : ContentInspector :=
  if isOneOf lower ["script"] then { s with scripts := s.scripts + 1 }
  else if isOneOf lower ["form"] then { s with forms := s.forms + 1 }
  else if isOneOf lower ["a"] && !(valueOr py attrs "href").isEmpty then
    { s with
      links := s.links ++ [valueOr py attrs "href"]
      anchor_href := some (valueOr py attrs "href")
      anchor_text := [] }
  else if isOneOf lower ["img"] then tallyImage py attrs s
  else s

def FORBIDDEN_TAGS : List String :=
  ["applet", "audio", "embed", "iframe", "object", "script", "video"]

/-- From the forbidden tags to the sizes of images. -/
def tally (lower : Text) (attrs : Attrs) (s : ContentInspector) : ContentInspector :=
  let s := applyIf (isOneOf lower FORBIDDEN_TAGS) (fun s =>
    { s with forbidden_tags := s.forbidden_tags ++ [lower] }) s
  let s := applyIf (hides py attrs) (fun s =>
    { s with hidden_elements := s.hidden_elements + 1 }) s
  let s := applyIf (isOneOf lower ["script", "style"]) (fun s =>
    { s with hidden_depth := s.hidden_depth + 1 }) s
  tallyTag py lower attrs s

def handleStarttag (tag : Text) (attrs : Attrs) : Handler := fun s =>
  let lower := py.lower tag
  let s := outline py lower attrs s
  match if isOneOf lower ["a", "button"] then smallTapTarget py attrs else .ok false with
  | .error () => (.error (), s)
  | .ok small =>
    let s := applyIf small (fun s =>
      { s with small_explicit_tap_targets := s.small_explicit_tap_targets + 1 }) s
    let s := tally py lower attrs s
    match if isOneOf lower ["img"] then tinyImage py attrs else .ok false with
    | .error () => (.error (), s)
    | .ok tiny =>
      (.ok (), applyIf tiny (fun s => { s with tracking_pixels := s.tracking_pixels + 1 }) s)

def closeAnchor (s : ContentInspector) : ContentInspector :=
  match s.anchor_href with
  | none => s
  | some href =>
    { s with
      link_labels := s.link_labels ++
        [(href, Text.strip Text.isSpace ([' '].intercalate s.anchor_text))]
      anchor_href := none
      anchor_text := [] }

def handleEndtag (tag : Text) (s : ContentInspector) : ContentInspector :=
  let lower := py.lower tag
  let s := applyIf (isOneOf lower ["script", "style"]) (fun s =>
    { s with hidden_depth := s.hidden_depth - 1 }) s
  applyIf (isOneOf lower ["a"]) closeAnchor s

def handleData (text : Text) (s : ContentInspector) : ContentInspector :=
  if s.hidden_depth = 0 then
    let s := { s with text := s.text ++ [text] }
    applyIf s.anchor_href.isSome (fun s => { s with anchor_text := s.anchor_text ++ [text] }) s
  else s

def Event.handle : Event → Handler
  | starttag tag attrs => handleStarttag py tag attrs
  | endtag tag => fun s => (.ok (), handleEndtag py tag s)
  | data text => fun s => (.ok (), handleData text s)

/-- `feed` under `suppress(Exception)`: the first handler that raises ends it. -/
def feed : List Event → ContentInspector → ContentInspector
  | [], s => s
  | event :: rest, s =>
    match event.handle py s with
    | (.ok (), s) => feed rest s
    | (.error (), s) => s

end

end MailCue.Backend.Emails.Inspector
