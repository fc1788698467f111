import Mathlib
import MailCue.Lib.Text

/-!
# The plain text of an HTML message

backend/app/emails/service.py `_PlainTextHTMLParser` and `_html_to_plain_text`. The parser of
the standard library enters as the events it calls the handlers with; a tag that closes itself
is a start and an end. What Python folds letters to is a parameter.
-/
namespace MailCue.Backend.Emails.PlainText
open MailCue.Lib

inductive Event
  | starttag (tag : Text)
  | endtag (tag : Text)
  | data (text : Text)

def BLOCK_TAGS : List String :=
  ["address", "article", "aside", "blockquote", "div", "dl", "dt", "dd", "fieldset", "figcaption",
    "figure", "footer", "form", "h1", "h2", "h3", "h4", "h5", "h6", "header", "hr", "main", "nav",
    "ol", "p", "pre", "section", "table", "ul"]

def HIDDEN_TAGS : List String := ["head", "noscript", "script", "style", "template"]

def isBlock (tag : Text) : Bool := BLOCK_TAGS.any fun name => name.toList == tag

def isHidden (tag : Text) : Bool := HIDDEN_TAGS.any fun name => name.toList == tag

structure PlainTextHTMLParser where
  parts : List Text := []
  hidden_depth : Nat := 0

namespace PlainTextHTMLParser

def append (parser : PlainTextHTMLParser) (part : Text) : PlainTextHTMLParser :=
  { parser with parts := parser.parts ++ [part] }

/-- `_line_break` -/
def lineBreak (parser : PlainTextHTMLParser) (count : Nat) : PlainTextHTMLParser :=
  match parser.parts.getLast? with
  | none => parser
  | some last =>
    let trailing := (last.rtakeWhile (· == '\n')).length
    if trailing < count then parser.append (List.replicate (count - trailing) '\n') else parser

section
variable (casefold : Text → Text)

def handleStarttag (parser : PlainTextHTMLParser) (tag : Text) : PlainTextHTMLParser :=
  let tag := casefold tag
  if isHidden tag then { parser with hidden_depth := parser.hidden_depth + 1 }
  else if parser.hidden_depth ≠ 0 then parser
  else if tag = "br".toList then parser.lineBreak 1
  else if tag = "li".toList then (parser.lineBreak 1).append "- ".toList
  else if tag = "td".toList ∨ tag = "th".toList then
    match parser.parts.getLast? with
    | none => parser
    | some last =>
      if last.getLast? = some '\n' ∨ last.getLast? = some '\t' then parser
      else parser.append ['\t']
  else if isBlock tag then parser.lineBreak 2
  else parser

def handleEndtag (parser : PlainTextHTMLParser) (tag : Text) : PlainTextHTMLParser :=
  let tag := casefold tag
  if isHidden tag then { parser with hidden_depth := parser.hidden_depth - 1 }
  else if parser.hidden_depth ≠ 0 then parser
  else if tag = "li".toList ∨ tag = "tr".toList then parser.lineBreak 1
  else if isBlock tag then parser.lineBreak 2
  else parser

def handleData (parser : PlainTextHTMLParser) (data : Text) : PlainTextHTMLParser :=
  if parser.hidden_depth = 0 then parser.append data else parser

def handle (parser : PlainTextHTMLParser) : Event → PlainTextHTMLParser
  | .starttag tag => parser.handleStarttag casefold tag
  | .endtag tag => parser.handleEndtag casefold tag
  | .data data => parser.handleData data

end

end PlainTextHTMLParser

/-- `re.sub(r"\s+", " ", text)` -/
def collapse : Text → Text
  | [] => []
  | [c] => if Text.isSpace c then [' '] else [c]
  | c :: d :: rest =>
    if Text.isSpace c then
      if Text.isSpace d then collapse (d :: rest) else ' ' :: collapse (d :: rest)
    else c :: collapse (d :: rest)

/-- One turn of the loop over the lines. -/
def addLine (lines : List Text) (raw_line : Text) : List Text :=
  let line := Text.strip Text.isSpace (collapse raw_line)
  if line ≠ [] then lines ++ [line]
  else if lines.getLast?.any (· ≠ []) then lines ++ [[]]
  else lines

def htmlToPlainText (casefold : Text → Text) (events : List Event) : Text :=
  let parser : PlainTextHTMLParser := events.foldl (PlainTextHTMLParser.handle casefold) {}
  let raw_lines := (parser.parts.flatten.filter (· ≠ '\r')).splitOn '\n'
  let lines := (raw_lines.foldl addLine []).rdropWhile (· = [])
  List.intercalate ['\n'] lines

/-! ## Documents -/

/-- The nodes of a document one after another. An element may be without an end tag, and an
end tag without an element. -/
inductive Document
  | nil
  | text (data : Text) (rest : Document)
  | element (tag : Text) (children : Document) (ended : Bool) (rest : Document)
  | stray (tag : Text) (rest : Document)

namespace Document

/-- What the parser makes of how it is written. -/
def events : Document → List Event
  | nil => []
  | text data rest => .data data :: rest.events
  | element tag children ended rest =>
    .starttag tag :: (children.events ++ ((if ended then [.endtag tag] else []) ++ rest.events))
  | stray tag rest => .endtag tag :: rest.events

/-- The text outside the hidden elements, with something in front of each list item. -/
def outside (marker : Text) : Document → Text
  | nil => []
  | text data rest => data ++ rest.outside marker
  | element tag children _ rest =>
    (if isHidden tag then []
      else (if tag = "li".toList then marker else []) ++ children.outside marker) ++
    rest.outside marker
  | stray _ rest => rest.outside marker

/-- End tags that HTML lets a document omit, of elements that are not void. -/
def OPTIONAL_END_TAGS : List String :=
  ["html", "head", "body", "li", "dt", "dd", "p", "rt", "rp", "optgroup", "option", "colgroup",
    "caption", "thead", "tbody", "tfoot", "tr", "td", "th"]

def VOID_ELEMENTS : List String :=
  ["area", "base", "br", "col", "embed", "hr", "img", "input", "link", "meta", "source", "track",
    "wbr"]

/-- Each end tag is there or may be omitted. -/
def Permitted : Document → Prop
  | nil => True
  | text _ rest => rest.Permitted
  | element tag children ended rest =>
    (ended = true ∨ ∃ name ∈ OPTIONAL_END_TAGS ++ VOID_ELEMENTS, tag = name.toList) ∧
      children.Permitted ∧ rest.Permitted
  | stray _ rest => rest.Permitted

/-- Hidden elements have end tags of their own, and hold none that are not of an element in
them. Names are in the case that they are compared in. -/
def Closed (casefold : Text → Text) (hidden : Bool) : Document → Prop
  | nil => True
  | text _ rest => rest.Closed casefold hidden
  | element tag children ended rest =>
    casefold tag = tag ∧ (isHidden tag = true → ended = true) ∧
      children.Closed casefold (hidden || isHidden tag) ∧ rest.Closed casefold hidden
  | stray tag rest =>
    casefold tag = tag ∧ (isHidden tag = true → hidden = false) ∧ rest.Closed casefold hidden

end Document

/-- The text up to white space. -/
def squeeze (text : Text) : Text := text.filter (!Text.isSpace ·)

@[simp] theorem squeeze_nil : squeeze [] = [] := rfl

theorem squeeze_cons (c : Char) (text : Text) :
    squeeze (c :: text) = if Text.isSpace c then squeeze text else c :: squeeze text := by
  unfold squeeze
  rw [List.filter_cons]
  cases Text.isSpace c <;> rfl

@[simp] theorem squeeze_append (text more : Text) :
    squeeze (text ++ more) = squeeze text ++ squeeze more := List.filter_append ..

theorem squeeze_of_space {text : Text} (h : ∀ c ∈ text, Text.isSpace c = true) :
    squeeze text = [] := by
  apply List.filter_eq_nil_iff.mpr
  intro c hc
  simp [h c hc]

/-! ## The handlers -/

namespace PlainTextHTMLParser

/-- What the parser has, up to white space. -/
def shown (parser : PlainTextHTMLParser) : Text := squeeze parser.parts.flatten

@[simp] theorem shown_append (parser : PlainTextHTMLParser) (part : Text) :
    (parser.append part).shown = parser.shown ++ squeeze part := by
  simp [shown, append]

@[simp] theorem hidden_depth_append (parser : PlainTextHTMLParser) (part : Text) :
    (parser.append part).hidden_depth = parser.hidden_depth := rfl

theorem lineBreak_spec (parser : PlainTextHTMLParser) (count : Nat) :
    (parser.lineBreak count).shown = parser.shown ∧
      (parser.lineBreak count).hidden_depth = parser.hidden_depth := by
  unfold lineBreak
  cases parser.parts.getLast? with
  | none => exact ⟨rfl, rfl⟩
  | some last =>
    dsimp only
    split
    · have hspace : squeeze (List.replicate
          (count - (last.rtakeWhile (· == '\n')).length) '\n') = [] := by
        apply squeeze_of_space
        intro c hc
        rw [List.eq_of_mem_replicate hc]
        rfl
      exact ⟨by rw [shown_append, hspace, List.append_nil], rfl⟩
    · exact ⟨rfl, rfl⟩

section
variable {casefold : Text → Text} {tag : Text} (parser : PlainTextHTMLParser)

theorem handleStarttag_hidden (h : isHidden (casefold tag) = true) :
    parser.handleStarttag casefold tag =
      { parser with hidden_depth := parser.hidden_depth + 1 } := by
  rw [handleStarttag, if_pos h]

theorem handleEndtag_hidden (h : isHidden (casefold tag) = true) :
    parser.handleEndtag casefold tag =
      { parser with hidden_depth := parser.hidden_depth - 1 } := by
  rw [handleEndtag, if_pos h]

/-- In a hidden element no other tag does anything. -/
theorem handle_inside (h : isHidden (casefold tag) = false) (hdepth : parser.hidden_depth ≠ 0) :
    parser.handleStarttag casefold tag = parser ∧ parser.handleEndtag casefold tag = parser := by
  have hnot : ¬ isHidden (casefold tag) = true := by rw [h]; exact Bool.false_ne_true
  constructor
  · rw [handleStarttag, if_neg hnot, if_pos hdepth]
  · rw [handleEndtag, if_neg hnot, if_pos hdepth]

/-- Outside of them a start tag adds white space, and the marker of a list item. -/
theorem handleStarttag_outside (h : isHidden (casefold tag) = false)
    (hdepth : parser.hidden_depth = 0) :
    (parser.handleStarttag casefold tag).hidden_depth = 0 ∧
      (parser.handleStarttag casefold tag).shown =
        parser.shown ++ if casefold tag = "li".toList then ['-'] else [] := by
  have hnot : ¬ isHidden (casefold tag) = true := by rw [h]; exact Bool.false_ne_true
  rw [handleStarttag, if_neg hnot, if_neg (not_not.mpr hdepth)]
  by_cases hbr : casefold tag = "br".toList
  · rw [if_pos hbr, if_neg (by rw [hbr]; decide), List.append_nil]
    obtain ⟨hshown, hsame⟩ := parser.lineBreak_spec 1
    exact ⟨hsame.trans hdepth, hshown⟩
  rw [if_neg hbr]
  by_cases hli : casefold tag = "li".toList
  · rw [if_pos hli, if_pos hli]
    obtain ⟨hshown, hsame⟩ := parser.lineBreak_spec 1
    exact ⟨hsame.trans hdepth, by rw [shown_append, hshown]; rfl⟩
  rw [if_neg hli, if_neg hli, List.append_nil]
  split
  · cases parser.parts.getLast? with
    | none => exact ⟨hdepth, rfl⟩
    | some last =>
      dsimp only
      split
      · exact ⟨hdepth, rfl⟩
      · exact ⟨hdepth, by rw [shown_append]; exact List.append_nil _⟩
  · split
    · obtain ⟨hshown, hsame⟩ := parser.lineBreak_spec 2
      exact ⟨hsame.trans hdepth, hshown⟩
    · exact ⟨hdepth, rfl⟩

theorem handleEndtag_outside (h : isHidden (casefold tag) = false)
    (hdepth : parser.hidden_depth = 0) :
    (parser.handleEndtag casefold tag).hidden_depth = 0 ∧
      (parser.handleEndtag casefold tag).shown = parser.shown := by
  have hnot : ¬ isHidden (casefold tag) = true := by rw [h]; exact Bool.false_ne_true
  rw [handleEndtag, if_neg hnot, if_neg (not_not.mpr hdepth)]
  split
  · obtain ⟨hshown, hsame⟩ := parser.lineBreak_spec 1
    exact ⟨hsame.trans hdepth, hshown⟩
  · split
    · obtain ⟨hshown, hsame⟩ := parser.lineBreak_spec 2
      exact ⟨hsame.trans hdepth, hshown⟩
    · exact ⟨hdepth, rfl⟩

/-! ## Whole documents -/

/-- A closed stretch of a hidden element leaves the parser as it was. -/
theorem foldl_inside {document : Document} (h : document.Closed casefold true)
    (hdepth : parser.hidden_depth ≠ 0) :
    document.events.foldl (handle casefold) parser = parser := by
  induction document generalizing parser with
  | nil => rfl
  | text data rest ih =>
    have hdata : parser.handleData data = parser := by rw [handleData, if_neg hdepth]
    rw [Document.events, List.foldl_cons, handle, hdata]
    exact ih parser h hdepth
  | stray tag rest ih =>
    obtain ⟨hfold, hhidden, hrest⟩ := h
    have htag : isHidden (casefold tag) = false := by
      rw [hfold]
      by_contra hne
      exact absurd (hhidden (by simpa using hne)) (by decide)
    rw [Document.events, List.foldl_cons, handle, (parser.handle_inside htag hdepth).2]
    exact ih parser hrest hdepth
  | element tag children ended rest ihChildren ihRest =>
    obtain ⟨hfold, hended, hchildren, hrest⟩ := h
    rw [Document.events, List.foldl_cons, List.foldl_append, List.foldl_append]
    cases htag : isHidden tag with
    | true =>
      have hchildren' := ihChildren { parser with hidden_depth := parser.hidden_depth + 1 }
        hchildren (Nat.succ_ne_zero _)
      rw [handle, parser.handleStarttag_hidden (hfold.symm ▸ htag), hchildren', hended htag,
        if_pos rfl, List.foldl_cons, List.foldl_nil, handle,
        handleEndtag_hidden _ (hfold.symm ▸ htag)]
      exact ihRest parser hrest hdepth
    | false =>
      obtain ⟨hstart, hend⟩ := parser.handle_inside (hfold.symm ▸ htag) hdepth
      rw [handle, hstart, ihChildren parser hchildren hdepth]
      cases ended with
      | false => exact ihRest parser hrest hdepth
      | true =>
        rw [if_pos rfl, List.foldl_cons, List.foldl_nil, handle, hend]
        exact ihRest parser hrest hdepth

/-- Outside of hidden elements it takes up what is outside of them. -/
theorem foldl_outside {document : Document} (h : document.Closed casefold false)
    (hdepth : parser.hidden_depth = 0) :
    (document.events.foldl (handle casefold) parser).hidden_depth = 0 ∧
      (document.events.foldl (handle casefold) parser).shown =
        parser.shown ++ squeeze (document.outside ['-']) := by
  induction document generalizing parser with
  | nil => exact ⟨hdepth, (List.append_nil _).symm⟩
  | text data rest ih =>
    have hdata : parser.handleData data = parser.append data := by rw [handleData, if_pos hdepth]
    rw [Document.events, List.foldl_cons, handle, hdata]
    obtain ⟨hzero, hshown⟩ := ih (parser.append data) h hdepth
    refine ⟨hzero, ?_⟩
    rw [hshown, shown_append, Document.outside, squeeze_append, List.append_assoc]
  | stray tag rest ih =>
    obtain ⟨hfold, -, hrest⟩ := h
    rw [Document.events, List.foldl_cons, handle, Document.outside]
    cases htag : isHidden tag with
    | true =>
      -- the counter stays at zero
      rw [parser.handleEndtag_hidden (hfold.symm ▸ htag)]
      have hstep := ih { parser with hidden_depth := parser.hidden_depth - 1 } hrest
        (by rw [hdepth])
      exact hstep
    | false =>
      obtain ⟨hzero, hsame⟩ := parser.handleEndtag_outside (hfold.symm ▸ htag) hdepth
      obtain ⟨hlast, hshown⟩ := ih _ hrest hzero
      exact ⟨hlast, by rw [hshown, hsame]⟩
  | element tag children ended rest ihChildren ihRest =>
    obtain ⟨hfold, hended, hchildren, hrest⟩ := h
    rw [Document.events, List.foldl_cons, List.foldl_append, List.foldl_append, handle,
      Document.outside]
    cases htag : isHidden tag with
    | true =>
      rw [Bool.false_or, htag] at hchildren
      rw [parser.handleStarttag_hidden (hfold.symm ▸ htag),
        foldl_inside _ hchildren (Nat.succ_ne_zero _), hended htag, if_pos rfl, List.foldl_cons,
        List.foldl_nil, handle, handleEndtag_hidden _ (hfold.symm ▸ htag)]
      exact ihRest parser hrest hdepth
    | false =>
      rw [Bool.false_or, htag] at hchildren
      have hname : isHidden (casefold tag) = false := hfold.symm ▸ htag
      obtain ⟨hstart, hstartShown⟩ := parser.handleStarttag_outside hname hdepth
      obtain ⟨hinner, hinnerShown⟩ := ihChildren _ hchildren hstart
      have hend : ∃ middle, (if ended then [Event.endtag tag] else []).foldl (handle casefold)
          (children.events.foldl (handle casefold) (parser.handleStarttag casefold tag)) = middle ∧
          middle.hidden_depth = 0 ∧
          middle.shown = parser.shown ++ squeeze ((if tag = "li".toList then ['-'] else []) ++
            children.outside ['-']) := by
        have hbefore : (children.events.foldl (handle casefold)
            (parser.handleStarttag casefold tag)).shown =
            parser.shown ++ squeeze ((if tag = "li".toList then ['-'] else []) ++
              children.outside ['-']) := by
          rw [hinnerShown, hstartShown, hfold, squeeze_append, ← List.append_assoc]
          split <;> rfl
        cases ended with
        | false => exact ⟨_, rfl, hinner, hbefore⟩
        | true =>
          obtain ⟨hzero, hsame⟩ := handleEndtag_outside _ hname hinner
          exact ⟨_, rfl, hzero, hsame.trans hbefore⟩
      obtain ⟨middle, hmiddle, hzero, hshown⟩ := hend
      rw [hmiddle]
      obtain ⟨hlast, hlastShown⟩ := ihRest middle hrest hzero
      refine ⟨hlast, ?_⟩
      rw [hlastShown, hshown, if_neg Bool.false_ne_true]
      simp only [squeeze_append, List.append_assoc]

end

end PlainTextHTMLParser

/-! ## The lines -/

theorem squeeze_collapse (text : Text) : squeeze (collapse text) = squeeze text := by
  have hblank : Text.isSpace ' ' = true := by decide
  fun_induction collapse text with
  | case1 => rfl
  | case2 c hc => simp [squeeze_cons, hblank, hc]
  | case3 c hc => rfl
  | case4 c d rest hc hd ih => rw [ih, squeeze_cons c, if_pos hc]
  | case5 c d rest hc hd ih =>
    rw [squeeze_cons ' ', if_pos hblank, ih, squeeze_cons c, if_pos hc]
  | case6 c d rest hc ih => rw [squeeze_cons c, squeeze_cons c, ih]

theorem squeeze_strip (text : Text) : squeeze (Text.strip Text.isSpace text) = squeeze text := by
  have hfront : squeeze (text.dropWhile Text.isSpace) = squeeze text := by
    have htake : squeeze (text.takeWhile Text.isSpace) = [] :=
      squeeze_of_space fun c hc => List.mem_takeWhile_imp hc
    have happend := squeeze_append (text.takeWhile Text.isSpace) (text.dropWhile Text.isSpace)
    rw [List.takeWhile_append_dropWhile, htake, List.nil_append] at happend
    exact happend.symm
  have hback : ∀ line : Text, squeeze (line.rdropWhile Text.isSpace) = squeeze line := by
    intro line
    induction line using List.reverseRecOn with
    | nil => rfl
    | append_singleton line c ih =>
      cases hc : Text.isSpace c with
      | true =>
        have hblank : squeeze [c] = [] := squeeze_of_space (by simpa using hc)
        rw [List.rdropWhile_concat_pos _ _ _ hc, ih, squeeze_append, hblank, List.append_nil]
      | false => rw [List.rdropWhile_concat_neg _ _ _ (by simp [hc])]
  rw [Text.strip, hback, hfront]

theorem squeeze_intercalate (lines : List Text) :
    squeeze (List.intercalate ['\n'] lines) = lines.flatMap squeeze := by
  induction lines with
  | nil => rfl
  | cons line lines ih =>
    cases lines with
    | nil => simp
    | cons next lines =>
      have hbreak : squeeze ['\n'] = [] := by decide
      rw [List.flatMap_cons, List.intercalate_cons_cons, squeeze_append, squeeze_append, ih, hbreak,
        List.append_nil]

theorem squeeze_addLine (lines : List Text) (raw_line : Text) :
    (addLine lines raw_line).flatMap squeeze = lines.flatMap squeeze ++ squeeze raw_line := by
  have hline : squeeze (Text.strip Text.isSpace (collapse raw_line)) = squeeze raw_line := by
    rw [squeeze_strip, squeeze_collapse]
  unfold addLine
  dsimp only
  split
  · simp [hline]
  · rename_i hblank
    rw [not_not.mp hblank] at hline
    rw [← hline, squeeze_nil, List.append_nil]
    split
    · simp
    · rfl

theorem squeeze_htmlToPlainText (casefold : Text → Text) (events : List Event) :
    squeeze (htmlToPlainText casefold events) =
      (events.foldl (PlainTextHTMLParser.handle casefold) {}).shown := by
  have hfold : ∀ (raw_lines lines : List Text), (raw_lines.foldl addLine lines).flatMap squeeze =
      lines.flatMap squeeze ++ raw_lines.flatMap squeeze := by
    intro raw_lines
    induction raw_lines with
    | nil => simp
    | cons raw_line raw_lines ih =>
      intro lines
      rw [List.foldl_cons, ih, squeeze_addLine, List.flatMap_cons, List.append_assoc]
  have hdrop : ∀ lines : List Text,
      (lines.rdropWhile (· = [])).flatMap squeeze = lines.flatMap squeeze := by
    intro lines
    induction lines using List.reverseRecOn with
    | nil => rfl
    | append_singleton lines line ih =>
      by_cases hline : line = []
      · rw [List.rdropWhile_concat_pos _ _ _ (by simpa using hline), ih, hline]
        simp
      · rw [List.rdropWhile_concat_neg _ _ _ (by simpa using hline)]
  have hcr : ∀ text : Text, squeeze (text.filter (· ≠ '\r')) = squeeze text := by
    intro text
    unfold squeeze
    rw [List.filter_filter]
    apply List.filter_congr
    intro c hc
    by_cases heq : c = '\r'
    · rw [heq]
      rfl
    · simp [heq]
  unfold htmlToPlainText
  dsimp only
  rw [squeeze_intercalate, hdrop, hfold, List.flatMap_nil, List.nil_append, ← squeeze_intercalate,
    List.intercalate_splitOn, hcr]
  rfl

/-- **The plain text of a message**: where the hidden elements are closed, it is the text outside
of them with a dash in front of each list item, up to white space. -/
theorem htmlToPlainText_shows {casefold : Text → Text} {document : Document}
    (h : document.Closed casefold false) :
    squeeze (htmlToPlainText casefold document.events) =
      squeeze (document.outside "- ".toList) := by
  have hmarker : ∀ document : Document,
      squeeze (document.outside "- ".toList) = squeeze (document.outside ['-']) := by
    intro document
    induction document with
    | nil => rfl
    | text data rest ih => rw [Document.outside, Document.outside, squeeze_append, ih, squeeze_append]
    | stray tag rest ih => exact ih
    | element tag children ended rest ihChildren ihRest =>
      rw [Document.outside, Document.outside, squeeze_append, squeeze_append, ihRest]
      split
      · rfl
      · rw [squeeze_append, squeeze_append, ihChildren]
        split <;> rfl
  rw [squeeze_htmlToPlainText, hmarker,
    (PlainTextHTMLParser.foldl_outside {} h rfl).2]
  rfl

/-- A paragraph without an end tag behind a head, and an end tag of a script. -/
def letter : Document :=
  .element "head".toList (.element "title".toList (.text "News".toList .nil) true .nil) true
    (.element "p".toList (.text "Hello ".toList .nil) false
      (.stray "script".toList (.text "Ann".toList .nil)))

theorem htmlToPlainText_letter : squeeze (htmlToPlainText id letter.events) =
    squeeze (letter.outside "- ".toList) :=
  htmlToPlainText_shows (by simp [letter, Document.Closed, isHidden, HIDDEN_TAGS])

def listItem : Document := .element "li".toList (.text "a".toList .nil) true .nil

/-- A head without an end tag, which a body may follow. -/
def openHead : Document :=
  .element "head".toList (.element "title".toList (.text "News".toList .nil) true .nil) false
    (.element "body".toList (.text "Hello".toList .nil) true .nil)

/-- The plain text has dashes that no document has, and misses what follows an open head. -/
theorem htmlToPlainText_differs :
    (listItem.Permitted ∧ squeeze (htmlToPlainText id listItem.events) ≠
      squeeze (listItem.outside [])) ∧
    (openHead.Permitted ∧ squeeze (htmlToPlainText id openHead.events) = [] ∧
      squeeze (openHead.outside []) = "Hello".toList) := by
  refine ⟨⟨?_, by decide⟩, ?_, by decide, by decide⟩
  · exact ⟨.inl rfl, trivial, trivial⟩
  · exact ⟨.inr ⟨"head", by decide, rfl⟩, ⟨.inl rfl, trivial, trivial⟩, .inl rfl, trivial, trivial⟩

end MailCue.Backend.Emails.PlainText
