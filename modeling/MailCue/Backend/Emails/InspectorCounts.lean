import MailCue.Backend.Emails.ContentInspector
import MailCue.Lib.Fallible

/-!
# What the inspector counts of a document

Forbidden tags, forms, links, tracking pixels and hidden elements of all elements, and what
is left of these where a size that is no number for `int` ends the parsing.
-/
namespace MailCue.Backend.Emails.Inspector
open MailCue.Lib

structure Counts where
  forbidden_tags : List Text := []
  forms : Nat := 0
  links : List Text := []
  tracking_pixels : Nat := 0
  hidden_elements : Nat := 0
  deriving DecidableEq

namespace Counts

def append (a b : Counts) : Counts where
  forbidden_tags := a.forbidden_tags ++ b.forbidden_tags
  forms := a.forms + b.forms
  links := a.links ++ b.links
  tracking_pixels := a.tracking_pixels + b.tracking_pixels
  hidden_elements := a.hidden_elements + b.hidden_elements

@[simp] theorem append_none (a : Counts) : a.append {} = a := by
  simp [append]

@[simp] theorem none_append (a : Counts) : Counts.append {} a = a := by
  simp [append]

theorem append_assoc (a b c : Counts) : (a.append b).append c = a.append (b.append c) := by
  simp [append, Nat.add_assoc]

theorem eq_append_iff {a b : Counts} : a = a.append b ↔ b = {} := by
  cases a
  cases b
  simp [append]

theorem append_eq_none {a b : Counts} : a.append b = {} ↔ a = {} ∧ b = {} := by
  cases a
  cases b
  simp [append]
  tauto

end Counts

def ContentInspector.counts (s : ContentInspector) : Counts where
  forbidden_tags := s.forbidden_tags
  forms := s.forms
  links := s.links
  tracking_pixels := s.tracking_pixels
  hidden_elements := s.hidden_elements

section
variable (py : Characters)

/-! ## Elements -/

/-- Two numbers of at most two, however they are written. -/
def isPixel (attrs : Attrs) : Bool :=
  (number py (pixels py attrs "width")).any (· ≤ 2) &&
    (number py (pixels py attrs "height")).any (· ≤ 2)

/-- What an element adds to the counts over all elements. -/
def Event.counts : Event → Counts
  | starttag tag attrs =>
    let lower := py.lower tag
    { forbidden_tags :=
        if isOneOf lower FORBIDDEN_TAGS then [lower] else []
      forms := if isOneOf lower ["form"] then 1 else 0
      links :=
        if isOneOf lower ["a"] && !(valueOr py attrs "href").isEmpty then [valueOr py attrs "href"]
        else []
      tracking_pixels := if isOneOf lower ["img"] && isPixel py attrs then 1 else 0
      hidden_elements := if hides py attrs then 1 else 0 }
  | _ => {}

def countsOf (events : List Event) : Counts :=
  events.foldr (fun event counts => (event.counts py).append counts) {}

/-- A size of the element is no number for `int`. -/
def Event.raises : Event → Bool
  | starttag tag attrs =>
    (isOneOf (py.lower tag) ["a", "button"] && !(smallTapTarget py attrs).isOk) ||
      (isOneOf (py.lower tag) ["img"] && !(tinyImage py attrs).isOk)
  | _ => false

/-- What of a raising element is not counted: an image has all but its size behind it. -/
def Event.lost : Event → Counts
  | starttag tag attrs =>
    if isOneOf (py.lower tag) ["img"] then
      { tracking_pixels := if isPixel py attrs then 1 else 0 }
    else (starttag tag attrs).counts py
  | _ => {}

/-- From the first element on that raises there is nothing to count. -/
def NothingCut (events : List Event) : Prop :=
  ∀ front event back, events = front ++ event :: back → event.raises py = true →
    (∀ other ∈ front, other.raises py = false) →
      event.lost py = {} ∧ countsOf py back = {}

variable {py}

theorem isOneOf_singleton {text : Text} {name : String} :
    isOneOf text [name] = true ↔ text = name.toList := by
  simp only [isOneOf, List.any_cons, List.any_nil, Bool.or_false, beq_iff_eq]
  exact eq_comm

/-! ## One event -/

theorem counts_applyIf {condition : Bool} {change : ContentInspector → ContentInspector}
    (s : ContentInspector) (h : ∀ s, (change s).counts = s.counts) :
    (applyIf condition change s).counts = s.counts := by
  unfold applyIf
  split
  · exact h s
  · rfl

theorem counts_outline (lower : Text) (attrs : Attrs) (s : ContentInspector) :
    (outline py lower attrs s).counts = s.counts := by
  unfold outline
  rw [counts_applyIf, counts_applyIf, counts_applyIf]
  · rfl
  all_goals exact fun _ => rfl

theorem counts_handleEndtag (tag : Text) (s : ContentInspector) :
    (handleEndtag py tag s).counts = s.counts := by
  unfold handleEndtag
  rw [counts_applyIf, counts_applyIf]
  · exact fun _ => rfl
  · intro s
    unfold closeAnchor
    split
    · rfl
    · rfl

theorem counts_handleData (text : Text) (s : ContentInspector) :
    (handleData text s).counts = s.counts := by
  unfold handleData
  split
  · rw [counts_applyIf]
    · rfl
    · exact fun _ => rfl
  · rfl

theorem counts_tallyImage (attrs : Attrs) (s : ContentInspector) :
    (tallyImage py attrs s).counts = s.counts := by
  unfold tallyImage
  rw [counts_applyIf, counts_applyIf]
  · rfl
  all_goals exact fun _ => rfl

theorem counts_tallyTag (lower : Text) (attrs : Attrs) (s : ContentInspector) :
    (tallyTag py lower attrs s).counts = s.counts.append
      { forms := if isOneOf lower ["form"] then 1 else 0
        links :=
          if isOneOf lower ["a"] && !(valueOr py attrs "href").isEmpty then
            [valueOr py attrs "href"]
          else [] } := by
  unfold tallyTag
  by_cases hscript : isOneOf lower ["script"] = true
  · obtain rfl := isOneOf_singleton.mp hscript
    simp [isOneOf, ContentInspector.counts, Counts.append]
  by_cases hform : isOneOf lower ["form"] = true
  · obtain rfl := isOneOf_singleton.mp hform
    simp [isOneOf, ContentInspector.counts, Counts.append]
  rw [if_neg hscript, if_neg hform, if_neg hform]
  by_cases hlink : (isOneOf lower ["a"] && !(valueOr py attrs "href").isEmpty) = true
  · rw [if_pos hlink, if_pos hlink]
    simp [ContentInspector.counts, Counts.append]
  · rw [if_neg hlink, if_neg hlink]
    split
    · rw [counts_tallyImage]
      exact (Counts.append_none _).symm
    · exact (Counts.append_none _).symm

/-- All but the pixels is counted together. -/
theorem counts_tally (tag : Text) (attrs : Attrs) (s : ContentInspector) :
    (tally py (py.lower tag) attrs s).counts = s.counts.append
      { (Event.starttag tag attrs).counts py with tracking_pixels := 0 } := by
  unfold tally
  rw [counts_tallyTag, counts_applyIf]
  · cases hhides : hides py attrs with
    | false =>
      cases hforbidden : isOneOf (py.lower tag) FORBIDDEN_TAGS with
      | false => simp [applyIf, Event.counts, ContentInspector.counts, Counts.append, *]
      | true => simp [applyIf, Event.counts, ContentInspector.counts, Counts.append, *]
    | true =>
      cases hforbidden : isOneOf (py.lower tag) FORBIDDEN_TAGS with
      | false => simp [applyIf, Event.counts, ContentInspector.counts, Counts.append, *]
      | true => simp [applyIf, Event.counts, ContentInspector.counts, Counts.append, *]
  · exact fun _ => rfl

/-! ## Sizes of images -/

theorem decimal_of_foldlM {text : Text} {start n : Nat}
    (h : text.foldlM (fun n c => (10 * n + ·) <$> py.decimal c) start = some n) :
    ∀ c ∈ text, (py.decimal c).isSome = true := by
  induction text generalizing start with
  | nil => nofun
  | cons c text ih =>
    rw [List.foldlM_cons] at h
    cases hc : py.decimal c with
    | none => simp [hc] at h
    | some digit =>
      rw [hc] at h
      refine List.forall_mem_cons.mpr ⟨by rw [hc]; rfl, ih h⟩

theorem isDigits_of_number {text : Text} {n : Nat} (h : number py text = some n) :
    isDigits py text = true := by
  unfold number at h
  split at h
  · cases h
  · rename_i hempty
    rw [isDigits, Bool.and_eq_true, List.all_eq_true]
    exact ⟨by simpa using hempty,
      fun c hc => py.isDigit_of_decimal c (decimal_of_foldlM h c hc)⟩

theorem number_of_parseInt {text : Text} {n : Nat} (h : parseInt py text = .ok n) :
    number py text = some n := by
  unfold parseInt at h
  split at h
  · cases h
  · cases hnumber : number py text with
    | none =>
      rw [hnumber] at h
      cases h
    | some m =>
      rw [hnumber] at h
      cases h
      rfl

/-- Where no size raises an image counts as a pixel if it is one. -/
theorem tinyImage_ok {attrs : Attrs} {tiny : Bool} (h : tinyImage py attrs = .ok tiny) :
    tiny = isPixel py attrs := by
  unfold tinyImage at h
  unfold isPixel
  split at h
  · obtain ⟨width, hwidth, h⟩ := ok_of_bind h
    rw [number_of_parseInt hwidth, Option.any_some]
    split at h
    · rename_i hsmall
      obtain ⟨height, hheight, h⟩ := ok_of_bind h
      cases h
      rw [number_of_parseInt hheight, Option.any_some, decide_eq_true hsmall, Bool.true_and]
    · rename_i hlarge
      cases h
      rw [decide_eq_false hlarge, Bool.false_and]
  · rename_i hdigits
    cases h
    cases hwidth : number py (pixels py attrs "width") with
    | none => rfl
    | some width =>
      cases hheight : number py (pixels py attrs "height") with
      | none => simp
      | some height =>
        rw [isDigits_of_number hwidth, isDigits_of_number hheight] at hdigits
        exact absurd rfl hdigits

/-! ## One event after the other -/

/-- What is tallied with the sizes of a link or a button behind it. -/
theorem counts_tallied (tag : Text) (attrs : Attrs) (small : Bool) (s : ContentInspector) :
    (tally py (py.lower tag) attrs (applyIf small (fun s =>
        { s with small_explicit_tap_targets := s.small_explicit_tap_targets + 1 })
        (outline py (py.lower tag) attrs s))).counts =
      s.counts.append { (Event.starttag tag attrs).counts py with tracking_pixels := 0 } := by
  rw [counts_tally, counts_applyIf, counts_outline]
  exact fun _ => rfl

theorem pixels_of_not_img {tag : Text} {attrs : Attrs}
    (h : isOneOf (py.lower tag) ["img"] = false) :
    { (Event.starttag tag attrs).counts py with tracking_pixels := 0 } =
      (Event.starttag tag attrs).counts py := by
  simp [Event.counts, h]

/-- What an image counts together, and the pixel it is. -/
theorem counts_img {tag : Text} {attrs : Attrs} (h : isOneOf (py.lower tag) ["img"] = true) :
    ({ (Event.starttag tag attrs).counts py with tracking_pixels := 0 } : Counts).append
        { tracking_pixels := if isPixel py attrs then 1 else 0 } =
      (Event.starttag tag attrs).counts py := by
  simp [Event.counts, Counts.append, h]

/-- Every event leaves what was counted and adds its own, or raises and adds all but what
is lost. -/
theorem handle_run (py : Characters) (event : Event) (s : ContentInspector) :
    (event.raises py = false → ∃ s', event.handle py s = (.ok (), s') ∧
      s'.counts = s.counts.append (event.counts py)) ∧
    (event.raises py = true → ∃ s', event.handle py s = (.error (), s') ∧
      s'.counts.append (event.lost py) = s.counts.append (event.counts py)) := by
  cases event with
  | endtag tag =>
    refine ⟨fun _ => ⟨_, rfl, ?_⟩, nofun⟩
    rw [counts_handleEndtag]
    exact (Counts.append_none _).symm
  | data text =>
    refine ⟨fun _ => ⟨_, rfl, ?_⟩, nofun⟩
    rw [counts_handleData]
    exact (Counts.append_none _).symm
  | starttag tag attrs =>
    have hdisjoint : isOneOf (py.lower tag) ["img"] = true →
        isOneOf (py.lower tag) ["a", "button"] = false := by
      intro himg
      rw [isOneOf_singleton.mp himg]
      rfl
    simp only [Event.raises, Event.handle, handleStarttag]
    cases himg : isOneOf (py.lower tag) ["img"] with
    | true =>
      simp only [hdisjoint himg, Bool.false_and, Bool.false_or, Bool.true_and, Bool.false_eq_true,
        if_true, if_false]
      cases htiny : tinyImage py attrs with
      | error e =>
        refine ⟨nofun, fun _ => ⟨_, rfl, ?_⟩⟩
        rw [counts_tallied, Event.lost, if_pos himg, Counts.append_assoc, counts_img himg]
      | ok tiny =>
        refine ⟨fun _ => ⟨_, rfl, ?_⟩, nofun⟩
        rw [← counts_img himg, ← Counts.append_assoc, ← counts_tallied tag attrs false s,
          tinyImage_ok htiny]
        cases isPixel py attrs with
        | false => exact (Counts.append_none _).symm
        | true => simp [applyIf, ContentInspector.counts, Counts.append]
    | false =>
      simp only [Bool.false_and, Bool.or_false, Bool.false_eq_true, if_false]
      cases htap : isOneOf (py.lower tag) ["a", "button"] with
      | false =>
        refine ⟨fun _ => ⟨_, rfl, ?_⟩, nofun⟩
        rw [← pixels_of_not_img himg]
        exact counts_tallied tag attrs false s
      | true =>
        simp only [Bool.true_and, if_true]
        cases hsmall : smallTapTarget py attrs with
        | error e =>
          refine ⟨nofun, fun _ => ⟨_, rfl, ?_⟩⟩
          rw [counts_outline, Event.lost, himg]
          rfl
        | ok small =>
          refine ⟨fun _ => ⟨_, rfl, ?_⟩, nofun⟩
          rw [← pixels_of_not_img himg]
          exact counts_tallied tag attrs small s

/-! ## A whole document -/

/-- What is counted behind an element that raises is nothing. -/
theorem feed_eq_iff (py : Characters) (events : List Event) (s : ContentInspector) :
    (feed py events s).counts = s.counts.append (countsOf py events) ↔ NothingCut py events := by
  induction events generalizing s with
  | nil =>
    refine iff_of_true (Counts.append_none _).symm fun front event back h => ?_
    simp at h
  | cons event rest ih =>
    obtain ⟨hquiet, hraising⟩ := handle_run py event s
    have hcounts : countsOf py (event :: rest) = (event.counts py).append (countsOf py rest) := rfl
    rw [feed, hcounts, ← Counts.append_assoc]
    cases hraises : event.raises py with
    | false =>
      obtain ⟨s', hrun, hs'⟩ := hquiet hraises
      rw [hrun, ← hs']
      refine (ih s').trans ⟨fun h front other back heq hother hfront => ?_,
        fun h front other back heq hother hfront => ?_⟩
      · cases front with
        | nil =>
          obtain ⟨rfl, -⟩ := List.cons.inj heq
          rw [hraises] at hother
          cases hother
        | cons first front =>
          obtain ⟨rfl, rfl⟩ := List.cons.inj heq
          exact h front other back rfl hother fun o ho => hfront o (List.mem_cons_of_mem _ ho)
      · subst heq
        refine h (event :: front) other back rfl hother fun o ho => ?_
        rcases List.mem_cons.mp ho with rfl | ho
        · exact hraises
        · exact hfront o ho
    | true =>
      obtain ⟨s', hrun, hs'⟩ := hraising hraises
      rw [hrun, ← hs', Counts.append_assoc, Counts.eq_append_iff, Counts.append_eq_none]
      constructor
      · intro h front other back heq hother hfront
        cases front with
        | nil =>
          obtain ⟨rfl, rfl⟩ := List.cons.inj heq
          exact h
        | cons first front =>
          obtain ⟨rfl, -⟩ := List.cons.inj heq
          rw [hfront event List.mem_cons_self] at hraises
          cases hraises
      · intro h
        exact h [] event rest rfl hraises nofun

/-! ## Every document -/

/-- **All elements are counted** exactly where none that ends the parsing has anything to
count at its size or behind it. -/
theorem feed_counts_iff (py : Characters) (events : List Event) :
    (feed py events {}).counts = countsOf py events ↔ NothingCut py events := by
  have hfeed := feed_eq_iff py events {}
  rwa [show ({} : ContentInspector).counts = {} from rfl, Counts.none_append] at hfeed

end

/-- ASCII, and a superscript that `isdigit` holds of and `int` does not take. -/
def withSuperscript : Characters where
  lower := Text.asciiLower
  fold := Char.toLower
  decimal c := if c.isDigit then some (c.toNat - '0'.toNat) else none
  isDigit c := c.isDigit || c == '²'
  isDigit_of_decimal c h := by
    split at h
    · simp [*]
    · cases h

theorem script_behind_button_not_counted :
    ¬ ∀ py events, (feed py events {}).counts = countsOf py events := by
  intro h
  have hbutton := h withSuperscript
    [.starttag "button".toList [("width".toList, some "²".toList)],
      .starttag "script".toList []]
  exact absurd hbutton (by decide)

end MailCue.Backend.Emails.Inspector
