import Mathlib.Data.List.DropRight
import Mathlib.Data.List.Infix
import Mathlib.Tactic.Common

/-!
# Searching texts

Texts as lists of characters: whether one contains another, what trimming its
ends leaves of that, and what lower-casing does. The case mapping of a language
runs over all of Unicode; a `Lowering` is any of them, with what it does to a
stretch of ASCII.
-/
namespace MailCue.Lib

abbrev Text := List Char

instance lawfulBEq_text : LawfulBEq (List Char) := inferInstance

/-- Neither CR nor LF. -/
def Unbroken (text : Text) : Prop := '\r' ∉ text ∧ '\n' ∉ text

instance (text : Text) : Decidable (Unbroken text) := inferInstanceAs (Decidable (_ ∧ _))

theorem unbroken_append {text more : Text} :
    Unbroken (text ++ more) ↔ Unbroken text ∧ Unbroken more := by
  simp only [Unbroken, List.mem_append, not_or]
  exact and_and_and_comm

theorem unbroken_cons {c : Char} {text : Text} :
    Unbroken (c :: text) ↔ (c ≠ '\r' ∧ c ≠ '\n') ∧ Unbroken text := by
  simp only [Unbroken, List.mem_cons, not_or, ne_comm]
  exact and_and_and_comm

namespace Text

/-! ## Containment -/

def contains (text marker : Text) : Bool := text.tails.any marker.isPrefixOf

@[simp] theorem contains_iff (text marker : Text) : contains text marker = true ↔ marker <:+: text := by
  simp only [contains, List.any_eq_true, List.mem_tails, List.isPrefixOf_iff_prefix]
  constructor
  · rintro ⟨tail, htail, hleads⟩
    exact hleads.isInfix.trans htail.isInfix
  · rintro ⟨pre, post, rfl⟩
    exact ⟨marker ++ post, ⟨pre, by simp⟩, List.prefix_append _ _⟩

def containsAny (text : Text) (markers : List String) : Bool :=
  markers.any fun marker => contains text marker.toList

@[simp] theorem containsAny_iff (text : Text) (markers : List String) :
    containsAny text markers = true ↔ ∃ marker ∈ markers, marker.toList <:+: text := by
  simp [containsAny]

/-! ## ASCII -/

def ascii (c : Char) : Bool := c.toNat < 128

def asciiLower (text : Text) : Text := text.map Char.toLower

theorem toLower_of_not_ascii {c : Char} (h : ascii c = false) : c.toLower = c := by
  have hbig : 128 ≤ c.toNat := by simpa [ascii] using h
  have hnot : ¬ (c.val ≥ 'A'.val ∧ c.val ≤ 'Z'.val) := by
    rintro ⟨-, hle⟩
    have hle' : c.toNat ≤ 90 := hle
    omega
  unfold Char.toLower
  rw [dif_neg hnot]

theorem ascii_of_toLower {c : Char} (h : ascii c.toLower = true) : ascii c = true := by
  by_contra hc
  have hnot : ascii c = false := by simpa using hc
  rw [toLower_of_not_ascii hnot] at h
  exact hc h

theorem ascii_toLower {c : Char} (h : ascii c = true) : ascii c.toLower = true := by
  have hall : ∀ n < 128, ascii (Char.ofNat n).toLower = true := by decide
  have hone := hall c.toNat (by simpa [ascii] using h)
  rwa [Char.ofNat_toNat] at hone

theorem toLower_toLower (c : Char) : c.toLower.toLower = c.toLower := by
  by_cases hc : ascii c = true
  · have hall : ∀ n < 128, (Char.ofNat n).toLower.toLower = (Char.ofNat n).toLower := by decide
    have hone := hall c.toNat (by simpa [ascii] using hc)
    rwa [Char.ofNat_toNat] at hone
  · have hnot : ascii c = false := by simpa using hc
    rw [toLower_of_not_ascii hnot, toLower_of_not_ascii hnot]

/-- What holds of every ASCII character and its lower case, and of a character with itself,
holds of every character and its lower case. -/
theorem toLower_cases {P : Char → Char → Prop} (hsame : ∀ c, P c c)
    (hascii : ∀ n < 128, P (Char.ofNat n).toLower (Char.ofNat n)) (c : Char) : P c.toLower c := by
  cases hc : ascii c with
  | false =>
    rw [toLower_of_not_ascii hc]
    exact hsame c
  | true =>
    have hone := hascii c.toNat (by simpa [ascii] using hc)
    rwa [Char.ofNat_toNat] at hone

/-- What the lowered text contains, the text contains in some case. -/
theorem of_infix_asciiLower {text marker : Text} (h : marker <:+: asciiLower text) :
    ∃ pre found post, text = pre ++ found ++ post ∧ asciiLower found = marker := by
  obtain ⟨a, b, hab⟩ := h
  obtain ⟨front, post, rfl, hfront, -⟩ := List.map_eq_append_iff.mp hab.symm
  obtain ⟨pre, found, rfl, -, hfound⟩ := List.map_eq_append_iff.mp hfront
  exact ⟨pre, found, post, rfl, hfound⟩

theorem toLower_eq_of_not_alpha {c d : Char} (hd : d.isAlpha = false) (h : c.toLower = d) :
    c = d := by
  by_cases hc : ascii c = true
  · have hall : ∀ n < 128, (Char.ofNat n).toLower.isAlpha = false →
        (Char.ofNat n).toLower = Char.ofNat n := by decide
    have hone := hall c.toNat (by simpa [ascii] using hc)
    rw [Char.ofNat_toNat, h] at hone
    exact (hone hd).symm
  · rw [← h, toLower_of_not_ascii (by simpa using hc)]

/-- A text without letters stands in the lowered text where it stands in the text. -/
theorem infix_asciiLower_iff {text marker : Text} (hmarker : ∀ c ∈ marker, c.isAlpha = false) :
    marker <:+: asciiLower text ↔ marker <:+: text := by
  constructor
  · intro h
    obtain ⟨pre, found, post, rfl, hfound⟩ := of_infix_asciiLower h
    have hsame : found = marker := by
      subst hfound
      refine (List.map_id found).symm.trans (List.map_congr_left fun c hc => ?_)
      exact toLower_eq_of_not_alpha (hmarker _ (List.mem_map_of_mem hc)) rfl
    exact ⟨pre, post, by rw [hsame]⟩
  · intro h
    have hlower : asciiLower marker = marker := by
      refine (List.map_congr_left fun c hc => ?_).trans (List.map_id marker)
      have hall : ∀ n < 128, (Char.ofNat n).isAlpha = false →
          (Char.ofNat n).toLower = Char.ofNat n := by decide
      by_cases hascii : ascii c = true
      · have hone := hall c.toNat (by simpa [ascii] using hascii)
        rw [Char.ofNat_toNat] at hone
        exact hone (hmarker c hc)
      · exact toLower_of_not_ascii (by simpa using hascii)
    rw [← hlower]
    exact h.map _

/-- No occurrence of the marker begins in front of the text. -/
theorem infix_append_of_apart {pre text marker : Text}
    (h : ∀ tail ∈ pre.tails, tail ≠ [] → ¬ tail <+: marker ∧ ¬ marker <+: tail) :
    marker <:+: pre ++ text ↔ marker <:+: text := by
  induction pre with
  | nil => rfl
  | cons c pre ih =>
    have hhere : ¬ marker <+: c :: (pre ++ text) := by
      intro hleads
      have happart := h (c :: pre) ((List.mem_tails ..).mpr List.suffix_rfl) (List.cons_ne_nil c pre)
      rcases List.prefix_or_prefix_of_prefix hleads (List.prefix_append (c :: pre) text) with
        hshort | hlong
      · exact happart.2 hshort
      · exact happart.1 hlong
    rw [List.cons_append, List.infix_cons_iff, or_iff_right hhere]
    refine ih fun tail htail => h tail ?_
    exact (List.mem_tails ..).mpr (((List.mem_tails ..).mp htail).trans (List.suffix_cons c pre))

/-! ## Lower-casing -/

/-- A case mapping. What the text has of ASCII in one place it leaves in one
place, in lower case. -/
structure Lowering where
  lower : Text → Text
  keeps : ∀ pre found post : Text, (∀ c ∈ found, ascii c = true) →
    ∃ pre' post', lower (pre ++ found ++ post) = pre' ++ asciiLower found ++ post'

/-- The mapping that leaves everything else alone. -/
def Lowering.asciiOnly : Lowering where
  lower := asciiLower
  keeps pre found post _ := ⟨asciiLower pre, asciiLower post, by simp [asciiLower]⟩

theorem Lowering.infix_of_asciiLower (l : Lowering) {text marker : Text}
    (hmarker : ∀ c ∈ marker, ascii c = true) (h : marker <:+: asciiLower text) :
    marker <:+: l.lower text := by
  obtain ⟨pre, found, post, rfl, rfl⟩ := of_infix_asciiLower h
  have hfound : ∀ c ∈ found, ascii c = true := fun c hc =>
    ascii_of_toLower (hmarker _ (List.mem_map_of_mem hc))
  obtain ⟨pre', post', hlower⟩ := l.keeps pre found post hfound
  exact ⟨pre', post', hlower.symm⟩

/-- Some text is lowered to none of these: a long one of one letter. -/
theorem Lowering.exists_not_mem (l : Lowering) (texts : List Text) :
    ∃ text, l.lower text ∉ texts := by
  have hbound : ∃ n, ∀ text ∈ texts, text.length < n := by
    induction texts with
    | nil => exact ⟨0, fun text h => by cases h⟩
    | cons t ts ih =>
      obtain ⟨n, hn⟩ := ih
      refine ⟨max n (t.length + 1), fun text htext => ?_⟩
      rcases List.mem_cons.mp htext with rfl | htail
      · omega
      · have := hn text htail
        omega
  obtain ⟨n, hn⟩ := hbound
  refine ⟨List.replicate n 'a', fun hmem => ?_⟩
  have hascii : ∀ c ∈ List.replicate n 'a', ascii c = true := by
    intro c hc
    rw [List.eq_of_mem_replicate hc]
    rfl
  obtain ⟨pre, post, hlower⟩ := l.keeps [] (List.replicate n 'a') [] hascii
  have hshort := hn _ hmem
  have hlength := congrArg List.length hlower
  simp [asciiLower] at hlength
  omega

/-! ## Trimming -/

def strip (space : Char → Bool) (text : Text) : Text :=
  (text.dropWhile space).rdropWhile space

theorem dropWhile_append_of_stop {space : Char → Bool} {c : Char} (hc : space c = false)
    (pre rest : Text) : c :: rest <:+ (pre ++ c :: rest).dropWhile space := by
  induction pre with
  | nil => simp [hc]
  | cons d pre ih =>
    rw [List.cons_append, List.dropWhile_cons]
    split
    · exact ih
    · exact ⟨d :: pre, rfl⟩

/-- A stretch that no space begins or ends survives the trimming. -/
theorem infix_strip {space : Char → Bool} {text found : Text} (hnonempty : found ≠ [])
    (hhead : space (found.head hnonempty) = false)
    (hlast : space (found.getLast hnonempty) = false) (h : found <:+: text) :
    found <:+: strip space text := by
  obtain ⟨pre, post, rfl⟩ := h
  obtain ⟨front, hfront⟩ : ∃ front,
      front ++ (found ++ post) = (pre ++ (found ++ post)).dropWhile space := by
    have hcons : found = found.head hnonempty :: found.tail := (List.cons_head_tail _).symm
    have hstop := dropWhile_append_of_stop hhead pre (found.tail ++ post)
    rw [← List.cons_append, ← hcons] at hstop
    exact hstop
  obtain ⟨back, hback⟩ : ∃ back, back ++ (found.reverse ++ front.reverse) =
      (post.reverse ++ (found.reverse ++ front.reverse)).dropWhile space := by
    have hcons : found.reverse = found.getLast hnonempty :: found.dropLast.reverse := by
      rw [← List.reverse_concat, List.dropLast_append_getLast]
    have hstop := dropWhile_append_of_stop hlast post.reverse
      (found.dropLast.reverse ++ front.reverse)
    rw [← List.cons_append, ← hcons] at hstop
    exact hstop
  refine ⟨front, back.reverse, ?_⟩
  unfold strip List.rdropWhile
  rw [show pre ++ found ++ post = pre ++ (found ++ post) from List.append_assoc .., ← hfront]
  have hreverse : (front ++ (found ++ post)).reverse =
      post.reverse ++ (found.reverse ++ front.reverse) := by simp
  rw [hreverse, ← hback]
  simp

theorem strip_infix (space : Char → Bool) (text : Text) : strip space text <:+: text :=
  (List.rdropWhile_prefix _ _).isInfix.trans (List.dropWhile_suffix _).isInfix

theorem mem_strip {space : Char → Bool} {c : Char} (hc : space c = false) (text : Text) :
    c ∈ strip space text ↔ c ∈ text := by
  constructor
  · intro h
    exact ( strip_infix space text).subset h
  · intro h
    have hinfix := (List.singleton_infix_iff c text).mpr h
    exact (List.singleton_infix_iff c _).mp (infix_strip (List.cons_ne_nil c []) hc hc hinfix)

/-- A marker of ASCII no space begins or ends is found behind trimming and
lower-casing wherever it is found in the text lower-cased as ASCII. -/
theorem Lowering.infix_strip (l : Lowering) {space : Char → Bool} {text marker : Text}
    (hspace : ∀ c, space c = true → c.toLower = c) (hascii : ∀ c ∈ marker, ascii c = true)
    (hnonempty : marker ≠ []) (hhead : space (marker.head hnonempty) = false)
    (hlast : space (marker.getLast hnonempty) = false) (h : marker <:+: asciiLower text) :
    marker <:+: l.lower (strip space text) := by
  obtain ⟨pre, found, post, rfl, rfl⟩ := of_infix_asciiLower h
  have hfound : found ≠ [] := by
    rintro rfl
    exact hnonempty rfl
  -- a space is no capital, so it would stand in the marker as well
  have hkeep : ∀ c : Char, space c.toLower = false → space c = false := by
    intro c hc
    by_contra hsp
    have htrue : space c = true := by simpa using hsp
    rw [hspace c htrue, htrue] at hc
    cases hc
  refine l.infix_of_asciiLower hascii (List.IsInfix.map _ (Text.infix_strip hfound ?_ ?_ ⟨pre, post, rfl⟩))
  · apply hkeep _
    simpa [asciiLower, List.head_map] using hhead
  · apply hkeep _
    simpa [asciiLower, List.getLast_map] using hlast

/-- What is left by a trimming is not trimmed further. -/
theorem strip_strip (space : Char → Bool) (text : Text) :
    strip space (strip space text) = strip space text := by
  unfold strip
  by_cases hnil : (text.dropWhile space).rdropWhile space = []
  · simp [hnil]
  · have hleads : (text.dropWhile space).rdropWhile space <+: text.dropWhile space :=
      List.rdropWhile_prefix _ _
    have hfirst : ((text.dropWhile space).rdropWhile space).dropWhile space =
        (text.dropWhile space).rdropWhile space := by
      refine List.dropWhile_eq_self_iff.mpr fun hlength => ?_
      have hne : text.dropWhile space ≠ [] := by
        intro h
        simp [h] at hnil
      have hhead := List.head_dropWhile_not space hne
      rw [hleads.getElem]
      simpa [List.head_eq_getElem] using hhead
    rw [hfirst]
    exact List.rdropWhile_idempotent space _

theorem strip_of_forall {space : Char → Bool} {text : Text} (h : ∀ c ∈ text, space c = false) :
    strip space text = text := by
  have hdrop : text.dropWhile space = text := by
    cases text with
    | nil => rfl
    | cons c rest => rw [List.dropWhile_cons_of_neg (by simp [h c List.mem_cons_self])]
  rw [strip, hdrop, List.rdropWhile_eq_self_iff]
  intro hne
  simp [h _ (List.getLast_mem hne)]

theorem rdropWhile_append_of_ne_nil {space : Char → Bool} (front : Text) {back : Text}
    (h : back.rdropWhile space ≠ []) :
    (front ++ back).rdropWhile space = front ++ back.rdropWhile space := by
  have hne : back.reverse.dropWhile space ≠ [] := by
    intro hnil
    apply h
    rw [List.rdropWhile, hnil]
    rfl
  rw [List.rdropWhile, List.rdropWhile, List.reverse_append, List.dropWhile_append,
    if_neg (by simpa using hne), List.reverse_append, List.reverse_reverse]

theorem rdropWhile_append_of_forall {space : Char → Bool} (front : Text) {back : Text}
    (h : ∀ c ∈ back, space c = true) :
    (front ++ back).rdropWhile space = front.rdropWhile space := by
  have hnil : back.reverse.dropWhile space = [] := by
    rw [List.dropWhile_eq_nil_iff]
    exact fun c hc => h c (List.mem_reverse.mp hc)
  rw [List.rdropWhile, List.rdropWhile, List.reverse_append, List.dropWhile_append,
    if_pos (by simpa using hnil)]

/-- White space at the end is no part of what is left. -/
theorem strip_append_of_forall {space : Char → Bool} (text : Text) {post : Text}
    (h : ∀ c ∈ post, space c = true) : strip space (text ++ post) = strip space text := by
  unfold strip
  rw [List.dropWhile_append]
  split
  · next hempty =>
    have hnil : post.dropWhile space = [] := List.dropWhile_eq_nil_iff.mpr h
    rw [hnil, List.isEmpty_iff.mp hempty]
  · exact rdropWhile_append_of_forall _ h

theorem strip_rdropWhile (space : Char → Bool) (text : Text) :
    strip space (text.rdropWhile space) = strip space text := by
  have hsplit : text.rdropWhile space ++ text.rtakeWhile space = text :=
    List.rdropWhile_append_rtakeWhile
  have htail : ∀ c ∈ text.rtakeWhile space, space c = true := fun c hc =>
    List.mem_rtakeWhile_imp hc
  have hstrip := strip_append_of_forall (text.rdropWhile space) htail
  rw [hsplit] at hstrip
  exact hstrip.symm

theorem rdropWhile_ne_nil {space : Char → Bool} {text : Text} {c : Char} (hc : c ∈ text)
    (hspace : space c = false) : text.rdropWhile space ≠ [] := by
  rw [ne_eq, List.rdropWhile_eq_nil_iff]
  intro hall
  rw [hall c hc] at hspace
  cases hspace

/-- What goes on behind a text lengthens what is left of it. -/
theorem length_strip_lt {space : Char → Bool} (text : Text) {more : Text} {c : Char}
    (hc : c ∈ more) (hspace : space c = false) :
    (strip space text).length < (strip space (text ++ more)).length := by
  have hback : more.rdropWhile space ≠ [] := rdropWhile_ne_nil hc hspace
  unfold strip
  rw [List.dropWhile_append]
  split
  · next hempty =>
    have hdrop : c ∈ more.dropWhile space := by
      have hparts : c ∈ more.takeWhile space ++ more.dropWhile space := by
        rw [List.takeWhile_append_dropWhile]
        exact hc
      rcases List.mem_append.mp hparts with htake | hdrop
      · have htrue : space c = true := List.mem_takeWhile_imp htake
        rw [hspace] at htrue
        cases htrue
      · exact hdrop
    rw [List.isEmpty_iff.mp hempty]
    exact List.length_pos_of_ne_nil (rdropWhile_ne_nil hdrop hspace)
  · rw [rdropWhile_append_of_ne_nil _ hback, List.length_append]
    have hle := (List.rdropWhile_prefix space (l := text.dropWhile space)).length_le
    have hpos := List.length_pos_of_ne_nil hback
    omega

/-- The characters `str.isspace` holds of. -/
def isSpace (c : Char) : Bool :=
  let n := c.toNat
  (0x09 ≤ n && n ≤ 0x0D) || (0x1C ≤ n && n ≤ 0x20) || n == 0x85 || n == 0xA0 || n == 0x1680 ||
    (0x2000 ≤ n && n ≤ 0x200A) || n == 0x2028 || n == 0x2029 || n == 0x202F || n == 0x205F ||
    n == 0x3000

/-- The characters with the property White_Space. -/
def isWhitespace (c : Char) : Bool :=
  let n := c.toNat
  (9 ≤ n && n ≤ 13) || n == 0x20 || n == 0x85 || n == 0xA0 || n == 0x1680 ||
    (0x2000 ≤ n && n ≤ 0x200A) || n == 0x2028 || n == 0x2029 || n == 0x202F || n == 0x205F ||
    n == 0x3000

theorem toLower_of_isSpace (c : Char) (h : isSpace c = true) : c.toLower = c := by
  have hnot : ¬ (c.val ≥ 'A'.val ∧ c.val ≤ 'Z'.val) := by
    rintro ⟨hge, hle⟩
    have hge' : 65 ≤ c.toNat := hge
    have hle' : c.toNat ≤ 90 := hle
    simp only [isSpace, Bool.or_eq_true, Bool.and_eq_true, decide_eq_true_eq, beq_iff_eq] at h
    omega
  unfold Char.toLower
  rw [dif_neg hnot]

/-! ## Splitting -/

theorem bne_of_not_mem {sep : Char} {text : Text} (h : sep ∉ text) {c : Char} (hc : c ∈ text) :
    (c != sep) = true := by
  have hne : c ≠ sep := by
    rintro rfl
    exact h hc
  simpa using hne

/-- What stands behind the last `sep`, or everything. -/
def afterLast (sep : Char) (text : Text) : Text := text.rtakeWhile (· != sep)

theorem afterLast_append {sep : Char} {front back : Text} (h : sep ∉ back) :
    afterLast sep (front ++ sep :: back) = back := by
  have hall : ∀ c ∈ back.reverse, (c != sep) = true := fun c hc =>
    bne_of_not_mem h (List.mem_reverse.mp hc)
  have hreverse : (front ++ sep :: back).reverse = back.reverse ++ sep :: front.reverse := by simp
  rw [afterLast, List.rtakeWhile, hreverse, List.takeWhile_append_of_pos hall]
  simp

theorem not_mem_afterLast (sep : Char) (text : Text) : sep ∉ afterLast sep text := by
  intro hmem
  have hkept := List.mem_rtakeWhile_imp hmem
  simp at hkept

theorem afterLast_of_not_mem {sep : Char} {text : Text} (h : sep ∉ text) :
    afterLast sep text = text := by
  rw [afterLast, List.rtakeWhile_eq_self_iff]
  exact fun c hc => bne_of_not_mem h hc

theorem exists_afterLast {sep : Char} {text : Text} (h : sep ∈ text) :
    ∃ front, text = front ++ sep :: afterLast sep text := by
  obtain ⟨back, front, hsplit, hback⟩ := List.eq_append_cons_of_mem (List.mem_reverse.mpr h)
  have htext : text = front.reverse ++ sep :: back.reverse := by
    rw [← List.reverse_reverse text, hsplit]
    simp
  have hlast : afterLast sep text = back.reverse := by
    rw [htext]
    exact afterLast_append fun hmem => hback (List.mem_reverse.mp hmem)
  exact ⟨front.reverse, by rw [hlast]; exact htext⟩

/-- A piece has only what the text has, and nothing it was split at. -/
theorem of_mem_splitOnP {sep : Char → Bool} :
    ∀ {text piece : Text}, piece ∈ text.splitOnP sep → ∀ c ∈ piece, sep c = false ∧ c ∈ text
  | [], piece, h, c, hc => by
    rw [List.splitOnP_nil, List.mem_singleton] at h
    subst h
    cases hc
  | d :: rest, piece, h, c, hc => by
    rw [List.splitOnP_cons_eq_if_modifyHead] at h
    split at h
    · rcases List.mem_cons.mp h with rfl | h
      · cases hc
      · exact (of_mem_splitOnP h c hc).imp_right (List.mem_cons_of_mem d)
    · next hd =>
      obtain ⟨first, others, hsplit⟩ := List.exists_cons_of_ne_nil (List.splitOnP_ne_nil sep rest)
      rw [hsplit, List.modifyHead_cons] at h
      rcases List.mem_cons.mp h with rfl | h
      · rcases List.mem_cons.mp hc with rfl | hc
        · exact ⟨by simpa using hd, List.mem_cons_self⟩
        · have hfirst : first ∈ rest.splitOnP sep := by simp [hsplit]
          exact (of_mem_splitOnP hfirst c hc).imp_right (List.mem_cons_of_mem d)
      · have hlater : piece ∈ rest.splitOnP sep := by simp [hsplit, h]
        exact (of_mem_splitOnP hlater c hc).imp_right (List.mem_cons_of_mem d)

theorem splitOnP_map {p q : Char → Bool} {f : Char → Char} {text : Text}
    (h : ∀ c ∈ text, p (f c) = q c) :
    (text.map f).splitOnP p = (text.splitOnP q).map (·.map f) := by
  induction text with
  | nil => rfl
  | cons c text ih =>
    obtain ⟨hc, hrest⟩ := List.forall_mem_cons.mp h
    rw [List.map_cons, List.splitOnP_cons_eq_if_modifyHead, List.splitOnP_cons_eq_if_modifyHead,
      hc, ih hrest]
    split
    · simp
    · obtain ⟨first, others, hsplit⟩ := List.exists_cons_of_ne_nil (List.splitOnP_ne_nil q text)
      simp [hsplit]

theorem splitOn_asciiLower {sep : Char} (hsep : sep.isAlpha = false) (text : Text) :
    (asciiLower text).splitOn sep = (text.splitOn sep).map asciiLower := by
  refine splitOnP_map fun c _ => ?_
  rw [Bool.eq_iff_iff, beq_iff_eq, beq_iff_eq]
  constructor
  · exact toLower_eq_of_not_alpha hsep
  · rintro rfl
    exact toLower_cases (P := fun d c => c.isAlpha = false → d = c) (fun _ _ => rfl)
      (by decide +kernel) c hsep

/-- What a text has is a separator or in a piece. -/
theorem mem_splitOn (sep : Char) {text : Text} {c : Char} (hc : c ∈ text) :
    c = sep ∨ ∃ piece ∈ text.splitOn sep, c ∈ piece := by
  induction text with
  | nil => cases hc
  | cons d text ih =>
    rw [List.splitOn_cons_eq_if_modifyHead]
    by_cases hd : (d == sep) = true
    · rw [if_pos hd]
      rcases List.mem_cons.mp hc with heq | hlater
      · exact Or.inl (heq.trans (beq_iff_eq.mp hd))
      · rcases ih hlater with hsep | ⟨piece, hpiece, hmem⟩
        · exact Or.inl hsep
        · exact Or.inr ⟨piece, List.mem_cons_of_mem _ hpiece, hmem⟩
    · rw [if_neg hd]
      obtain ⟨first, others, hsplit⟩ := List.exists_cons_of_ne_nil (List.splitOn_ne_nil sep text)
      rw [hsplit, List.modifyHead_cons]
      rcases List.mem_cons.mp hc with heq | hlater
      · exact Or.inr ⟨d :: first, List.mem_cons_self, heq ▸ List.mem_cons_self⟩
      · rcases ih hlater with hsep | ⟨piece, hpiece, hmem⟩
        · exact Or.inl hsep
        · right
          rw [hsplit] at hpiece
          rcases List.mem_cons.mp hpiece with hfirst | hother
          · exact ⟨d :: first, List.mem_cons_self, List.mem_cons_of_mem _ (hfirst ▸ hmem)⟩
          · exact ⟨piece, List.mem_cons_of_mem _ hother, hmem⟩

theorem mem_intercalate {α : Type} {sep c : α} {parts : List (List α)}
    (h : c ∈ [sep].intercalate parts) : c = sep ∨ ∃ part ∈ parts, c ∈ part := by
  induction parts with
  | nil => cases h
  | cons part parts ih =>
    cases parts with
    | nil =>
      refine .inr ⟨part, List.mem_cons_self, ?_⟩
      simpa [List.intercalate] using h
    | cons next parts =>
      have hsplit : [sep].intercalate (part :: next :: parts) =
          part ++ sep :: [sep].intercalate (next :: parts) := by simp [List.intercalate]
      rw [hsplit, List.mem_append, List.mem_cons] at h
      rcases h with hpart | hsep | hrest
      · exact .inr ⟨part, List.mem_cons_self, hpart⟩
      · exact .inl hsep
      · exact (ih hrest).imp_right fun ⟨p, hp, hc⟩ => ⟨p, List.mem_cons_of_mem _ hp, hc⟩

/-- A text that one `sep` splits in two. -/
theorem of_splitOn_pair {sep : Char} {text front back : Text}
    (h : text.splitOn sep = [front, back]) : text = front ++ sep :: back ∧ sep ∉ back := by
  have htext : text = front ++ sep :: back := by
    have hjoin : [sep].intercalate (text.splitOn sep) = text := List.intercalate_splitOn sep
    rw [← hjoin, h]
    simp [List.intercalate]
  refine ⟨htext, fun hmem => ?_⟩
  obtain ⟨x, y, rfl⟩ := List.append_of_mem hmem
  rw [htext, List.splitOn_append_cons_self, List.splitOn_append_cons_self] at h
  have hlength := congrArg List.length h
  simp only [List.length_append, List.length_cons, List.length_nil] at hlength
  have hpos : ∀ t : Text, 0 < (t.splitOn sep).length := fun t =>
    List.length_pos_of_ne_nil (List.splitOn_ne_nil sep t)
  have h1 := hpos front
  have h2 := hpos x
  have h3 := hpos y
  omega

/-! ## Reading lists -/

/-- A list that is read as a whole is read item by item. -/
theorem of_mapM {α β : Type} {read : α → Option β} {items : List α} {found : List β}
    (h : items.mapM read = some found) :
    found.length = items.length ∧ (∀ item ∈ items, ∃ b ∈ found, read item = some b) ∧
      ∀ b ∈ found, ∃ item ∈ items, read item = some b := by
  induction items generalizing found with
  | nil =>
    obtain rfl : [] = found := by simpa using h
    exact ⟨rfl, by simp, by simp⟩
  | cons a items ih =>
    simp only [List.mapM_cons, Option.bind_eq_bind, Option.bind_eq_some_iff, Option.pure_def,
      Option.some.injEq] at h
    obtain ⟨b, hb, rest, hrest, rfl⟩ := h
    obtain ⟨hlength, hread, hfound⟩ := ih hrest
    refine ⟨by simp [hlength], fun item hitem => ?_, fun b' hb' => ?_⟩
    · rcases List.mem_cons.mp hitem with rfl | hitem
      · exact ⟨b, List.mem_cons_self, hb⟩
      · obtain ⟨b', hb', hread'⟩ := hread item hitem
        exact ⟨b', List.mem_cons_of_mem _ hb', hread'⟩
    · rcases List.mem_cons.mp hb' with rfl | hb'
      · exact ⟨a, List.mem_cons_self, hb⟩
      · obtain ⟨item, hitem, hread'⟩ := hfound b' hb'
        exact ⟨item, List.mem_cons_of_mem _ hitem, hread'⟩

end Text

end MailCue.Lib
