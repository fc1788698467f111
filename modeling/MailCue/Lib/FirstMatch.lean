import Mathlib.Order.WellFounded
import MailCue.Lib.Text

/-!
# The first match of a search

A search puts a reader to each place of the text from left to right, with the
character in front of it, until the reader finds something that begins there.
Where what the reader finds is known, as a relation between the character in
front, the stretch found and the text behind it, the search finds the first
stretch so related; and of two searches it is known when they agree.
-/
namespace MailCue.Lib.Text

def firstAt (read : Option Char → Text → Option Text) : Option Char → Text → Option Text
  | _, [] => none
  | before, c :: rest => (read before (c :: rest)).or (firstAt read (some c) rest)

/-- The character in front, the stretch, what is behind it. -/
abbrev Occurrence := Option Char → Text → Text → Prop

/-- The reader finds the stretches so related that begin where it is put. -/
structure Finds (read : Option Char → Text → Option Text) (p : Occurrence) : Prop where
  read_iff : ∀ before text found,
    read before text = some found ↔ ∃ post, text = found ++ post ∧ p before found post
  nonempty : ∀ before found post, p before found post → found ≠ []

/-- The stretch begins at some place, and none at a place in front of that. -/
def FirstFrom (before : Option Char) (p : Occurrence) (text found : Text) : Prop :=
  ∃ pre post, text = pre ++ found ++ post ∧ p (pre.getLast?.or before) found post ∧
    ∀ pre' found' post', text = pre' ++ found' ++ post' →
      p (pre'.getLast?.or before) found' post' → pre.length ≤ pre'.length

def First (p : Occurrence) (text found : Text) : Prop := FirstFrom none p text found

section Search
variable {read : Option Char → Text → Option Text} {p : Occurrence}

theorem getLast?_cons_or (c : Char) (pre : Text) (before : Option Char) :
    (c :: pre).getLast?.or before = pre.getLast?.or (some c) := by
  cases pre with
  | nil => rfl
  | cons d pre => rw [List.getLast?_cons_cons, List.getLast?_cons]; rfl

/-- What begins at the first place is the first. -/
theorem firstFrom_of_here (hfinds : Finds read p) {before : Option Char} {text here : Text}
    (hread : read before text = some here) (found : Text) :
    FirstFrom before p text found ↔ found = here := by
  obtain ⟨post, htext, hp⟩ := (hfinds.read_iff before text here).mp hread
  constructor
  · rintro ⟨pre, post', htext', hp', hfirst⟩
    have hnil : pre = [] :=
      List.length_eq_zero_iff.mp (Nat.le_zero.mp (hfirst [] here post (by simpa using htext) hp))
    subst hnil
    have hread' := (hfinds.read_iff before text found).mpr ⟨post', by simpa using htext', hp'⟩
    rw [hread'] at hread
    exact Option.some.inj hread
  · rintro rfl
    exact ⟨[], post, by simpa using htext, hp, fun _ _ _ _ _ => Nat.zero_le _⟩

/-- Where nothing begins at the first place, the rest decides. -/
theorem firstFrom_cons (hfinds : Finds read p) {before : Option Char} {c : Char} {rest : Text}
    (hread : read before (c :: rest) = none) (found : Text) :
    FirstFrom before p (c :: rest) found ↔ FirstFrom (some c) p rest found := by
  have hlater : ∀ pre found post, c :: rest = pre ++ found ++ post →
      p (pre.getLast?.or before) found post → ∃ pre', pre = c :: pre' := by
    intro pre found post htext hp
    cases pre with
    | nil =>
      have hsome := (hfinds.read_iff before (c :: rest) found).mpr ⟨post, by simpa using htext, hp⟩
      rw [hread] at hsome
      cases hsome
    | cons d pre =>
      have hd : c = d := (List.cons.inj htext).1
      exact ⟨pre, by rw [hd]⟩
  constructor
  · rintro ⟨pre, post, htext, hp, hfirst⟩
    obtain ⟨pre, rfl⟩ := hlater pre found post htext hp
    rw [getLast?_cons_or] at hp
    refine ⟨pre, post, by simpa using htext, hp, fun pre' found' post' htext' hp' => ?_⟩
    have hle := hfirst (c :: pre') found' post' (by simp [htext']) (by rwa [getLast?_cons_or])
    simpa using hle
  · rintro ⟨pre, post, htext, hp, hfirst⟩
    refine ⟨c :: pre, post, by simp [htext], by rwa [getLast?_cons_or], ?_⟩
    intro pre' found' post' htext' hp'
    obtain ⟨pre', rfl⟩ := hlater pre' found' post' htext' hp'
    rw [getLast?_cons_or] at hp'
    simpa using hfirst pre' found' post' (by simpa using htext') hp'

theorem firstAt_from_iff (hfinds : Finds read p) (found : Text) :
    ∀ (text : Text) (before : Option Char),
      firstAt read before text = some found ↔ FirstFrom before p text found
  | [], before => by
    constructor
    · intro h
      cases h
    · rintro ⟨pre, post, htext, hp, -⟩
      have hnil : found = [] := by
        have := congrArg List.length htext
        exact List.length_eq_zero_iff.mp (by simp at this; omega)
      exact absurd hnil (hfinds.nonempty _ _ _ hp)
  | c :: rest, before => by
    rw [firstAt]
    cases hread : read before (c :: rest) with
    | some here =>
      rw [firstFrom_of_here hfinds hread, Option.some_or, Option.some.injEq, eq_comm]
    | none => rw [firstFrom_cons hfinds hread, Option.none_or, firstAt_from_iff hfinds found rest]

theorem firstAt_iff (hfinds : Finds read p) (text found : Text) :
    firstAt read none text = some found ↔ First p text found :=
  firstAt_from_iff hfinds found text none

/-- What a search finds stands somewhere in the text. -/
theorem exists_of_firstAt (hfinds : Finds read p) {text found : Text}
    (h : firstAt read none text = some found) :
    ∃ pre post, text = pre ++ found ++ post ∧ p pre.getLast? found post := by
  obtain ⟨pre, post, htext, hp, -⟩ := (firstAt_iff hfinds text found).mp h
  exact ⟨pre, post, htext, by rwa [Option.or_none] at hp⟩

end Search

section Agreement
variable {read read' : Option Char → Text → Option Text} {p q : Occurrence}

/-- Nothing that either of them relates begins in front of this place. -/
def Foremost (p q : Occurrence) (text pre : Text) : Prop :=
  ∀ pre' found post, text = pre' ++ found ++ post →
    p pre'.getLast? found post ∨ q pre'.getLast? found post → pre.length ≤ pre'.length

/-- The stretch one search finds in front of all others is the first for the
other as well. -/
def Shared (p q : Occurrence) (text : Text) : Prop :=
  ∀ pre found post, text = pre ++ found ++ post → Foremost p q text pre →
    (p pre.getLast? found post → First q text found) ∧
      (q pre.getLast? found post → First p text found)

theorem Shared.symm {text : Text} (h : Shared p q text) : Shared q p text := by
  intro pre found post htext hforemost
  refine (h pre found post htext ?_).symm
  exact fun pre' found' post' htext' hor => hforemost pre' found' post' htext' hor.symm

theorem exists_shortest {m : Text → Prop} (h : ∃ pre, m pre) :
    ∃ pre, m pre ∧ ∀ pre', m pre' → pre.length ≤ pre'.length := by
  obtain ⟨pre, hpre⟩ := h
  obtain ⟨least, hleast, hbelow⟩ :=
    (measure fun pre : Text => pre.length).wf.has_min {pre | m pre} ⟨pre, hpre⟩
  exact ⟨least, hleast, fun pre' hpre' => Nat.le_of_not_lt (hbelow pre' hpre')⟩

theorem Foremost.first {text pre found post : Text} (hforemost : Foremost p q text pre)
    (htext : text = pre ++ found ++ post) (hp : p pre.getLast? found post) : First p text found :=
  ⟨pre, post, htext, by rwa [Option.or_none], fun pre' found' post' htext' hp' =>
    hforemost pre' found' post' htext' (.inl (by rwa [Option.or_none] at hp'))⟩

theorem Foremost.symm {text pre : Text} (h : Foremost p q text pre) : Foremost q p text pre :=
  fun pre' found post htext hor => h pre' found post htext hor.symm

theorem Shared.eq_of_foremost (hfinds : Finds read p) (hfinds' : Finds read' q)
    {text pre found post : Text} (hshared : Shared p q text) (hforemost : Foremost p q text pre)
    (htext : text = pre ++ found ++ post) (hp : p pre.getLast? found post) :
    firstAt read none text = firstAt read' none text := by
  have hother := (hshared pre found post htext hforemost).1 hp
  rw [(firstAt_iff hfinds text found).mpr (hforemost.first htext hp),
    (firstAt_iff hfinds' text found).mpr hother]

/-- Two searches agree on a text exactly when they share its foremost stretch. -/
theorem firstAt_eq_iff (hfinds : Finds read p) (hfinds' : Finds read' q) (text : Text) :
    firstAt read none text = firstAt read' none text ↔ Shared p q text := by
  constructor
  · intro heq pre found post htext hforemost
    rw [← firstAt_iff hfinds', ← firstAt_iff hfinds, ← heq]
    constructor
    · exact fun hp => (firstAt_iff hfinds text found).mpr (hforemost.first htext hp)
    · intro hq
      rw [heq]
      exact (firstAt_iff hfinds' text found).mpr (hforemost.symm.first htext hq)
  · intro hshared
    by_cases hsome : ∃ pre, ∃ found post, text = pre ++ found ++ post ∧
        (p pre.getLast? found post ∨ q pre.getLast? found post)
    · obtain ⟨pre, ⟨found, post, htext, hor⟩, hleast⟩ := exists_shortest hsome
      have hforemost : Foremost p q text pre := fun pre' found' post' htext' hor' =>
        hleast pre' ⟨found', post', htext', hor'⟩
      rcases hor with hp | hq
      · exact hshared.eq_of_foremost hfinds hfinds' hforemost htext hp
      · exact (hshared.symm.eq_of_foremost hfinds' hfinds hforemost.symm htext hq).symm
    · have hp : firstAt read none text = none := by
        refine Option.eq_none_iff_forall_ne_some.mpr fun found hfound => ?_
        obtain ⟨pre, post, htext, hp⟩ := exists_of_firstAt hfinds hfound
        exact hsome ⟨pre, found, post, htext, .inl hp⟩
      have hq : firstAt read' none text = none := by
        refine Option.eq_none_iff_forall_ne_some.mpr fun found hfound => ?_
        obtain ⟨pre, post, htext, hq⟩ := exists_of_firstAt hfinds' hfound
        exact hsome ⟨pre, found, post, htext, .inr hq⟩
      rw [hp, hq]

end Agreement

end MailCue.Lib.Text
