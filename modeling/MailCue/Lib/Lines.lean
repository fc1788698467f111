import Mathlib.Data.List.Basic
import Mathlib.Tactic.Common

/-!
# Lines

Cutting a text behind each of its line breaks, where every line keeps its break.
Joining the lines gives the text back; cutting a join of lines gives the lines
back, and so it does where some of them were left out.
-/
namespace MailCue.Lib.Lines

variable {α : Type} (isBreak : α → Bool)

def splitLines : List α → List (List α)
  | [] => []
  | c :: rest =>
    if isBreak c then [c] :: splitLines rest
    else
      match splitLines rest with
      | [] => [[c]]
      | line :: lines => (c :: line) :: lines

/-- A line with its break. -/
def Ended (line : List α) : Prop :=
  ∃ body c, line = body ++ [c] ∧ isBreak c = true ∧ ∀ d ∈ body, isBreak d = false

instance : DecidablePred (Ended isBreak) := fun line =>
  decidable_of_iff (line.getLast?.any isBreak = true ∧ line.dropLast.all (!isBreak ·) = true) <| by
    constructor
    · rintro ⟨hlast, hbody⟩
      obtain ⟨c, hc, hbreak⟩ := (Option.any_eq_true isBreak _).mp hlast
      refine ⟨line.dropLast, c, (List.dropLast_append_getLast? c hc).symm, hbreak, ?_⟩
      simpa using hbody
    · rintro ⟨body, c, rfl, hbreak, hbody⟩
      simpa [hbreak] using hbody

/-- A line the text ends in the middle of. -/
def Open (line : List α) : Prop := line ≠ [] ∧ ∀ d ∈ line, isBreak d = false

/-- Lines of one text: only the last may be open. -/
structure AreLines (lines : List (List α)) : Prop where
  each : ∀ line ∈ lines, Ended isBreak line ∨ Open isBreak line
  before : lines.Pairwise fun line _ => Ended isBreak line

variable {isBreak}

theorem splitLines_ended {line : List α} (h : Ended isBreak line) (rest : List α) :
    splitLines isBreak (line ++ rest) = line :: splitLines isBreak rest := by
  obtain ⟨body, c, rfl, hc, hbody⟩ := h
  induction body with
  | nil => simp [splitLines, hc]
  | cons d body ih =>
    have hrest := ih fun x hx => hbody x (List.mem_cons_of_mem _ hx)
    have hd : isBreak d = false := hbody d List.mem_cons_self
    rw [List.cons_append, List.cons_append, splitLines, hrest]
    simp [hd]

theorem splitLines_open {line : List α} (h : Open isBreak line) :
    splitLines isBreak line = [line] := by
  obtain ⟨hne, hall⟩ := h
  induction line with
  | nil => exact absurd rfl hne
  | cons c rest ih =>
    have hc : isBreak c = false := hall c List.mem_cons_self
    rw [splitLines]
    cases rest with
    | nil => simp [splitLines, hc]
    | cons d rest =>
      rw [ih (by simp) fun x hx => hall x (List.mem_cons_of_mem _ hx)]
      simp [hc]

/-- Cutting the join of lines gives the lines. -/
theorem splitLines_flatten {lines : List (List α)} (h : AreLines isBreak lines) :
    splitLines isBreak lines.flatten = lines := by
  induction lines with
  | nil => rfl
  | cons line lines ih =>
    have hrest : AreLines isBreak lines :=
      ⟨fun l hl => h.each l (List.mem_cons_of_mem _ hl), h.before.of_cons⟩
    rw [List.flatten_cons]
    rcases h.each line List.mem_cons_self with hended | hopen
    · rw [splitLines_ended hended, ih hrest]
    · cases lines with
      | nil => simpa using splitLines_open hopen
      | cons next lines =>
        have hnext : next ∈ next :: lines := List.mem_cons_self
        have hended := List.rel_of_pairwise_cons h.before hnext
        rw [splitLines_ended hended, ih hrest]

theorem areLines_splitLines (text : List α) : AreLines isBreak (splitLines isBreak text) := by
  induction text with
  | nil => exact ⟨fun _ hl => absurd hl List.not_mem_nil, List.Pairwise.nil⟩
  | cons c rest ih =>
    rw [splitLines]
    by_cases hc : isBreak c = true
    · have hline : Ended isBreak [c] := ⟨[], c, rfl, hc, fun _ hd => by cases hd⟩
      rw [if_pos hc]
      constructor
      · intro line hmem
        rcases List.mem_cons.mp hmem with rfl | hmem
        · exact .inl hline
        · exact ih.each line hmem
      · exact List.pairwise_cons.mpr ⟨fun _ _ => hline, ih.before⟩
    · have hcfalse : isBreak c = false := by simpa using hc
      rw [if_neg hc]
      -- the character goes in front of the first line of the rest
      have hgrow : ∀ line, Ended isBreak line → Ended isBreak (c :: line) := by
        rintro line ⟨body, d, rfl, hd, hbody⟩
        refine ⟨c :: body, d, rfl, hd, fun x hx => ?_⟩
        rcases List.mem_cons.mp hx with rfl | hx
        · exact hcfalse
        · exact hbody x hx
      split
      · refine ⟨fun line hmem => .inr ?_, List.pairwise_singleton _ _⟩
        obtain rfl := List.mem_singleton.mp hmem
        exact ⟨by simp, by simpa using hcfalse⟩
      · rename_i line lines hsplit
        rw [hsplit] at ih
        obtain ⟨hfirst, hrest⟩ := List.pairwise_cons.mp ih.before
        constructor
        · intro l hmem
          rcases List.mem_cons.mp hmem with rfl | hmem
          · rcases ih.each line List.mem_cons_self with hended | ⟨-, hopen⟩
            · exact .inl (hgrow line hended)
            · refine .inr ⟨by simp, fun x hx => ?_⟩
              rcases List.mem_cons.mp hx with rfl | hx
              · exact hcfalse
              · exact hopen x hx
          · exact ih.each l (List.mem_cons_of_mem _ hmem)
        · exact List.pairwise_cons.mpr ⟨fun l hl => hgrow line (hfirst l hl), hrest⟩

theorem flatten_splitLines (text : List α) : (splitLines isBreak text).flatten = text := by
  induction text with
  | nil => rfl
  | cons c rest ih =>
    rw [splitLines]
    split
    · rw [List.flatten_cons, ih]
      rfl
    · split
      · rename_i hsplit
        rw [hsplit] at ih
        simpa using ih
      · rename_i line lines hsplit
        rw [hsplit] at ih
        simpa using ih

/-- What holds of a text without breaks and survives a line in front holds of every text. -/
theorem lines_induction {motive : List α → Prop}
    (tail : ∀ text, (∀ d ∈ text, isBreak d = false) → motive text)
    (line : ∀ line rest, Ended isBreak line → motive rest → motive (line ++ rest))
    (text : List α) : motive text := by
  rw [← @flatten_splitLines _ isBreak text]
  generalize hlines : splitLines isBreak text = lines
  have h : AreLines isBreak lines := hlines ▸ areLines_splitLines text
  clear hlines
  induction lines with
  | nil => exact tail [] fun _ hd => by cases hd
  | cons first lines ih =>
    have hrest : AreLines isBreak lines :=
      ⟨fun l hl => h.each l (List.mem_cons_of_mem _ hl), h.before.of_cons⟩
    rw [List.flatten_cons]
    rcases h.each first List.mem_cons_self with hended | ⟨_, hopen⟩
    · exact line _ _ hended (ih hrest)
    · cases lines with
      | nil =>
        rw [List.flatten_nil, List.append_nil]
        exact tail first hopen
      | cons next lines =>
        exact line _ _ (List.rel_of_pairwise_cons h.before List.mem_cons_self) (ih hrest)

/-- A text that ends in a break ends no line in the middle. -/
theorem ended_of_mem_splitLines {c : α} (hc : isBreak c = true) (text : List α) :
    ∀ line ∈ splitLines isBreak (text ++ [c]), Ended isBreak line := by
  refine @lines_induction _ isBreak
    (fun text => ∀ line ∈ splitLines isBreak (text ++ [c]), Ended isBreak line) ?_ ?_ text
  · intro text hplain line hline
    have hended : Ended isBreak (text ++ [c]) := ⟨text, c, rfl, hc, hplain⟩
    have hsplit := splitLines_ended hended []
    rw [List.append_nil] at hsplit
    rw [hsplit] at hline
    rw [List.mem_singleton.mp hline]
    exact hended
  · intro first rest hfirst ih line hline
    rw [List.append_assoc, splitLines_ended hfirst] at hline
    rcases List.mem_cons.mp hline with rfl | hline
    · exact hfirst
    · exact ih line hline

/-- Lines stay lines where some are left out. -/
theorem AreLines.sublist {lines kept : List (List α)} (h : AreLines isBreak lines)
    (hkept : kept.Sublist lines) : AreLines isBreak kept :=
  ⟨fun line hmem => h.each line (hkept.subset hmem), h.before.sublist hkept⟩

/-- A line behind ended lines. -/
theorem AreLines.concat {lines : List (List α)} {line : List α}
    (hlines : ∀ l ∈ lines, Ended isBreak l) (hline : Ended isBreak line ∨ Open isBreak line) :
    AreLines isBreak (lines ++ [line]) := by
  constructor
  · intro l hmem
    rcases List.mem_append.mp hmem with hmem | hmem
    · exact .inl (hlines l hmem)
    · obtain rfl := List.mem_singleton.mp hmem
      exact hline
  · refine List.pairwise_append.mpr ⟨?_, List.pairwise_singleton _ _, fun l hl _ _ => hlines l hl⟩
    exact List.pairwise_of_forall_mem_list fun l hl _ _ => hlines l hl

end MailCue.Lib.Lines
