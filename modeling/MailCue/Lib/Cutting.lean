import Mathlib

/-!
# Cutting at separators

A text is cut at its separators from the left. Where no separator begins another or stands
in the middle of one, what is cut off a text stays cut off when more of it arrives, so it
makes no difference in which chunks it arrives.
-/
namespace MailCue.Lib.Cutting

variable {α : Type} [DecidableEq α]

/-- The separator that a text begins with. -/
def separatorAt (separators : List (List α)) (text : List α) : Option (List α) :=
  separators.find? (·.isPrefixOf text)

/-- What stands in front of a separator, and the separator. -/
structure Piece (α : Type) where
  block : List α
  separator : List α

/-- The piece up to the first separator, and the text behind it. -/
def cut (separators : List (List α)) : List α → Option (Piece α × List α)
  | [] => none
  | c :: text =>
    match separatorAt separators (c :: text) with
    | some separator => some (⟨[], separator⟩, (c :: text).drop separator.length)
    | none =>
      (cut separators text).map fun found => (⟨c :: found.1.block, found.1.separator⟩, found.2)

/-- At most so many pieces, and the text behind them. -/
def drainFrom (separators : List (List α)) : Nat → List α → List (Piece α) × List α
  | 0, text => ([], text)
  | n + 1, text =>
    match cut separators text with
    | none => ([], text)
    | some (piece, rest) =>
      let (pieces, last) := drainFrom separators n rest
      (piece :: pieces, last)

/-- All the pieces, and the text behind the last separator. -/
def drain (separators : List (List α)) (text : List α) : List (Piece α) × List α :=
  drainFrom separators text.length text

/-- The blocks between separators, the last one included. -/
def split (separators : List (List α)) (text : List α) : List (List α) :=
  (drain separators text).1.map Piece.block ++ [(drain separators text).2]

/-- Chunk by chunk, with the text that is still open. -/
def feedAll (separators : List (List α)) :
    List α → List (List α) → List (Piece α) × List α
  | buffer, [] => ([], buffer)
  | buffer, chunk :: chunks =>
    let (pieces, open_) := drain separators (buffer ++ chunk)
    let (more, last) := feedAll separators open_ chunks
    (pieces ++ more, last)

structure Apart (separators : List (List α)) : Prop where
  nonempty : ∀ s ∈ separators, s ≠ []
  prefixFree : ∀ s ∈ separators, ∀ t ∈ separators, s <+: t → s = t
  notInside : ∀ s ∈ separators, ∀ t ∈ separators, ¬ s <:+: t.tail.dropLast

section
variable {separators : List (List α)}

/-! ## The first separator -/

theorem separatorAt_some {text sep : List α} (h : separatorAt separators text = some sep) :
    sep ∈ separators ∧ sep <+: text := by
  have hfront := List.find?_some h
  exact ⟨List.mem_of_find?_eq_some h, List.isPrefixOf_iff_prefix.mp hfront⟩

theorem separatorAt_eq_none {text : List α} :
    separatorAt separators text = none ↔ ∀ s ∈ separators, ¬ s <+: text := by
  simp [separatorAt]

theorem separatorAt_of_front (h : Apart separators) {text sep : List α} (hmem : sep ∈ separators)
    (hfront : sep <+: text) : separatorAt separators text = some sep := by
  cases hat : separatorAt separators text with
  | none => exact absurd hfront (separatorAt_eq_none.mp hat sep hmem)
  | some other =>
    obtain ⟨hother, hotherPrefix⟩ := separatorAt_some hat
    cases List.prefix_or_prefix_of_prefix hfront hotherPrefix with
    | inl hle => rw [h.prefixFree sep hmem other hother hle]
    | inr hle => rw [h.prefixFree other hother sep hmem hle]

theorem cut_spec {text rest : List α} {piece : Piece α}
    (h : cut separators text = some (piece, rest)) :
    text = piece.block ++ piece.separator ++ rest ∧ piece.separator ∈ separators := by
  induction text generalizing piece with
  | nil => cases h
  | cons c text ih =>
    rw [cut] at h
    cases hat : separatorAt separators (c :: text) with
    | some sep =>
      rw [hat] at h
      cases h
      obtain ⟨hmem, hfront⟩ := separatorAt_some hat
      exact ⟨(List.prefix_iff_eq_append.mp hfront).symm, hmem⟩
    | none =>
      rw [hat] at h
      obtain ⟨found, hfound, heq⟩ := Option.map_eq_some_iff.mp h
      cases heq
      obtain ⟨htext, hmem⟩ := ih hfound
      exact ⟨congrArg (c :: ·) htext, hmem⟩

theorem cut_shorter (h : Apart separators) {text rest : List α} {piece : Piece α}
    (hcut : cut separators text = some (piece, rest)) : rest.length < text.length := by
  obtain ⟨htext, hmem⟩ := cut_spec hcut
  have hpos := List.length_pos_iff.mpr (h.nonempty piece.separator hmem)
  have hlength := congrArg List.length htext
  simp only [List.length_append] at hlength
  omega

/-- A separator that more text completes does not reach behind one that is complete. -/
theorem separatorAt_append_none (h : Apart separators) {c : α} {text rest more : List α}
    {piece : Piece α} (hat : separatorAt separators (c :: text) = none)
    (hcut : cut separators text = some (piece, rest)) :
    separatorAt separators (c :: text ++ more) = none := by
  apply separatorAt_eq_none.mpr
  intro s hs hfront
  cases List.prefix_or_prefix_of_prefix hfront (List.prefix_append (c :: text) more) with
  | inl hle => exact separatorAt_eq_none.mp hat s hs hle
  | inr hle =>
    obtain ⟨behind, hbehind⟩ := hle
    cases behind using List.reverseRecOn with
    | nil =>
      rw [List.append_nil] at hbehind
      exact separatorAt_eq_none.mp hat s hs (hbehind ▸ List.prefix_refl _)
    | append_singleton behind last =>
      obtain ⟨htext, hmem⟩ := cut_spec hcut
      apply h.notInside piece.separator hmem s hs
      have hinside : s.tail.dropLast = text ++ behind := by
        rw [← hbehind, List.cons_append, List.tail_cons, ← List.append_assoc,
          List.dropLast_concat]
      rw [hinside, htext]
      exact ⟨piece.block, rest ++ behind, by simp⟩

/-- What is cut off stays cut off. -/
theorem cut_append (h : Apart separators) {text rest : List α} {piece : Piece α}
    (hcut : cut separators text = some (piece, rest)) (more : List α) :
    cut separators (text ++ more) = some (piece, rest ++ more) := by
  induction text generalizing piece with
  | nil => cases hcut
  | cons c text ih =>
    rw [cut] at hcut
    rw [List.cons_append, cut]
    cases hat : separatorAt separators (c :: text) with
    | some sep =>
      rw [hat] at hcut
      cases hcut
      obtain ⟨hmem, hfront⟩ := separatorAt_some hat
      have hsame : separatorAt separators (c :: (text ++ more)) = some sep :=
        separatorAt_of_front h hmem (hfront.trans (List.prefix_append (c :: text) more))
      rw [hsame]
      have hdrop : (c :: text ++ more).drop sep.length = (c :: text).drop sep.length ++ more :=
        List.drop_append_of_le_length hfront.length_le
      exact congrArg (fun rest => some (Piece.mk [] sep, rest)) hdrop
    | none =>
      rw [hat] at hcut
      obtain ⟨found, hfound, heq⟩ := Option.map_eq_some_iff.mp hcut
      cases heq
      have hnone : separatorAt separators (c :: (text ++ more)) = none :=
        separatorAt_append_none h hat hfound
      rw [hnone, ih hfound]
      rfl

/-! ## All the pieces -/

theorem drainFrom_of_length_le (h : Apart separators) {n : Nat} {text : List α}
    (hn : text.length ≤ n) : drainFrom separators n text = drain separators text := by
  induction n using Nat.strong_induction_on generalizing text with
  | _ n ih =>
    cases n with
    | zero =>
      rw [List.eq_nil_of_length_eq_zero (Nat.le_zero.mp hn)]
      rfl
    | succ n =>
      cases text with
      | nil => rfl
      | cons c text =>
        rw [drain, List.length_cons, drainFrom, drainFrom]
        cases hcut : cut separators (c :: text) with
        | none => rfl
        | some found =>
          obtain ⟨piece, rest⟩ := found
          have hshorter := cut_shorter h hcut
          rw [List.length_cons] at hshorter hn
          have hleft : drainFrom separators n rest = drain separators rest :=
            ih n (Nat.lt_succ_self n) (by omega)
          have hright : drainFrom separators text.length rest = drain separators rest := by
            by_cases heq : text.length = n
            · rw [heq, hleft]
            · exact ih text.length (by omega) (by omega)
          simp only [hleft, hright]

theorem drain_of_none {text : List α} (h : cut separators text = none) :
    drain separators text = ([], text) := by
  cases text with
  | nil => rfl
  | cons c text => rw [drain, List.length_cons, drainFrom, h]

theorem drain_of_some (h : Apart separators) {text rest : List α} {piece : Piece α}
    (hcut : cut separators text = some (piece, rest)) :
    drain separators text = (piece :: (drain separators rest).1, (drain separators rest).2) := by
  have hshorter := cut_shorter h hcut
  cases text with
  | nil => cases hcut
  | cons c text =>
    rw [List.length_cons] at hshorter
    rw [drain, List.length_cons, drainFrom, hcut]
    simp only [drainFrom_of_length_le h (Nat.le_of_lt_succ hshorter)]

/-- Every text is cut until it holds no separator. -/
theorem induction_cut (h : Apart separators) {P : List α → Prop}
    (hlast : ∀ text, cut separators text = none → P text)
    (hcut : ∀ text piece rest, cut separators text = some (piece, rest) → P rest → P text)
    (text : List α) : P text := by
  induction hn : text.length using Nat.strong_induction_on generalizing text with
  | _ n ih =>
    cases hfound : cut separators text with
    | none => exact hlast text hfound
    | some found =>
      obtain ⟨piece, rest⟩ := found
      apply hcut text piece rest hfound
      exact ih rest.length (hn ▸ cut_shorter h hfound) rest rfl

theorem cut_drain (h : Apart separators) (text : List α) :
    cut separators (drain separators text).2 = none := by
  induction text using induction_cut h with
  | hlast text hnone => rw [drain_of_none hnone, hnone]
  | hcut text piece rest hsome ih => rw [drain_of_some h hsome, ih]

theorem drain_append (h : Apart separators) (text more : List α) :
    drain separators (text ++ more) =
      ((drain separators text).1 ++ (drain separators ((drain separators text).2 ++ more)).1,
        (drain separators ((drain separators text).2 ++ more)).2) := by
  induction text using induction_cut h with
  | hlast text hnone => rw [drain_of_none hnone, List.nil_append]
  | hcut text piece rest hsome ih =>
    rw [drain_of_some h (cut_append h hsome more), drain_of_some h hsome, ih, List.cons_append]

/-- The chunks of a text give what the text gives. -/
theorem feedAll_eq (h : Apart separators) (chunks : List (List α)) {buffer : List α}
    (hbuffer : cut separators buffer = none) :
    feedAll separators buffer chunks = drain separators (buffer ++ chunks.flatten) := by
  induction chunks generalizing buffer with
  | nil => rw [feedAll, List.flatten_nil, List.append_nil, drain_of_none hbuffer]
  | cons chunk chunks ih =>
    rw [feedAll, List.flatten_cons, ← List.append_assoc, drain_append h (buffer ++ chunk)]
    simp only [ih (cut_drain h (buffer ++ chunk))]

theorem mem_of_mem_split (h : Apart separators) {text block : List α}
    (hblock : block ∈ split separators text) {c : α} (hc : c ∈ block) : c ∈ text := by
  induction text using induction_cut h with
  | hlast text hnone =>
    rw [split, drain_of_none hnone] at hblock
    obtain rfl := List.mem_singleton.mp hblock
    exact hc
  | hcut text piece rest hsome ih =>
    rw [(cut_spec hsome).1]
    rw [split, drain_of_some h hsome, List.map_cons, List.cons_append] at hblock
    cases List.mem_cons.mp hblock with
    | inl heq =>
      subst heq
      simp [hc]
    | inr hrest => exact List.mem_append_right _ (ih hrest)

/-- In front of the first separator nothing is cut. -/
theorem cut_append_left {front : List α}
    (h : ∀ c ∈ front, ∀ s ∈ separators, s ≠ [] ∧ s.head? ≠ some c) (text : List α) :
    cut separators (front ++ text) =
      (cut separators text).map fun found =>
        (⟨front ++ found.1.block, found.1.separator⟩, found.2) := by
  induction front with
  | nil =>
    rw [List.nil_append]
    cases cut separators text with
    | none => rfl
    | some found => rfl
  | cons c front ih =>
    obtain ⟨hc, hfront⟩ := List.forall_mem_cons.mp h
    have hnone : separatorAt separators (c :: (front ++ text)) = none := by
      apply separatorAt_eq_none.mpr
      intro s hs hfront
      cases s with
      | nil => exact (hc _ hs).1 rfl
      | cons d s => exact (hc _ hs).2 (congrArg some (List.cons_prefix_cons.mp hfront).1)
    rw [List.cons_append, cut, hnone, ih hfront, Option.map_map]
    rfl

/-- Pieces one after another are cut apart again. -/
theorem drain_flatMap (h : Apart separators) {β : Type} (texts : β → List α) (piece : β → Piece α)
    {items : List β} (hitems : ∀ item ∈ items, cut separators (texts item) = some (piece item, [])) :
    drain separators (items.flatMap texts) = (items.map piece, []) := by
  induction items with
  | nil => rfl
  | cons item items ih =>
    obtain ⟨hitem, hrest⟩ := List.forall_mem_cons.mp hitems
    rw [List.flatMap_cons, drain_of_some h (cut_append h hitem _), List.nil_append, ih hrest,
      List.map_cons]

/-! ## Fewer separators -/

section
variable {fewer : List (List α)}

theorem cut_none_of_subset (hsubset : fewer ⊆ separators) {text : List α}
    (h : cut separators text = none) : cut fewer text = none := by
  induction text with
  | nil => rfl
  | cons c text ih =>
    rw [cut] at h
    cases hat : separatorAt separators (c :: text) with
    | some sep =>
      rw [hat] at h
      cases h
    | none =>
      rw [hat] at h
      have hnone : separatorAt fewer (c :: text) = none :=
        separatorAt_eq_none.mpr fun s hs => separatorAt_eq_none.mp hat s (hsubset hs)
      rw [cut, hnone, ih (Option.map_eq_none_iff.mp h)]
      rfl

theorem cut_some_of_subset (h : Apart fewer) (hsubset : fewer ⊆ separators) {text rest : List α}
    {piece : Piece α} (hcut : cut separators text = some (piece, rest))
    (hmem : piece.separator ∈ fewer) : cut fewer text = some (piece, rest) := by
  induction text generalizing piece with
  | nil => cases hcut
  | cons c text ih =>
    rw [cut] at hcut
    rw [cut]
    cases hat : separatorAt separators (c :: text) with
    | some sep =>
      rw [hat] at hcut
      cases hcut
      rw [separatorAt_of_front h hmem (separatorAt_some hat).2]
    | none =>
      rw [hat] at hcut
      obtain ⟨found, hfound, heq⟩ := Option.map_eq_some_iff.mp hcut
      cases heq
      have hnone : separatorAt fewer (c :: text) = none :=
        separatorAt_eq_none.mpr fun s hs => separatorAt_eq_none.mp hat s (hsubset hs)
      rw [hnone, ih hfound hmem]
      rfl

/-- A text with no other separators is cut in the same way. -/
theorem drain_of_subset (h : Apart separators) (hfewer : Apart fewer)
    (hsubset : fewer ⊆ separators) {text : List α}
    (hmem : ∀ piece ∈ (drain separators text).1, piece.separator ∈ fewer) :
    drain fewer text = drain separators text := by
  induction text using induction_cut h with
  | hlast text hnone => rw [drain_of_none hnone, drain_of_none (cut_none_of_subset hsubset hnone)]
  | hcut text piece rest hsome ih =>
    rw [drain_of_some h hsome] at hmem ⊢
    obtain ⟨hpiece, hrest⟩ := List.forall_mem_cons.mp hmem
    rw [drain_of_some hfewer (cut_some_of_subset hfewer hsubset hsome hpiece), ih hrest]

end

end

end MailCue.Lib.Cutting
