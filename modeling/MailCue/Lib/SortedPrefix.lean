import Mathlib.Algebra.Order.BigOperators.Group.List
import Mathlib.Data.List.Sort

/-!
# Prefixes of an ascending list

Among the ways to choose so many elements of an ascending list the prefix has
the least sum: the elements chosen are, in their order, at least those of the
prefix one by one.
-/
namespace MailCue.Lib.SortedPrefix

section Order
variable {α : Type*} [Preorder α]

theorem forall₂_le_trans {low middle high : List α} (hlow : List.Forall₂ (· ≤ ·) low middle)
    (hhigh : List.Forall₂ (· ≤ ·) middle high) : List.Forall₂ (· ≤ ·) low high := by
  induction hlow generalizing high with
  | nil => exact hhigh
  | cons hle _ ih =>
    cases hhigh with
    | cons hle' hhigh => exact List.Forall₂.cons (hle.trans hle') (ih hhigh)

/-- One place further back nothing is smaller. -/
theorem forall₂_take_cons {least : α} {ascending : List α} {n : Nat}
    (hsorted : (least :: ascending).Pairwise (· ≤ ·)) (hn : n ≤ ascending.length) :
    List.Forall₂ (· ≤ ·) ((least :: ascending).take n) (ascending.take n) := by
  induction n generalizing least ascending with
  | zero => exact List.Forall₂.nil
  | succ n ih =>
    cases ascending with
    | nil => simp at hn
    | cons next rest =>
      rw [List.pairwise_cons] at hsorted
      rw [List.take_succ_cons, List.take_succ_cons]
      apply List.Forall₂.cons
      · exact hsorted.1 next List.mem_cons_self
      · exact ih hsorted.2 (Nat.le_of_succ_le_succ hn)

theorem forall₂_take_of_sublist {chosen ascending : List α} (hsub : chosen.Sublist ascending)
    (hsorted : ascending.Pairwise (· ≤ ·)) :
    List.Forall₂ (· ≤ ·) (ascending.take chosen.length) chosen := by
  induction hsub with
  | slnil => exact List.Forall₂.nil
  | cons least hsub ih =>
    have hrest := ih hsorted.tail
    have hshift := forall₂_take_cons hsorted hsub.length_le
    exact forall₂_le_trans hshift hrest
  | cons_cons least hsub ih =>
    rw [List.length_cons, List.take_succ_cons]
    exact List.Forall₂.cons le_rfl (ih hsorted.tail)

end Order

section Sum
variable {α : Type*} [AddCommMonoid α] [PartialOrder α] [IsOrderedAddMonoid α]

/-- However so many elements are chosen, the first ones add up to no more. -/
theorem sum_take_le_of_subperm {chosen ascending : List α} (hchosen : chosen.Subperm ascending)
    (hsorted : ascending.Pairwise (· ≤ ·)) :
    (ascending.take chosen.length).sum ≤ chosen.sum := by
  obtain ⟨inOrder, hperm, hsub⟩ := hchosen
  rw [← hperm.length_eq, ← hperm.sum_eq]
  exact (forall₂_take_of_sublist hsub hsorted).sum_le_sum

end Sum

end MailCue.Lib.SortedPrefix
