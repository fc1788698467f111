import Mathlib.Data.List.Count
import Mathlib.Data.List.Range
import Mathlib.Tactic.Common

/-!
# Retry loops

A loop over the numbers of its tries. What becomes of a try is given by its
number; the body ends the loop with a result or goes on to the next try.
-/
namespace MailCue.Lib.Retry

section
variable {ι ρ : Type} (body : Nat → ι → Option ρ) (outcome : Nat → ι)

/-- With `left` tries left from `attempt` on: the number of the first one that is
not made, and the result where one of them has one. -/
def run (attempt : Nat) : Nat → Nat × Option ρ
  | 0 => (attempt, none)
  | left + 1 =>
    match body attempt (outcome attempt) with
    | some result => (attempt + 1, some result)
    | none => run (attempt + 1) left

theorem made_le (attempt left : Nat) : (run body outcome attempt left).1 ≤ attempt + left := by
  induction left generalizing attempt with
  | zero => exact Nat.le_refl _
  | succ left ih =>
    rw [run]
    split
    · show attempt + 1 ≤ attempt + (left + 1)
      omega
    · have hrest := ih (attempt + 1)
      omega

theorem le_made (attempt left : Nat) : attempt ≤ (run body outcome attempt left).1 := by
  induction left generalizing attempt with
  | zero => exact Nat.le_refl _
  | succ left ih =>
    rw [run]
    split
    · exact Nat.le_succ _
    · have hrest := ih (attempt + 1)
      omega

/-- A try is made when no earlier one ended the loop. -/
theorem lt_made_iff (attempt left j : Nat) (hj : attempt ≤ j) :
    j < (run body outcome attempt left).1 ↔
      j < attempt + left ∧ ∀ k, attempt ≤ k → k < j → body k (outcome k) = none := by
  induction left generalizing attempt with
  | zero =>
    have hnone : ¬ j < attempt := by omega
    simp [run, hnone]
  | succ left ih =>
    rw [run]
    split
    · rename_i result hresult
      constructor
      · intro h
        have hlast : j < attempt + 1 := h
        exact ⟨by omega, fun k hk hkj => by omega⟩
      · intro h
        by_contra hpast
        have hlater : ¬ j < attempt + 1 := hpast
        have hnone := h.2 attempt (Nat.le_refl _) (by omega)
        cases hnone.symm.trans hresult
    · rename_i hnone
      rcases Nat.eq_or_lt_of_le hj with heq | hlt
      · have hmade := le_made body outcome (attempt + 1) left
        constructor
        · intro _
          exact ⟨by omega, fun k hk hkj => by omega⟩
        · intro _
          omega
      · rw [ih (attempt + 1) hlt]
        constructor
        · intro h
          refine ⟨by omega, fun k hk hkj => ?_⟩
          rcases Nat.eq_or_lt_of_le hk with heq | hnext
          · subst heq
            exact hnone
          · exact h.2 k hnext hkj
        · intro h
          exact ⟨by omega, fun k hk hkj => h.2 k (by omega) hkj⟩

/-- A loop whose last try always ends it has a result. -/
theorem result_isSome (attempt left : Nat)
    (hlast : (body (attempt + left) (outcome (attempt + left))).isSome) :
    (run body outcome attempt (left + 1)).2.isSome := by
  induction left generalizing attempt with
  | zero =>
    obtain ⟨result, hresult⟩ := Option.isSome_iff_exists.mp hlast
    have hfirst : body attempt (outcome attempt) = some result := hresult
    rw [run, hfirst]
    rfl
  | succ left ih =>
    rw [run]
    split
    · rfl
    · apply ih
      have hsame : attempt + 1 + left = attempt + (left + 1) := by omega
      rw [hsame]
      exact hlast

end

/-! ## Counting tries -/

theorem countP_range_eq_zero (p : Nat → Bool) (n : Nat) :
    (List.range n).countP p = 0 ↔ ∀ i, i < n → p i = false := by
  simp [List.countP_eq_zero]

/-- At most one of the first tries, as a statement about any two of them. -/
theorem countP_range_le_one (p : Nat → Bool) (n : Nat) :
    (List.range n).countP p ≤ 1 ↔ ∀ i j, i < j → j < n → p i = true → p j = false := by
  induction n with
  | zero => simp
  | succ n ih =>
    rw [List.range_succ, List.countP_append, List.countP_singleton]
    cases hn : p n with
    | false =>
      rw [if_neg (by simp), Nat.add_zero, ih]
      constructor
      · intro h i j hij hj hi
        rcases Nat.lt_succ_iff_lt_or_eq.mp hj with hlt | heq
        · exact h i j hij hlt hi
        · subst heq
          exact hn
      · intro h i j hij hj hi
        exact h i j hij (by omega) hi
    | true =>
      rw [if_pos rfl]
      constructor
      · intro h i j hij hj hi
        have hzero : (List.range n).countP p = 0 := by omega
        have hnone := (countP_range_eq_zero p n).mp hzero i (by omega)
        cases hnone.symm.trans hi
      · intro h
        have hzero : (List.range n).countP p = 0 := by
          rw [countP_range_eq_zero]
          intro i hi
          by_contra hp
          have hsecond := h i n hi (Nat.lt_succ_self n) (by simpa using hp)
          cases hsecond.symm.trans hn
        omega

end MailCue.Lib.Retry
