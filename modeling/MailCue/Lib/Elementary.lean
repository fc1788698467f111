import Mathlib.Analysis.SpecialFunctions.Log.Basic

/-!
# The exponential and the logarithm of an ordered field

What a computation with logarithms of odds rests on, and the two maps it is made
of: the logarithm of the odds of a probability and the logistic function. Both
are monotone. The real numbers are an instance.
-/
namespace MailCue.Lib.Elementary

structure Functions (K : Type*) [Field K] [LinearOrder K] where
  log : K → K
  exp : K → K
  log_le_log : ∀ {x y : K}, 0 < x → x ≤ y → log x ≤ log y
  exp_le_exp : ∀ {x y : K}, x ≤ y → exp x ≤ exp y
  exp_pos : ∀ x : K, 0 < exp x
  exp_zero : exp 0 = 1

noncomputable def realFunctions : Functions ℝ where
  log := Real.log
  exp := Real.exp
  log_le_log := Real.log_le_log
  exp_le_exp := Real.exp_le_exp.mpr
  exp_pos := Real.exp_pos
  exp_zero := Real.exp_zero

namespace Functions
variable {K : Type*} [Field K] [LinearOrder K] (functions : Functions K)

def logOdds (probability : K) : K := functions.log (probability / (1 - probability))

/-- `1 / (1 + exp(-x))`, and below zero the same with the exponential of `x`. -/
def logistic (x : K) : K :=
  if 0 ≤ x then 1 / (1 + functions.exp (-x))
  else functions.exp x / (1 + functions.exp x)

theorem exp_le_one {x : K} (hx : x ≤ 0) : functions.exp x ≤ 1 := by
  have hle := functions.exp_le_exp hx
  rwa [functions.exp_zero] at hle

variable [IsStrictOrderedRing K]

theorem logOdds_le_logOdds {p q : K} (hpos : 0 < p) (hle : p ≤ q) (hlt : q < 1) :
    functions.logOdds p ≤ functions.logOdds q := by
  have hp : 0 < 1 - p := by linarith
  have hq : 0 < 1 - q := by linarith
  apply functions.log_le_log (div_pos hpos hp)
  rw [div_le_div_iff₀ hp hq]
  nlinarith

theorem logistic_mono : Monotone functions.logistic := by
  intro x y hle
  have hx := functions.exp_pos x
  have hy := functions.exp_pos y
  have hnx := functions.exp_pos (-x)
  have hny := functions.exp_pos (-y)
  unfold logistic
  by_cases hxpos : 0 ≤ x
  · have hypos : 0 ≤ y := hxpos.trans hle
    rw [if_pos hxpos, if_pos hypos]
    have hexp := functions.exp_le_exp (neg_le_neg hle)
    exact one_div_le_one_div_of_le (by linarith) (by linarith)
  · rw [if_neg hxpos]
    by_cases hypos : 0 ≤ y
    · -- the two branches meet at one half
      rw [if_pos hypos]
      have hlow := functions.exp_le_one (le_of_not_ge hxpos)
      have hhigh := functions.exp_le_one (neg_nonpos.mpr hypos)
      rw [div_le_div_iff₀ (by linarith) (by linarith)]
      nlinarith
    · rw [if_neg hypos]
      have hexp := functions.exp_le_exp hle
      rw [div_le_div_iff₀ (by linarith) (by linarith)]
      nlinarith

end Functions

end MailCue.Lib.Elementary
