import Mathlib

/-!
# Rounding to the nearest, ties to even

`roundHalfEven` picks the nearest integer and of two equally near the even one;
`roundDigits` does so at a number of decimal places. Both are monotone and leave
what is already round as it is.
-/
namespace MailCue.Lib.Rounding

instance atLeastTwo_two : Nat.AtLeastTwo 2 := ⟨le_rfl⟩

instance atLeastTwo_ten : Nat.AtLeastTwo 10 := ⟨by decide⟩

variable {K : Type*} [Field K] [LinearOrder K] [FloorRing K]

def roundHalfEven (x : K) : Int :=
  if Int.fract x < 1 / 2 then ⌊x⌋
  else if 1 / 2 < Int.fract x then ⌊x⌋ + 1
  else if ⌊x⌋ % 2 = 0 then ⌊x⌋
  else ⌊x⌋ + 1

def roundDigits (digits : Nat) (x : K) : K :=
  roundHalfEven (x * 10 ^ digits) / 10 ^ digits

theorem roundHalfEven_cases (x : K) :
    roundHalfEven x = ⌊x⌋ ∧ Int.fract x ≤ 1 / 2 ∨
      roundHalfEven x = ⌊x⌋ + 1 ∧ 1 / 2 ≤ Int.fract x := by
  unfold roundHalfEven
  split
  · exact Or.inl ⟨rfl, le_of_lt ‹_›⟩
  · have hlow : 1 / 2 ≤ Int.fract x := not_lt.mp ‹_›
    split
    · exact Or.inr ⟨rfl, hlow⟩
    · have hhigh : Int.fract x ≤ 1 / 2 := not_lt.mp ‹_›
      split
      · exact Or.inl ⟨rfl, hhigh⟩
      · exact Or.inr ⟨rfl, hlow⟩

variable [IsStrictOrderedRing K]

/-- Within one unit, what lies further up is not rounded down past what lies below it. -/
theorem roundHalfEven_le_of_floor_eq {x y : K} (hle : x ≤ y) (hfloor : ⌊x⌋ = ⌊y⌋) :
    roundHalfEven x ≤ roundHalfEven y := by
  have hfract : Int.fract x ≤ Int.fract y := by
    have hx := Int.floor_add_fract x
    have hy := Int.floor_add_fract y
    rw [hfloor] at hx
    linarith
  rcases roundHalfEven_cases x with ⟨hx, hxhalf⟩ | ⟨hx, hxhalf⟩
  · rcases roundHalfEven_cases y with ⟨hy, _⟩ | ⟨hy, _⟩ <;> omega
  · rcases roundHalfEven_cases y with ⟨hy, hyhalf⟩ | ⟨hy, _⟩
    · -- both lie on the half, where the parity of the unit decides for both alike
      have hx_half : Int.fract x = 1 / 2 := le_antisymm (hfract.trans hyhalf) hxhalf
      have hy_half : Int.fract y = 1 / 2 := le_antisymm hyhalf (hxhalf.trans hfract)
      have hsame : x = y := by
        rw [← Int.floor_add_fract x, ← Int.floor_add_fract y, hfloor, hx_half, hy_half]
      rw [hsame]
    · omega

theorem roundHalfEven_mono : Monotone (roundHalfEven : K → Int) := by
  intro x y hle
  have hfloor : ⌊x⌋ ≤ ⌊y⌋ := Int.floor_mono hle
  rcases Int.lt_or_eq_of_le hfloor with hlt | heq
  · rcases roundHalfEven_cases x with ⟨hx, _⟩ | ⟨hx, _⟩ <;>
      rcases roundHalfEven_cases y with ⟨hy, _⟩ | ⟨hy, _⟩ <;> omega
  · exact roundHalfEven_le_of_floor_eq hle heq

theorem roundHalfEven_intCast (n : Int) : roundHalfEven (n : K) = n := by
  have hlow : Int.fract (n : K) < 1 / 2 := by
    rw [Int.fract_intCast]
    norm_num
  rw [roundHalfEven, if_pos hlow, Int.floor_intCast]

/-- What lies above the unit mirrors what lies below it, and of two neighbours the even one
stays even. -/
theorem roundHalfEven_neg (x : K) : roundHalfEven (-x) = -roundHalfEven x := by
  by_cases hwhole : Int.fract x = 0
  · obtain ⟨n, rfl⟩ : ∃ n : Int, (n : K) = x := by
      refine ⟨⌊x⌋, ?_⟩
      have hsum := Int.floor_add_fract x
      rwa [hwhole, add_zero] at hsum
    rw [← Int.cast_neg, roundHalfEven_intCast, roundHalfEven_intCast]
  · have hfract : Int.fract (-x) = 1 - Int.fract x := Int.fract_neg hwhole
    have hfloor : ⌊-x⌋ = -⌊x⌋ - 1 := by
      have hx := Int.floor_add_fract x
      have hneg := Int.floor_add_fract (-x)
      rw [hfract] at hneg
      have hcast : (⌊-x⌋ : K) = ((-⌊x⌋ - 1 : Int) : K) := by
        push_cast
        linarith
      exact Int.cast_injective hcast
    unfold roundHalfEven
    rw [hfract, hfloor]
    rcases lt_trichotomy (Int.fract x) (1 / 2) with hlow | hhalf | hhigh
    · rw [if_neg (by linarith), if_pos (by linarith), if_pos hlow]
      omega
    · have hlow : ¬Int.fract x < 1 / 2 := hhalf.not_lt
      have hhigh : ¬1 / 2 < Int.fract x := hhalf.not_gt
      have hlow' : ¬1 - Int.fract x < 1 / 2 := by linarith
      have hhigh' : ¬1 / 2 < 1 - Int.fract x := by linarith
      rw [if_neg hlow, if_neg hhigh, if_neg hlow', if_neg hhigh']
      split
      · split
        · omega
        · omega
      · split
        · omega
        · omega
    · rw [if_pos (by linarith), if_neg (by linarith), if_pos hhigh]
      omega

theorem roundHalfEven_natCast (n : Nat) : roundHalfEven (n : K) = n := by
  simpa using roundHalfEven_intCast (K := K) n

theorem roundDigits_neg (digits : Nat) (x : K) :
    roundDigits digits (-x) = -roundDigits digits x := by
  rw [roundDigits, roundDigits, neg_mul, roundHalfEven_neg, Int.cast_neg, neg_div]

theorem roundDigits_mono (digits : Nat) : Monotone (roundDigits digits : K → K) := by
  intro x y hle
  have hscaled : x * 10 ^ digits ≤ y * 10 ^ digits :=
    mul_le_mul_of_nonneg_right hle (by positivity)
  have hround : (roundHalfEven (x * 10 ^ digits) : K) ≤ roundHalfEven (y * 10 ^ digits) :=
    Int.cast_le.mpr (roundHalfEven_mono hscaled)
  exact div_le_div_of_nonneg_right hround (by positivity)

example : ([1 / 2, 3 / 2, 5 / 2, 7 / 4] : List ℚ).map roundHalfEven = [0, 2, 2, 2] := by
  decide +kernel

end MailCue.Lib.Rounding
