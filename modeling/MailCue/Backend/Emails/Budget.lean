import MailCue.Lib.Rounding
import MailCue.Lib.SortedPrefix

/-!
# Addresses under a target bounce rate

backend/app/emails/risk_model.py, select_within_budget: candidates are taken in
ascending risk as long as the rate of what is taken, the committed mail with it,
stays under the target. Scores and rates are exact. What the walk answers is the
largest set under the target unless the committed mail is above it and so is that
mail with the candidate of least risk; then nothing is taken.
-/
namespace MailCue.Backend.Emails.Budget
open MailCue.Lib MailCue.Lib.Rounding

structure BudgetCandidate where
  email : String
  score : ℚ
  deriving DecidableEq, Repr

structure BudgetSelection where
  included : List String
  excluded : List String
  projected_bounce_rate : ℚ
  target_bounce_rate : ℚ
  included_count : Nat
  excluded_count : Nat
  deriving DecidableEq, Repr

/-- What the loop carries; the emails are taken of the candidates behind it. -/
structure Walk where
  total_score : ℚ
  count : Nat
  included : List BudgetCandidate := []
  excluded : List BudgetCandidate := []

def consider (target_bounce_rate : ℚ) (walk : Walk) (candidate : BudgetCandidate) : Walk :=
  let projected_total := walk.total_score + candidate.score
  let projected_count := walk.count + 1
  if projected_count ≠ 0 ∧ projected_total / projected_count ≤ target_bounce_rate then
    { walk with
      total_score := projected_total
      count := projected_count
      included := walk.included ++ [candidate] }
  else { walk with excluded := walk.excluded ++ [candidate] }

def byScore (candidates : List BudgetCandidate) : List BudgetCandidate :=
  candidates.insertionSort fun a b => a.score ≤ b.score

def walkThrough (candidates : List BudgetCandidate) (target_bounce_rate : ℚ)
    (committed : List ℚ) : Walk :=
  (byScore candidates).foldl (consider target_bounce_rate)
    { total_score := committed.sum, count := committed.length }

/-- `total / count if count else 0.0`. -/
def rate (total : ℚ) (count : Nat) : ℚ := if count ≠ 0 then total / count else 0

/-- `None` for the committed mail is the empty list. -/
def select_within_budget (candidates : List BudgetCandidate) (target_bounce_rate : ℚ)
    (committed : List ℚ) : BudgetSelection :=
  let walk := walkThrough candidates target_bounce_rate committed
  { included := walk.included.map (·.email)
    excluded := walk.excluded.map (·.email)
    projected_bounce_rate := roundDigits 5 (rate walk.total_score walk.count)
    target_bounce_rate
    included_count := walk.included.length
    excluded_count := walk.excluded.length }

def scores (chosen : List BudgetCandidate) : List ℚ := chosen.map (·.score)

@[simp] theorem scores_nil : scores [] = [] := rfl

@[simp] theorem scores_cons (candidate : BudgetCandidate) (others : List BudgetCandidate) :
    scores (candidate :: others) = candidate.score :: scores others := rfl

theorem scores_subperm {chosen candidates : List BudgetCandidate}
    (hchosen : chosen.Subperm candidates) : (scores chosen).Subperm (scores candidates) := by
  obtain ⟨inOrder, hperm, hsub⟩ := hchosen
  exact ⟨scores inOrder, hperm.map _, hsub.map _⟩

/-- The expected bounce rate of the committed mail and the chosen candidates together. -/
def blendedRate (committed : List ℚ) (chosen : List BudgetCandidate) : ℚ :=
  rate (committed.sum + (scores chosen).sum) (committed.length + chosen.length)

/-- What is returned splits the candidates, keeps to the target, and no set that
keeps to it has more elements. -/
def SelectsLargest (candidates : List BudgetCandidate) (target_bounce_rate : ℚ)
    (committed : List ℚ) : Prop :=
  ∃ chosen rest : List BudgetCandidate, (chosen ++ rest).Perm candidates ∧
    (select_within_budget candidates target_bounce_rate committed).included
      = chosen.map (·.email) ∧
    (select_within_budget candidates target_bounce_rate committed).excluded
      = rest.map (·.email) ∧
    blendedRate committed chosen ≤ target_bounce_rate ∧
    ∀ other : List BudgetCandidate, other.Subperm candidates →
      blendedRate committed other ≤ target_bounce_rate → other.length ≤ chosen.length

section Walking
variable {target : ℚ}

theorem rate_le_iff {total : ℚ} {count : Nat} (hcount : count ≠ 0) :
    rate total count ≤ target ↔ total ≤ target * count := by
  have hpos : (0 : ℚ) < count := by exact_mod_cast Nat.pos_of_ne_zero hcount
  rw [rate, if_pos hcount, div_le_iff₀ hpos]

/-- The candidate goes in with what is already taken. -/
def Fits (target : ℚ) (walk : Walk) (candidate : BudgetCandidate) : Prop :=
  walk.total_score + candidate.score ≤ target * (walk.count + 1)

theorem consider_of_fits {walk : Walk} {candidate : BudgetCandidate}
    (hfits : Fits target walk candidate) :
    consider target walk candidate =
      { total_score := walk.total_score + candidate.score
        count := walk.count + 1
        included := walk.included ++ [candidate]
        excluded := walk.excluded } := by
  have hpos : (0 : ℚ) < (walk.count + 1 : Nat) := by exact_mod_cast Nat.succ_pos _
  rw [consider, if_pos]
  refine ⟨Nat.succ_ne_zero _, ?_⟩
  rw [div_le_iff₀ hpos]
  push_cast
  exact hfits

theorem consider_of_not_fits {walk : Walk} {candidate : BudgetCandidate}
    (hfits : ¬ Fits target walk candidate) :
    consider target walk candidate =
      { walk with excluded := walk.excluded ++ [candidate] } := by
  have hpos : (0 : ℚ) < (walk.count + 1 : Nat) := by exact_mod_cast Nat.succ_pos _
  rw [consider, if_neg]
  intro hboth
  apply hfits
  have hle := (div_le_iff₀ hpos).mp hboth.2
  push_cast at hle
  exact hle

theorem blendedRate_singleton_le_iff (committed : List ℚ) (candidate : BudgetCandidate) :
    blendedRate committed [candidate] ≤ target ↔
      Fits target { total_score := committed.sum, count := committed.length } candidate := by
  rw [blendedRate, rate_le_iff (by simp), Fits]
  simp

/-- No mail at all adds up to nothing, so the bound on the sum holds there too. -/
theorem within_of_blendedRate_nil_le {committed : List ℚ}
    (hrate : blendedRate committed [] ≤ target) :
    committed.sum + (scores []).sum
      ≤ target * (committed.length + ([] : List BudgetCandidate).length) := by
  cases committed with
  | nil => simp
  | cons first later =>
    rw [blendedRate, rate_le_iff (by simp)] at hrate
    push_cast at hrate
    exact hrate

theorem foldl_of_none_fits (candidates : List BudgetCandidate) (walk : Walk)
    (hnone : ∀ candidate ∈ candidates, ¬ Fits target walk candidate) :
    candidates.foldl (consider target) walk =
      { walk with excluded := walk.excluded ++ candidates } := by
  induction candidates generalizing walk with
  | nil => simp
  | cons candidate rest ih =>
    rw [List.foldl_cons, consider_of_not_fits (hnone candidate List.mem_cons_self)]
    rw [ih]
    · simp
    · intro other hmem
      exact hnone other (List.mem_cons_of_mem _ hmem)

/-- What the walk does to an ascending list: a prefix goes in, and behind it nothing fits. -/
structure Splits (target : ℚ) (start : Walk) (candidates kept rest : List BudgetCandidate) :
    Prop where
  candidates_eq : candidates = kept ++ rest
  walked : candidates.foldl (consider target) start =
    { total_score := start.total_score + (scores kept).sum
      count := start.count + kept.length
      included := start.included ++ kept
      excluded := start.excluded ++ rest }
  within : kept ≠ [] →
    start.total_score + (scores kept).sum ≤ target * (start.count + kept.length)
  rest_over : ∀ candidate ∈ rest,
    target * (start.count + kept.length + 1)
      < start.total_score + (scores kept).sum + candidate.score
  head_fits : ∀ candidate ∈ kept.head?, Fits target start candidate

theorem exists_splits (candidates : List BudgetCandidate) (start : Walk)
    (hsorted : candidates.Pairwise fun a b => a.score ≤ b.score) :
    ∃ kept rest, Splits target start candidates kept rest := by
  induction candidates generalizing start with
  | nil =>
    refine ⟨[], [], rfl, ?_, fun h => absurd rfl h, ?_, ?_⟩
    · simp [scores]
    · simp
    · simp
  | cons candidate others ih =>
    rw [List.pairwise_cons] at hsorted
    by_cases hfits : Fits target start candidate
    · obtain ⟨kept, rest, hsplit⟩ := ih (consider target start candidate) hsorted.2
      have hnext := consider_of_fits hfits
      refine ⟨candidate :: kept, rest, ?_, ?_, ?_, ?_, ?_⟩
      · rw [hsplit.candidates_eq, List.cons_append]
      · rw [List.foldl_cons, hsplit.walked, hnext]
        simp [scores, add_assoc, Nat.add_comm 1]
      · intro _
        by_cases hkept : kept = []
        · subst hkept
          simpa [scores, Fits] using hfits
        · have hwithin := hsplit.within hkept
          rw [hnext] at hwithin
          simp only [scores_cons, List.sum_cons, List.length_cons] at hwithin ⊢
          push_cast at hwithin ⊢
          linarith
      · intro other hmem
        have hover := hsplit.rest_over other hmem
        rw [hnext] at hover
        simp only [scores_cons, List.sum_cons, List.length_cons] at hover ⊢
        push_cast at hover ⊢
        linarith
      · intro first hfirst
        rw [List.head?_cons, Option.mem_some_iff] at hfirst
        rwa [← hfirst]
    · -- the list ascends, so behind a candidate that does not fit none does
      have hnone : ∀ other ∈ candidate :: others, ¬ Fits target start other := by
        intro other hmem hother
        apply hfits
        rcases List.mem_cons.mp hmem with heq | hlater
        · rwa [heq] at hother
        · have hle := hsorted.1 other hlater
          unfold Fits at hother ⊢
          linarith
      refine ⟨[], candidate :: others, rfl, ?_, fun h => absurd rfl h, ?_, by simp⟩
      · rw [foldl_of_none_fits _ _ hnone]
        simp [scores]
      · intro other hmem
        have hover := hnone other hmem
        simp only [Fits, not_le] at hover
        simpa [scores] using hover

/-- Behind a prefix that keeps to the target each candidate is above it. -/
theorem Splits.rest_above {start : Walk} {candidates kept rest : List BudgetCandidate}
    (hsplit : Splits target start candidates kept rest)
    (hwithin : start.total_score + (scores kept).sum ≤ target * (start.count + kept.length))
    {candidate : BudgetCandidate} (hmem : candidate ∈ rest) : target < candidate.score := by
  have hover := hsplit.rest_over candidate hmem
  linarith

/-- A longer prefix is over the target. -/
theorem Splits.longer_over {start : Walk} {candidates kept rest : List BudgetCandidate}
    (hsplit : Splits target start candidates kept rest)
    (hwithin : start.total_score + (scores kept).sum ≤ target * (start.count + kept.length))
    {more : List BudgetCandidate} (hmore : more.Sublist rest) (hne : more ≠ []) :
    target * (start.count + kept.length + more.length)
      < start.total_score + (scores kept).sum + (scores more).sum := by
  cases more with
  | nil => exact absurd rfl hne
  | cons first later =>
    have hfirst := hsplit.rest_over first (hmore.subset List.mem_cons_self)
    have hlater : later.length • target ≤ (scores later).sum := by
      have hcard := List.card_nsmul_le_sum (scores later) target (by
        intro score hscore
        obtain ⟨candidate, hmem, rfl⟩ := List.mem_map.mp hscore
        have hrest := hmore.subset (List.mem_cons_of_mem _ hmem)
        exact le_of_lt (hsplit.rest_above hwithin hrest))
      simpa [scores] using hcard
    rw [nsmul_eq_mul] at hlater
    simp only [scores_cons, List.sum_cons, List.length_cons]
    push_cast
    linarith

theorem pairwise_byScore (candidates : List BudgetCandidate) :
    (byScore candidates).Pairwise fun a b => a.score ≤ b.score := by
  have htotal : Std.Total fun a b : BudgetCandidate => a.score ≤ b.score :=
    ⟨fun a b => le_total a.score b.score⟩
  have htrans : IsTrans BudgetCandidate fun a b => a.score ≤ b.score :=
    ⟨fun _ _ _ hab hbc => le_trans hab hbc⟩
  exact List.pairwise_insertionSort _ candidates

/-- A set that keeps to the target is no longer than what the walk took. -/
theorem Splits.length_le {committed : List ℚ} {candidates kept rest other : List BudgetCandidate}
    (hsplit : Splits target { total_score := committed.sum, count := committed.length }
      (byScore candidates) kept rest)
    (hwithin : committed.sum + (scores kept).sum ≤ target * (committed.length + kept.length))
    (hother : other.Subperm candidates)
    (hother_within : blendedRate committed other ≤ target) : other.length ≤ kept.length := by
  by_contra hlonger
  have hperm : (byScore candidates).Perm candidates := List.perm_insertionSort _ _
  have hsub : (scores other).Subperm (scores (byScore candidates)) :=
    scores_subperm (hother.trans hperm.symm.subperm)
  have hsorted : (scores (byScore candidates)).Pairwise (· ≤ ·) :=
    List.pairwise_map.mpr (pairwise_byScore candidates)
  have hleast := SortedPrefix.sum_take_le_of_subperm hsub hsorted
  -- the prefix of that length is what the walk took and some of what it left
  have hlength : (scores other).length = other.length := List.length_map _
  have hprefix : (scores (byScore candidates)).take other.length =
      scores kept ++ scores (rest.take (other.length - kept.length)) := by
    rw [hsplit.candidates_eq, scores, List.map_append, List.take_append, List.length_map,
      List.take_of_length_le (by rw [List.length_map]; omega), ← List.map_take]
    rfl
  have hbound : other.length ≤ kept.length + rest.length := by
    have hcount := (hother.trans hperm.symm.subperm).length_le
    rw [hsplit.candidates_eq, List.length_append] at hcount
    exact hcount
  have hover := hsplit.longer_over hwithin (List.take_sublist (other.length - kept.length) rest) (by
    rw [ne_eq, List.take_eq_nil_iff]
    have hlen : other.length - kept.length ≠ 0 := by omega
    rintro (h | rfl)
    · exact hlen h
    · simp at hbound
      omega)
  have htaken : (rest.take (other.length - kept.length)).length = other.length - kept.length := by
    rw [List.length_take]
    omega
  rw [hlength, hprefix, List.sum_append] at hleast
  have hkeeps := (rate_le_iff (by omega)).mp hother_within
  have hcast : (kept.length : ℚ) + ((other.length - kept.length : Nat) : ℚ) = other.length := by
    rw [← Nat.cast_add]
    congr 1
    omega
  rw [htaken] at hover
  push_cast at hkeeps hover
  have hsum : target * (committed.length + kept.length + (other.length - kept.length : Nat))
      = target * (committed.length + other.length) := by
    rw [add_assoc, hcast]
  linarith

end Walking

/-- The set returned is the largest under the target exactly where the committed
mail is under it, or is with one of the candidates. -/
theorem select_within_budget_largest_iff (candidates : List BudgetCandidate)
    (target_bounce_rate : ℚ) (committed : List ℚ) :
    SelectsLargest candidates target_bounce_rate committed ↔
      blendedRate committed [] ≤ target_bounce_rate ∨
        ∃ candidate ∈ candidates, blendedRate committed [candidate] ≤ target_bounce_rate := by
  obtain ⟨kept, rest, hsplit⟩ : ∃ kept rest, Splits target_bounce_rate
      { total_score := committed.sum, count := committed.length } (byScore candidates) kept rest :=
    exists_splits _ _ (pairwise_byScore candidates)
  have hperm : (byScore candidates).Perm candidates := List.perm_insertionSort _ _
  have hwalk := hsplit.walked
  have hincluded : (select_within_budget candidates target_bounce_rate committed).included
      = kept.map (·.email) := by
    simp [select_within_budget, walkThrough, hwalk]
  have hexcluded : (select_within_budget candidates target_bounce_rate committed).excluded
      = rest.map (·.email) := by
    simp [select_within_budget, walkThrough, hwalk]
  have hlast (hwithin : committed.sum + (scores kept).sum
      ≤ target_bounce_rate * (committed.length + kept.length))
      (hrate : blendedRate committed kept ≤ target_bounce_rate) :
      SelectsLargest candidates target_bounce_rate committed :=
    ⟨kept, rest, hsplit.candidates_eq ▸ hperm, hincluded, hexcluded, hrate,
      fun _ hother hrate' => hsplit.length_le hwithin hother hrate'⟩
  constructor
  · intro hlargest
    obtain ⟨chosen, _, _, hchosen, _, hwithin, _⟩ := hlargest
    cases kept with
    | nil =>
      left
      have hnil : chosen = [] := by
        rw [hincluded, List.map_nil] at hchosen
        exact List.map_eq_nil_iff.mp hchosen.symm
      rwa [hnil] at hwithin
    | cons first later =>
      right
      have hmem : first ∈ candidates := by
        apply hperm.mem_iff.mp
        rw [hsplit.candidates_eq]
        exact List.mem_cons_self
      have hfits := hsplit.head_fits first rfl
      exact ⟨first, hmem, (blendedRate_singleton_le_iff committed first).mpr hfits⟩
  · intro hsome
    by_cases hkept : kept = []
    · subst hkept
      -- nothing fits, so the committed mail alone has to keep to the target
      have hnone : ¬ ∃ candidate ∈ candidates,
          blendedRate committed [candidate] ≤ target_bounce_rate := by
        intro hfitting
        obtain ⟨candidate, hmem, hfits⟩ := hfitting
        rw [blendedRate_singleton_le_iff] at hfits
        have hrest : candidate ∈ rest := by
          have hordered := hperm.mem_iff.mpr hmem
          rwa [hsplit.candidates_eq] at hordered
        have hover := hsplit.rest_over candidate hrest
        simp only [scores_nil, List.sum_nil, List.length_nil, Nat.cast_zero] at hover
        simp only [Fits] at hfits
        linarith
      have hrate := hsome.resolve_right hnone
      exact hlast (within_of_blendedRate_nil_le hrate) hrate
    · have hwithin := hsplit.within hkept
      have hcount : committed.length + kept.length ≠ 0 := by
        have := List.length_pos_iff.mpr hkept
        omega
      apply hlast hwithin
      rw [blendedRate, rate_le_iff hcount]
      push_cast
      exact hwithin

/-- Three candidates without risk that would bring the committed mail under the target. -/
def riskless : List BudgetCandidate :=
  [{ email := "a@x.com", score := 0 }, { email := "b@x.com", score := 0 },
    { email := "c@x.com", score := 0 }]

/-- Each alone leaves the rate at 0.05, so none is taken; all three leave it at 0.025. -/
theorem select_within_budget_not_largest :
    (select_within_budget riskless (4 / 100) [1 / 10]).included = [] ∧
      blendedRate [1 / 10] riskless ≤ 4 / 100 ∧ ¬ SelectsLargest riskless (4 / 100) [1 / 10] := by
  have hnone : (select_within_budget riskless (4 / 100) [1 / 10]).included = [] := by
    decide +kernel
  have hall : blendedRate [1 / 10] riskless ≤ 4 / 100 := by decide +kernel
  refine ⟨hnone, hall, ?_⟩
  intro hlargest
  obtain ⟨chosen, _, _, hchosen, _, _, hmost⟩ := hlargest
  have hnil : chosen = [] := by
    rw [hnone] at hchosen
    exact List.map_eq_nil_iff.mp hchosen.symm
  have hlength := hmost riskless (List.Subperm.refl _) hall
  rw [hnil] at hlength
  exact absurd hlength (by decide)

end MailCue.Backend.Emails.Budget
