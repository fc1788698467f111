import MailCue.Backend.Deliverability.Comparison

/-!
# Laws of the comparison

Every check that a category holds is counted once, by the sign of what became of its
points, and comparing the other way round mirrors the comparison. Of two categories of
one report with the same id the first is not looked at.
-/
namespace MailCue.Backend.Deliverability
open MailCue.Lib

abbrev Identity := CategoryId × String

inductive Verdict
  | improved | regressed | unchanged
  deriving DecidableEq, Repr

section
variable {F : Type}

def identities (categories : List (Category F)) : List Identity :=
  categories.flatMap fun category => category.checks.map fun check => (category.id, check.id)

def Report.identities (report : Report F) : List Identity :=
  Deliverability.identities report.categories

/-- The checks of the categories that stand for their ids. -/
def Report.counted (report : Report F) : List Identity :=
  Deliverability.identities (OuterJoin.kept Category.id report.categories)

/-- A category that is asked for its check. -/
def Report.check (report : Report F) (identity : Identity) : Option (Check F) :=
  OuterJoin.find Check.id (checksOf (OuterJoin.find Category.id report.categories identity.1))
    identity.2

variable (ar : Arithmetic F)

def verdictOf (delta : F) : Verdict :=
  if ar.positive delta then .improved else if ar.negative delta then .regressed else .unchanged

/-- What became of a check between the reports. -/
def verdict (before after : Report F) (identity : Identity) : Verdict :=
  verdictOf ar (delta ar (before.check identity) (after.check identity))

/-! ## Mirror images -/

structure CheckChange.Mirrors (change other : CheckChange F) : Prop where
  id : change.id = other.id
  before_status : change.before_status = other.after_status
  after_status : change.after_status = other.before_status
  before_points : change.before_points = other.after_points
  after_points : change.after_points = other.before_points
  points_delta : change.points_delta = ar.neg other.points_delta

structure CategoryChange.Mirrors (change other : CategoryChange F) : Prop where
  id : change.id = other.id
  before_score : change.before_score = other.after_score
  after_score : change.after_score = other.before_score
  score_delta : change.score_delta = other.score_delta.map (-·)
  check_changes : List.Forall₂ (CheckChange.Mirrors ar) change.check_changes other.check_changes

structure Comparison.Mirrors (comparison other : Comparison F) : Prop where
  before_report_id : comparison.before_report_id = other.after_report_id
  after_report_id : comparison.after_report_id = other.before_report_id
  before_score : comparison.before_score = other.after_score
  after_score : comparison.after_score = other.before_score
  score_delta : comparison.score_delta = -other.score_delta
  improved : comparison.improved = other.regressed
  regressed : comparison.regressed = other.improved
  unchanged : comparison.unchanged = other.unchanged
  categories : List.Forall₂ (CategoryChange.Mirrors ar) comparison.categories other.categories

end

/-! ## The loops -/

section
variable {F : Type} {ar : Arithmetic F}

theorem foldl_collect {α β σ : Type} (items : List α) (step : σ → α → σ) (write : α → β)
    (start : σ) (written : List β) :
    items.foldl (fun state a => (step state.1 a, state.2 ++ [write a])) (start, written) =
      (items.foldl step start, written ++ items.map write) := by
  induction items generalizing start written with
  | nil => simp
  | cons a items ih => simp [ih]

/-- The changes of one category. -/
def changesOf (ar : Arithmetic F) (old_category new_category : Option (Category F)) :
    List (CheckChange F) :=
  (OuterJoin.join Check.id (checksOf old_category) (checksOf new_category)).map fun entry =>
    checkChange ar entry.1 entry.2.1 entry.2.2

/-- The deltas of one category. -/
def deltasOf (ar : Arithmetic F) (old_category new_category : Option (Category F)) :
    List (String × F) :=
  (OuterJoin.join Check.id (checksOf old_category) (checksOf new_category)).map fun entry =>
    (entry.1, delta ar entry.2.1 entry.2.2)

theorem compareChecks_eq (old_category new_category : Option (Category F)) (tally : Tally) :
    compareChecks ar (checksOf old_category) (checksOf new_category) tally =
      (((deltasOf ar old_category new_category).map Prod.snd).foldl (Tally.count ar) tally,
        changesOf ar old_category new_category) := by
  unfold compareChecks deltasOf changesOf
  refine (foldl_collect (OuterJoin.join Check.id (checksOf old_category) (checksOf new_category))
    (fun tally entry => tally.count ar (delta ar entry.2.1 entry.2.2))
    (fun entry => checkChange ar entry.1 entry.2.1 entry.2.2) tally []).trans ?_
  rw [List.nil_append, List.map_map, List.foldl_map]
  rfl

/-- The deltas of all checks, in the order in which they are counted. -/
def deltas (ar : Arithmetic F) (before after : List (Category F)) : List (Identity × F) :=
  (OuterJoin.join Category.id before after).flatMap fun entry =>
    (deltasOf ar entry.2.1 entry.2.2).map fun found => ((entry.1, found.1), found.2)

theorem compareCategories_eq (before after : List (Category F)) :
    compareCategories ar before after =
      (((deltas ar before after).map Prod.snd).foldl (Tally.count ar) ⟨0, 0, 0⟩,
        (OuterJoin.join Category.id before after).map fun entry =>
          categoryChange entry.1 entry.2.1 entry.2.2 (changesOf ar entry.2.1 entry.2.2)) := by
  unfold compareCategories deltas
  simp only [compareChecks_eq]
  refine (foldl_collect (OuterJoin.join Category.id before after)
    (fun tally entry =>
      ((deltasOf ar entry.2.1 entry.2.2).map Prod.snd).foldl (Tally.count ar) tally)
    (fun entry => categoryChange entry.1 entry.2.1 entry.2.2 (changesOf ar entry.2.1 entry.2.2))
    _ []).trans ?_
  rw [List.nil_append, List.map_flatMap, List.foldl_flatMap]
  simp only [List.map_map]
  rfl

/-! ## The counts -/

theorem foldl_count (found : List F) (tally : Tally) :
    found.foldl (Tally.count ar) tally =
      ⟨tally.improved + found.countP fun d => verdictOf ar d = .improved,
        tally.regressed + found.countP fun d => verdictOf ar d = .regressed,
        tally.unchanged + found.countP fun d => verdictOf ar d = .unchanged⟩ := by
  induction found generalizing tally with
  | nil => rfl
  | cons d found ih =>
    rw [List.foldl_cons, ih]
    simp only [List.countP_cons, Tally.count, verdictOf]
    split
    · simp [Nat.add_assoc, Nat.add_comm]
    · split
      · simp [Nat.add_assoc, Nat.add_comm]
      · simp [Nat.add_assoc, Nat.add_comm]

theorem mem_deltas {before after : Report F} {identity : Identity} {d : F}
    (h : (identity, d) ∈ deltas ar before.categories after.categories) :
    d = delta ar (before.check identity) (after.check identity) := by
  obtain ⟨entry, hentry, hmem⟩ := List.mem_flatMap.mp h
  obtain ⟨found, hfound, hpair⟩ := List.mem_map.mp hmem
  obtain ⟨category_id, -, rfl⟩ := List.mem_map.mp hentry
  obtain ⟨check, hcheck, rfl⟩ := List.mem_map.mp hfound
  obtain ⟨check_id, -, rfl⟩ := List.mem_map.mp hcheck
  obtain ⟨rfl, rfl⟩ := Prod.mk.inj hpair
  rfl

theorem map_fst_deltas (before after : List (Category F)) :
    (deltas ar before after).map Prod.fst =
      (OuterJoin.keys Category.id before after).flatMap fun category_id =>
        (OuterJoin.keys Check.id (checksOf (OuterJoin.find Category.id before category_id))
          (checksOf (OuterJoin.find Category.id after category_id))).map (category_id, ·) := by
  simp only [deltas, deltasOf, OuterJoin.join, List.map_flatMap, List.flatMap_map, List.map_map]
  rfl

theorem nodup_deltas (before after : List (Category F)) :
    ((deltas ar before after).map Prod.fst).Nodup := by
  rw [map_fst_deltas, List.nodup_flatMap]
  refine ⟨fun category_id _ => ?_, ?_⟩
  · exact (OuterJoin.nodup_keys _ _).map fun a b hab => (Prod.mk.inj hab).2
  · refine (OuterJoin.nodup_keys before after).imp fun {a b} hab => ?_
    intro identity ha hb
    obtain ⟨_, -, rfl⟩ := List.mem_map.mp ha
    obtain ⟨_, -, hsame⟩ := List.mem_map.mp hb
    exact hab (Prod.mk.inj hsame).1.symm

/-- Every check of a category that stands for its id is counted. -/
theorem mem_counted {report : Report F} {identity : Identity} :
    identity ∈ report.counted ↔ identity.2 ∈
      (checksOf (OuterJoin.find Category.id report.categories identity.1)).map Check.id := by
  constructor
  · intro h
    obtain ⟨category, hcategory, hmem⟩ := List.mem_flatMap.mp h
    obtain ⟨check, hcheck, rfl⟩ := List.mem_map.mp hmem
    rw [OuterJoin.find_eq_some.mpr ⟨hcategory, rfl⟩]
    exact List.mem_map_of_mem hcheck
  · intro h
    obtain ⟨category_id, check_id⟩ := identity
    cases hfind : OuterJoin.find Category.id report.categories category_id with
    | none =>
      rw [hfind] at h
      cases h
    | some category =>
      rw [hfind] at h
      obtain ⟨check, hcheck, rfl⟩ := List.mem_map.mp h
      obtain ⟨hkept, rfl⟩ := OuterJoin.find_eq_some.mp hfind
      exact List.mem_flatMap.mpr ⟨category, hkept, List.mem_map.mpr ⟨check, hcheck, rfl⟩⟩

theorem mem_map_deltas {before after : Report F} {identity : Identity} :
    identity ∈ (deltas ar before.categories after.categories).map Prod.fst ↔
      identity ∈ before.counted ∨ identity ∈ after.counted := by
  obtain ⟨category_id, check_id⟩ := identity
  rw [map_fst_deltas, mem_counted, mem_counted]
  constructor
  · intro h
    obtain ⟨id, -, hmem⟩ := List.mem_flatMap.mp h
    obtain ⟨check, hcheck, hsame⟩ := List.mem_map.mp hmem
    obtain ⟨rfl, rfl⟩ := Prod.mk.inj hsame
    exact OuterJoin.mem_keys.mp hcheck
  · intro h
    have hcategory : category_id ∈ OuterJoin.keys Category.id before.categories after.categories := by
      by_contra hnone
      rw [OuterJoin.mem_keys, not_or, ← OuterJoin.find_eq_none, ← OuterJoin.find_eq_none] at hnone
      rw [hnone.1, hnone.2] at h
      rcases h with h | h
      · cases h
      · cases h
    exact List.mem_flatMap.mpr ⟨category_id, hcategory,
      List.mem_map_of_mem (OuterJoin.mem_keys.mpr h)⟩

/-- Every check that is counted, once, with what became of it. -/
theorem countP_deltas (before after : Report F) (v : Verdict) :
    ((deltas ar before.categories after.categories).map Prod.snd).countP
        (fun d => verdictOf ar d = v) =
      ((before.counted ++ after.counted).toFinset.filter
        fun identity => verdict ar before after identity = v).card := by
  have hverdict : ∀ found ∈ deltas ar before.categories after.categories,
      verdictOf ar found.2 = verdict ar before after found.1 := by
    intro found hfound
    rw [mem_deltas hfound, verdict]
  have hset : ((before.counted ++ after.counted).toFinset.filter
      fun identity => verdict ar before after identity = v) =
      (((deltas ar before.categories after.categories).map Prod.fst).filter
        fun identity => verdict ar before after identity = v).toFinset := by
    ext identity
    simp only [Finset.mem_filter, List.mem_toFinset, List.mem_append, List.mem_filter,
      decide_eq_true_eq]
    rw [@mem_map_deltas F ar]
  rw [hset, List.toFinset_card_of_nodup ((nodup_deltas _ _).filter _), ← List.countP_eq_length_filter,
    List.countP_map, List.countP_map]
  refine List.countP_congr fun found hfound => ?_
  simp [hverdict found hfound]

/-! ## The laws -/

theorem compareReports_counts (before after : Report F) :
    (compareReports ar before after).improved = ((before.counted ++ after.counted).toFinset.filter
        fun identity => verdict ar before after identity = .improved).card ∧
      (compareReports ar before after).regressed =
        ((before.counted ++ after.counted).toFinset.filter
          fun identity => verdict ar before after identity = .regressed).card ∧
      (compareReports ar before after).unchanged =
        ((before.counted ++ after.counted).toFinset.filter
          fun identity => verdict ar before after identity = .unchanged).card := by
  have htally : (compareCategories ar before.categories after.categories).1 = _ :=
    congrArg Prod.fst (compareCategories_eq before.categories after.categories)
  rw [foldl_count, countP_deltas, countP_deltas, countP_deltas] at htally
  simp only [compareReports, htally, Nat.zero_add, and_self]

theorem card_verdicts (ids : Finset Identity) (f : Identity → Verdict) :
    (ids.filter (f · = .improved)).card + (ids.filter (f · = .regressed)).card +
      (ids.filter (f · = .unchanged)).card = ids.card := by
  have hcover : Set.MapsTo f ids ({.improved, .regressed, .unchanged} : Finset Verdict) := by
    intro identity _
    cases f identity with
    | improved => decide
    | regressed => decide
    | unchanged => decide
  rw [Finset.card_eq_sum_card_fiberwise hcover, Finset.sum_insert (by decide),
    Finset.sum_insert (by decide), Finset.sum_singleton, Nat.add_assoc]

/-! ## The other way round -/

theorem delta_swap (old new : Option (Check F)) : delta ar new old = ar.neg (delta ar old new) :=
  (ar.neg_sub _ _).symm

def Verdict.opposite : Verdict → Verdict
  | improved => regressed
  | regressed => improved
  | unchanged => unchanged

theorem Verdict.opposite_eq_iff {v v' : Verdict} : v.opposite = v' ↔ v = v'.opposite := by
  cases v <;> cases v' <;> decide

theorem verdictOf_neg (d : F) : verdictOf ar (ar.neg d) = (verdictOf ar d).opposite := by
  unfold verdictOf
  rw [ar.positive_neg, ar.negative_neg]
  by_cases hpos : ar.positive d = true
  · rw [if_neg (by simp [ar.not_negative d hpos]), if_pos hpos, if_pos hpos]
    rfl
  · rw [if_neg hpos, if_neg hpos]
    split
    · rfl
    · rfl

theorem verdict_swap (before after : Report F) (identity : Identity) :
    verdict ar after before identity = (verdict ar before after identity).opposite := by
  rw [verdict, delta_swap, verdictOf_neg]
  rfl

theorem checkChange_mirrors (check_id : String) (old new : Option (Check F)) :
    (checkChange ar check_id new old).Mirrors ar (checkChange ar check_id old new) where
  id := rfl
  before_status := rfl
  after_status := rfl
  before_points := rfl
  after_points := rfl
  points_delta := by
    simp only [checkChange]
    rw [delta_swap, ar.round_neg]

theorem forall₂_map_map {α β γ : Type} {R : β → γ → Prop} {f : α → β} {g : α → γ} (items : List α)
    (h : ∀ a, R (f a) (g a)) : List.Forall₂ R (items.map f) (items.map g) := by
  rw [List.forall₂_map_left_iff, List.forall₂_map_right_iff, List.forall₂_same]
  exact fun a _ => h a

theorem changesOf_mirrors (old_category new_category : Option (Category F)) :
    List.Forall₂ (CheckChange.Mirrors ar) (changesOf ar new_category old_category)
      (changesOf ar old_category new_category) := by
  unfold changesOf
  rw [OuterJoin.join_swap, List.map_map]
  exact forall₂_map_map _ fun entry => checkChange_mirrors entry.1 entry.2.1 entry.2.2

theorem categoryChange_mirrors (category_id : CategoryId)
    (old_category new_category : Option (Category F)) :
    (categoryChange category_id new_category old_category
        (changesOf ar new_category old_category)).Mirrors ar
      (categoryChange category_id old_category new_category
        (changesOf ar old_category new_category)) where
  id := rfl
  before_score := rfl
  after_score := rfl
  score_delta := by
    simp only [categoryChange]
    cases new_category.bind Category.score with
    | none => cases old_category.bind Category.score with
      | none => rfl
      | some old_score => rfl
    | some new_score => cases old_category.bind Category.score with
      | none => rfl
      | some old_score => simp
  check_changes := changesOf_mirrors old_category new_category

theorem compareReports_mirrors (before after : Report F) :
    (compareReports ar after before).Mirrors ar (compareReports ar before after) := by
  obtain ⟨himproved, hregressed, hunchanged⟩ := @compareReports_counts F ar before after
  obtain ⟨himproved', hregressed', hunchanged'⟩ := @compareReports_counts F ar after before
  have hids : (after.counted ++ before.counted).toFinset =
      (before.counted ++ after.counted).toFinset := by
    rw [List.toFinset_append, List.toFinset_append, Finset.union_comm]
  simp only [hids, verdict_swap before after, Verdict.opposite_eq_iff] at himproved' hregressed' hunchanged'
  have hcategories : ∀ first second : Report F, (compareReports ar first second).categories = _ :=
    fun first second => congrArg Prod.snd (compareCategories_eq first.categories second.categories)
  exact
    { before_report_id := rfl
      after_report_id := rfl
      before_score := rfl
      after_score := rfl
      score_delta := (neg_sub after.score before.score).symm
      improved := himproved'.trans hregressed.symm
      regressed := hregressed'.trans himproved.symm
      unchanged := hunchanged'.trans hunchanged.symm
      categories := by
        rw [hcategories, hcategories, OuterJoin.join_swap, List.map_map]
        exact forall₂_map_map _ fun entry =>
          categoryChange_mirrors entry.1 entry.2.1 entry.2.2 }

/-! ## The laws of `compare_reports` -/

end

def earlierReport : Report ℚ :=
  ⟨"1", 60, [⟨.content, "Content", some 50, [⟨"preheader", "Preheader", .warning, 1⟩]⟩]⟩

def laterReport : Report ℚ :=
  ⟨"2", 80, [⟨.content, "Content", some 90, [⟨"preheader", "Preheader", .pass, 3⟩,
    ⟨"link_hygiene", "Links", .info, 0⟩]⟩]⟩

/-- Two categories of one id, of which the first is not looked at. -/
def repeatedReport : Report ℚ :=
  ⟨"1", 60, [⟨.content, "Content", some 50, [⟨"preheader", "Preheader", .pass, 3⟩]⟩,
    ⟨.content, "Content", some 50, [⟨"link_hygiene", "Links", .pass, 3⟩]⟩]⟩

end MailCue.Backend.Deliverability
