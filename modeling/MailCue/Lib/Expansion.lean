import Mathlib

/-!
# Expansions

What a value leads to, what that leads to, and so on. A weight is summed over all of it,
where every step is defined and there is an end; a value that is led to twice counts twice.
-/
namespace MailCue.Lib.Expansion

variable {α : Type} (next : α → Option (List α))

/-- The sum over so many generations. -/
def total (weight : α → Nat) : Nat → α → Option Nat
  | 0, _ => none
  | fuel + 1, a => do
    let below ← (← next a).mapM (total weight fuel)
    return weight a + below.sum

/-- The sum over the whole expansion. -/
def Sum (weight : α → Nat) (a : α) (n : Nat) : Prop := ∃ fuel, total next weight fuel a = some n

variable {next} {weight : α → Nat} {a : α}

theorem total_succ {fuel n : Nat} : total next weight (fuel + 1) a = some n ↔
    ∃ bs below, next a = some bs ∧ bs.mapM (total next weight fuel) = some below ∧
      n = weight a + below.sum := by
  rw [total, Option.bind_eq_bind, Option.bind_eq_some_iff]
  constructor
  · rintro ⟨bs, hbs, h⟩
    obtain ⟨below, hbelow, h⟩ := Option.bind_eq_some_iff.mp h
    exact ⟨bs, below, hbs, hbelow, (Option.some.inj h).symm⟩
  · rintro ⟨bs, below, hbs, hbelow, rfl⟩
    exact ⟨bs, hbs, by rw [hbelow]; rfl⟩

theorem mapM_some_iff {β : Type} {f : α → Option β} {items : List α} {found : List β} :
    items.mapM f = some found ↔ List.Forall₂ (fun a b => f a = some b) items found := by
  induction items generalizing found with
  | nil =>
    rw [List.forall₂_nil_left_iff]
    exact ⟨fun h => (Option.some.inj h).symm, fun h => h ▸ rfl⟩
  | cons item items ih =>
    rw [List.mapM_cons, Option.bind_eq_bind, Option.bind_eq_some_iff, List.forall₂_cons_left_iff]
    constructor
    · rintro ⟨b, hb, h⟩
      obtain ⟨rest, hrest, h⟩ := Option.bind_eq_some_iff.mp h
      exact ⟨b, rest, hb, ih.mp hrest, (Option.some.inj h).symm⟩
    · rintro ⟨b, rest, hb, hrest, rfl⟩
      exact ⟨b, hb, by rw [ih.mpr hrest]; rfl⟩

/-- Related by way of a list in between. -/
theorem forall₂_comp {β γ : Type} {R : α → β → Prop} {S : β → γ → Prop} {as : List α}
    {cs : List γ} : (∃ bs, List.Forall₂ R as bs ∧ List.Forall₂ S bs cs) ↔
      List.Forall₂ (fun a c => ∃ b, R a b ∧ S b c) as cs := by
  constructor
  · rintro ⟨bs, hR, hS⟩
    induction hR generalizing cs with
    | nil =>
      obtain rfl := List.forall₂_nil_left_iff.mp hS
      exact .nil
    | cons hab hrest ih =>
      obtain ⟨c, cs, hbc, hrest, rfl⟩ := List.forall₂_cons_left_iff.mp hS
      exact .cons ⟨_, hab, hbc⟩ (ih hrest)
  · intro h
    induction h with
    | nil => exact ⟨[], .nil, .nil⟩
    | cons hac hrest ih =>
      obtain ⟨b, hab, hbc⟩ := hac
      obtain ⟨bs, hR, hS⟩ := ih
      exact ⟨b :: bs, .cons hab hR, .cons hbc hS⟩

theorem of_forall₂_append {β : Type} {R : α → β → Prop} {front back : List α} {bs : List β}
    (h : List.Forall₂ R (front ++ back) bs) :
    ∃ bs₁ bs₂, List.Forall₂ R front bs₁ ∧ List.Forall₂ R back bs₂ ∧ bs = bs₁ ++ bs₂ := by
  induction front generalizing bs with
  | nil => exact ⟨[], bs, .nil, h, rfl⟩
  | cons a front ih =>
    obtain ⟨b, rest, hab, hrest, rfl⟩ := List.forall₂_cons_left_iff.mp h
    obtain ⟨bs₁, bs₂, hfront, hback, rfl⟩ := ih hrest
    exact ⟨b :: bs₁, bs₂, .cons hab hfront, hback, rfl⟩

/-- More generations than there are change nothing. -/
theorem total_mono {fuel more n : Nat} (hle : fuel ≤ more)
    (h : total next weight fuel a = some n) : total next weight more a = some n := by
  induction fuel generalizing a more n with
  | zero => cases h
  | succ fuel ih =>
    obtain ⟨more, rfl⟩ := Nat.exists_eq_succ_of_ne_zero (by omega : more ≠ 0)
    obtain ⟨bs, below, hbs, hbelow, rfl⟩ := total_succ.mp h
    refine total_succ.mpr ⟨bs, below, hbs, ?_, rfl⟩
    exact mapM_some_iff.mpr ((mapM_some_iff.mp hbelow).imp fun b m hm => ih (by omega) hm)

theorem Sum.unique {n m : Nat} (h : Sum next weight a n) (h' : Sum next weight a m) : n = m := by
  obtain ⟨fuel, hn⟩ := h
  obtain ⟨fuel', hm⟩ := h'
  have hn' := total_mono (Nat.le_max_left fuel fuel') hn
  have hm' := total_mono (Nat.le_max_right fuel fuel') hm
  exact Option.some.inj (hn'.symm.trans hm')

/-- Sums that are there are there after some common number of generations. -/
theorem exists_fuel {bs : List α} {below : List Nat} (h : List.Forall₂ (Sum next weight) bs below) :
    ∃ fuel, bs.mapM (total next weight fuel) = some below := by
  induction h with
  | nil => exact ⟨0, rfl⟩
  | @cons b n bs below hb hbelow ih =>
    obtain ⟨fuel, hn⟩ := hb
    obtain ⟨fuel', hrest⟩ := ih
    refine ⟨max fuel fuel', mapM_some_iff.mpr (.cons (total_mono (Nat.le_max_left _ _) hn) ?_)⟩
    exact (mapM_some_iff.mp hrest).imp fun c m hm => total_mono (Nat.le_max_right _ _) hm

/-- A sum is the weight of the value and the sums below it. -/
theorem sum_iff {n : Nat} : Sum next weight a n ↔
    ∃ bs below, next a = some bs ∧ List.Forall₂ (Sum next weight) bs below ∧
      n = weight a + below.sum := by
  constructor
  · rintro ⟨fuel, h⟩
    cases fuel with
    | zero => cases h
    | succ fuel =>
      obtain ⟨bs, below, hbs, hbelow, hn⟩ := total_succ.mp h
      exact ⟨bs, below, hbs, (mapM_some_iff.mp hbelow).imp fun b m hm => ⟨fuel, hm⟩, hn⟩
  · rintro ⟨bs, below, hbs, hbelow, hn⟩
    obtain ⟨fuel, hfuel⟩ := exists_fuel hbelow
    exact ⟨fuel + 1, total_succ.mpr ⟨bs, below, hbs, hfuel, hn⟩⟩

end MailCue.Lib.Expansion
