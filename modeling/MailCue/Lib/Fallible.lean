import Mathlib.Tactic.Common

/-!
# Computations that may fail

What the parts of a computation gave, where the whole of it has not failed; and computations
that do not fail under a condition, and under no other.
-/
namespace MailCue.Lib

variable {ε α β : Type} {x : Except ε α} {value : β}

theorem ok_of_bind {next : α → Except ε β} (h : (x >>= next) = .ok value) :
    ∃ a, x = .ok a ∧ next a = .ok value := by
  cases x with
  | error e => cases h
  | ok a => exact ⟨a, rfl, h⟩

theorem ok_of_map {f : α → β} (h : x.map f = .ok value) : ∃ a, x = .ok a ∧ f a = value := by
  cases x with
  | error e => cases h
  | ok a =>
    cases h
    exact ⟨a, rfl, rfl⟩

/-! ## Success -/

def Succeeds (x : Except ε α) : Prop := ∃ a, x = .ok a

@[simp]
theorem succeeds_ok (a : α) : Succeeds (.ok a : Except ε α) := ⟨a, rfl⟩

@[simp]
theorem succeeds_pure (a : α) : Succeeds (pure a : Except ε α) := ⟨a, rfl⟩

@[simp]
theorem not_succeeds_error (e : ε) : ¬ Succeeds (.error e : Except ε α) := nofun

theorem succeeds_bind {next : α → Except ε β} :
    Succeeds (x >>= next) ↔ ∃ a, x = .ok a ∧ Succeeds (next a) := by
  constructor
  · rintro ⟨b, hb⟩
    obtain ⟨a, hx, hnext⟩ := ok_of_bind hb
    exact ⟨a, hx, b, hnext⟩
  · rintro ⟨a, rfl, hnext⟩
    exact hnext

/-- What follows does not depend on the value. -/
theorem succeeds_bind_of_forall {next : α → Except ε β} {p : Prop}
    (hnext : ∀ a, Succeeds (next a) ↔ p) : Succeeds (x >>= next) ↔ Succeeds x ∧ p := by
  rw [succeeds_bind]
  constructor
  · rintro ⟨a, hx, ha⟩
    exact ⟨⟨a, hx⟩, (hnext a).mp ha⟩
  · rintro ⟨⟨a, hx⟩, hp⟩
    exact ⟨a, hx, (hnext a).mpr hp⟩

theorem succeeds_mapM {f : α → Except ε β} {items : List α} :
    Succeeds (items.mapM f) ↔ ∀ a ∈ items, Succeeds (f a) := by
  induction items with
  | nil => simp
  | cons a rest ih =>
    have hcons : Succeeds ((a :: rest).mapM f) ↔ Succeeds (f a) ∧ Succeeds (rest.mapM f) := by
      rw [List.mapM_cons, succeeds_bind_of_forall fun b => ?_]
      rw [succeeds_bind_of_forall fun bs => iff_true_intro (succeeds_pure _), and_true]
    rw [hcons, ih, List.forall_mem_cons]

/-! ## Success under a condition -/

/-- The computation gives the value where the condition holds, and fails elsewhere. -/
structure GivesWhen (condition : Prop) (x : Except ε α) (a : α) : Prop where
  gives : condition → x = .ok a
  condition_of : Succeeds x → condition

namespace GivesWhen

variable {p q : Prop} {a : α}

theorem pure (a : α) : GivesWhen True (Pure.pure a : Except ε α) a :=
  ⟨fun _ => rfl, fun _ => trivial⟩

theorem succeeds_bind {next : α → Except ε β} (h : GivesWhen p x a) :
    Succeeds (x >>= next) ↔ p ∧ Succeeds (next a) := by
  rw [Lib.succeeds_bind]
  constructor
  · rintro ⟨b, hx, hnext⟩
    have hp := h.condition_of ⟨b, hx⟩
    rw [h.gives hp] at hx
    cases hx
    exact ⟨hp, hnext⟩
  · rintro ⟨hp, hnext⟩
    exact ⟨a, h.gives hp, hnext⟩

theorem map {f : α → β} (h : GivesWhen p x a) :
    GivesWhen p (x >>= fun value => Pure.pure (f value)) (f a) where
  gives hp := by rw [h.gives hp]; rfl
  condition_of hx := (h.succeeds_bind.mp hx).1

theorem mapM {f : α → Except ε β} {g : α → β} {condition : α → Prop} (items : List α)
    (h : ∀ a, GivesWhen (condition a) (f a) (g a)) :
    GivesWhen (∀ a ∈ items, condition a) (items.mapM f) (items.map g) where
  gives hp := by
    induction items with
    | nil => rfl
    | cons a rest ih =>
      rw [List.forall_mem_cons] at hp
      rw [List.mapM_cons, (h a).gives hp.1, ih hp.2]
      rfl
  condition_of hx a ha := (h a).condition_of (succeeds_mapM.mp hx a ha)

end GivesWhen

end MailCue.Lib
