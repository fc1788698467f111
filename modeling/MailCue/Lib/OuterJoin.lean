import Mathlib.Data.List.Dedup
import Mathlib.Data.List.Sort
import Mathlib.Tactic.Common

/-!
# Outer joins

What two lists of keyed items hold for each of their keys, in the order of the keys. Of
several items of one key the last stands for it, as in a dictionary that is filled from
the list.
-/
namespace MailCue.Lib.OuterJoin

variable {κ α : Type} [LinearOrder κ] (key : α → κ)

def find (items : List α) (k : κ) : Option α := items.reverse.find? fun a => key a = k

/-- The keys of both lists, each once. -/
def keys (before after : List α) : List κ :=
  ((before ++ after).map key).dedup.insertionSort (· ≤ ·)

def join (before after : List α) : List (κ × Option α × Option α) :=
  (keys key before after).map fun k => (k, find key before k, find key after k)

/-- The items that stand for their keys. -/
def kept : List α → List α
  | [] => []
  | a :: rest => if key a ∈ rest.map key then kept rest else a :: kept rest

variable {key}

/-- In a list without repeated keys every item stands for its key. -/
theorem kept_of_nodup {items : List α} (h : (items.map key).Nodup) : kept key items = items := by
  induction items with
  | nil => rfl
  | cons a rest ih =>
    rw [List.map_cons, List.nodup_cons] at h
    rw [kept, if_neg h.1, ih h.2]

theorem find_cons (a : α) (rest : List α) (k : κ) :
    find key (a :: rest) k = (find key rest k).or (if key a = k then some a else none) := by
  rw [find, List.reverse_cons, List.find?_append, List.find?_singleton]
  simp [find]

theorem find_eq_none {items : List α} {k : κ} : find key items k = none ↔ k ∉ items.map key := by
  simp [find]

theorem find_eq_some {items : List α} {k : κ} {a : α} :
    find key items k = some a ↔ a ∈ kept key items ∧ key a = k := by
  induction items with
  | nil => simp [find, kept]
  | cons b rest ih =>
    rw [find_cons, kept]
    by_cases hrepeated : key b ∈ rest.map key
    · rw [if_pos hrepeated, ← ih]
      cases hfind : find key rest k with
      | some c => simp
      | none =>
        have hother : key b ≠ k := by
          rintro rfl
          exact find_eq_none.mp hfind hrepeated
        simp [hother]
    · rw [if_neg hrepeated, List.mem_cons, or_and_right, ← ih]
      cases hfind : find key rest k with
      | none =>
        rw [Option.none_or]
        constructor
        · intro h
          obtain ⟨hkey, hsame⟩ := Option.ite_none_right_eq_some.mp h
          obtain rfl := Option.some.inj hsame
          exact .inl ⟨rfl, hkey⟩
        · rintro (⟨rfl, hkey⟩ | hnone)
          · rw [if_pos hkey]
          · cases hnone
      | some c =>
        have hother : key b ≠ k := by
          rintro rfl
          rw [find_eq_none.mpr hrepeated] at hfind
          cases hfind
        rw [Option.some_or]
        constructor
        · exact .inr
        · rintro (⟨rfl, hkey⟩ | h)
          · exact absurd hkey hother
          · exact h

theorem mem_keys {before after : List α} {k : κ} :
    k ∈ keys key before after ↔ k ∈ before.map key ∨ k ∈ after.map key := by
  simp [keys]

theorem nodup_keys (before after : List α) : (keys key before after).Nodup :=
  (List.perm_insertionSort _ _).nodup_iff.mpr (List.nodup_dedup _)

/-- The keys do not depend on which list comes first. -/
theorem keys_comm (before after : List α) : keys key after before = keys key before after := by
  have hperm : (keys key after before).Perm (keys key before after) := by
    rw [List.perm_ext_iff_of_nodup (nodup_keys _ _) (nodup_keys _ _)]
    intro k
    rw [mem_keys, mem_keys, or_comm]
  exact hperm.eq_of_pairwise' (List.pairwise_insertionSort _ _) (List.pairwise_insertionSort _ _)

theorem join_swap (before after : List α) :
    join key after before = (join key before after).map fun e => (e.1, e.2.2, e.2.1) := by
  rw [join, join, keys_comm, List.map_map]
  rfl

end MailCue.Lib.OuterJoin
