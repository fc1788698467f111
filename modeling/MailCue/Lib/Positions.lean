import Mathlib.Data.List.Basic
import Mathlib.Data.List.Sort

/-!
# Elements at given positions

`pick` reads a list at a list of positions. What is picked depends on the
positions alone, so a permutation of them permutes it, and a list of pairs is
picked in one go for both of its columns.
-/
namespace MailCue.Lib.Positions
variable {α β : Type*}

def pick (items : List α) (positions : List Nat) : List α :=
  positions.filterMap fun position => items[position]?

theorem pick_append (items : List α) (front back : List Nat) :
    pick items (front ++ back) = pick items front ++ pick items back :=
  List.filterMap_append

theorem pick_map (f : α → β) (items : List α) (positions : List Nat) :
    pick (items.map f) positions = (pick items positions).map f := by
  simp [pick, List.map_filterMap]

theorem pick_perm (items : List α) {positions others : List Nat} (h : positions.Perm others) :
    (pick items positions).Perm (pick items others) :=
  h.filterMap _

theorem pick_range (items : List α) : pick items (List.range items.length) = items := by
  induction items with
  | nil => rfl
  | cons item items ih =>
    rw [List.length_cons, List.range_succ_eq_map, pick, List.filterMap_cons, List.filterMap_map]
    simpa [pick, Function.comp_def] using ih

theorem mem_pick {items : List α} {positions : List Nat} {position : Nat} {item : α}
    (hmem : position ∈ positions) (hat : items[position]? = some item) :
    item ∈ pick items positions :=
  List.mem_filterMap.mpr ⟨position, hmem, hat⟩

theorem length_pick {items : List α} {positions : List Nat}
    (hinside : ∀ position ∈ positions, position < items.length) :
    (pick items positions).length = positions.length := by
  induction positions with
  | nil => rfl
  | cons position positions ih =>
    have hat := List.getElem?_eq_getElem (hinside position List.mem_cons_self)
    have hrest := ih fun other hmem => hinside other (List.mem_cons_of_mem _ hmem)
    rw [pick, List.filterMap_cons_some hat, List.length_cons, List.length_cons]
    exact congrArg (· + 1) hrest

/-- Entries that carry the position they stand at are what is picked at these. -/
theorem pick_tags {items : List α} {tagged : List (α × Nat)}
    (htags : ∀ entry ∈ tagged, items[entry.2]? = some entry.1) :
    pick items (tagged.map (·.2)) = tagged.map (·.1) := by
  induction tagged with
  | nil => rfl
  | cons entry tagged ih =>
    have hat := htags entry List.mem_cons_self
    have hrest := ih fun other hmem => htags other (List.mem_cons_of_mem _ hmem)
    rw [List.map_cons, List.map_cons, pick, List.filterMap_cons_some hat]
    exact congrArg (entry.1 :: ·) hrest

theorem pick_filter_range (items : List α) (p : Nat → Bool) :
    pick items ((List.range items.length).filter p) =
      (items.zipIdx.filter fun entry => p entry.2).map (·.1) := by
  have htags : ∀ entry ∈ items.zipIdx.filter fun entry => p entry.2,
      items[entry.2]? = some entry.1 := by
    intro entry hmem
    exact List.mem_zipIdx_iff_getElem?.mp (List.mem_of_mem_filter hmem)
  rw [← pick_tags htags]
  congr 1
  rw [List.range_eq_range', ← List.zipIdx_map_snd 0 items, List.filter_map]
  rfl

end MailCue.Lib.Positions
