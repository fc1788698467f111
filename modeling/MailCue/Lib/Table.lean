import Mathlib.Data.List.Nodup
import Mathlib.Tactic.Common

/-!
# Keyed tables

Rows in a list, no two of one key. A row is inserted where its key is free, and put
in the place of the row of its key.
-/
namespace MailCue.Lib

structure Table {κ α : Type} (key : α → κ) where
  rows : List α
  nodup : (rows.map key).Nodup

namespace Table

variable {κ α : Type} {key : α → κ}

@[ext] theorem ext {t t' : Table key} (h : t.rows = t'.rows) : t = t' := by
  cases t
  cases t'
  cases h
  rfl

instance [DecidableEq α] : DecidableEq (Table key) := fun t t' =>
  decidable_of_iff (t.rows = t'.rows) ⟨ext, congrArg rows⟩

def empty : Table key := ⟨[], List.nodup_nil⟩

def filter (t : Table key) (keep : α → Bool) : Table key where
  rows := t.rows.filter keep
  nodup := t.nodup.sublist (List.filter_sublist.map key)

/-- Changes the rows and none of their keys. -/
def update (t : Table key) (f : α → α) (hf : ∀ row, key (f row) = key row) : Table key where
  rows := t.rows.map f
  nodup := by
    have hkeys : (t.rows.map f).map key = t.rows.map key := by
      rw [List.map_map]
      exact List.map_congr_left fun row _ => hf row
    rw [hkeys]
    exact t.nodup

theorem filter_congr {t : Table key} {keep pick : α → Bool}
    (h : ∀ row ∈ t.rows, keep row = pick row) : t.filter keep = t.filter pick :=
  ext (List.filter_congr h)

theorem filter_filter {t : Table key} {keep pick : α → Bool} :
    (t.filter pick).filter keep = t.filter fun row => keep row && pick row :=
  ext List.filter_filter

theorem filter_comm {t : Table key} {keep pick : α → Bool} : (t.filter pick).filter keep = (t.filter keep).filter pick := by
  rw [filter_filter, filter_filter]
  exact filter_congr fun row _ => Bool.and_comm _ _

theorem filter_update {t : Table key} {keep : α → Bool} {f : α → α} (hf : ∀ row, key (f row) = key row)
    (hkeep : ∀ row, keep (f row) = keep row) :
    (t.update f hf).filter keep = (t.filter keep).update f hf := by
  apply ext
  show (t.rows.map f).filter keep = (t.rows.filter keep).map f
  rw [List.filter_map]
  congr 1
  exact List.filter_congr fun row _ => hkeep row

/-- The one row of its key. -/
theorem filter_key_eq {t : Table key} {row : α} {pick : α → Bool} (hrow : row ∈ t.rows)
    (hpick : ∀ other ∈ t.rows, pick other = true ↔ key other = key row) :
    t.rows.filter pick = [row] := by
  obtain ⟨before, after, hsplit⟩ := List.append_of_mem hrow
  have hnodup := t.nodup
  rw [hsplit, List.map_append, List.map_cons, List.nodup_append] at hnodup
  obtain ⟨_, hafter, hbefore⟩ := hnodup
  have hpast {other : α} (hother : other ∈ t.rows) (hne : key other ≠ key row) : ¬ pick other = true :=
    fun h => hne ((hpick other hother).mp h)
  rw [hsplit, List.filter_append, List.filter_cons_of_pos ((hpick row hrow).mpr rfl),
    List.filter_eq_nil_iff.mpr, List.filter_eq_nil_iff.mpr]
  · rfl
  · intro other hother
    refine hpast (hsplit ▸ by simp [hother]) fun hkey => (List.nodup_cons.mp hafter).1 ?_
    exact List.mem_map.mpr ⟨other, hother, hkey⟩
  · intro other hother
    exact hpast (hsplit ▸ by simp [hother]) fun hkey =>
      hbefore _ (List.mem_map_of_mem hother) _ (List.mem_cons_self ..) hkey

theorem update_eq_self {t : Table key} {f : α → α} (hf : ∀ row, key (f row) = key row)
    (h : ∀ row ∈ t.rows, f row = row) : t.update f hf = t :=
  ext ((List.map_congr_left h).trans t.rows.map_id)

variable [DecidableEq κ]

def find (t : Table key) (k : κ) : Option α := t.rows.find? fun row => decide (key row = k)

/-- Fails where a row has the key already. -/
def insert (t : Table key) (row : α) : Option (Table key) :=
  if h : key row ∈ t.rows.map key then none
  else
    some ⟨t.rows ++ [row], by
      rw [List.map_append, List.map_singleton]
      exact List.nodup_append.mpr ⟨t.nodup, List.nodup_singleton _, fun a ha b hb hab =>
        h (List.mem_singleton.mp hb ▸ hab ▸ ha)⟩⟩

/-- A row of a free key. -/
def add (t : Table key) (row : α) (h : key row ∉ t.rows.map key) : Table key where
  rows := t.rows ++ [row]
  nodup := by
    rw [List.map_append, List.map_singleton]
    exact List.nodup_append.mpr ⟨t.nodup, List.nodup_singleton _, fun a ha b hb hab =>
      h (List.mem_singleton.mp hb ▸ hab ▸ ha)⟩

def replace (t : Table key) (row : α) : Table key where
  rows := t.rows.map fun old => if key old = key row then row else old
  nodup := by
    have hkeys : (t.rows.map fun old => if key old = key row then row else old).map key =
        t.rows.map key := by
      rw [List.map_map]
      refine List.map_congr_left fun old _ => ?_
      show key (if key old = key row then row else old) = key old
      split
      · next h => exact h.symm
      · rfl
    rw [hkeys]
    exact t.nodup

def erase (t : Table key) (k : κ) : Table key where
  rows := t.rows.filter fun row => decide (key row ≠ k)
  nodup := t.nodup.sublist (List.filter_sublist.map key)

/-- A row in the place of the one of its key, or at the end. -/
def put (t : Table key) (row : α) : Table key := (t.insert row).getD (t.replace row)

/-- A row of this key is among the picked ones. -/
def has (t : Table key) (pick : α → Bool) (k : κ) : Bool :=
  t.rows.any fun row => decide (key row = k) && pick row

theorem find_eq_some_iff {t : Table key} {k : κ} {row : α} :
    t.find k = some row ↔ row ∈ t.rows ∧ key row = k := by
  constructor
  · intro h
    exact ⟨List.mem_of_find?_eq_some h, by simpa using List.find?_some h⟩
  · intro ⟨hrow, hkey⟩
    cases hfind : t.find k with
    | none =>
      have hnot := List.find?_eq_none.mp hfind row hrow
      simp [hkey] at hnot
    | some found =>
      have hfound : key found = k := by simpa using List.find?_some hfind
      rw [List.inj_on_of_nodup_map t.nodup (List.mem_of_find?_eq_some hfind) hrow
        (hfound.trans hkey.symm)]

theorem find_insert {t t' : Table key} {row : α} (h : t.insert row = some t') (k : κ) :
    t'.find k = if k = key row then some row else t.find k := by
  unfold insert at h
  split at h
  · cases h
  · next hfree =>
    cases h
    ext r
    rw [find_eq_some_iff]
    split
    · next hk =>
      subst hk
      constructor
      · intro ⟨hr, hkey⟩
        rcases List.mem_append.mp hr with hold | hnew
        · exact absurd (hkey ▸ List.mem_map_of_mem hold) hfree
        · rw [List.mem_singleton.mp hnew]
      · intro hr
        cases hr
        exact ⟨by simp, rfl⟩
    · next hk =>
      rw [find_eq_some_iff]
      constructor
      · intro ⟨hr, hkey⟩
        rcases List.mem_append.mp hr with hold | hnew
        · exact ⟨hold, hkey⟩
        · rw [List.mem_singleton.mp hnew] at hkey
          exact absurd hkey.symm hk
      · intro ⟨hr, hkey⟩
        exact ⟨List.mem_append_left _ hr, hkey⟩

theorem find_replace {t : Table key} {row old : α} (h : t.find (key row) = some old) (k : κ) :
    (t.replace row).find k = if k = key row then some row else t.find k := by
  obtain ⟨hold, hkey⟩ := find_eq_some_iff.mp h
  ext r
  rw [find_eq_some_iff]
  split
  · next hk =>
    subst hk
    constructor
    · intro ⟨hr, hrow⟩
      obtain ⟨prior, -, rfl⟩ := List.mem_map.mp hr
      split at hrow
      · next hsame => rw [if_pos hsame]
      · next hother => exact absurd hrow hother
    · intro hr
      cases hr
      exact ⟨List.mem_map.mpr ⟨old, hold, if_pos hkey⟩, rfl⟩
  · next hk =>
    rw [find_eq_some_iff]
    constructor
    · intro ⟨hr, hrow⟩
      obtain ⟨prior, hprior, rfl⟩ := List.mem_map.mp hr
      split at hrow
      · exact absurd hrow.symm hk
      · next hother =>
        rw [if_neg hother]
        exact ⟨hprior, hrow⟩
    · intro ⟨hr, hrow⟩
      have hother : ¬ key r = key row := fun heq => hk (hrow.symm.trans heq)
      exact ⟨List.mem_map.mpr ⟨r, hr, if_neg hother⟩, hrow⟩

/-- Putting a row in its place changes something unless it stands there. -/
theorem replace_eq_self_iff {t : Table key} {row old : α} (h : t.find (key row) = some old) :
    t.replace row = t ↔ row = old := by
  constructor
  · intro hsame
    have hfound := find_replace h (key row)
    rw [hsame, h, if_pos rfl] at hfound
    exact (Option.some.inj hfound).symm
  · intro hrow
    subst hrow
    have hmem := (find_eq_some_iff.mp h).1
    ext1
    show (t.rows.map fun old => if key old = key row then row else old) = t.rows
    refine (List.map_congr_left fun r hr => ?_).trans t.rows.map_id
    split
    · next hkey => exact (List.inj_on_of_nodup_map t.nodup hr hmem hkey).symm
    · rfl

theorem mem_put {t : Table key} {row r : α} :
    r ∈ (t.put row).rows ↔ r = row ∨ r ∈ t.rows ∧ key r ≠ key row := by
  by_cases htaken : key row ∈ t.rows.map key
  · have hput : (t.put row).rows = t.rows.map fun old => if key old = key row then row else old := by
      rw [put, insert, dif_pos htaken]
      rfl
    rw [hput, List.mem_map]
    constructor
    · rintro ⟨old, hold, rfl⟩
      split
      · exact .inl rfl
      · exact .inr ⟨hold, ‹_›⟩
    · rintro (rfl | ⟨hr, hother⟩)
      · obtain ⟨old, hold, hkey⟩ := List.mem_map.mp htaken
        exact ⟨old, hold, if_pos hkey⟩
      · exact ⟨r, hr, if_neg hother⟩
  · have hput : (t.put row).rows = t.rows ++ [row] := by
      rw [put, insert, dif_neg htaken]
      rfl
    rw [hput, List.mem_append, List.mem_singleton]
    constructor
    · rintro (hr | rfl)
      · exact .inr ⟨hr, fun hkey => htaken (hkey ▸ List.mem_map_of_mem hr)⟩
      · exact .inl rfl
    · rintro (rfl | ⟨hr, -⟩)
      · exact .inr rfl
      · exact .inl hr

theorem mem_erase {t : Table key} {k : κ} {r : α} : r ∈ (t.erase k).rows ↔ r ∈ t.rows ∧ key r ≠ k := by
  simp [erase]

theorem mem_foldl_erase {t : Table key} {keys : List κ} {r : α} :
    r ∈ (keys.foldl erase t).rows ↔ r ∈ t.rows ∧ key r ∉ keys := by
  induction keys generalizing t with
  | nil => simp
  | cons k keys ih =>
    rw [List.foldl_cons, ih, mem_erase, List.mem_cons, not_or, and_assoc]

/-! ## Parts of a table -/

section

variable {t t' : Table key} {row : α} {keep pick pick' : α → Bool}

theorem has_iff {k : κ} : t.has pick k = true ↔ ∃ row ∈ t.rows, key row = k ∧ pick row = true := by
  simp [has]

theorem has_congr (h : ∀ row ∈ t.rows, pick row = pick' row) (k : κ) :
    t.has pick k = t.has pick' k := by
  rw [Bool.eq_iff_iff, has_iff, has_iff]
  constructor
  · intro ⟨row, hrow, hkey, hpick⟩
    exact ⟨row, hrow, hkey, (h row hrow).symm.trans hpick⟩
  · intro ⟨row, hrow, hkey, hpick⟩
    exact ⟨row, hrow, hkey, (h row hrow).trans hpick⟩

theorem has_filter (k : κ) : (t.filter keep).has pick k = t.has (fun row => keep row && pick row) k := by
  rw [Bool.eq_iff_iff, has_iff, has_iff]
  simp only [filter, List.mem_filter, Bool.and_eq_true]
  constructor
  · intro ⟨row, ⟨hrow, hkeep⟩, hkey, hpick⟩
    exact ⟨row, hrow, hkey, hkeep, hpick⟩
  · intro ⟨row, hrow, hkey, hkeep, hpick⟩
    exact ⟨row, ⟨hrow, hkeep⟩, hkey, hpick⟩

/-- The picked rows decide which keys have one. -/
theorem has_of_filter (h : t.filter pick = t'.filter pick) (k : κ) : t.has pick k = t'.has pick k := by
  have hself : ∀ t : Table key, t.has pick k = (t.filter pick).has (fun _ => true) k := by
    intro t
    simp [has_filter]
  rw [hself t, h, ← hself t']

omit [DecidableEq κ] in
/-- No picked row has the key. -/
theorem not_picked {k : κ} (h : ∀ row ∈ (t.filter pick).rows, key row ≠ k) (hrow : row ∈ t.rows)
    (hkey : key row = k) : pick row = false := by
  by_contra hpick
  exact h row (List.mem_filter.mpr ⟨hrow, by simpa using hpick⟩) hkey

theorem find_filter_not {k : κ} (h : ∀ row ∈ (t.filter pick).rows, key row ≠ k) :
    (t.filter fun row => !pick row).find k = t.find k := by
  ext row
  rw [find_eq_some_iff, find_eq_some_iff]
  constructor
  · intro ⟨hrow, hkey⟩
    exact ⟨List.mem_of_mem_filter hrow, hkey⟩
  · intro ⟨hrow, hkey⟩
    exact ⟨List.mem_filter.mpr ⟨hrow, by rw [not_picked h hrow hkey]; rfl⟩, hkey⟩

theorem insert_eq_some (h : t.insert row = some t') :
    t'.rows = t.rows ++ [row] ∧ key row ∉ t.rows.map key := by
  unfold insert at h
  split at h
  · cases h
  · next hfree =>
    cases h
    exact ⟨rfl, hfree⟩

/-- A row that is filtered out is not seen to come. -/
theorem filter_insert_of_not (h : t.insert row = some t') (hrow : keep row = false) :
    t'.filter keep = t.filter keep := by
  apply ext
  show t'.rows.filter keep = t.rows.filter keep
  rw [(insert_eq_some h).1, List.filter_append]
  simp [hrow]

/-- It comes in the same way without the picked rows, unless one of them has its key. -/
theorem insert_filter_not (hrow : pick row = false)
    (h : ∀ old ∈ (t.filter pick).rows, key old ≠ key row) :
    (t.filter fun old => !pick old).insert row =
      (t.insert row).map (·.filter fun old => !pick old) := by
  have hkeys : key row ∈ (t.filter fun old => !pick old).rows.map key ↔ key row ∈ t.rows.map key := by
    constructor
    · intro hmem
      exact (List.filter_sublist.map key).subset hmem
    · intro hmem
      obtain ⟨old, hold, hkey⟩ := List.mem_map.mp hmem
      have hkept : (!pick old) = true := by rw [not_picked h hold hkey]; rfl
      exact List.mem_map.mpr ⟨old, List.mem_filter.mpr ⟨hold, hkept⟩, hkey⟩
  unfold insert
  split
  · next htaken => rw [dif_pos (hkeys.mp htaken), Option.map_none]
  · next hnot =>
    rw [dif_neg fun htaken => hnot (hkeys.mpr htaken), Option.map_some]
    congr 1
    apply ext
    simp [filter, hrow]

theorem filter_replace_of_not (hrow : pick row = false)
    (h : ∀ old ∈ (t.filter pick).rows, key old ≠ key row) :
    (t.replace row).filter pick = t.filter pick := by
  have hold : ∀ old ∈ t.rows, key old = key row → pick old = false := fun old => not_picked h
  apply ext
  show (t.rows.map fun old => if key old = key row then row else old).filter pick =
    t.rows.filter pick
  generalize t.rows = rows at hold
  induction rows with
  | nil => rfl
  | cons first rest ih =>
    have hrest := ih fun old hmem => hold old (List.mem_cons_of_mem _ hmem)
    rw [List.map_cons]
    split
    · next hkey => simp [hrow, hold first List.mem_cons_self hkey, hrest]
    · rw [List.filter_cons, List.filter_cons, hrest]

theorem replace_filter_not (hrow : pick row = false)
    (h : ∀ old ∈ (t.filter pick).rows, key old ≠ key row) :
    (t.filter fun old => !pick old).replace row = (t.replace row).filter fun old => !pick old := by
  apply ext
  show (t.rows.filter fun old => !pick old).map _ = (t.rows.map _).filter fun old => !pick old
  rw [List.filter_map]
  congr 1
  refine List.filter_congr fun old hold => ?_
  rw [Function.comp_apply]
  split
  · next hkey => rw [hrow, not_picked h hold hkey]
  · rfl

/-- A pick that takes none of the kept rows away. -/
theorem has_filter_not (h : ∀ row ∈ (t.filter keep).rows, pick row = false) (k : κ) :
    (t.filter fun row => !keep row).has pick k = t.has pick k := by
  rw [has_filter]
  refine has_congr (fun row hrow => ?_) k
  cases hkeep : keep row with
  | false => rfl
  | true => rw [h row (List.mem_filter.mpr ⟨hrow, hkeep⟩)]; rfl

omit [DecidableEq κ] in
theorem filter_kept (h : ∀ row ∈ (t.filter keep).rows, pick row = false) :
    (t.filter fun row => !pick row).filter keep = t.filter keep := by
  rw [filter_filter]
  refine filter_congr fun row hrow => ?_
  cases hkeep : keep row with
  | false => rfl
  | true => rw [h row (List.mem_filter.mpr ⟨hrow, hkeep⟩)]; rfl

end

end Table

end MailCue.Lib
