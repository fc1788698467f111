import Mathlib.Data.List.NodupEquivFin
import Mathlib.Tactic.Linarith
import MailCue.Lib.Positions
import MailCue.Lib.Rounding

/-!
# The sample of a staged send

backend/app/emails/canary.py, choose_sample: the recipients in descending risk, a
sample at evenly spaced places of that order and the rest held behind it. Places
are exact where the source has floating point; the first and the last place are
the same there, since the step times its divisor is off by far less than a half.
-/
namespace MailCue.Backend.Emails.CanarySample
open MailCue.Lib MailCue.Lib.Positions MailCue.Lib.Rounding

section Definitions
variable {α : Type*}

/-- `sorted(.., reverse=True)`, which keeps the order of equal scores. -/
def byRisk (scored : List (α × ℚ)) : List (α × ℚ) :=
  scored.insertionSort fun a b => b.2 ≤ a.2

/-- `min(round(position * step), len(ordered) - 1)`. -/
def slot (count size position : Nat) : Nat :=
  let step : ℚ := ((count - 1 : Nat) : ℚ) / (size - 1 : Nat)
  (min (roundHalfEven (position * step)) (count - 1 : Nat)).toNat

def spread (count size : Nat) : List Nat :=
  if 1 < size then
    (List.range' 1 (size - 1)).foldl (fun picked position => picked.insert (slot count size position))
      [0]
  else [0]

/-- The `while` loop; what is left of the cursor's way is the list. -/
def fill (size : Nat) : List Nat → List Nat → List Nat
  | [], picked => picked
  | cursor :: cursors, picked =>
    if picked.length < size then fill size cursors (picked.insert cursor) else picked

def pickedIndices (count size : Nat) : List Nat :=
  fill size (List.range count) (spread count size)

def sampleCount (sample_size : Int) (count : Nat) : Nat :=
  (max 1 (min sample_size count)).toNat

def choose_sample (scored : List (α × ℚ)) (sample_size : Int) : List α × List α :=
  if scored.isEmpty then ([], [])
  else
    let ordered := byRisk scored
    let size := sampleCount sample_size ordered.length
    if ordered.length ≤ size then (ordered.map (·.1), [])
    else
      let picked := pickedIndices ordered.length size
      (pick (ordered.map (·.1)) (picked.insertionSort (· ≤ ·)),
        (ordered.zipIdx.filter fun entry => entry.2 ∉ picked).map (·.1.1))

end Definitions

/-! ## The places picked -/

theorem slot_le (count size position : Nat) : slot count size position ≤ count - 1 := by
  have hle : min (roundHalfEven ((position : ℚ) * (((count - 1 : Nat) : ℚ) / (size - 1 : Nat))))
      ((count - 1 : Nat) : Int) ≤ (count - 1 : Nat) := min_le_right _ _
  simp only [slot]
  omega

/-- The last slot is the last place. -/
theorem slot_last {count size : Nat} (hsize : 1 < size) :
    slot count size (size - 1) = count - 1 := by
  have hne : ((size - 1 : Nat) : ℚ) ≠ 0 := by
    rw [Nat.cast_ne_zero]
    omega
  have hplace : ((size - 1 : Nat) : ℚ) * (((count - 1 : Nat) : ℚ) / (size - 1 : Nat))
      = (count - 1 : Nat) := mul_div_cancel₀ _ hne
  simp only [slot]
  rw [hplace, roundHalfEven_natCast, min_self, Int.toNat_natCast]

/-- What every stage of the picking keeps. -/
structure Picking (count size : Nat) (picked : List Nat) : Prop where
  nodup : picked.Nodup
  inside : ∀ index ∈ picked, index < count
  short : picked.length ≤ size

theorem length_insert_le (picked : List Nat) (index : Nat) :
    (picked.insert index).length ≤ picked.length + 1 := by
  by_cases hmem : index ∈ picked
  · rw [List.length_insert_of_mem hmem]
    omega
  · rw [List.length_insert_of_not_mem hmem]

theorem Picking.insert {count size : Nat} {picked : List Nat} (h : Picking count size picked)
    {index : Nat} (hindex : index < count) :
    Picking count (size + 1) (picked.insert index) where
  nodup := h.nodup.insert
  inside other hmem := by
    rcases List.mem_insert_iff.mp hmem with heq | hold
    · omega
    · exact h.inside other hold
  short := by
    have hlength := length_insert_le picked index
    have hshort := h.short
    omega

/-- The slots taken up to a position. -/
def slotsUpTo (count size : Nat) (positions : List Nat) (picked : List Nat) : List Nat :=
  positions.foldl (fun picked position => picked.insert (slot count size position)) picked

theorem picking_slotsUpTo {count size : Nat} (hcount : 0 < count) (positions picked : List Nat)
    {bound : Nat} (h : Picking count bound picked) :
    Picking count (bound + positions.length) (slotsUpTo count size positions picked) := by
  induction positions generalizing picked bound with
  | nil => exact h
  | cons position positions ih =>
    have hslot : slot count size position < count := by
      have := slot_le count size position
      omega
    have hnext := ih (picked.insert (slot count size position)) (h.insert hslot)
    rw [List.length_cons, Nat.add_comm positions.length 1, ← Nat.add_assoc]
    exact hnext

theorem mem_slotsUpTo (count size : Nat) (positions picked : List Nat) {index : Nat}
    (h : index ∈ picked ∨ ∃ position ∈ positions, index = slot count size position) :
    index ∈ slotsUpTo count size positions picked := by
  induction positions generalizing picked with
  | nil => simpa [slotsUpTo] using h
  | cons position positions ih =>
    apply ih
    rcases h with hold | ⟨other, hmem, heq⟩
    · exact Or.inl (List.mem_insert_of_mem hold)
    · rcases List.mem_cons.mp hmem with hfirst | hlater
      · subst hfirst
        exact Or.inl (heq ▸ List.mem_insert_self)
      · exact Or.inr ⟨other, hlater, heq⟩

theorem picking_spread {count size : Nat} (hcount : 0 < count) (hsize : 0 < size) :
    Picking count size (spread count size) := by
  have hfirst : Picking count 1 [0] := ⟨List.nodup_singleton 0, by simpa using hcount, by simp⟩
  unfold spread
  split
  · have hall : Picking count (1 + (List.range' 1 (size - 1)).length)
        (slotsUpTo count size (List.range' 1 (size - 1)) [0]) :=
      picking_slotsUpTo hcount _ [0] hfirst
    rw [List.length_range', show 1 + (size - 1) = size by omega] at hall
    exact hall
  · exact ⟨hfirst.nodup, hfirst.inside, hsize⟩

theorem zero_mem_spread (count size : Nat) : 0 ∈ spread count size := by
  unfold spread
  split
  · exact mem_slotsUpTo count size _ [0] (Or.inl (by simp))
  · simp

theorem last_mem_spread {count size : Nat} (hsize : 1 < size) :
    count - 1 ∈ spread count size := by
  rw [spread, if_pos hsize]
  apply mem_slotsUpTo count size _ [0]
  right
  refine ⟨size - 1, ?_, (slot_last hsize).symm⟩
  rw [List.mem_range'_1]
  omega

theorem mem_fill (size : Nat) (cursors picked : List Nat) {index : Nat} (h : index ∈ picked) :
    index ∈ fill size cursors picked := by
  induction cursors generalizing picked with
  | nil => exact h
  | cons cursor cursors ih =>
    rw [fill]
    split
    · exact ih _ (List.mem_insert_of_mem h)
    · exact h

theorem picking_fill {count size : Nat} (cursors picked : List Nat)
    (hcursors : ∀ cursor ∈ cursors, cursor < count) (h : Picking count size picked) :
    Picking count size (fill size cursors picked) := by
  induction cursors generalizing picked with
  | nil => exact h
  | cons cursor cursors ih =>
    rw [fill]
    split
    · next hroom =>
      apply ih _ (fun other hmem => hcursors other (List.mem_cons_of_mem _ hmem))
      have hlength := length_insert_le picked cursor
      have hnext := h.insert (hcursors cursor List.mem_cons_self)
      exact ⟨hnext.nodup, hnext.inside, by omega⟩
    · exact h

/-- The loop stops at the size, or has added every place. -/
theorem fill_full (size : Nat) (cursors picked : List Nat) :
    size ≤ (fill size cursors picked).length ∨
      ∀ cursor ∈ cursors, cursor ∈ fill size cursors picked := by
  induction cursors generalizing picked with
  | nil => simp
  | cons cursor cursors ih =>
    rw [fill]
    split
    · rcases ih (picked.insert cursor) with hfull | hall
      · exact Or.inl hfull
      · right
        intro other hmem
        rcases List.mem_cons.mp hmem with heq | hlater
        · subst heq
          exact mem_fill size cursors _ List.mem_insert_self
        · exact hall other hlater
    · left
      omega

theorem picking_pickedIndices {count size : Nat} (hcount : 0 < count) (hsize : 0 < size) :
    Picking count size (pickedIndices count size) :=
  picking_fill _ _ (fun _ hmem => List.mem_range.mp hmem) (picking_spread hcount hsize)

theorem length_pickedIndices {count size : Nat} (hsize : 0 < size) (hle : size ≤ count) :
    (pickedIndices count size).length = size := by
  have hpicking := picking_pickedIndices (by omega : 0 < count) hsize
  rcases fill_full size (List.range count) (spread count size) with hfull | hall
  · exact Nat.le_antisymm hpicking.short hfull
  · have hsub := (List.nodup_range (n := count)).subperm hall
    have hlength := hsub.length_le
    rw [List.length_range] at hlength
    have hshort := hpicking.short
    exact Nat.le_antisymm hshort (hle.trans hlength)

/-! ## The indexes behind the places -/

section Indexes
variable {α : Type*}

/-- The order of the source with the index each entry has in the input. -/
def tagged (scored : List (α × ℚ)) : List ((α × ℚ) × Nat) :=
  scored.zipIdx.insertionSort fun a b => b.1.2 ≤ a.1.2

def indexesAt (scored : List (α × ℚ)) (places : List Nat) : List Nat :=
  pick ((tagged scored).map (·.2)) places

theorem tagged_map_fst (scored : List (α × ℚ)) :
    (tagged scored).map (·.1) = byRisk scored := by
  have hmap := List.map_insertionSort (r := fun a b : (α × ℚ) × Nat => b.1.2 ≤ a.1.2)
    (s := fun a b : α × ℚ => b.2 ≤ a.2) (fun entry => entry.1) scored.zipIdx
    (fun _ _ _ _ => Iff.rfl)
  rw [tagged, hmap, List.zipIdx_map_fst, byRisk]

theorem getElem?_of_mem_tagged {scored : List (α × ℚ)} {entry : (α × ℚ) × Nat}
    (hmem : entry ∈ tagged scored) : scored[entry.2]? = some entry.1 := by
  have hperm : (tagged scored).Perm scored.zipIdx := List.perm_insertionSort _ _
  exact List.mem_zipIdx_iff_getElem?.mp (hperm.mem_iff.mp hmem)

theorem indexes_perm (scored : List (α × ℚ)) :
    ((tagged scored).map (·.2)).Perm (List.range scored.length) := by
  have hperm : (tagged scored).Perm scored.zipIdx := List.perm_insertionSort _ _
  rw [List.range_eq_range', ← List.zipIdx_map_snd 0 scored]
  exact hperm.map _

theorem length_tagged (scored : List (α × ℚ)) : (tagged scored).length = scored.length := by
  rw [tagged, List.length_insertionSort, List.length_zipIdx]

theorem pick_indexesAt (scored : List (α × ℚ)) (places : List Nat) :
    pick scored (indexesAt scored places) = pick (byRisk scored) places := by
  rw [indexesAt, pick_map, pick_tags, ← pick_map, tagged_map_fst]
  intro entry hmem
  obtain ⟨place, _, hat⟩ := List.mem_filterMap.mp hmem
  exact getElem?_of_mem_tagged (List.mem_of_getElem? hat)

theorem pairwise_byRisk (scored : List (α × ℚ)) :
    (byRisk scored).Pairwise fun a b => b.2 ≤ a.2 := by
  have htotal : Std.Total fun a b : α × ℚ => b.2 ≤ a.2 := ⟨fun a b => le_total b.2 a.2⟩
  have htrans : IsTrans (α × ℚ) fun a b => b.2 ≤ a.2 := ⟨fun _ _ _ hab hbc => hbc.trans hab⟩
  exact List.pairwise_insertionSort _ scored

end Indexes

/-! ## The split -/

/-- The lists returned are the addresses at these input indexes. -/
structure SplitAt {α : Type*} (scored : List (α × ℚ)) (split : List α × List α)
    (sample held : List Nat) : Prop where
  partition : (sample ++ held).Perm (List.range scored.length)
  sample_eq : split.1 = pick (scored.map (·.1)) sample
  held_eq : split.2 = pick (scored.map (·.1)) held

/-- The places of the order that go into the sample. -/
def samplePlaces (sample_size : Int) (count : Nat) : List Nat :=
  let size := sampleCount sample_size count
  if count ≤ size then List.range count
  else (pickedIndices count size).insertionSort (· ≤ ·)

def heldPlaces (sample_size : Int) (count : Nat) : List Nat :=
  let size := sampleCount sample_size count
  if count ≤ size then []
  else (List.range count).filter fun index => index ∉ pickedIndices count size

theorem sampleCount_pos (sample_size : Int) (count : Nat) : 0 < sampleCount sample_size count := by
  unfold sampleCount
  omega

theorem sampleCount_le {count : Nat} (sample_size : Int) (hcount : 0 < count) :
    sampleCount sample_size count ≤ count := by
  unfold sampleCount
  omega

theorem mem_samplePlaces_of_picked {sample_size : Int} {count place : Nat} (hinside : place < count)
    (hpicked : place ∈ spread count (sampleCount sample_size count)) :
    place ∈ samplePlaces sample_size count := by
  simp only [samplePlaces]
  split
  · exact List.mem_range.mpr hinside
  · exact (List.mem_insertionSort _).mpr (mem_fill _ _ _ hpicked)

theorem places_partition {count : Nat} (sample_size : Int) (hcount : 0 < count) :
    (samplePlaces sample_size count ++ heldPlaces sample_size count).Perm (List.range count) := by
  simp only [samplePlaces, heldPlaces]
  split
  · simp
  · have hpicking := picking_pickedIndices hcount (sampleCount_pos sample_size count)
    let picked := pickedIndices count (sampleCount sample_size count)
    have hinside : picked.Perm ((List.range count).filter fun index => index ∈ picked) := by
      apply (List.perm_ext_iff_of_nodup hpicking.nodup (List.nodup_range.filter _)).mpr
      intro index
      rw [List.mem_filter, List.mem_range, decide_eq_true_iff]
      exact ⟨fun hmem => ⟨hpicking.inside index hmem, hmem⟩, fun hboth => hboth.2⟩
    have hsorted := (List.perm_insertionSort (· ≤ ·) picked).trans hinside
    have hsplit := List.filter_append_perm (fun index => decide (index ∈ picked)) (List.range count)
    simp only [← decide_not] at hsplit
    exact (hsorted.append_right _).trans hsplit

theorem length_samplePlaces {count : Nat} (sample_size : Int) (hcount : 0 < count) :
    (samplePlaces sample_size count).length = sampleCount sample_size count := by
  have hle := sampleCount_le sample_size hcount
  simp only [samplePlaces]
  split
  · rw [List.length_range]
    omega
  · rw [List.length_insertionSort]
    exact length_pickedIndices (sampleCount_pos sample_size count) hle

theorem choose_sample_eq {α : Type*} {scored : List (α × ℚ)} (hne : scored ≠ [])
    (sample_size : Int) :
    choose_sample scored sample_size =
      (pick ((byRisk scored).map (·.1)) (samplePlaces sample_size scored.length),
        pick ((byRisk scored).map (·.1)) (heldPlaces sample_size scored.length)) := by
  have hlength : (byRisk scored).length = scored.length := List.length_insertionSort _ _
  have hempty : scored.isEmpty = false := by simpa using hne
  simp only [choose_sample, hempty, samplePlaces, heldPlaces, hlength, Bool.false_eq_true, if_false]
  split
  · have hall : pick ((byRisk scored).map (·.1)) (List.range scored.length)
        = (byRisk scored).map (·.1) := by
      rw [← hlength, ← List.length_map (fun entry : α × ℚ => entry.1), pick_range]
    rw [hall]
    rfl
  · congr 1
    rw [← hlength, ← List.length_map (fun entry : α × ℚ => entry.1), pick_filter_range]
    simp [List.zipIdx_map, List.filter_map, Function.comp_def]

theorem choose_sample_splitAt {α : Type*} {scored : List (α × ℚ)} (hne : scored ≠ [])
    (sample_size : Int) :
    SplitAt scored (choose_sample scored sample_size)
      (indexesAt scored (samplePlaces sample_size scored.length))
      (indexesAt scored (heldPlaces sample_size scored.length)) where
  partition := by
    have hplaces := places_partition sample_size (List.length_pos_iff.mpr hne)
    have hall := pick_perm ((tagged scored).map (·.2)) hplaces
    have hrange := pick_range ((tagged scored).map (·.2))
    rw [List.length_map, length_tagged] at hrange
    rw [pick_append, hrange] at hall
    exact hall.trans (indexes_perm scored)
  sample_eq := by
    rw [choose_sample_eq hne]
    simp only [pick_map, pick_indexesAt]
  held_eq := by
    rw [choose_sample_eq hne]
    simp only [pick_map, pick_indexesAt]

/-- The index at a place of the order, with its score. -/
theorem exists_index_at {α : Type*} (scored : List (α × ℚ)) {place : Nat}
    (hinside : place < scored.length) {places : List Nat} (hmem : place ∈ places) :
    ∃ index ∈ indexesAt scored places, ∃ entry,
      scored[index]? = some entry ∧ (byRisk scored)[place]? = some entry := by
  have htagged : place < (tagged scored).length := by rwa [length_tagged]
  have hat := List.getElem?_eq_getElem htagged
  have hindex : ((tagged scored).map (·.2))[place]? = some (tagged scored)[place].2 := by
    rw [List.getElem?_map, hat]
    rfl
  have hordered : (byRisk scored)[place]? = some (tagged scored)[place].1 := by
    rw [← tagged_map_fst, List.getElem?_map, hat]
    rfl
  exact ⟨_, mem_pick hmem hindex, _, getElem?_of_mem_tagged (List.getElem_mem htagged), hordered⟩

theorem score_le_first {α : Type*} {scored : List (α × ℚ)} {first : α × ℚ}
    (hfirst : (byRisk scored)[0]? = some first) : ∀ entry ∈ scored, entry.2 ≤ first.2 := by
  intro entry hmem
  have hordered : entry ∈ byRisk scored := (List.mem_insertionSort _).mpr hmem
  have hsorted := pairwise_byRisk scored
  cases hlist : byRisk scored with
  | nil => simp [hlist] at hordered
  | cons head rest =>
    rw [hlist] at hfirst hordered hsorted
    have heq : head = first := by simpa using hfirst
    subst heq
    rcases List.mem_cons.mp hordered with heq | hlater
    · rw [heq]
    · exact (List.pairwise_cons.mp hsorted).1 entry hlater

theorem last_le_score {α : Type*} {scored : List (α × ℚ)} {last : α × ℚ}
    (hlast : (byRisk scored)[scored.length - 1]? = some last) :
    ∀ entry ∈ scored, last.2 ≤ entry.2 := by
  intro entry hmem
  have hordered : entry ∈ byRisk scored := (List.mem_insertionSort _).mpr hmem
  have hlength : (byRisk scored).length = scored.length := List.length_insertionSort _ _
  obtain ⟨place, hinside, hat⟩ := List.mem_iff_getElem.mp hordered
  obtain ⟨hlastInside, hlastAt⟩ := List.getElem?_eq_some_iff.mp hlast
  have hsorted := List.pairwise_iff_getElem.mp (pairwise_byRisk scored)
  rcases Nat.lt_or_ge place (scored.length - 1) with hbefore | hat_end
  · have hle := hsorted place (scored.length - 1) hinside hlastInside hbefore
    rwa [hat, hlastAt] at hle
  · have hsame : place = scored.length - 1 := by omega
    subst hsame
    rw [← hat, hlastAt]

/-- The sample and the held part split the recipients, the sample has the size asked
for within one and all, and it holds a riskiest and, past one, a safest recipient. -/
theorem choose_sample_spans {α : Type*} (scored : List (α × ℚ)) (hne : scored ≠ [])
    (sample_size : Int) :
    ∃ sample held, SplitAt scored (choose_sample scored sample_size) sample held ∧
      (sample.length : Int) = max 1 (min sample_size scored.length) ∧
      (∃ index ∈ sample, ∃ riskiest, scored[index]? = some riskiest ∧
        ∀ entry ∈ scored, entry.2 ≤ riskiest.2) ∧
      (1 < sample.length → ∃ index ∈ sample, ∃ safest, scored[index]? = some safest ∧
        ∀ entry ∈ scored, safest.2 ≤ entry.2) := by
  have hcount : 0 < scored.length := List.length_pos_iff.mpr hne
  have hlength : (indexesAt scored (samplePlaces sample_size scored.length)).length
      = sampleCount sample_size scored.length := by
    have hinside : ∀ place ∈ samplePlaces sample_size scored.length,
        place < ((tagged scored).map (·.2)).length := by
      intro place hmem
      rw [List.length_map, length_tagged]
      have hrange := (places_partition sample_size hcount).mem_iff.mp
        (List.mem_append_left _ hmem)
      exact List.mem_range.mp hrange
    rw [indexesAt, length_pick hinside, length_samplePlaces sample_size hcount]
  refine ⟨_, _, choose_sample_splitAt hne sample_size, ?_, ?_, ?_⟩
  · rw [hlength, sampleCount]
    omega
  · have hzero : 0 ∈ samplePlaces sample_size scored.length :=
      mem_samplePlaces_of_picked hcount (zero_mem_spread _ _)
    obtain ⟨index, hmem, entry, hat, hfirst⟩ := exists_index_at scored hcount hzero
    exact ⟨index, hmem, entry, hat, score_le_first hfirst⟩
  · intro hmany
    rw [hlength] at hmany
    have hinside : scored.length - 1 < scored.length := by omega
    have hlast : scored.length - 1 ∈ samplePlaces sample_size scored.length :=
      mem_samplePlaces_of_picked hinside (last_mem_spread hmany)
    obtain ⟨index, hmem, entry, hat, hend⟩ := exists_index_at scored (by omega) hlast
    exact ⟨index, hmem, entry, hat, last_le_score hend⟩

/-- Two of three recipients, the safest and the riskiest. -/
theorem choose_sample_spans_three :
    ∃ sample held,
      SplitAt [("a@x.com", 1 / 10), ("b@x.com", 1 / 2), ("c@x.com", 3 / 10)]
        (choose_sample [("a@x.com", 1 / 10), ("b@x.com", 1 / 2), ("c@x.com", 3 / 10)] 2)
        sample held ∧ (sample.length : Int) = 2 := by
  obtain ⟨sample, held, hsplit, hlength, _⟩ := choose_sample_spans
    [("a@x.com", 1 / 10), ("b@x.com", 1 / 2), ("c@x.com", 3 / 10)] (by simp) 2
  exact ⟨sample, held, hsplit, by simpa using hlength⟩

example : choose_sample [("a@x.com", 1 / 10), ("b@x.com", 1 / 2), ("c@x.com", 3 / 10)] 2
    = (["b@x.com", "a@x.com"], ["c@x.com"]) := by decide +kernel

end MailCue.Backend.Emails.CanarySample
