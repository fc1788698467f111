import Mathlib.Data.List.Range
import Mathlib.Data.List.Sort
import Mathlib.Tactic.Common

/-!
# Pages of an ordered list

Rows in the order of a key that need not tell them apart. Each page may be cut from an
order of its own; the pages fit together where no key is found on both sides of a cut.
-/
namespace MailCue.Lib.Paging

variable {α β : Type} [LinearOrder β] (key : α → β)

def InOrder (rows : List α) : Prop := rows.Pairwise fun a b => key a ≤ key b

def slice (rows : List α) (limit k : Nat) : List α := (rows.drop (k * limit)).take limit

/-- No key is found on both sides of a cut. -/
def Untied (rows : List α) (limit : Nat) : Prop :=
  ∀ k t, rows.countP (fun a => key a < t) < k * limit →
    ¬ k * limit < rows.countP fun a => key a ≤ t

variable {key} {rows rows' : List α} {limit k : Nat}

theorem take_append_slice :
    rows.take (k * limit) ++ slice rows limit k = rows.take ((k + 1) * limit) := by
  rw [slice, Nat.add_mul, Nat.one_mul, List.take_add]

theorem slice_sublist : (slice rows limit k).Sublist rows :=
  (List.take_sublist _ _).trans (List.drop_sublist _ _)

theorem length_slice_le : (slice rows limit k).length ≤ limit := by
  simp [slice]

/-- What a place of the slice holds. -/
theorem mem_slice {front back : List α} {a : α} (hlow : k * limit ≤ front.length)
    (hhigh : front.length < (k + 1) * limit) : a ∈ slice (front ++ a :: back) limit k := by
  rw [slice, List.drop_append_of_le_length hlow, List.take_append]
  refine List.mem_append_right _ ?_
  have hplace : limit - (front.drop (k * limit)).length ≠ 0 := by
    rw [List.length_drop]
    rw [Nat.add_mul, Nat.one_mul] at hhigh
    omega
  obtain ⟨n, hn⟩ := Nat.exists_eq_succ_of_ne_zero hplace
  rw [hn, List.take_succ_cons]
  exact List.mem_cons_self

theorem Untied.of_perm (hperm : rows.Perm rows') (h : Untied key rows limit) :
    Untied key rows' limit := by
  intro k t hbelow
  rw [← hperm.countP_eq] at hbelow ⊢
  exact h k t hbelow

/-! ## What the keys say of a place -/

theorem InOrder.filter_lt (h : InOrder key rows) (t : β) :
    rows.filter (fun a => key a < t) = rows.take (rows.countP fun a => key a < t) := by
  induction rows with
  | nil => rfl
  | cons a rows ih =>
    obtain ⟨ha, hrows⟩ := List.pairwise_cons.mp h
    by_cases hlt : key a < t
    · rw [List.filter_cons_of_pos (by simpa using hlt),
        List.countP_cons_of_pos (by simpa using hlt), List.take_succ_cons, ih hrows]
    · have hnone : ∀ b ∈ a :: rows, ¬ decide (key b < t) = true := by
        simpa using ⟨not_lt.mp hlt, fun b hb => (not_lt.mp hlt).trans (ha b hb)⟩
      rw [List.countP_eq_zero.mpr hnone, List.take_zero, List.filter_eq_nil_iff.mpr hnone]

/-- Below the key of a place are the rows in front of it at most. -/
theorem InOrder.countP_lt_le (h : InOrder key rows) {i : Nat} (hi : i < rows.length) :
    (rows.countP fun a => key a < key rows[i]) ≤ i := by
  by_contra hcount
  have hmem : rows[i] ∈ rows.take (rows.countP fun a => key a < key rows[i]) :=
    List.mem_take_iff_getElem.mpr ⟨i, by omega, rfl⟩
  rw [← h.filter_lt] at hmem
  have hlt := (List.mem_filter.mp hmem).2
  simp at hlt

theorem InOrder.lt_countP_le (h : InOrder key rows) {i : Nat} (hi : i < rows.length) :
    i < rows.countP fun a => key a ≤ key rows[i] := by
  have hall : ∀ a ∈ rows.take (i + 1), key a ≤ key rows[i] := by
    intro a ha
    obtain ⟨j, hj, rfl⟩ := List.mem_take_iff_getElem.mp ha
    rcases Nat.lt_or_eq_of_le (show j ≤ i by omega) with hlt | rfl
    · exact List.pairwise_iff_getElem.mp h j i (by omega) hi hlt
    · exact le_rfl
  have hcount : (rows.take (i + 1)).countP (fun a => key a ≤ key rows[i]) = i + 1 := by
    rw [List.countP_eq_length.mpr (by simpa using hall), List.length_take]
    omega
  have hle := (List.take_sublist (i + 1) rows).countP_le (p := fun a => key a ≤ key rows[i])
  omega

/-! ## Pages of several orders -/

/-- Where no key is on both sides of the cuts, every order has the same rows in front of
one. -/
theorem InOrder.take_perm (h : InOrder key rows) (h' : InOrder key rows') (hperm : rows.Perm rows')
    (huntied : Untied key rows limit) (k : Nat) :
    (rows.take (k * limit)).Perm (rows'.take (k * limit)) := by
  by_cases hlen : k * limit < rows.length
  · have hcut : (rows.countP fun a => key a < key rows[k * limit]) = k * limit := by
      have hle := h.countP_lt_le hlen
      have hnlt := huntied k (key rows[k * limit])
      have hlt := h.lt_countP_le hlen
      omega
    have hfront := h.filter_lt (key rows[k * limit])
    have hfront' := h'.filter_lt (key rows[k * limit])
    rw [← hperm.countP_eq, hcut] at hfront'
    rw [hcut] at hfront
    rw [← hfront, ← hfront']
    exact hperm.filter _
  · have hlength := hperm.length_eq
    rw [List.take_of_length_le (by omega), List.take_of_length_le (by omega)]
    exact hperm

/-- So many pages, each of an order of its own, are the first rows of any order. -/
theorem pages_perm {answers : Nat → List α} (h : ∀ k, InOrder key (answers k))
    (hperm : ∀ k, (answers k).Perm rows) (huntied : Untied key rows limit) (pages m : Nat) :
    ((List.range pages).flatMap fun k => slice (answers k) limit k).Perm
      ((answers m).take (pages * limit)) := by
  induction pages generalizing m with
  | zero => simp
  | succ n ih =>
    rw [List.range_succ, List.flatMap_append, List.flatMap_singleton]
    refine ((ih n).append_right _).trans ?_
    rw [take_append_slice]
    exact (h n).take_perm (h m) ((hperm n).trans (hperm m).symm)
      (huntied.of_perm (hperm n).symm) (n + 1)

theorem pages_inOrder {answers : Nat → List α} (h : ∀ k, InOrder key (answers k))
    (hperm : ∀ k, (answers k).Perm rows) (huntied : Untied key rows limit) (pages : Nat) :
    InOrder key ((List.range pages).flatMap fun k => slice (answers k) limit k) := by
  induction pages with
  | zero => simp [InOrder]
  | succ n ih =>
    have hwhole := h n
    unfold InOrder at hwhole
    rw [← List.take_append_drop (n * limit) (answers n)] at hwhole
    obtain ⟨-, hlast, hacross⟩ := List.pairwise_append.mp hwhole
    rw [List.range_succ, List.flatMap_append, List.flatMap_singleton]
    refine List.pairwise_append.mpr ⟨ih, hlast.sublist (List.take_sublist _ _), ?_⟩
    intro a ha b hb
    exact hacross a ((pages_perm h hperm huntied n n).mem_iff.mp ha) b (List.mem_of_mem_take hb)

/-- Rows of one key on both sides of a cut can change their places. -/
theorem InOrder.exists_swap (h : InOrder key rows) {i : Nat} {t : β}
    (hlow : (rows.countP fun a => key a < t) < i) (hhigh : i < rows.countP fun a => key a ≤ t) :
    ∃ front a b back, rows = front ++ a :: b :: back ∧ front.length + 1 = i ∧
      InOrder key (front ++ b :: a :: back) := by
  have hlen : i < rows.length := Nat.lt_of_lt_of_le hhigh List.countP_le_length
  have hprev : i - 1 < rows.length := by omega
  have hb : key rows[i] ≤ t := by
    by_contra hlt
    have hle := h.countP_lt_le hlen
    have hmono : (rows.countP fun a => key a ≤ t) ≤ rows.countP fun a => key a < key rows[i] := by
      refine List.countP_mono_left fun a _ ha => ?_
      simpa using lt_of_le_of_lt (by simpa using ha) (not_le.mp hlt)
    omega
  have ha : t ≤ key rows[i - 1] := by
    by_contra hlt
    have hle := h.lt_countP_le hprev
    have hmono : (rows.countP fun a => key a ≤ key rows[i - 1]) ≤
        rows.countP fun a => key a < t := by
      refine List.countP_mono_left fun a _ ha => ?_
      simpa using lt_of_le_of_lt (by simpa using ha) (not_le.mp hlt)
    omega
  have hrows : rows = rows.take (i - 1) ++ rows[i - 1] :: rows[i] :: rows.drop (i + 1) := by
    have hsucc : i - 1 + 1 = i := by omega
    conv_lhs => rw [← List.take_append_drop (i - 1) rows, List.drop_eq_getElem_cons hprev]
    simp only [hsucc]
    rw [List.drop_eq_getElem_cons hlen]
  have hlength : (rows.take (i - 1)).length + 1 = i := by
    rw [List.length_take]
    omega
  refine ⟨_, _, _, _, hrows, hlength, ?_⟩
  unfold InOrder at h
  rw [hrows] at h
  obtain ⟨hfront, hback, hacross⟩ := List.pairwise_append.mp h
  obtain ⟨hfirst, hmore⟩ := List.pairwise_cons.mp hback
  obtain ⟨hsecond, hrest⟩ := List.pairwise_cons.mp hmore
  refine List.pairwise_append.mpr ⟨hfront, ?_, ?_⟩
  · refine List.pairwise_cons.mpr ⟨?_, List.pairwise_cons.mpr ⟨?_, hrest⟩⟩
    · intro c hc
      rcases List.mem_cons.mp hc with rfl | hc
      · exact hb.trans ha
      · exact hsecond c hc
    · exact fun c hc => hfirst c (List.mem_cons_of_mem _ hc)
  · intro c hc d hd
    exact hacross c hc d ((List.Perm.swap _ _ _).mem_iff.mp hd)

end MailCue.Lib.Paging
