import Mathlib
import MailCue.Tunnel.Sidecar.TunnelsFile

/-!
# The order in which tunnels are tried

`Selector::pick_all` of tunnel/crates/sidecar/src/selector.rs with its four strategies.
The generator of random numbers is the `rand` crate's: all the model knows of a draw is
that it lies in the range asked for. A `usize` has 64 bits.
-/
namespace MailCue.Tunnel.Sidecar.Registry.Selector
open MailCue.Lib

/-- `rng.random_range(0..bound)`, for the `k`-th draw of one call. -/
structure Rng where
  draw : Nat → Nat → Nat
  draw_lt : ∀ k bound, 0 < bound → draw k bound < bound

structure SelectorState where
  cursor : UInt64 := 0
  last_ids : Finset Text := ∅
  deriving DecidableEq

/-! ## The strategies -/

section Shuffle
variable {α : Type}

def swap (slice : List α) (i j : Nat) (hi : i < slice.length) (hj : j < slice.length) : List α :=
  (slice.set i slice[j]).set j slice[i]

/-- The steps of Fisher–Yates from index `i` down to 1; every index is in range. -/
def shuffleFrom (rng : Rng) : (i k : Nat) → (slice : List α) → i < slice.length → List α
  | 0, _, slice, _ => slice
  | i + 1, k, slice, hi =>
    have hj : rng.draw k (i + 2) < slice.length :=
      Nat.lt_of_lt_of_le (rng.draw_lt k (i + 2) (by omega)) hi
    shuffleFrom rng i (k + 1) (swap slice (i + 1) (rng.draw k (i + 2)) hi hj) (by
      simp only [swap, List.length_set]
      omega)

def shuffle (rng : Rng) (slice : List α) : List α :=
  if h : 0 < slice.length then shuffleFrom rng (slice.length - 1) 0 slice (by omega) else slice

end Shuffle

def uniform (rng : Rng) (candidates : List Tunnel) : Option Tunnel :=
  candidates[rng.draw 0 candidates.length]?

/-- The loop of `weighted`: the tunnel whose share of the total holds the roll. -/
def weightedFrom : Nat → List Tunnel → Option Tunnel
  | _, [] => none
  | roll, t :: rest =>
    if roll < max t.weight 1 then some t else weightedFrom (roll - max t.weight 1) rest

def weighted (rng : Rng) (candidates : List Tunnel) : Option Tunnel :=
  let total := (candidates.map fun t => max t.weight 1).sum
  if total = 0 then uniform rng candidates
  else (weightedFrom (rng.draw 0 total) candidates).or candidates.getLast?

def idsOf (view : TunnelsView) : Finset Text :=
  (view.tunnels.map Tunnel.id).toFinset

def roundRobin (state : SelectorState) (candidates : List Tunnel) (view : TunnelsView) :
    Option Tunnel × SelectorState :=
  let ids := idsOf view
  let state := if state.last_ids ≠ ids then { cursor := 0, last_ids := ids } else state
  (candidates[state.cursor.toNat % candidates.length]?,
    { state with cursor := state.cursor + 1 })

/-- The primary pick, then every candidate with another id. -/
def primaryFirst (primary : Option Tunnel) (candidates : List Tunnel) : List Tunnel :=
  primary.toList ++ candidates.filter fun t => some t.id ≠ primary.map Tunnel.id

def candidatesOf (view : TunnelsView) (healthy_ids : List Text) : List Tunnel :=
  view.tunnels.filter fun t => t.enabled && healthy_ids.contains t.id

def pickAll (state : SelectorState) (view : TunnelsView) (healthy_ids : List Text) (rng : Rng) :
    List Tunnel × SelectorState :=
  let candidates := candidatesOf view healthy_ids
  if candidates = [] then ([], state)
  else
    match view.selection with
    | .orderedFailover => (ordered candidates, state)
    | .roundRobin =>
      let (primary, state) := roundRobin state candidates view
      (primaryFirst primary candidates, state)
    | .random => (shuffle rng candidates, state)
    | .weightedRandom => (primaryFirst (weighted rng candidates) candidates, state)

/-- What one call of `pick_all` is given beside the selector's own state. -/
structure Call where
  view : TunnelsView
  healthy_ids : List Text
  rng : Rng

def Call.candidates (call : Call) : List Tunnel :=
  candidatesOf call.view call.healthy_ids

/-- The registry keeps one entry for each id. -/
def Call.DistinctIds (call : Call) : Prop :=
  (call.view.tunnels.map Tunnel.id).Nodup

/-- The answers to consecutive calls. -/
def picks : SelectorState → List Call → List (List Tunnel)
  | _, [] => []
  | state, call :: rest =>
    let (order, state) := pickAll state call.view call.healthy_ids call.rng
    order :: picks state rest

/-- The ordered strategy is the one the handover of the tunnels file is proved for. -/
theorem pickAll_orderedFailover (state : SelectorState) {view : TunnelsView}
    (healthy_ids : List Text) (rng : Rng) (h : view.selection = .orderedFailover) :
    (pickAll state view healthy_ids rng).1 = Registry.pickAll view healthy_ids := by
  unfold pickAll Registry.pickAll
  dsimp only
  split
  · rename_i hnil
    rw [candidatesOf] at hnil
    rw [hnil]
    exact (ordered_of_pairwise .nil).symm
  · rw [h]
    rfl

/-! ## Every candidate once -/

theorem swap_perm {α : Type} {slice : List α} {i j : Nat} (hi : i < slice.length)
    (hj : j < slice.length) : (swap slice i j hi hj).Perm slice :=
  List.set_set_perm hi hj

/-- No draw loses or repeats an entry. -/
theorem shuffleFrom_perm {α : Type} (rng : Rng) (i : Nat) :
    ∀ (k : Nat) (slice : List α) (hi : i < slice.length),
      (shuffleFrom rng i k slice hi).Perm slice := by
  induction i with
  | zero => exact fun _ slice _ => .refl slice
  | succ i ih =>
    intro k slice hi
    exact (ih (k + 1) _ _).trans (swap_perm _ _)

theorem shuffle_perm {α : Type} (rng : Rng) (slice : List α) :
    (shuffle rng slice).Perm slice := by
  unfold shuffle
  split
  · exact shuffleFrom_perm rng _ 0 slice _
  · exact .refl slice

theorem weightedFrom_mem {roll : Nat} {candidates : List Tunnel} {t : Tunnel}
    (h : weightedFrom roll candidates = some t) : t ∈ candidates := by
  induction candidates generalizing roll with
  | nil => cases h
  | cons head rest ih =>
    rw [weightedFrom] at h
    split at h
    · rw [← Option.some.inj h]
      exact List.mem_cons_self
    · exact List.mem_cons_of_mem head (ih h)

theorem mem_of_weighted {rng : Rng} {candidates : List Tunnel} {t : Tunnel}
    (h : weighted rng candidates = some t) : t ∈ candidates := by
  unfold weighted at h
  dsimp only at h
  split at h
  · exact List.mem_of_getElem? h
  · rcases Option.or_eq_some_iff.mp h with hroll | ⟨_, hlast⟩
    · exact weightedFrom_mem hroll
    · exact List.mem_of_getLast? hlast

/-- A roll within the total weight always finds its tunnel. -/
theorem weightedFrom_isSome {roll : Nat} {candidates : List Tunnel}
    (h : roll < (candidates.map fun t => max t.weight 1).sum) :
    (weightedFrom roll candidates).isSome := by
  induction candidates generalizing roll with
  | nil => exact absurd h (Nat.not_lt_zero roll)
  | cons head rest ih =>
    rw [weightedFrom]
    split
    · rfl
    · rw [List.map_cons, List.sum_cons] at h
      exact ih (by omega)

theorem weighted_isSome {rng : Rng} {candidates : List Tunnel} (h : candidates ≠ []) :
    ∃ t, weighted rng candidates = some t := by
  have htotal : 0 < (candidates.map fun t => max t.weight 1).sum := by
    cases candidates with
    | nil => exact absurd rfl h
    | cons head rest =>
      rw [List.map_cons, List.sum_cons]
      omega
  obtain ⟨t, ht⟩ := Option.isSome_iff_exists.mp (weightedFrom_isSome (rng.draw_lt 0 _ htotal))
  refine ⟨t, ?_⟩
  unfold weighted
  dsimp only
  rw [if_neg (by omega), ht]
  rfl

/-- Listing the primary first and dropping its id from the rest only moves it. -/
theorem primaryFirst_perm {candidates : List Tunnel} {t : Tunnel} (hmem : t ∈ candidates)
    (hids : (candidates.map Tunnel.id).Nodup) :
    (primaryFirst (some t) candidates).Perm candidates := by
  have hrest : candidates.filter (fun u => some u.id ≠ (some t).map Tunnel.id)
      = candidates.erase t := by
    rw [(List.Nodup.of_map _ hids).erase_eq_filter t]
    refine List.filter_congr fun u hu => ?_
    have hinj : u.id = t.id ↔ u = t :=
      ⟨fun hid => List.inj_on_of_nodup_map hids hu hmem hid, congrArg Tunnel.id⟩
    rw [Bool.eq_iff_iff]
    simp [hinj]
  rw [primaryFirst, hrest]
  exact (List.perm_cons_erase hmem).symm

theorem roundRobin_mem (state : SelectorState) {candidates : List Tunnel} (view : TunnelsView)
    (h : candidates ≠ []) : ∃ t ∈ candidates, (roundRobin state candidates view).1 = some t := by
  have hlt := Nat.mod_lt (if state.last_ids ≠ idsOf view then
    ({ cursor := 0, last_ids := idsOf view } : SelectorState) else state).cursor.toNat
      (List.length_pos_iff.mpr h)
  exact ⟨_, List.getElem_mem hlt, List.getElem?_eq_getElem hlt⟩

theorem candidatesOf_nodup {view : TunnelsView} (healthy_ids : List Text)
    (h : (view.tunnels.map Tunnel.id).Nodup) :
    ((candidatesOf view healthy_ids).map Tunnel.id).Nodup :=
  h.sublist (List.filter_sublist.map Tunnel.id)

/-- Whatever the strategy, the state and the draws, every candidate appears once. -/
theorem pickAll_perm (state : SelectorState) {view : TunnelsView} (healthy_ids : List Text)
    (rng : Rng) (h : (view.tunnels.map Tunnel.id).Nodup) :
    (pickAll state view healthy_ids rng).1.Perm (candidatesOf view healthy_ids) := by
  have hids := candidatesOf_nodup healthy_ids h
  unfold pickAll
  dsimp only
  split
  · rename_i hnil
    rw [hnil]
  · rename_i hne
    split
    · exact List.mergeSort_perm _ _
    · obtain ⟨t, hmem, ht⟩ := roundRobin_mem state view hne
      rw [ht]
      exact primaryFirst_perm hmem hids
    · exact shuffle_perm rng _
    · obtain ⟨t, ht⟩ := @weighted_isSome rng _ hne
      rw [ht]
      exact primaryFirst_perm (mem_of_weighted ht) hids

/-! ## Whose turn it is -/

/-- The cursor the next round-robin call over these ids indexes with. -/
def SelectorState.cursorFor (state : SelectorState) (ids : Finset Text) : UInt64 :=
  if state.last_ids = ids then state.cursor else 0

theorem roundRobin_eq (state : SelectorState) (candidates : List Tunnel) (view : TunnelsView) :
    roundRobin state candidates view =
      (candidates[(state.cursorFor (idsOf view)).toNat % candidates.length]?,
        { cursor := state.cursorFor (idsOf view) + 1, last_ids := idsOf view }) := by
  rcases state with ⟨cursor, last_ids⟩
  unfold roundRobin SelectorState.cursorFor
  by_cases h : last_ids = idsOf view
  · subst h
    simp
  · simp [h]

theorem pickAll_roundRobin (state : SelectorState) {view : TunnelsView} {healthy_ids : List Text}
    (rng : Rng) (hstrategy : view.selection = .roundRobin)
    (hne : candidatesOf view healthy_ids ≠ []) :
    (pickAll state view healthy_ids rng).1.head?
        = (candidatesOf view healthy_ids)[(state.cursorFor (idsOf view)).toNat
            % (candidatesOf view healthy_ids).length]? ∧
      (pickAll state view healthy_ids rng).2
        = { cursor := state.cursorFor (idsOf view) + 1, last_ids := idsOf view } := by
  obtain ⟨t, _, ht⟩ := roundRobin_mem state view hne
  have heq := roundRobin_eq state (candidatesOf view healthy_ids) view
  unfold pickAll
  dsimp only
  rw [if_neg hne, hstrategy]
  refine ⟨?_, congrArg Prod.snd heq⟩
  have hfirst := congrArg Prod.fst heq
  dsimp only at hfirst ⊢
  rw [← hfirst, ht]
  rfl

/-- The tunnels consecutive calls put first: the cursor walks the candidates. -/
theorem picks_heads {candidates : List Tunnel} {ids : Finset Text} (hne : candidates ≠ [])
    (calls : List Call)
    (hcalls : ∀ call ∈ calls, call.view.selection = .roundRobin ∧
      call.candidates = candidates ∧ idsOf call.view = ids) (state : SelectorState) :
    (picks state calls).map List.head? = (List.range calls.length).map fun k =>
      candidates[((state.cursorFor ids).toNat + k) % 2 ^ 64 % candidates.length]? := by
  induction calls generalizing state with
  | nil => rfl
  | cons call rest ih =>
    obtain ⟨hstrategy, hcands, hids⟩ := hcalls call List.mem_cons_self
    obtain ⟨hhead, hstate⟩ := pickAll_roundRobin state call.rng hstrategy (by
      rw [← Call.candidates, hcands]
      exact hne)
    rw [← Call.candidates, hcands, hids] at hhead
    rw [hids] at hstate
    rw [picks, List.length_cons, List.range_succ_eq_map, List.map_cons, List.map_cons,
      List.map_map, hhead, hstate, ih fun c hc => hcalls c (List.mem_cons_of_mem call hc)]
    have hlt := (state.cursorFor ids).toNat_lt
    have hnext : (({ cursor := state.cursorFor ids + 1, last_ids := ids } :
        SelectorState).cursorFor ids).toNat = ((state.cursorFor ids).toNat + 1) % 2 ^ 64 := by
      rw [SelectorState.cursorFor, if_pos rfl, UInt64.toNat_add]
      rfl
    refine congrArg₂ List.cons ?_ (List.map_congr_left fun k _ => ?_)
    · rw [Nat.add_zero, Nat.mod_eq_of_lt hlt]
    · rw [hnext, Nat.mod_add_mod, Function.comp_apply, Nat.add_assoc, Nat.succ_eq_add_one,
        Nat.add_comm 1 k]

/-- Without a wrap that breaks the walk, its `n` steps visit `n` places. -/
theorem walk_nodup {start n : Nat} (h : n ∣ 2 ^ 64 ∨ start + n ≤ 2 ^ 64) :
    ((List.range n).map fun k => (start + k) % 2 ^ 64 % n).Nodup := by
  have hindex : ∀ k < n, (start + k) % 2 ^ 64 % n = (start + k) % n := by
    intro k hk
    rcases h with hdvd | hle
    · exact Nat.mod_mod_of_dvd (start + k) hdvd
    · rw [Nat.mod_eq_of_lt (a := start + k) (by omega)]
  refine List.Nodup.map_on (fun i hi j hj hij => ?_) List.nodup_range
  have hi := List.mem_range.mp hi
  have hj := List.mem_range.mp hj
  rw [hindex i hi, hindex j hj] at hij
  have hmod : i % n = j % n := Nat.ModEq.add_left_cancel' start hij
  rwa [Nat.mod_eq_of_lt hi, Nat.mod_eq_of_lt hj] at hmod

/-- A walk over the candidates from any cursor comes to each of them once. -/
theorem walk_perm {candidates : List Tunnel} {start : Nat} (hne : candidates ≠ [])
    (hnodup : candidates.Nodup)
    (hwrap : candidates.length ∣ 2 ^ 64 ∨ start + candidates.length ≤ 2 ^ 64) :
    ((List.range candidates.length).map fun k =>
      candidates[(start + k) % 2 ^ 64 % candidates.length]?).Perm (candidates.map some) := by
  have hpos := List.length_pos_iff.mpr hne
  have hplaces : ((List.range candidates.length).map fun k =>
      candidates[(start + k) % 2 ^ 64 % candidates.length]?).Nodup := by
    have hmap := (walk_nodup hwrap).map_on (f := fun i => candidates[i]?) fun i hi j hj hij => ?_
    · rwa [List.map_map] at hmap
    · obtain ⟨_, _, rfl⟩ := List.mem_map.mp hi
      exact (List.getElem?_inj (Nat.mod_lt _ hpos) hnodup).mp hij
  refine (List.subperm_of_subset hplaces fun head hhead => ?_).perm_of_length_le (by simp)
  obtain ⟨k, _, rfl⟩ := List.mem_map.mp hhead
  rw [List.getElem?_eq_getElem (Nat.mod_lt _ hpos)]
  exact List.mem_map_of_mem (List.getElem_mem _)

/-! ## Ties of the ordered strategy -/

theorem pair_sublist_total {α : Type} {l : List α} {a b : α} (ha : a ∈ l) (hb : b ∈ l)
    (hne : a ≠ b) : [a, b].Sublist l ∨ [b, a].Sublist l := by
  obtain ⟨before, after, rfl⟩ := List.append_of_mem ha
  rcases List.mem_append.mp hb with hbefore | hafter
  · exact .inr ((List.singleton_sublist.mpr hbefore).append
      (List.singleton_sublist.mpr List.mem_cons_self))
  · have hmem := (List.mem_cons.mp hafter).resolve_left (Ne.symm hne)
    exact .inl (((List.singleton_sublist.mpr hmem).cons_cons a).trans
      (List.sublist_append_right before _))

theorem pair_sublist_asymm {α : Type} {l : List α} {a b : α} (h : l.Nodup)
    (hab : [a, b].Sublist l) : ¬ [b, a].Sublist l := by
  induction l with
  | nil => cases hab
  | cons c l ih =>
    have hc := (List.nodup_cons.mp h).1
    intro hba
    cases hab with
    | cons _ hab =>
      cases hba with
      | cons _ hba => exact ih (List.nodup_cons.mp h).2 hab hba
      | cons_cons _ hba => exact hc (hab.subset (by simp))
    | cons_cons _ hb =>
      cases hba with
      | cons _ hba => exact hc (hba.subset (by simp))
      | cons_cons _ ha => exact hc (hb.subset (by simp))

/-- Heavier tunnels come first, and equal ones in the order they are declared. -/
theorem ordered_pairwise {candidates : List Tunnel} (h : candidates.Nodup) :
    (ordered candidates).Pairwise fun a b =>
      b.weight < a.weight ∨ a.weight = b.weight ∧ [a, b].Sublist candidates := by
  have htrans : ∀ a b c : Tunnel, decide (b.weight ≤ a.weight) → decide (c.weight ≤ b.weight) →
      decide (c.weight ≤ a.weight) := by
    intro a b c hab hbc
    exact decide_eq_true (Nat.le_trans (of_decide_eq_true hbc) (of_decide_eq_true hab))
  have htotal : ∀ a b : Tunnel,
      (decide (b.weight ≤ a.weight) || decide (a.weight ≤ b.weight)) = true := by
    intro a b
    rcases Nat.le_total b.weight a.weight with hle | hle <;> simp [hle]
  have hperm : (ordered candidates).Perm candidates := List.mergeSort_perm _ _
  have hnodup := hperm.nodup_iff.mpr h
  have hsorted := List.pairwise_mergeSort htrans htotal candidates
  refine List.pairwise_iff_forall_sublist.mpr fun {a b} hab => ?_
  have hle := of_decide_eq_true (List.pairwise_iff_forall_sublist.mp hsorted hab)
  rcases Nat.lt_or_eq_of_le hle with hlt | heq
  · exact .inl hlt
  · have hne : a ≠ b := List.pairwise_iff_forall_sublist.mp hnodup hab
    have ha := hperm.subset (hab.subset List.mem_cons_self)
    have hb := hperm.subset (hab.subset (List.mem_cons_of_mem a List.mem_cons_self))
    refine .inr ⟨heq.symm, (pair_sublist_total ha hb hne).resolve_right fun hba => ?_⟩
    -- Stability would keep the reversed pair reversed.
    have hback := List.pair_sublist_mergeSort htrans htotal (decide_eq_true heq.symm.le) hba
    exact pair_sublist_asymm hnodup hab hback

/-! ## What `pick_all` answers -/

/-- Every strategy permutes the enabled healthy tunnels, the ordered one by weight and
then by declaration; round robin puts each of the same `n` candidates first once in `n`
calls, while the ids of the registry stay as they are and the cursor does not wrap. -/
theorem pickAll_orders :
    (∀ (state : SelectorState) (call : Call), call.DistinctIds →
      let order := (pickAll state call.view call.healthy_ids call.rng).1
      order.Perm call.candidates ∧ (order.map Tunnel.id).Nodup ∧
      (call.view.selection = .orderedFailover → order.Pairwise fun a b =>
        b.weight < a.weight ∨ a.weight = b.weight ∧ [a, b].Sublist call.view.tunnels)) ∧
    ∀ (state : SelectorState) (calls : List Call) (candidates : List Tunnel)
      (ids : Finset Text), calls.length = candidates.length →
      (∀ call ∈ calls, call.DistinctIds ∧ call.view.selection = .roundRobin ∧
        call.candidates = candidates ∧ idsOf call.view = ids) →
      (candidates.length ∣ 2 ^ 64 ∨
        (state.cursorFor ids).toNat + candidates.length ≤ 2 ^ 64) →
      ((picks state calls).map List.head?).Perm (candidates.map some) := by
  refine ⟨fun state call hdistinct => ?_, fun state calls candidates ids hlen hcalls hwrap => ?_⟩
  · have hperm := pickAll_perm state call.healthy_ids call.rng hdistinct
    have hids := candidatesOf_nodup call.healthy_ids hdistinct
    refine ⟨hperm, (hperm.map Tunnel.id).nodup_iff.mpr hids, fun hordered => ?_⟩
    rw [pickAll_orderedFailover state call.healthy_ids call.rng hordered]
    refine (ordered_pairwise (List.Nodup.of_map _ hids)).imp fun {a b} hab => ?_
    exact hab.imp_right fun htie => ⟨htie.1, htie.2.trans List.filter_sublist⟩
  · cases calls with
    | nil =>
      rw [List.length_eq_zero_iff.mp hlen.symm]
      exact .refl []
    | cons first rest =>
      have hne : candidates ≠ [] := List.ne_nil_of_length_eq_add_one hlen.symm
      obtain ⟨hdistinct, -, hcands, -⟩ := hcalls first List.mem_cons_self
      have hnodup : candidates.Nodup := by
        rw [← hcands]
        exact List.Nodup.of_map _ (candidatesOf_nodup first.healthy_ids hdistinct)
      rw [picks_heads hne _ (fun call hcall => (hcalls call hcall).2), hlen]
      exact walk_perm hne hnodup hwrap

section Cases

def tunnelNamed (id : String) (enabled : Bool) : Tunnel where
  id := id.toList
  name := id.toList
  host := "127.0.0.1".toList
  port := 7843
  edge_pubkey := List.replicate 32 0
  weight := 1
  enabled := enabled

/-- A round-robin call with every tunnel healthy. -/
def callOver (tunnels : List Tunnel) : Call where
  view := { selection := .roundRobin, tunnels }
  healthy_ids := tunnels.map Tunnel.id
  rng := { draw := fun _ _ => 0, draw_lt := fun _ _ h => h }

theorem pickAll_orders_pair :
    ((picks {} [callOver [tunnelNamed "a" true, tunnelNamed "b" true],
        callOver [tunnelNamed "a" true, tunnelNamed "b" true]]).map List.head?).Perm
      [some (tunnelNamed "a" true), some (tunnelNamed "b" true)] :=
  pickAll_orders.2 {} [callOver [tunnelNamed "a" true, tunnelNamed "b" true],
      callOver [tunnelNamed "a" true, tunnelNamed "b" true]]
    [tunnelNamed "a" true, tunnelNamed "b" true]
    (idsOf (callOver [tunnelNamed "a" true, tunnelNamed "b" true]).view) rfl
    (by unfold Call.DistinctIds; decide +kernel) (.inl (by decide))

/-- A reload that only adds a disabled tunnel resets the cursor, one that only changes
the order renumbers the candidates, and the cursor wraps at 64 bits: in each case the
same candidates are there again and the same tunnel is put first again. -/
theorem same_candidates_same_first :
    let a := tunnelNamed "a" true
    let b := tunnelNamed "b" true
    let c := tunnelNamed "c" true
    let off := tunnelNamed "off" false
    ((callOver [a, b]).candidates = [a, b] ∧ (callOver [a, b, off]).candidates = [a, b] ∧
      (callOver [a, b]).DistinctIds ∧ (callOver [a, b, off]).DistinctIds ∧
      (picks {} [callOver [a, b], callOver [a, b, off]]).map List.head? = [some a, some a]) ∧
    (picks {} [callOver [a, b], callOver [b, a]]).map List.head? = [some a, some a] ∧
    (picks ⟨2 ^ 64 - 1, idsOf (callOver [a, b, c]).view⟩
        (List.replicate 3 (callOver [a, b, c]))).map List.head? = [some a, some a, some b] := by
  unfold Call.DistinctIds
  decide +kernel

end Cases

end MailCue.Tunnel.Sidecar.Registry.Selector
