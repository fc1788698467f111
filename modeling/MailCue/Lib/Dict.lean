import Mathlib

/-!
# Dictionaries in the order of their keys

An association list with the updates of a dictionary that keeps the order of insertion:
a key that is there keeps its place, and a new one comes last.
-/
namespace MailCue.Lib.Dict

variable {κ α : Type} [DecidableEq κ]

def get (dict : List (κ × α)) (key : κ) : Option α :=
  (dict.find? fun entry => decide (entry.1 = key)).map Prod.snd

def set (dict : List (κ × α)) (key : κ) (value : α) : List (κ × α) :=
  if key ∈ dict.map Prod.fst then
    dict.map fun entry => if entry.1 = key then (key, value) else entry
  else dict ++ [(key, value)]

/-- One entry after the other. -/
def update (dict entries : List (κ × α)) : List (κ × α) :=
  entries.foldl (fun dict entry => set dict entry.1 entry.2) dict

variable {dict entries : List (κ × α)} {key other : κ} {value : α}

@[simp] theorem get_nil : get ([] : List (κ × α)) key = none := rfl

theorem get_cons (entry : κ × α) (dict : List (κ × α)) (key : κ) :
    get (entry :: dict) key = if entry.1 = key then some entry.2 else get dict key := by
  unfold get
  rw [List.find?_cons]
  by_cases h : entry.1 = key
  · simp [h]
  · simp [h]

theorem get_append (dict more : List (κ × α)) (key : κ) :
    get (dict ++ more) key = (get dict key).or (get more key) := by
  induction dict with
  | nil => rfl
  | cons entry dict ih =>
    rw [List.cons_append, get_cons, get_cons, ih]
    split
    · rfl
    · rfl

theorem get_eq_none_iff : get dict key = none ↔ key ∉ dict.map Prod.fst := by
  induction dict with
  | nil => simp
  | cons entry dict ih =>
    rw [get_cons, List.map_cons, List.mem_cons]
    split
    · next h => simp [h]
    · next h => rw [ih, not_or, and_iff_right (Ne.symm h)]

theorem mem_of_get (h : get dict key = some value) : (key, value) ∈ dict := by
  obtain ⟨⟨found, v⟩, hfind, hv⟩ := Option.map_eq_some_iff.mp h
  cases hv
  have hkey : found = key := by simpa using List.find?_some hfind
  exact hkey ▸ List.mem_of_find?_eq_some hfind

theorem get_of_nodup (hnodup : (dict.map Prod.fst).Nodup) (h : (key, value) ∈ dict) :
    get dict key = some value := by
  cases hget : get dict key with
  | none => exact absurd (List.mem_map.mpr ⟨_, h, rfl⟩) (get_eq_none_iff.mp hget)
  | some found =>
    cases List.inj_on_of_nodup_map hnodup (mem_of_get hget) h rfl
    rfl

/-- A key that is there, with a new value. -/
def put (key : κ) (value : α) (entry : κ × α) : κ × α :=
  if entry.1 = key then (key, value) else entry

@[simp] theorem put_key (entry : κ × α) : (put key value entry).1 = entry.1 := by
  unfold put
  split
  · next h => exact h.symm
  · rfl

theorem set_of_mem (h : key ∈ dict.map Prod.fst) : set dict key value = dict.map (put key value) :=
  if_pos h

theorem keys_map_put : (dict.map (put key value)).map Prod.fst = dict.map Prod.fst := by
  rw [List.map_map]
  exact List.map_congr_left fun entry _ => put_key entry

theorem mem_keys_set :
    other ∈ (set dict key value).map Prod.fst ↔ other ∈ dict.map Prod.fst ∨ other = key := by
  by_cases h : key ∈ dict.map Prod.fst
  · rw [set_of_mem h, keys_map_put]
    constructor
    · exact .inl
    · rintro (hmem | rfl)
      · exact hmem
      · exact h
  · rw [set, if_neg h, List.map_append, List.mem_append, List.map_singleton, List.mem_singleton]

theorem get_map_put (h : key ∈ dict.map Prod.fst) (other : κ) :
    get (dict.map (put key value)) other = if key = other then some value else get dict other := by
  induction dict with
  | nil => cases h
  | cons entry dict ih =>
    rw [List.map_cons, get_cons, put_key, get_cons]
    by_cases hkey : entry.1 = key
    · rw [put, if_pos hkey, hkey]
      by_cases hsame : key = other
      · rw [if_pos hsame, if_pos hsame]
      · rw [if_neg hsame, if_neg hsame, if_neg hsame]
        by_cases hmem : key ∈ dict.map Prod.fst
        · rw [ih hmem, if_neg hsame]
        · congr 1
          refine (List.map_congr_left fun entry' hentry' => ?_).trans dict.map_id
          exact if_neg fun heq => hmem (List.mem_map.mpr ⟨entry', hentry', heq⟩)
    · have hmem : key ∈ dict.map Prod.fst :=
        (List.mem_cons.mp h).resolve_left (Ne.symm hkey)
      rw [ih hmem, put, if_neg hkey]
      by_cases hsame : key = other
      · rw [if_pos hsame, if_pos hsame, if_neg fun heq => hkey (heq.trans hsame.symm)]
      · rw [if_neg hsame, if_neg hsame]

theorem get_set (dict : List (κ × α)) (key other : κ) (value : α) :
    get (set dict key value) other = if key = other then some value else get dict other := by
  unfold set
  split
  · next h => exact get_map_put h other
  · next h =>
    rw [get_append, get_cons, get_nil]
    split
    · next heq =>
      subst heq
      rw [get_eq_none_iff.mpr h]
      rfl
    · cases get dict other <;> rfl

theorem get_filter {p : κ × α → Bool} (dict : List (κ × α)) (h : ∀ value, p (key, value) = true) :
    get (dict.filter p) key = get dict key := by
  induction dict with
  | nil => rfl
  | cons entry dict ih =>
    rw [get_cons, List.filter_cons]
    by_cases hkey : entry.1 = key
    · have hp : p entry = true := by
        subst hkey
        exact h entry.2
      rw [if_pos hp, get_cons, if_pos hkey, if_pos hkey]
    · rw [if_neg hkey]
      split
      · rw [get_cons, if_neg hkey, ih]
      · exact ih

/-! ## Other values for the same keys -/

theorem get_map {β : Type} (f : α → β) (dict : List (κ × α)) (key : κ) :
    get (dict.map (Prod.map id f)) key = (get dict key).map f := by
  induction dict with
  | nil => rfl
  | cons entry dict ih =>
    rw [List.map_cons, get_cons, get_cons, ih]
    by_cases h : entry.1 = key
    · rw [if_pos h]
      exact if_pos h
    · rw [if_neg h]
      exact if_neg h

theorem set_map {β : Type} (f : α → β) (dict : List (κ × α)) (key : κ) (value : α) :
    set (dict.map (Prod.map id f)) key (f value) = (set dict key value).map (Prod.map id f) := by
  have hkeys : (dict.map (Prod.map id f)).map Prod.fst = dict.map Prod.fst := by
    rw [List.map_map]
    rfl
  unfold set
  rw [hkeys]
  split
  · rw [List.map_map, List.map_map]
    refine List.map_congr_left fun entry _ => ?_
    by_cases h : entry.1 = key
    · simp [h]
    · simp [h]
  · rw [List.map_append]
    rfl

/-! ## Updates -/

theorem update_cons (dict : List (κ × α)) (entry : κ × α) (entries : List (κ × α)) :
    update dict (entry :: entries) = update (set dict entry.1 entry.2) entries := rfl

theorem update_append (dict entries more : List (κ × α)) :
    update dict (entries ++ more) = update (update dict entries) more :=
  List.foldl_append

/-- The last entry of a key counts. -/
theorem get_update (dict entries : List (κ × α)) (key : κ) :
    get (update dict entries) key = (get entries.reverse key).or (get dict key) := by
  induction entries generalizing dict with
  | nil => rfl
  | cons entry entries ih =>
    rw [update_cons, ih, get_set, List.reverse_cons, get_append, get_cons, get_nil]
    cases get entries.reverse key with
    | some value => rfl
    | none =>
      by_cases h : entry.1 = key
      · simp [h]
      · simp [h]

theorem mem_keys_update :
    key ∈ (update dict entries).map Prod.fst ↔
      key ∈ dict.map Prod.fst ∨ key ∈ entries.map Prod.fst := by
  induction entries generalizing dict with
  | nil => simp [update]
  | cons entry entries ih =>
    rw [update_cons, ih, mem_keys_set, List.map_cons, List.mem_cons, or_assoc]

/-- No key is new: every entry keeps its place. -/
theorem update_of_mem (h : ∀ key ∈ entries.map Prod.fst, key ∈ dict.map Prod.fst) :
    update dict entries =
      dict.map fun entry => (entry.1, (get entries.reverse entry.1).getD entry.2) := by
  induction entries generalizing dict with
  | nil => exact dict.map_id.symm
  | cons entry entries ih =>
    rw [List.map_cons, List.forall_mem_cons] at h
    have hkeys : ∀ key ∈ entries.map Prod.fst,
        key ∈ (dict.map (put entry.1 entry.2)).map Prod.fst := by
      intro key hkey
      rw [keys_map_put]
      exact h.2 key hkey
    rw [update_cons, set_of_mem h.1, ih hkeys, List.map_map]
    refine List.map_congr_left fun old _ => ?_
    show ((put entry.1 entry.2 old).1, _) = _
    rw [put_key, List.reverse_cons, get_append, get_cons, get_nil]
    cases get entries.reverse old.1 with
    | some value => rfl
    | none =>
      unfold put
      by_cases heq : entry.1 = old.1
      · rw [if_pos heq, if_pos heq.symm]
        rfl
      · rw [if_neg heq, if_neg (Ne.symm heq)]
        rfl

theorem mem_of_mem_set {entry : κ × α} (h : entry ∈ set dict key value) :
    entry ∈ dict ∧ entry.1 ≠ key ∨ entry = (key, value) := by
  unfold set at h
  split at h
  · obtain ⟨old, hold, rfl⟩ := List.mem_map.mp h
    split
    · exact .inr rfl
    · next hne => exact .inl ⟨hold, hne⟩
  · next hnew =>
    rcases List.mem_append.mp h with hold | hlast
    · exact .inl ⟨hold, fun heq => hnew (List.mem_map.mpr ⟨entry, hold, heq⟩)⟩
    · exact .inr (List.mem_singleton.mp hlast)

theorem value_of_mem_update {entry : κ × α} (h : entry ∈ update dict entries) :
    (entry ∈ dict ∧ get entries.reverse entry.1 = none) ∨
      get entries.reverse entry.1 = some entry.2 := by
  induction entries generalizing dict with
  | nil => exact .inl ⟨h, rfl⟩
  | cons first entries ih =>
    rw [update_cons] at h
    rw [List.reverse_cons, get_append, get_cons, get_nil]
    rcases ih h with ⟨hset, hlater⟩ | hlater
    · rw [hlater]
      rcases mem_of_mem_set hset with ⟨hold, hne⟩ | rfl
      · exact .inl ⟨hold, by rw [if_neg (Ne.symm hne)]; rfl⟩
      · exact .inr (by rw [if_pos rfl]; rfl)
    · exact .inr (by rw [hlater]; rfl)

/-- The same entries once more change nothing. -/
theorem update_update (dict entries : List (κ × α)) :
    update (update dict entries) entries = update dict entries := by
  rw [update_of_mem fun key hkey => mem_keys_update.mpr (.inr hkey)]
  refine (List.map_congr_left fun entry hentry => ?_).trans (List.map_id _)
  rcases value_of_mem_update hentry with ⟨_, hnone⟩ | hlast
  · rw [hnone]
    rfl
  · rw [hlast]
    rfl

theorem update_nil (h : (entries.map Prod.fst).Nodup) : update [] entries = entries := by
  have hall (done : List (κ × α)) (hnodup : ((done ++ entries).map Prod.fst).Nodup) :
      update done entries = done ++ entries := by
    clear h
    induction entries generalizing done with
    | nil => exact done.append_nil.symm
    | cons entry entries ih =>
      have hnew : entry.1 ∉ done.map Prod.fst := by
        rw [List.map_append, List.nodup_append] at hnodup
        exact fun hmem => hnodup.2.2 _ hmem _ (List.mem_cons_self ..) rfl
      rw [update_cons, set, if_neg hnew, ih, List.append_assoc, List.singleton_append]
      rwa [List.append_assoc, List.singleton_append]
  exact hall [] h

/-! ## Groups -/

/-- `dict.setdefault(key, []).append(item)` -/
def push (dict : List (κ × List α)) (key : κ) (item : α) : List (κ × List α) :=
  set dict key ((get dict key).getD [] ++ [item])

/-- The items by their keys, the first of each key first. -/
def group (key : α → κ) (items : List α) : List (κ × List α) :=
  items.foldl (fun groups item => push groups (key item) item) []

theorem group_snoc (f : α → κ) (items : List α) (item : α) :
    group f (items ++ [item]) = push (group f items) (f item) item := by
  rw [group, List.foldl_append]
  rfl

theorem get_group (f : α → κ) (items : List α) (key : κ) :
    (get (group f items) key).getD [] = items.filter fun item => decide (f item = key) := by
  induction items using List.reverseRecOn with
  | nil => rfl
  | append_singleton items item ih =>
    rw [group_snoc, push, get_set, List.filter_append]
    by_cases h : f item = key
    · subst h
      simp [ih]
    · simp [h, ih]

theorem mem_group {f : α → κ} {items : List α} {entry : κ × List α} (h : entry ∈ group f items) :
    entry.2 = items.filter (fun item => decide (f item = entry.1)) ∧ entry.2 ≠ [] := by
  induction items using List.reverseRecOn with
  | nil => cases h
  | append_singleton items item ih =>
    rw [group_snoc, push, get_group] at h
    rw [List.filter_append]
    rcases mem_of_mem_set h with ⟨hold, hne⟩ | rfl
    · simpa [Ne.symm hne] using ih hold
    · simp

theorem get_group_of_mem (f : α → κ) {items : List α} {item : α} (h : item ∈ items) :
    get (group f items) (f item) =
      some (items.filter fun other => decide (f other = f item)) := by
  have hget := get_group f items (f item)
  cases hfound : get (group f items) (f item) with
  | none =>
    rw [hfound] at hget
    have hmem : item ∈ ([] : List α) := by
      rw [show ([] : List α) = _ from hget]
      exact List.mem_filter.mpr ⟨h, decide_eq_true rfl⟩
    cases hmem
  | some members =>
    rw [hfound] at hget
    exact congrArg some hget

/-! ## Other keys for the same values -/

/-- A renaming that makes what it changes smaller changes no key of a set that it maps onto
itself. -/
theorem fixed_of_onto {f : κ → κ} {size : κ → Nat}
    (hsize : ∀ key, f key ≠ key → size (f key) < size key) {keys : List κ}
    (honto : ∀ key ∈ keys, ∃ old ∈ keys, f old = key) :
    ∀ key ∈ keys, f key = key := by
  intro key hkey
  by_contra hchanged
  -- what becomes a changed key is one that is changed, and larger
  have hlarge : ∀ n, ∃ old ∈ keys, f old ≠ old ∧ n ≤ size old := by
    intro n
    induction n with
    | zero => exact ⟨key, hkey, hchanged, Nat.zero_le _⟩
    | succ n ih =>
      obtain ⟨new, hnew, hne, hle⟩ := ih
      obtain ⟨old, hold, rfl⟩ := honto new hnew
      have hne' : f old ≠ old := fun heq => hne (by rw [heq]; exact heq)
      exact ⟨old, hold, hne', Nat.lt_of_le_of_lt hle (hsize old hne')⟩
  obtain ⟨old, hold, _, hle⟩ := hlarge ((keys.map size).sum + 1)
  have hsum : size old ≤ (keys.map size).sum := List.le_sum_of_mem (List.mem_map_of_mem hold)
  omega

/-! ## A key that is not there -/

/-- Longer than all that are taken. -/
def newKey (taken : List String) : String :=
  String.ofList (List.replicate ((taken.map String.length).sum + 1) 'a')

theorem newKey_not_mem (taken : List String) : newKey taken ∉ taken := by
  intro hmem
  have hle : (newKey taken).length ≤ (taken.map String.length).sum :=
    List.le_sum_of_mem (List.mem_map_of_mem hmem)
  rw [newKey, String.length_ofList, List.length_replicate] at hle
  omega

end MailCue.Lib.Dict
