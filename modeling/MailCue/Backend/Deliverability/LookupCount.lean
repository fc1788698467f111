import MailCue.Backend.Deliverability.SpfLookups

/-!
# When the count of lookups is right

A complete walk is followed record by record: what it counts is the tally of the records it
comes to, and the tally settles how many lookups the expansion has.
-/
namespace MailCue.Backend.Deliverability
open MailCue.Lib
open Domains (words)

section
variable {py : Python} {resolve : Text → List Text}

/-! ## The terms of a record -/

theorem map_marked (terms : List Spf.Term) : (Spf.marked terms).map (·.1) = terms := by
  unfold Spf.marked
  generalize terms.any Spf.Term.isAll = beside_all
  induction terms with
  | nil => rfl
  | cons term rest ih =>
    rw [Spf.marks]
    split
    · simp [Function.comp_def]
    · rw [List.map_cons, ih]

theorem visible_of_mem_words {record word : Text} (h : ∀ c ∈ record, Domains.isRecordChar c = true)
    (hword : word ∈ words record) : Domains.Visible word := by
  intro c hc
  have hrecord := h c (Text.of_mem_splitOnP (List.mem_filter.mp hword).1 c hc).2
  have hspace := (Domains.isWord_of_mem_words hword).2 c hc
  rw [(Domains.recordChar hrecord).2.1] at hspace
  simpa [Domains.isRecordChar, hspace] using hrecord

/-- The words of a record are the terms that a receiver reads. -/
theorem agrees_of_readRecord {record : Text} {terms : List Spf.Term}
    (h : Spf.readRecord record = some terms) :
    List.Forall₂ (fun raw_term mark => Agrees py raw_term mark.1) (words record).tail
      (Spf.marked terms) := by
  obtain ⟨hversion, hchars, hread⟩ := Domains.of_readRecord h
  have hwords : (words record).tail = Spf.spWords (record.drop 6) := by
    rw [Domains.words_eq_spWords hchars, Domains.spWords_of_hasVersion hversion, List.tail_cons]
  have hterms := Expansion.mapM_some_iff.mp hread
  rw [← hwords, ← map_marked terms, List.forall₂_map_right_iff, List.forall₂_iff_zip] at hterms
  refine List.forall₂_iff_zip.mpr ⟨hterms.1, fun {raw_term mark} hmem => ?_⟩
  have hword := List.mem_of_mem_tail (List.of_mem_zip hmem).1
  exact agrees_of_readTerm (visible_of_mem_words hchars hword) (hterms.2 hmem)

/-- A nested domain leads where its term leads. -/
theorem Agrees.bind_nestedTarget {raw_term : Text} {mark : Spf.Term × Bool}
    (h : Agrees py raw_term mark.1) : (nestedTarget py (raw_term, mark)).bind (·.2) =
      if Spf.isQuery mark then mark.1.target else none := by
  rw [nestedTarget]
  cases htarget : (if Spf.isQuery mark then mark.1.target else none) with
  | none => cases (lookupTerm py raw_term).2 <;> rfl
  | some target =>
    obtain ⟨-, hmem⟩ := Option.mem_ite_none_right.mp htarget
    obtain ⟨raw_domain, hraw, -⟩ := h.target target hmem
    rw [Option.mem_def.mp hraw]
    rfl

section
variable {raw_terms : List Text} {marks : List (Spf.Term × Bool)}
  (h : List.Forall₂ (fun raw_term mark => Agrees py raw_term mark.1) raw_terms marks)
include h

theorem countP_lookupTerm : (raw_terms.map (lookupTerm py)).countP (·.1) =
    marks.countP fun mark => isCounted mark.1 := by
  induction h with
  | nil => rfl
  | cons hterm hrest ih => rw [List.map_cons, List.countP_cons, List.countP_cons, ih, hterm.counted]

theorem map_nestedTarget : ((raw_terms.zip marks).filterMap (nestedTarget py)).map (·.1) =
    (raw_terms.map (lookupTerm py)).filterMap (·.2) := by
  induction h with
  | nil => rfl
  | @cons raw_term mark raw_terms marks hterm hrest ih =>
    rw [List.zip_cons_cons, List.map_cons]
    cases hnested : (lookupTerm py raw_term).2 with
    | none =>
      have hnone : nestedTarget py (raw_term, mark) = none := by rw [nestedTarget, hnested]; rfl
      rw [List.filterMap_cons_none hnone, List.filterMap_cons_none hnested, ih]
    | some raw_domain =>
      have hsome : nestedTarget py (raw_term, mark) =
          some (raw_domain, if Spf.isQuery mark then mark.1.target else none) := by
        rw [nestedTarget, hnested]
        rfl
      rw [List.filterMap_cons_some hsome, List.filterMap_cons_some hnested, List.map_cons, ih]

/-- The domains that the record leads to are nested. -/
theorem filterMap_nestedTarget :
    ((raw_terms.zip marks).filterMap (nestedTarget py)).filterMap (·.2) =
      ((marks.filter Spf.isQuery).map (·.1)).filterMap Spf.Term.target := by
  rw [List.filterMap_filterMap, List.filterMap_map, List.filterMap_filter]
  induction h with
  | nil => rfl
  | @cons raw_term mark raw_terms marks hterm hrest ih =>
    have hsame := hterm.bind_nestedTarget
    rw [List.zip_cons_cons, List.filterMap_cons, List.filterMap_cons, ih]
    simp only [hsame, Function.comp_apply]

/-- The walk asks for the domain that the record leads to. -/
theorem nestedTarget_spec {entry : Text × Option Text}
    (hentry : entry ∈ (raw_terms.zip marks).filterMap (nestedTarget py)) :
    ∀ target ∈ entry.2, ∀ domain ∈ safeDomain py entry.1, domain = target := by
  obtain ⟨⟨raw_term, mark⟩, hmem, hsome⟩ := List.mem_filterMap.mp hentry
  have hterm := (List.forall₂_iff_zip.mp h).2 hmem
  obtain ⟨raw_domain, hraw, rfl⟩ := Option.map_eq_some_iff.mp hsome
  intro target htarget domain hdomain
  obtain ⟨-, htarget⟩ := Option.mem_ite_none_right.mp htarget
  obtain ⟨other, hother, hsafe⟩ := hterm.target target htarget
  obtain rfl : raw_domain = other := Option.some.inj (hraw.symm.trans hother)
  exact hsafe domain hdomain

end

/-! ## The tally of a record -/

theorem map_below (evaluated : Bool) (record : Text) :
    (below py evaluated record).map (·.1) = (spfLookupTerms py record).2 := by
  unfold below
  split
  · rename_i terms hread
    rw [map_nestedTarget (agrees_of_readRecord hread)]
    rfl
  · rw [List.map_map]
    exact List.map_id _

theorem filterMap_below {record : Text} {terms : List Spf.Term}
    (hread : Spf.readRecord record = some terms) :
    (below py true record).filterMap (·.2) = Spf.targets terms := by
  unfold below
  rw [hread]
  exact filterMap_nestedTarget (agrees_of_readRecord hread)

theorem filterMap_below_false (record : Text) : (below py false record).filterMap (·.2) = [] := by
  unfold below
  rw [List.filterMap_map]
  exact List.filterMap_eq_nil_iff.mpr fun _ _ => rfl

/-- Where a nested domain leads the evaluation, the walk goes. -/
def Led (py : Python) (entries : List (Text × Option Text)) : Prop :=
  ∀ entry ∈ entries, ∀ target ∈ entry.2, ∀ domain ∈ safeDomain py entry.1, domain = target

theorem led_below (evaluated : Bool) (record : Text) : Led py (below py evaluated record) := by
  intro entry hentry
  unfold below at hentry
  split at hentry
  · rename_i terms hread
    exact nestedTarget_spec (agrees_of_readRecord hread) hentry
  · obtain ⟨raw_domain, -, rfl⟩ := List.mem_map.mp hentry
    nofun

theorem countP_split {α : Type} (p q : α → Bool) (items : List α) :
    items.countP (fun a => p a && q a) + items.countP (fun a => !p a && q a) =
      items.countP q := by
  rw [List.countP_eq_countP_filter_add items q p, List.countP_filter, List.countP_filter]
  simp only [Bool.and_comm]

/-- What the walk counts of a record is in its tally. -/
theorem counted_tallyRecord (evaluated : Bool) (record : Text) :
    (tallyRecord py evaluated record).counted = (spfLookupTerms py record).1 := by
  unfold tallyRecord
  split
  · rename_i terms hread
    have hcount := @countP_lookupTerm py _ _ (agrees_of_readRecord hread)
    rw [LookupTally.counted, spfLookupTerms, hcount]
    exact countP_split _ _ _
  · rfl
  · exact Nat.zero_add _

/-! ## What a tally settles -/

/-- So many lookups are left where all that is evaluated follows the grammar. -/
def Settles (resolve : Text → List Text) (t : LookupTally) (n : Nat) : Prop :=
  (∀ read ∈ t.read, (Spf.readRecord read).isSome = true) ∧
    ∃ counts, List.Forall₂ (Spf.LookupsAt resolve) t.left counts ∧
      n = t.right + t.missed + counts.sum

theorem settles_add {t other : LookupTally} {n : Nat} : Settles resolve (t.add other) n ↔
    ∃ a b, Settles resolve t a ∧ Settles resolve other b ∧ n = a + b := by
  constructor
  · rintro ⟨hread, counts, hcounts, rfl⟩
    obtain ⟨hread, hother⟩ := List.forall_mem_append.mp hread
    obtain ⟨front, back, hfront, hback, rfl⟩ := Expansion.of_forall₂_append hcounts
    refine ⟨_, _, ⟨hread, front, hfront, rfl⟩, ⟨hother, back, hback, rfl⟩, ?_⟩
    simp only [LookupTally.add, List.sum_append]
    omega
  · rintro ⟨a, b, ⟨hread, front, hfront, rfl⟩, ⟨hother, back, hback, rfl⟩, rfl⟩
    refine ⟨List.forall_mem_append.mpr ⟨hread, hother⟩, front ++ back, ?_, ?_⟩
    · exact List.rel_append hfront hback
    · simp only [LookupTally.add, List.sum_append]
      omega

theorem settles_leaves {domains : List Text} {n : Nat} : Settles resolve (.leaves domains) n ↔
    ∃ counts, List.Forall₂ (Spf.LookupsAt resolve) domains counts ∧ n = counts.sum := by
  simp [Settles, LookupTally.leaves]

theorem settles_tallyRecord {record : Text} {n : Nat} :
    Settles resolve (tallyRecord py true record) n ↔
      ∃ terms, Spf.readRecord record = some terms ∧ n = (Spf.queries terms).length := by
  have hlength : ∀ terms, (Spf.queries terms).length =
      ((Spf.marked terms).countP fun mark => Spf.isQuery mark && isCounted mark.1) +
        (Spf.marked terms).countP fun mark => Spf.isQuery mark && !isCounted mark.1 := by
    intro terms
    have hsplit := countP_split (fun mark => isCounted mark.1) Spf.isQuery (Spf.marked terms)
    simp only [Bool.and_comm _ (Spf.isQuery _)] at hsplit
    rw [Spf.queries, List.length_map, ← List.countP_eq_length_filter, ← hsplit]
  unfold tallyRecord
  cases hrecord : Spf.readRecord record with
  | none => simp [Settles, hrecord]
  | some terms => simp [Settles, hrecord, hlength]

theorem settles_tallyRecord_false {record : Text} {n : Nat} :
    Settles resolve (tallyRecord py false record) n ↔ n = 0 := by
  simp [Settles, tallyRecord]

/-! ## Complete walks -/

abbrev Walk := Text → List Text → (Nat × Bool) × List Text

theorem incomplete_of_lookupDomains {walk : Walk} {raws : List Text} {total : Nat}
    {visited : List Text} :
    (lookupDomains py resolve walk total true visited raws).1.2 = true := by
  induction raws generalizing total visited with
  | nil => rfl
  | cons raw_domain rest ih =>
    unfold lookupDomains
    split
    · exact ih
    · split
      · exact ih
      · split
        · dsimp only
          split
          · rfl
          · exact ih
        · exact ih

/-- The first domain of a complete walk is new and has a single policy, with a complete walk
below it. -/
theorem of_lookupDomains_cons {walk : Walk} {raw_domain : Text} {rest : List Text}
    {total n : Nat} {visited : List Text}
    (h : (lookupDomains py resolve walk total false visited (raw_domain :: rest)).1 = (n, false)) :
    ∃ domain record count visited', safeDomain py raw_domain = some domain ∧
      domain ∉ visited ∧ (resolve domain).filter (isPolicy py) = [record] ∧
      walk record (domain :: visited) = ((count, false), visited') ∧
      if 10 < total + count then n = total + count
      else (lookupDomains py resolve walk (total + count) false visited' rest).1 = (n, false) := by
  have hstays : ∀ {total : Nat} {visited : List Text},
      (lookupDomains py resolve walk total true visited rest).1 ≠ (n, false) := by
    intro total visited heq
    have htrue := @incomplete_of_lookupDomains py resolve walk rest total visited
    rw [heq] at htrue
    cases htrue
  unfold lookupDomains at h
  split at h
  · exact absurd h hstays
  · rename_i domain hdomain
    split at h
    · exact absurd h hstays
    · rename_i hnew
      split at h
      · rename_i record hrecord
        rcases hwalk : walk record (domain :: visited) with ⟨⟨count, incomplete⟩, visited'⟩
        rw [hwalk] at h
        simp only [Bool.false_or] at h
        obtain rfl : incomplete = false := by
          split at h
          · exact (Prod.mk.inj h).2
          · cases incomplete with
            | false => rfl
            | true => exact absurd h hstays
        refine ⟨domain, record, count, visited', hdomain, hnew, hrecord, hwalk, ?_⟩
        split at h
        · rename_i hmany
          rw [if_pos hmany]
          exact (Prod.mk.inj h).1.symm
        · rename_i hfew
          rw [if_neg hfew]
          exact h
      · exact absurd h hstays

/-- A walk that is complete with ten domains at most is so with all of them: a record with more
has more than ten terms, and the walk leaves after the first. -/
theorem lookupDomains_take {walk : Walk} {raws : List Text} {total n : Nat} {visited : List Text}
    (hdirect : raws.length ≤ total)
    (h : (lookupDomains py resolve walk total false visited (raws.take 10)).1 = (n, false)) :
    (lookupDomains py resolve walk total false visited raws).1 = (n, false) := by
  by_cases hfew : raws.length ≤ 10
  · rwa [List.take_of_length_le hfew] at h
  · cases raws with
    | nil => simp at hfew
    | cons raw_domain rest =>
      rw [List.take_succ_cons] at h
      obtain ⟨domain, record, count, visited', hdomain, hnew, hrecord, hwalk, hn⟩ :=
        of_lookupDomains_cons h
      have hmany : 10 < total + count := by omega
      rw [if_pos hmany] at hn
      unfold lookupDomains
      simp only [hdomain, hrecord, hwalk, if_neg hnew, if_pos hmany, hn, Bool.or_false]

theorem length_nested_le (record : Text) :
    (spfLookupTerms py record).2.length ≤ (spfLookupTerms py record).1 := by
  have hterm : ∀ raw_term, (lookupTerm py raw_term).2.isSome = true →
      (lookupTerm py raw_term).1 = true := by
    intro raw_term hsome
    simp only [lookupTerm] at hsome ⊢
    split at hsome
    · rename_i hinclude
      rw [hinclude.1]
      decide
    · split at hsome
      · rename_i hredirect
        rw [hredirect.1]
        decide
      · cases hsome
  rw [spfLookupTerms]
  generalize (words record).tail = raw_terms
  induction raw_terms with
  | nil => exact Nat.le_refl _
  | cons raw_term raw_terms ih =>
    simp only [List.map_cons, List.countP_cons]
    cases hnested : (lookupTerm py raw_term).2 with
    | none =>
      rw [List.filterMap_cons_none hnested]
      exact ih.trans (Nat.le_add_right _ _)
    | some raw_domain =>
      rw [List.filterMap_cons_some hnested, List.length_cons,
        if_pos (hterm raw_term (by rw [hnested]; rfl))]
      exact Nat.succ_le_succ ih

/-! ## A complete walk against the expansion -/

/-- The tally of a walk below a record is what the walk counts, and settles the lookups of the
record where the evaluation comes to it. -/
structure Follows (resolve : Text → List Text) (evaluated : Bool) (record : Text) (count : Nat)
    (t : LookupTally) : Prop where
  counted : t.counted = count
  settles : ∀ n, Settles resolve t n ↔
    if evaluated then Spf.Lookups resolve record n else n = 0

/-- What a receiver takes for a policy the walk does too. -/
theorem isPolicy_of_hasVersion {value : Text} (h : Spf.hasVersion value = true) :
    isPolicy py value = true := by
  simp only [Spf.hasVersion, Bool.and_eq_true, decide_eq_true_eq] at h
  have hascii : ∀ c ∈ value.take 6, Text.ascii c = true := by
    intro c hc
    have hall : ∀ d ∈ "v=spf1".toList, Text.ascii d = true :=
      List.forall_iff_forall_mem.mp (by decide)
    exact Text.ascii_of_toLower (hall _ (h.1 ▸ List.mem_map_of_mem hc))
  obtain ⟨rest, hlower⟩ := py.lower_append (value.take 6) (value.drop 6) hascii
  rw [List.take_append_drop, h.1] at hlower
  rw [isPolicy, hlower, List.isPrefixOf_iff_prefix]
  exact List.prefix_append _ _

/-- A policy that a receiver can read is the policy at its domain. -/
theorem lookupsAt_iff {domain record : Text} (hhost : isHost domain = true)
    (hrecord : (resolve domain).filter (isPolicy py) = [record]) {n : Nat} :
    Spf.LookupsAt resolve domain n ↔ Spf.Lookups resolve record n := by
  have hpolicy : Spf.policyAt resolve domain =
      if Spf.hasVersion record then some record else none := by
    have hfilter : (resolve domain).filter Spf.hasVersion = [record].filter Spf.hasVersion := by
      rw [← hrecord, List.filter_filter]
      refine List.filter_congr fun value _ => ?_
      cases hversion : Spf.hasVersion value with
      | false => rfl
      | true => exact (isPolicy_of_hasVersion hversion).symm
    rw [Spf.policyAt, if_neg (percent_not_mem_of_isHost hhost), hfilter]
    cases hversion : Spf.hasVersion record with
    | false =>
      rw [List.filter_cons_of_neg (by simp [hversion])]
      rfl
    | true =>
      rw [List.filter_cons_of_pos hversion]
      rfl
  rw [Spf.LookupsAt, hpolicy]
  constructor
  · rintro ⟨other, hother, hlookups⟩
    split at hother
    · rwa [Option.some.inj hother]
    · cases hother
  · intro hlookups
    obtain ⟨terms, -, hread, -, -⟩ := Spf.lookups_iff.mp hlookups
    exact ⟨record, if_pos (Domains.of_readRecord hread).1, hlookups⟩

/-- The loop over nested domains. -/
theorem follows_below {walk : Walk} {tally : Bool → Text → LookupTally}
    (hwalk : ∀ record visited count visited', walk record visited = ((count, false), visited') →
      ∀ evaluated, Follows resolve evaluated record count (tally evaluated record))
    {entries : List (Text × Option Text)} (hled : Led py entries) {total n : Nat}
    {visited : List Text}
    (h : (lookupDomains py resolve walk total false visited (entries.map (·.1))).1 = (n, false)) :
    total + (tallyBelow py resolve tally total entries).counted = n ∧
      ∀ m, Settles resolve (tallyBelow py resolve tally total entries) m ↔
        ∃ counts, List.Forall₂ (Spf.LookupsAt resolve) (entries.filterMap (·.2)) counts ∧
          m = counts.sum := by
  induction entries generalizing total visited with
  | nil =>
    exact ⟨(Prod.mk.inj h).1, fun m => settles_leaves⟩
  | cons entry rest ih =>
    obtain ⟨raw_domain, target⟩ := entry
    obtain ⟨hfirst, hrest⟩ := List.forall_mem_cons.mp hled
    obtain ⟨domain, record, count, visited', hdomain, -, hrecord, hcount, hn⟩ :=
      of_lookupDomains_cons h
    have hfollows := hwalk _ _ _ _ hcount target.isSome
    have hpolicy : nestedPolicy py resolve raw_domain = some record := by
      rw [nestedPolicy, hdomain, Option.bind_eq_bind, Option.bind_some, hrecord]
    unfold tallyBelow
    simp only [hpolicy]
    generalize tally target.isSome record = t at hfollows
    rw [hfollows.counted]
    -- Behind more than ten terms the other domains are left out.
    obtain ⟨others, hothers, hcounted, hsettles⟩ : ∃ others,
        (if 10 < total + count then .leaves (rest.filterMap (·.2))
          else tallyBelow py resolve tally (total + count) rest) = others ∧
        total + count + others.counted = n ∧
        ∀ m, Settles resolve others m ↔
          ∃ counts, List.Forall₂ (Spf.LookupsAt resolve) (rest.filterMap (·.2)) counts ∧
            m = counts.sum := by
      refine ⟨_, rfl, ?_⟩
      by_cases hmany : 10 < total + count
      · rw [if_pos hmany] at hn ⊢
        exact ⟨hn.symm, fun m => settles_leaves⟩
      · rw [if_neg hmany] at hn ⊢
        exact ih hrest hn
    rw [hothers]
    refine ⟨?_, fun m => ?_⟩
    · rw [← hcounted, ← hfollows.counted]
      simp only [LookupTally.counted, LookupTally.add]
      omega
    · rw [settles_add]
      simp only [hfollows.settles, hsettles]
      cases target with
      | none => simp
      | some target =>
        obtain rfl := hfirst target rfl domain hdomain
        have hat : ∀ {a}, Spf.LookupsAt resolve domain a ↔ Spf.Lookups resolve record a :=
          lookupsAt_iff (isHost_of_safeDomain hdomain) hrecord
        have hcons : ((raw_domain, some domain) :: rest).filterMap (·.2) =
            domain :: rest.filterMap (·.2) := List.filterMap_cons_some rfl
        rw [hcons]
        simp only [Option.isSome_some, if_true]
        constructor
        · rintro ⟨a, b, ha, ⟨counts, hcounts, rfl⟩, rfl⟩
          exact ⟨a :: counts, .cons (hat.mpr ha) hcounts, List.sum_cons.symm⟩
        · rintro ⟨all, hall, rfl⟩
          obtain ⟨a, counts, ha, hcounts, rfl⟩ := List.forall₂_cons_left_iff.mp hall
          exact ⟨a, counts.sum, hat.mp ha, ⟨counts, hcounts, rfl⟩, List.sum_cons⟩

/-- A record with its domains below it. -/
theorem follows_add {evaluated : Bool} {record : Text} {n : Nat} {t : LookupTally}
    (hcounted : (spfLookupTerms py record).1 + t.counted = n)
    (hsettles : ∀ m, Settles resolve t m ↔ ∃ counts,
      List.Forall₂ (Spf.LookupsAt resolve) ((below py evaluated record).filterMap (·.2)) counts ∧
        m = counts.sum) :
    Follows resolve evaluated record n ((tallyRecord py evaluated record).add t) := by
  constructor
  · rw [← hcounted, ← counted_tallyRecord evaluated record]
    simp only [LookupTally.counted, LookupTally.add]
    omega
  · intro m
    rw [settles_add]
    simp only [hsettles]
    cases evaluated with
    | false => simp [settles_tallyRecord_false, filterMap_below_false]
    | true =>
      simp only [if_true, settles_tallyRecord, Spf.lookups_iff]
      constructor
      · rintro ⟨a, b, ⟨terms, hread, rfl⟩, ⟨counts, hcounts, rfl⟩, rfl⟩
        rw [filterMap_below hread] at hcounts
        exact ⟨terms, counts, hread, hcounts, rfl⟩
      · rintro ⟨terms, counts, hread, hcounts, rfl⟩
        rw [← filterMap_below hread] at hcounts
        exact ⟨_, _, ⟨terms, hread, rfl⟩, ⟨counts, hcounts, rfl⟩, rfl⟩

theorem add_leaves_nil (t : LookupTally) : t.add (.leaves []) = t := by
  simp [LookupTally.add, LookupTally.leaves]

/-- Every level of the walk. -/
theorem follows_tally (levels : Nat) : ∀ record visited count visited',
    spfRecursiveLookups py resolve levels record visited = ((count, false), visited') →
      ∀ evaluated, Follows resolve evaluated record count
        (tally py resolve levels evaluated record) := by
  induction levels with
  | zero =>
    intro record visited count visited' h evaluated
    have hpair : ((spfLookupTerms py record).1, !(spfLookupTerms py record).2.isEmpty) =
        (count, false) := congrArg (·.1) h
    obtain ⟨hcount, hempty⟩ := Prod.mk.inj hpair
    have hnil : below py evaluated record = [] := by
      have hnested : (spfLookupTerms py record).2 = [] := by simpa using hempty
      exact List.map_eq_nil_iff.mp ((map_below evaluated record).trans hnested)
    rw [tally, ← add_leaves_nil (tallyRecord py evaluated record)]
    exact follows_add hcount fun m => by rw [hnil]; exact settles_leaves
  | succ levels ih =>
    intro record visited count visited' h evaluated
    have hwalk := lookupDomains_take (length_nested_le record) (congrArg (·.1) h)
    rw [← map_below evaluated record] at hwalk
    obtain ⟨hcounted, hsettles⟩ := follows_below ih (led_below evaluated record) hwalk
    exact follows_add hcounted hsettles

/-- The walk asks for no domain twice: the domains it has visited are those it starts with and
new ones. -/
def Fresh (visited visited' : List Text) : Prop :=
  visited <:+ visited' ∧ (visited.Nodup → visited'.Nodup)

theorem Fresh.trans {a b c : List Text} (hab : Fresh a b) (hbc : Fresh b c) : Fresh a c :=
  ⟨hab.1.trans hbc.1, fun h => hbc.2 (hab.2 h)⟩

theorem Fresh.cons {domain : Text} {visited : List Text} (h : domain ∉ visited) :
    Fresh visited (domain :: visited) :=
  ⟨List.suffix_cons _ _, fun hnodup => List.nodup_cons.mpr ⟨h, hnodup⟩⟩

theorem fresh_lookupDomains {walk : Walk}
    (hwalk : ∀ record visited, Fresh visited (walk record visited).2) {raws : List Text}
    {total : Nat} {incomplete : Bool} {visited : List Text} :
    Fresh visited (lookupDomains py resolve walk total incomplete visited raws).2 := by
  induction raws generalizing total incomplete visited with
  | nil => exact ⟨List.suffix_refl _, id⟩
  | cons raw_domain rest ih =>
    unfold lookupDomains
    split
    · exact ih
    · rename_i domain hdomain
      split
      · exact ih
      · rename_i hnew
        split
        · rename_i record hrecord
          have hbelow := (Fresh.cons hnew).trans (hwalk record (domain :: visited))
          dsimp only
          split
          · exact hbelow
          · exact hbelow.trans ih
        · exact (Fresh.cons hnew).trans ih

theorem fresh_spfRecursiveLookups (levels : Nat) (record : Text) (visited : List Text) :
    Fresh visited (spfRecursiveLookups py resolve levels record visited).2 := by
  induction levels generalizing record visited with
  | zero => exact ⟨List.suffix_refl _, id⟩
  | succ levels ih => exact fresh_lookupDomains ih

/-- A count that is called complete is right where the tally is balanced, and only there. -/
theorem spfRecursiveLookups_sound_iff (py : Python) (resolve : Text → List Text) (record : Text)
    (visited : List Text) (n : Nat)
    (h : (spfRecursiveLookups py resolve 5 record visited).1 = (n, false)) :
    Spf.Lookups resolve record n ↔ Balanced py resolve record := by
  have hfollows := follows_tally 5 record visited n _ (Prod.ext h rfl) true
  have hsettles : Settles resolve (tally py resolve 5 true record) n ↔
      Spf.Lookups resolve record n := hfollows.settles n
  rw [← hsettles, Settles, Balanced, ← hfollows.counted, LookupTally.counted]
  refine and_congr_right fun _ => exists_congr fun counts => and_congr_right fun _ => ?_
  omega

/-- A domain that `include` leads to counts with what it includes. -/
def includingZone (domain : Text) : List Text :=
  if domain = "child.example.com".toList then
    ["v=spf1 a mx include:leaf.example.com -all".toList]
  else if domain = "leaf.example.com".toList then
    ["v=spf1 exists:sender.example.com -all".toList]
  else []

theorem spfRecursiveLookups_sound_for_includes :
    Spf.Lookups includingZone "v=spf1 include:child.example.com -all".toList 5 :=
  (spfRecursiveLookups_sound_iff .asciiOnly includingZone _ ["example.com".toList] 5
      (by decide +kernel)).mpr
    ⟨List.all_eq_true.mp (by decide +kernel), [], by
      have hleft : (tally .asciiOnly includingZone 5 true
          "v=spf1 include:child.example.com -all".toList).left = [] := by decide +kernel
      rw [hleft]
      exact .nil, by decide +kernel⟩

/-- A prefix length hides a mechanism. -/
theorem spfRecursiveLookups_not_sound :
    ¬∀ (py : Python) (resolve : Text → List Text) (record : Text) (visited : List Text) (n : Nat),
      (spfRecursiveLookups py resolve 5 record visited).1 = (n, false) →
        Spf.Lookups resolve record n := by
  intro h
  have hzero := h .asciiOnly (fun _ => []) "v=spf1 a/24 -all".toList ["example.com".toList] 0
    (by decide +kernel)
  obtain ⟨terms, counts, hread, -, hcount⟩ := Spf.lookups_iff.mp hzero
  have hterms : (Spf.queries <$> Spf.readRecord "v=spf1 a/24 -all".toList).map List.length =
      some 1 := by decide +kernel
  rw [hread] at hterms
  have hone : (Spf.queries terms).length = 1 := Option.some.inj hterms
  omega

end

end MailCue.Backend.Deliverability
