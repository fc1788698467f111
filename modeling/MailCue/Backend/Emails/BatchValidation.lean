import MailCue.Backend.Emails.SyntaxSoundness
import MailCue.Lib.Dict
import Mathlib.Data.List.Dedup

/-!
# Generated variants in a batch

backend/app/emails/batch_validation.py, `validate_batch` up to its summary, with
`permutation_clusters` of local_part.py. The validation of one address is a parameter.
-/
namespace MailCue.Backend.Emails.Batch
open MailCue.Lib

/-- What a batch reads of an outcome. -/
structure ValidationOutcome where
  status : String
  verdict : String
  deliverable : Option Bool
  reason : String
  catch_all : Option Bool
  control_median_latency_ms : Option Int

structure World where
  py : Python
  /-- `\d` -/
  isDigit : Char → Bool
  /-- `validate_email_detailed`, with its `control_probe_count`; nothing where it raises. -/
  validate : Text → Option Nat → Option ValidationOutcome

/-! ## Clusters -/

def stripPlusTag (local_part : Text) : Text × Bool :=
  if '+' ∈ local_part then (local_part.takeWhile (· != '+'), true) else (local_part, false)

def isSeparator (c : Char) : Bool := ['.', '_', '-', '+'].contains c

section
variable (world : World)

def nameTokens (normalized : Text) : List Text :=
  ((normalized.filter fun c => !world.isDigit c).splitOnP isSeparator).filter (!·.isEmpty)

/-- `max(tokens, key=len)` -/
def longest (tokens : List Text) : Text :=
  tokens.foldl (fun best token => if best.length < token.length then token else best) []

/-- The base of a local part, and whether it had a tag. -/
def base (local_part : Text) : Text × Bool :=
  stripPlusTag (world.py.lower (Text.strip Text.isSpace local_part))

/-- The surname that a local part is filed under, with its base. -/
def signature (local_part : Text) : Option (Text × Text) :=
  let tokens := nameTokens world (base world local_part).1
  if tokens.isEmpty then none
  else if tokens.flatten.length < 4 then none
  else if (longest tokens).length < 4 then none
  else some (longest tokens, (base world local_part).1)

/-- The different ones, where there are two. -/
def variants (members : List (Text × Text)) : List Text :=
  let unique := (members.map Prod.snd).dedup
  if 2 ≤ unique.length then unique else []

def permutationClusters (local_parts : List Text) : List Text :=
  (Dict.group Prod.fst (local_parts.filterMap (signature world))).flatMap fun entry =>
    variants entry.2

end

/-! ## Batches -/

structure AddressWork where
  email : Text
  local_part : Text
  domain : Text
  deriving DecidableEq

structure EmailValidationBatchItem where
  email : Text
  status : String
  verdict : String
  deliverable : Option Bool
  reason : String
  permutation_variant : Bool := false
  error : Option String := none

structure Admitted where
  seen : List Text := []
  work : List AddressWork := []
  invalid : List EmailValidationBatchItem := []

section
variable (world : World)

/-- What a syntax check makes of an address. -/
def Admitted.place (b : Admitted) (candidate : Text) (syntax_ : EmailValidationSyntax) : Admitted :=
  if syntax_.is_valid && !(syntax_.domain.getD []).isEmpty then
    { b with
      work := b.work ++
        [{ email := candidate
           local_part := syntax_.local_part.getD []
           domain := syntax_.domain.getD [] }] }
  else
    { b with
      invalid := b.invalid ++
        [{ email := candidate
           status := "invalid"
           verdict := "undeliverable"
           deliverable := some false
           reason := "invalid_syntax"
           error := syntax_.error }] }

def enroll (b : Admitted) (raw : Text) : Admitted :=
  let candidate := Text.strip Text.isSpace raw
  let key := world.py.lower candidate
  if candidate.isEmpty || b.seen.contains key then b
  else { b with seen := key :: b.seen }.place candidate (validateSyntax world.py candidate)

def admitted (emails : List Text) : Admitted := emails.foldl (enroll world) {}

def byDomain (work : List AddressWork) : List (Text × List AddressWork) :=
  Dict.group AddressWork.domain work

def domainPermutations (work : List AddressWork) : List (Text × List Text) :=
  (byDomain work).map fun entry =>
    (entry.1, if 1 < entry.2.length then permutationClusters world (entry.2.map (·.local_part))
      else [])

/-! ### Outcomes -/

def reuseControls (lead_outcome : ValidationOutcome) : Option Nat :=
  if lead_outcome.catch_all.isSome then some 0 else none

/-- What the first address of a domain tells of the others. -/
def inherit (lead_outcome outcome : ValidationOutcome) : ValidationOutcome :=
  let outcome :=
    if outcome.control_median_latency_ms = none ∧ lead_outcome.control_median_latency_ms ≠ none then
      { outcome with control_median_latency_ms := lead_outcome.control_median_latency_ms }
    else outcome
  if outcome.catch_all = none ∧ lead_outcome.catch_all ≠ none then
    let outcome := { outcome with catch_all := lead_outcome.catch_all }
    if outcome.catch_all = some true ∧ outcome.status = "valid" then
      { outcome with
        status := "catch_all"
        verdict := "risky"
        deliverable := none
        reason := "accept_all_domain" }
    else outcome
  else outcome

/-- `process_domain`: what it adds to the results. -/
def processDomain : List AddressWork → List (Text × ValidationOutcome)
  | [] => []
  | lead :: rest =>
    match world.validate lead.email none with
    | none => []
    | some lead_outcome =>
      (lead.email, lead_outcome) :: rest.filterMap fun member =>
        (world.validate member.email (reuseControls lead_outcome)).map fun outcome =>
          (member.email, inherit lead_outcome outcome)

/-- Of different addresses, in any order. -/
def results (work : List AddressWork) : List (Text × ValidationOutcome) :=
  (byDomain work).flatMap fun entry => processDomain world entry.2

def batchItem (work : List AddressWork) (item : AddressWork) : EmailValidationBatchItem :=
  match Dict.get (results world work) item.email with
  | none =>
    { email := item.email
      status := "undetermined"
      verdict := "unknown"
      deliverable := none
      reason := "validation_failed"
      error := some "Validation could not be completed for this address." }
  | some outcome =>
    let clusters := (Dict.get (domainPermutations world work) item.domain).getD []
    { email := item.email
      status := outcome.status
      verdict := outcome.verdict
      deliverable := outcome.deliverable
      reason := outcome.reason
      permutation_variant := clusters.contains (world.py.lower item.local_part) }

/-- The items of `validate_batch`. -/
def validateBatch (emails : List Text) : List EmailValidationBatchItem :=
  (admitted world emails).invalid ++
    (admitted world emails).work.map (batchItem world (admitted world emails).work)

end

/-! ## What clusters hold -/

section
variable {world : World}

theorem not_mem_stripPlusTag (local_part : Text) : '+' ∉ (stripPlusTag local_part).1 := by
  unfold stripPlusTag
  split
  · intro hmem
    have hkept := List.mem_takeWhile_imp hmem
    simp at hkept
  · assumption

theorem stripPlusTag_of_not_mem {local_part : Text} (h : '+' ∉ local_part) :
    stripPlusTag local_part = (local_part, false) := if_neg h

theorem base_of_signature {local_part : Text} {filed : Text × Text}
    (h : signature world local_part = some filed) : filed.2 = (base world local_part).1 := by
  unfold signature at h
  dsimp only at h
  split at h
  · cases h
  · split at h
    · cases h
    · split at h
      · cases h
      · cases h
        rfl

theorem mem_of_mem_variants {members : List (Text × Text)} {found : Text}
    (h : found ∈ variants members) : found ∈ members.map Prod.snd := by
  unfold variants at h
  dsimp only at h
  split at h
  · exact List.mem_dedup.mp h
  · cases h

theorem base_of_mem_permutationClusters {local_parts : List Text} {found : Text}
    (h : found ∈ permutationClusters world local_parts) :
    ∃ local_part ∈ local_parts, found = (base world local_part).1 := by
  obtain ⟨entry, hentry, hfound⟩ := List.mem_flatMap.mp h
  obtain ⟨filed, hfiled, rfl⟩ := List.mem_map.mp (mem_of_mem_variants hfound)
  rw [(Dict.mem_group hentry).1] at hfiled
  obtain ⟨local_part, hlocal, hsignature⟩ := List.mem_filterMap.mp (List.mem_filter.mp hfiled).1
  exact ⟨local_part, hlocal, base_of_signature hsignature⟩

/-- A single local part has no variants. -/
theorem permutationClusters_of_length_le_one {local_parts : List Text}
    (h : local_parts.length ≤ 1) : permutationClusters world local_parts = [] := by
  refine List.flatMap_eq_nil_iff.mpr fun entry hentry => if_neg ?_
  have hunique : ((entry.2.map Prod.snd).dedup).length ≤ entry.2.length := by
    have hsub := (List.dedup_sublist (entry.2.map Prod.snd)).length_le
    rwa [List.length_map] at hsub
  have hmembers : entry.2.length ≤ (local_parts.filterMap (signature world)).length := by
    rw [(Dict.mem_group hentry).1]
    exact List.length_filter_le ..
  have hfiled := List.length_filterMap_le (signature world) local_parts
  omega

/-- A local part that a syntax check lets through is in a cluster as it stands just where its
base is and it has no tag. -/
theorem lower_mem_permutationClusters_iff {local_parts : List Text} {local_part : Text}
    (hlocal : Text.strip Text.isSpace local_part = local_part) :
    world.py.lower local_part ∈ permutationClusters world local_parts ↔
      (base world local_part).1 ∈ permutationClusters world local_parts ∧
        (base world local_part).2 = false := by
  unfold base
  rw [hlocal]
  constructor
  · intro hmem
    obtain ⟨other, _, hother⟩ := base_of_mem_permutationClusters hmem
    have hplain : '+' ∉ world.py.lower local_part := by
      rw [hother]
      exact not_mem_stripPlusTag _
    rw [stripPlusTag_of_not_mem hplain]
    exact ⟨hmem, rfl⟩
  · intro ⟨hmem, htag⟩
    by_cases hplus : '+' ∈ world.py.lower local_part
    · rw [stripPlusTag, if_pos hplus] at htag
      cases htag
    · rwa [stripPlusTag_of_not_mem hplus] at hmem

/-! ## What is admitted -/

/-- The addresses of the work are different and pass the check, and the others do not. -/
structure Admitted.Sound (world : World) (b : Admitted) : Prop where
  keys : ∀ w ∈ b.work, world.py.lower w.email ∈ b.seen
  distinct : (b.work.map AddressWork.email).Nodup
  valid : ∀ w ∈ b.work, (validateSyntax world.py w.email).is_valid = true ∧
    w.local_part = (validateSyntax world.py w.email).local_part.getD [] ∧
    w.domain = (validateSyntax world.py w.email).domain.getD [] ∧ w.domain ≠ []
  invalid : ∀ item ∈ b.invalid, item.permutation_variant = false ∧
    ¬ ((validateSyntax world.py item.email).is_valid = true ∧
      (validateSyntax world.py item.email).domain.getD [] ≠ [])

theorem Admitted.Sound.enroll {b : Admitted} (h : b.Sound world) (raw : Text) :
    (enroll world b raw).Sound world := by
  unfold Batch.enroll
  dsimp only
  split
  · exact h
  · next hnew =>
    rw [Bool.or_eq_true, not_or, List.contains_iff_mem] at hnew
    have hkeys : ∀ w ∈ b.work, w.email ≠ Text.strip Text.isSpace raw := fun w hw heq =>
      hnew.2 (heq ▸ h.keys w hw)
    unfold Admitted.place
    split
    · next hvalid =>
      rw [Bool.and_eq_true, Bool.not_eq_true', List.isEmpty_eq_false_iff] at hvalid
      refine ⟨fun w hw => ?_, ?_, fun w hw => ?_, h.invalid⟩
      · rcases List.mem_append.mp hw with hold | hlast
        · exact List.mem_cons_of_mem _ (h.keys w hold)
        · rw [List.mem_singleton.mp hlast]
          exact List.mem_cons_self ..
      · rw [List.map_append, List.nodup_append]
        refine ⟨h.distinct, List.nodup_singleton _, fun email hemail other hother => ?_⟩
        obtain ⟨w, hw, rfl⟩ := List.mem_map.mp hemail
        rw [List.mem_singleton.mp hother]
        exact hkeys w hw
      · rcases List.mem_append.mp hw with hold | hlast
        · exact h.valid w hold
        · rw [List.mem_singleton.mp hlast]
          exact ⟨hvalid.1, rfl, rfl, hvalid.2⟩
    · next hinvalid =>
      rw [Bool.and_eq_true, Bool.not_eq_true', List.isEmpty_eq_false_iff] at hinvalid
      refine ⟨fun w hw => List.mem_cons_of_mem _ (h.keys w hw), h.distinct, h.valid,
        fun item hitem => ?_⟩
      rcases List.mem_append.mp hitem with hold | hlast
      · exact h.invalid item hold
      · rw [List.mem_singleton.mp hlast]
        exact ⟨rfl, hinvalid⟩

theorem sound_admitted (world : World) (emails : List Text) :
    (admitted world emails).Sound world := by
  have hstart : ({} : Admitted).Sound world :=
    ⟨fun _ h => (List.not_mem_nil h).elim, List.nodup_nil, fun _ h => (List.not_mem_nil h).elim,
      fun _ h => (List.not_mem_nil h).elim⟩
  unfold admitted
  induction emails using List.reverseRecOn with
  | nil => exact hstart
  | append_singleton emails raw ih =>
    rw [List.foldl_append]
    exact ih.enroll raw

/-- No space is left in a local part that passes. -/
theorem Admitted.Sound.strip_local_part {b : Admitted} (h : b.Sound world) {w : AddressWork}
    (hw : w ∈ b.work) : Text.strip Text.isSpace w.local_part = w.local_part := by
  obtain ⟨hvalid, hlocal, _⟩ := h.valid w hw
  obtain ⟨local_part, domain, ascii_domain, hsplit, hpasses⟩ := exists_passes hvalid
  rw [validateSyntax_of_passes hsplit hpasses] at hlocal
  have hsame : w.local_part = local_part := hlocal
  rw [hsame]
  exact Text.strip_of_forall fun c hc => (not_space_of_isLocalChar (hpasses.dotAtom.chars c hc)).1

/-! ## Flags -/

/-- The local parts of a domain. -/
def localParts (work : List AddressWork) (domain : Text) : List Text :=
  (work.filter fun w => decide (w.domain = domain)).map (·.local_part)

theorem get_domainPermutations {work : List AddressWork} {w : AddressWork} (hw : w ∈ work) :
    (Dict.get (domainPermutations world work) w.domain).getD [] =
      permutationClusters world (localParts work w.domain) := by
  have hmap : domainPermutations world work =
      (byDomain work).map (Prod.map id fun members : List AddressWork =>
        if 1 < members.length then permutationClusters world (members.map (·.local_part))
        else []) := rfl
  rw [hmap, Dict.get_map, byDomain, Dict.get_group_of_mem _ hw, Option.map_some, Option.getD_some]
  split
  · rfl
  · next hlength =>
    refine (permutationClusters_of_length_le_one ?_).symm
    rw [localParts, List.length_map]
    exact Nat.le_of_not_lt hlength

theorem mem_processDomain {lead : AddressWork} {rest : List AddressWork} {email : Text} :
    email ∈ (processDomain world (lead :: rest)).map Prod.fst ↔
      ∃ lead_outcome, world.validate lead.email none = some lead_outcome ∧
        (email = lead.email ∨ ∃ member ∈ rest, email = member.email ∧
          (world.validate member.email (reuseControls lead_outcome)).isSome = true) := by
  cases hlead : world.validate lead.email none with
  | none => simp [processDomain, hlead]
  | some lead_outcome =>
    simp only [processDomain, hlead, List.map_cons, List.mem_cons, List.map_filterMap,
      List.mem_filterMap, Option.map_map, Option.map_eq_some_iff, Option.isSome_iff_exists,
      Function.comp_apply, Option.some.injEq, exists_eq_left']
    refine or_congr_right (exists_congr fun member => and_congr_right fun _ => ?_)
    constructor
    · rintro ⟨outcome, hvalidate, rfl⟩
      exact ⟨rfl, outcome, hvalidate⟩
    · rintro ⟨rfl, outcome, hvalidate⟩
      exact ⟨outcome, hvalidate, rfl⟩

/-- The validation of an address comes to an end, and so does that of the first of its domain. -/
def Validated (world : World) (work : List AddressWork) (w : AddressWork) : Prop :=
  ∃ lead rest lead_outcome,
    work.filter (fun other => decide (other.domain = w.domain)) = lead :: rest ∧
      world.validate lead.email none = some lead_outcome ∧
        (w = lead ∨ (world.validate w.email (reuseControls lead_outcome)).isSome = true)

theorem get_results_iff {work : List AddressWork} (hdistinct : (work.map AddressWork.email).Nodup)
    {w : AddressWork} (hw : w ∈ work) :
    Dict.get (results world work) w.email ≠ none ↔ Validated world work w := by
  have hsame {other : AddressWork} (hother : other ∈ work) (hemail : w.email = other.email) :
      w = other := List.inj_on_of_nodup_map hdistinct hw hother hemail
  rw [ne_eq, Dict.get_eq_none_iff, not_not, results, List.map_flatMap, List.mem_flatMap]
  constructor
  · intro ⟨entry, hentry, hmem⟩
    obtain ⟨hmembers, hnonempty⟩ := Dict.mem_group hentry
    obtain ⟨lead, rest, hcons⟩ := List.exists_cons_of_ne_nil hnonempty
    have hwork {member : AddressWork} (hmember : member ∈ lead :: rest) :
        member ∈ work ∧ member.domain = entry.1 := by
      rw [← hcons, hmembers, List.mem_filter] at hmember
      exact ⟨hmember.1, of_decide_eq_true hmember.2⟩
    rw [hcons] at hmem hmembers
    obtain ⟨lead_outcome, hlead, hemail⟩ := mem_processDomain.mp hmem
    rcases hemail with hemail | ⟨member, hmember, hemail, hvalidated⟩
    · have hw' := hwork (List.mem_cons_self ..)
      cases hsame hw'.1 hemail
      rw [← hw'.2] at hmembers
      exact ⟨w, rest, lead_outcome, hmembers.symm, hlead, .inl rfl⟩
    · have hw' := hwork (List.mem_cons_of_mem _ hmember)
      cases hsame hw'.1 hemail
      rw [← hw'.2] at hmembers
      exact ⟨lead, rest, lead_outcome, hmembers.symm, hlead, .inr hvalidated⟩
  · intro ⟨lead, rest, lead_outcome, hmembers, hlead, hvalidated⟩
    refine ⟨_, Dict.mem_of_get (Dict.get_group_of_mem _ hw), ?_⟩
    rw [hmembers]
    refine mem_processDomain.mpr ⟨lead_outcome, hlead, ?_⟩
    have hmem : w ∈ lead :: rest := by
      rw [← hmembers]
      exact List.mem_filter.mpr ⟨hw, decide_eq_true rfl⟩
    rcases List.mem_cons.mp hmem with rfl | hrest
    · exact .inl rfl
    · rcases hvalidated with rfl | hvalidated
      · exact .inl rfl
      · exact .inr ⟨w, hrest, rfl, hvalidated⟩

theorem permutation_variant_batchItem {work : List AddressWork}
    (hdistinct : (work.map AddressWork.email).Nodup) {w : AddressWork} (hw : w ∈ work)
    (hlocal : Text.strip Text.isSpace w.local_part = w.local_part) :
    (batchItem world work w).permutation_variant = true ↔
      Validated world work w ∧
        (base world w.local_part).1 ∈ permutationClusters world (localParts work w.domain) ∧
          (base world w.local_part).2 = false := by
  rw [← get_results_iff hdistinct hw, ← lower_mem_permutationClusters_iff hlocal, batchItem]
  cases Dict.get (results world work) w.email with
  | none => simp
  | some outcome => simp [get_domainPermutations hw]

theorem email_batchItem (work : List AddressWork) (w : AddressWork) :
    (batchItem world work w).email = w.email := by
  unfold batchItem
  split <;> rfl

/-- The item is flagged just where it is of an address whose base is in a cluster of its
domain. -/
def Right (world : World) (work : List AddressWork) (item : EmailValidationBatchItem) : Prop :=
  item.permutation_variant = true ↔
    ∃ w ∈ work, w.email = item.email ∧
      (base world w.local_part).1 ∈ permutationClusters world (localParts work w.domain)

end

/-- Every flag is right just where no address of a cluster has a tag or fails to be validated. -/
theorem flags_right_iff (world : World) (emails : List Text) :
    (∀ item ∈ validateBatch world emails, Right world (admitted world emails).work item) ↔
      ∀ w ∈ (admitted world emails).work,
        (base world w.local_part).1 ∈
            permutationClusters world (localParts (admitted world emails).work w.domain) →
          Validated world (admitted world emails).work w ∧ (base world w.local_part).2 = false := by
  have hsound := sound_admitted world emails
  have hinvalid : ∀ item ∈ (admitted world emails).invalid,
      Right world (admitted world emails).work item := by
    intro item hitem
    obtain ⟨hflag, hsyntax⟩ := hsound.invalid item hitem
    refine iff_of_false (by simp [hflag]) ?_
    rintro ⟨w, hw, hemail, _⟩
    obtain ⟨hvalid, _, hdomain, hnonempty⟩ := hsound.valid w hw
    rw [hemail] at hvalid hdomain
    exact hsyntax ⟨hvalid, hdomain ▸ hnonempty⟩
  have hright {w : AddressWork} (hw : w ∈ (admitted world emails).work) :
      Right world (admitted world emails).work (batchItem world (admitted world emails).work w) ↔
        ((base world w.local_part).1 ∈
            permutationClusters world (localParts (admitted world emails).work w.domain) →
          Validated world (admitted world emails).work w ∧
            (base world w.local_part).2 = false) := by
    have hone : (∃ other ∈ (admitted world emails).work, other.email = w.email ∧
        (base world other.local_part).1 ∈
          permutationClusters world (localParts (admitted world emails).work other.domain)) ↔
        (base world w.local_part).1 ∈
          permutationClusters world (localParts (admitted world emails).work w.domain) := by
      constructor
      · rintro ⟨other, hother, hemail, hmem⟩
        exact List.inj_on_of_nodup_map hsound.distinct hother hw hemail ▸ hmem
      · exact fun hmem => ⟨w, hw, rfl, hmem⟩
    rw [Right, email_batchItem, hone,
      permutation_variant_batchItem hsound.distinct hw (hsound.strip_local_part hw)]
    tauto
  constructor
  · intro h w hw
    exact (hright hw).mp (h _ (List.mem_append_right _ (List.mem_map_of_mem hw)))
  · intro h item hitem
    rcases List.mem_append.mp hitem with hfront | hback
    · exact hinvalid item hfront
    · obtain ⟨w, hw, rfl⟩ := List.mem_map.mp hback
      exact (hright hw).mpr (h w hw)

/-- ASCII alone, where every mailbox answers. -/
def World.plain : World where
  py := asciiPython
  isDigit := Char.isDigit
  validate := fun _ _ => some
    { status := "valid"
      verdict := "deliverable"
      deliverable := some true
      reason := "accepted"
      catch_all := some false
      control_median_latency_ms := none }

def taggedBatch : List Text := ["john.smith@acme.com".toList, "j.smith+news@acme.com".toList]

/-- A variant with a tag makes a cluster and is not flagged for it. -/
theorem tagged_variant_unflagged :
    ¬ ∀ item ∈ validateBatch .plain taggedBatch,
      Right .plain (admitted .plain taggedBatch).work item := by
  intro h
  have hwork : (admitted .plain taggedBatch).work =
      [⟨"john.smith@acme.com".toList, "john.smith".toList, "acme.com".toList⟩,
        ⟨"j.smith+news@acme.com".toList, "j.smith+news".toList, "acme.com".toList⟩] := by
    decide +kernel
  have hsound := sound_admitted .plain taggedBatch
  have hw : ⟨"j.smith+news@acme.com".toList, "j.smith+news".toList, "acme.com".toList⟩ ∈
      (admitted .plain taggedBatch).work := by
    rw [hwork]
    exact List.mem_cons_of_mem _ (List.mem_singleton_self _)
  have hcluster : (base .plain "j.smith+news".toList).1 ∈
      permutationClusters .plain
        (localParts (admitted .plain taggedBatch).work "acme.com".toList) := by
    rw [hwork]
    decide +kernel
  have hflag := (h _ (List.mem_append_right _ (List.mem_map_of_mem hw))).mpr
    ⟨_, hw, (email_batchItem _ _).symm, hcluster⟩
  have huntagged := (permutation_variant_batchItem hsound.distinct hw
    (hsound.strip_local_part hw)).mp hflag
  exact absurd huntagged.2.2 (by decide)

end MailCue.Backend.Emails.Batch
