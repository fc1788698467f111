import Mathlib.Data.String.Basic
import MailCue.Tunnel.Edge.SmtpDialogue

/-!
# Results in the caller's order

The recipients of a request are grouped by domain, each group is attempted on its own, and
the statuses are put back at the places of the request. A group is shown to be the members
of its domain in order, an attempt to give one status for each member, and the places of
different groups to be different ones. The SMTP sessions are those of the client, against
any hosts.
-/
namespace MailCue.Tunnel.Edge
open MailCue.Lib MailCue.Tunnel.Proto

/-! ## Groups -/

def domainOf (rcpt : String) : Option String :=
  (rsplitOnce rcpt '@').map fun p => toAsciiLowercase p.2

/-- The recipients with their places. -/
def indexed (idx : Nat) (recipients : List String) : List (Nat × String) :=
  (recipients.zipIdx idx).map Prod.swap

def members (domain : String) (recipients : List String) : List (Nat × String) :=
  (indexed 0 recipients).filter fun x => domainOf x.2 = some domain

def groupAt (key : String) (groups : List Group) : List (Nat × String) :=
  groups.flatMap fun g => if g.1 = key then g.2 else []

def Sorted (groups : List Group) : Prop := groups.Pairwise fun g g' => g.1 < g'.1

theorem groupAt_eq_nil {key : String} {groups : List Group} (h : ∀ g ∈ groups, g.1 ≠ key) :
    groupAt key groups = [] := by
  rw [groupAt, List.flatMap_eq_nil_iff]
  intro g hg
  rw [if_neg (h g hg)]

theorem groupAt_cons (key : String) (g : Group) (groups : List Group) :
    groupAt key (g :: groups) = (if g.1 = key then g.2 else []) ++ groupAt key groups := rfl

theorem mem_pushGroup {domain : String} {x : Nat × String} {groups : List Group} {g : Group}
    (h : g ∈ pushGroup domain x groups) : g.1 = domain ∨ ∃ g' ∈ groups, g'.1 = g.1 := by
  induction groups with
  | nil => exact .inl (congrArg Prod.fst (List.mem_singleton.mp h))
  | cons first rest ih =>
    rw [pushGroup] at h
    split at h
    · rename_i heq
      rcases List.mem_cons.mp h with rfl | h
      · exact .inl heq.symm
      · exact .inr ⟨g, List.mem_cons_of_mem _ h, rfl⟩
    · split at h
      · rcases List.mem_cons.mp h with rfl | h
        · exact .inl rfl
        · exact .inr ⟨g, h, rfl⟩
      · rcases List.mem_cons.mp h with rfl | h
        · exact .inr ⟨_, List.mem_cons_self, rfl⟩
        · exact (ih h).imp_right fun ⟨g', hg', heq⟩ => ⟨g', List.mem_cons_of_mem _ hg', heq⟩

theorem pushGroup_sorted (domain : String) (x : Nat × String) {groups : List Group}
    (h : Sorted groups) : Sorted (pushGroup domain x groups) := by
  induction groups with
  | nil => exact List.pairwise_singleton _ _
  | cons first rest ih =>
    obtain ⟨hfirst, hrest⟩ := List.pairwise_cons.mp h
    rw [pushGroup]
    split
    · exact List.pairwise_cons.mpr ⟨hfirst, hrest⟩
    · rename_i hne
      split
      · rename_i hlt
        refine List.pairwise_cons.mpr ⟨fun g hg => ?_, h⟩
        rcases List.mem_cons.mp hg with rfl | hg
        · exact hlt
        · exact hlt.trans (hfirst g hg)
      · rename_i hnlt
        have hgt : first.1 < domain := lt_of_le_of_ne (not_lt.mp hnlt) (Ne.symm hne)
        refine List.pairwise_cons.mpr ⟨fun g hg => ?_, ih hrest⟩
        rcases mem_pushGroup hg with heq | ⟨g', hg', heq⟩
        · rw [heq]
          exact hgt
        · rw [← heq]
          exact hfirst g' hg'

/-- A recipient goes behind the others of its domain. -/
theorem groupAt_pushGroup (key domain : String) (x : Nat × String) {groups : List Group}
    (h : Sorted groups) : groupAt key (pushGroup domain x groups) =
      groupAt key groups ++ if domain = key then [x] else [] := by
  induction groups with
  | nil => simp [pushGroup, groupAt]
  | cons first rest ih =>
    obtain ⟨hfirst, hrest⟩ := List.pairwise_cons.mp h
    rw [pushGroup]
    split
    · rename_i heq
      have hnone : first.1 = key → groupAt key rest = [] := fun hkey =>
        groupAt_eq_nil fun g hg => hkey ▸ (hfirst g hg).ne'
      rw [groupAt_cons, groupAt_cons, heq]
      by_cases hkey : first.1 = key
      · simp [hkey, hnone hkey]
      · simp [hkey]
    · split
      · rename_i hlt
        have hnone : domain = key → groupAt key (first :: rest) = [] := by
          rintro rfl
          refine groupAt_eq_nil fun g hg => ?_
          rcases List.mem_cons.mp hg with rfl | hg
          · exact hlt.ne'
          · exact (hlt.trans (hfirst g hg)).ne'
        rw [groupAt_cons]
        by_cases hkey : domain = key
        · simp [hkey, hnone hkey]
        · simp [hkey]
      · rw [groupAt_cons, groupAt_cons, ih hrest, List.append_assoc]

theorem groupByDomain_spec {idx : Nat} {groups by_domain : List Group} {recipients : List String}
    (h : Sorted groups) (hok : groupByDomain idx groups recipients = .ok by_domain) :
    Sorted by_domain ∧ (∀ rcpt ∈ recipients, domainOf rcpt ≠ none) ∧
      ∀ key, groupAt key by_domain = groupAt key groups ++
        (indexed idx recipients).filter fun x => domainOf x.2 = some key := by
  induction recipients generalizing idx groups with
  | nil =>
    cases hok
    exact ⟨h, by simp, by simp [indexed]⟩
  | cons rcpt rest ih =>
    rw [groupByDomain] at hok
    split at hok
    · cases hok
    · rename_i domain hsplit
      have hdomain : domainOf rcpt = some (toAsciiLowercase domain) := by
        rw [domainOf, hsplit]
        rfl
      obtain ⟨hsorted, hall, hat⟩ := ih (pushGroup_sorted _ _ h) hok
      refine ⟨hsorted, ?_, ?_⟩
      · exact List.forall_mem_cons.mpr ⟨by simp [hdomain], hall⟩
      · intro key
        have hcons : indexed idx (rcpt :: rest) = (idx, rcpt) :: indexed (idx + 1) rest := rfl
        rw [hat, groupAt_pushGroup key _ _ h, hcons, List.filter_cons, List.append_assoc]
        by_cases hkey : toAsciiLowercase domain = key
        · simp [hdomain, hkey]
        · simp [hdomain, hkey]

theorem groupAt_of_mem {groups : List Group} (h : Sorted groups) {g : Group} (hg : g ∈ groups) :
    groupAt g.1 groups = g.2 := by
  induction groups with
  | nil => cases hg
  | cons first rest ih =>
    obtain ⟨hfirst, hrest⟩ := List.pairwise_cons.mp h
    rw [groupAt_cons]
    rcases List.mem_cons.mp hg with rfl | hg
    · rw [if_pos rfl, groupAt_eq_nil fun g' hg' => (hfirst g' hg').ne', List.append_nil]
    · rw [if_neg (hfirst g hg).ne, List.nil_append, ih hrest hg]

/-- The groups before the one of a domain. -/
theorem takeWhile_ne {pre post : List Group} {g : Group} (h : Sorted (pre ++ g :: post)) :
    (pre ++ g :: post).takeWhile (·.1 ≠ g.1) = pre := by
  obtain ⟨-, -, hcross⟩ := List.pairwise_append.mp h
  have hne : ∀ x ∈ pre, x.1 ≠ g.1 := fun x hx => (hcross x hx g List.mem_cons_self).ne
  rw [List.takeWhile_append_of_pos (by simpa using hne), List.takeWhile_cons_of_neg (by simp),
    List.append_nil]

/-! ## Places -/

theorem getElem?_indexed (idx : Nat) (recipients : List String) (i : Nat) :
    (indexed idx recipients)[i]? = recipients[i]?.map fun rcpt => (idx + i, rcpt) := by
  rw [indexed, List.getElem?_map, List.getElem?_zipIdx, Option.map_map]
  rfl

theorem mem_indexed {recipients : List String} {i : Nat} {rcpt : String} :
    (i, rcpt) ∈ indexed 0 recipients ↔ recipients[i]? = some rcpt := by
  rw [List.mem_iff_getElem?]
  simp only [getElem?_indexed, Option.map_eq_some_iff, Prod.mk.injEq, Nat.zero_add]
  constructor
  · rintro ⟨_, _, h, rfl, rfl⟩
    exact h
  · exact fun h => ⟨i, rcpt, h, rfl, rfl⟩

theorem mem_members {domain : String} {recipients : List String} {i : Nat} {rcpt : String} :
    (i, rcpt) ∈ members domain recipients ↔
      recipients[i]? = some rcpt ∧ domainOf rcpt = some domain := by
  rw [members, List.mem_filter, mem_indexed, decide_eq_true_iff]

theorem nodup_places (domain : String) (recipients : List String) :
    ((members domain recipients).map (·.1)).Nodup := by
  have hall : ((indexed 0 recipients).map (·.1)).Nodup := by
    have hplaces : (indexed 0 recipients).map (·.1) = List.range' 0 recipients.length := by
      rw [indexed, List.map_map, ← List.zipIdx_map_snd]
      rfl
    rw [hplaces]
    exact List.nodup_range'
  exact hall.sublist (List.filter_sublist.map _)

/-- Two groups have no place in common. -/
theorem places_disjoint {domain domain' : String} {recipients : List String}
    (h : domain ≠ domain') {i : Nat} (hi : i ∈ (members domain recipients).map (·.1)) :
    i ∉ (members domain' recipients).map (·.1) := by
  intro hi'
  obtain ⟨⟨_, rcpt⟩, hmem, rfl⟩ := List.mem_map.mp hi
  obtain ⟨⟨_, rcpt'⟩, hmem', heq⟩ := List.mem_map.mp hi'
  obtain ⟨hrcpt, hdomain⟩ := mem_members.mp hmem
  obtain ⟨hrcpt', hdomain'⟩ := mem_members.mp hmem'
  dsimp only at heq
  rw [heq, hrcpt] at hrcpt'
  cases hrcpt'
  rw [hdomain] at hdomain'
  exact h (Option.some.inj hdomain')

theorem length_placeAll (results : List (Option RelayStatus)) (indices : List Nat)
    (statuses : List RelayStatus) : (placeAll results indices statuses).length = results.length := by
  induction indices generalizing results statuses with
  | nil => rfl
  | cons idx indices ih =>
    cases statuses with
    | nil => rfl
    | cons status statuses => rw [placeAll, ih, List.length_set]

theorem placeAll_of_not_mem {results : List (Option RelayStatus)} {indices : List Nat}
    {statuses : List RelayStatus} {i : Nat} (h : i ∉ indices) :
    (placeAll results indices statuses)[i]? = results[i]? := by
  induction indices generalizing results statuses with
  | nil => rfl
  | cons idx indices ih =>
    cases statuses with
    | nil => rfl
    | cons status statuses =>
      obtain ⟨hne, hrest⟩ := not_or.mp (mt List.mem_cons.mpr h)
      rw [placeAll, ih hrest, List.getElem?_set_ne (Ne.symm hne)]

theorem placeAll_of_mem {results : List (Option RelayStatus)} {indices : List Nat}
    {statuses : List RelayStatus} {i k : Nat} {status : RelayStatus} (hnodup : indices.Nodup)
    (hi : i < results.length) (hidx : indices[k]? = some i) (hstatus : statuses[k]? = some status) :
    (placeAll results indices statuses)[i]? = some (some status) := by
  induction indices generalizing results statuses k with
  | nil => cases hidx
  | cons idx indices ih =>
    obtain ⟨hnew, hrest⟩ := List.nodup_cons.mp hnodup
    cases statuses with
    | nil => cases hstatus
    | cons first statuses =>
      rw [placeAll]
      cases k with
      | zero =>
        cases hidx
        cases hstatus
        rw [placeAll_of_not_mem hnew, List.getElem?_set_self hi]
      | succ k => exact ih hrest (by rwa [List.length_set]) hidx hstatus

/-! ## Attempts -/

/-- What is tried for one group: the sessions held since the request began, and the status
of each member. -/
def attemptGroup (sub : Submission) (calls : List SmtpDelivery) (g : Group) :
    List SmtpDelivery × List RelayStatus :=
  let failAll (reason : String) : List RelayStatus := g.2.map fun _ => .tempFail reason none
  match sub.world.resolveMx g.1 with
  | .error e => (calls, failAll s!"MX lookup for {g.1}: {e}")
  | .ok mxs =>
    let attempts := mxs.flatMap fun mx => sub.cfg.allowed_smtp_ports.map fun port => (mx, port)
    match walkMx sub (g.2.map (·.2)) attempts calls none with
    | (calls, some outcomes, _) => (calls, outcomes)
    | (calls, none, last_skip) => (calls, failAll (last_skip.getD s!"no usable MX for {g.1}"))

theorem relayGroup_eq (sub : Submission) (calls : List SmtpDelivery)
    (results : List (Option RelayStatus)) (g : Group) :
    relayGroup sub calls results g =
      ((attemptGroup sub calls g).1,
        placeAll results (g.2.map (·.1)) (attemptGroup sub calls g).2) := by
  unfold relayGroup attemptGroup
  dsimp only
  cases sub.world.resolveMx g.1 with
  | error e =>
    dsimp only
    rw [List.map_map]
    rfl
  | ok mxs =>
    dsimp only
    generalize walkMx sub (g.2.map (·.2)) _ calls none = walked
    obtain ⟨calls', outcomes, last_skip⟩ := walked
    cases outcomes with
    | none =>
      dsimp only
      rw [List.map_map]
      rfl
    | some outcomes => rfl

/-- The sessions held when the groups have been tried. -/
def sessionsAfter (sub : Submission) (groups : List Group) (calls : List SmtpDelivery) :
    List SmtpDelivery :=
  groups.foldl (fun calls g => (attemptGroup sub calls g).1) calls

theorem sessionsAfter_append (sub : Submission) (pre : List Group) (g : Group) (post : List Group)
    (calls : List SmtpDelivery) : sessionsAfter sub (pre ++ g :: post) calls =
      sessionsAfter sub post (attemptGroup sub (sessionsAfter sub pre calls) g).1 := by
  simp [sessionsAfter]

theorem relayGroups_calls (sub : Submission) (groups : List Group) (calls : List SmtpDelivery)
    (results : List (Option RelayStatus)) :
    (relayGroups sub groups calls results).1 = sessionsAfter sub groups calls := by
  induction groups generalizing calls results with
  | nil => rfl
  | cons g rest ih =>
    rw [relayGroups, ih, relayGroup_eq]
    rfl

theorem relayGroups_of_not_mem (sub : Submission) {groups : List Group} {calls : List SmtpDelivery}
    {results : List (Option RelayStatus)} {i : Nat} (h : ∀ g ∈ groups, i ∉ g.2.map (·.1)) :
    (relayGroups sub groups calls results).2[i]? = results[i]? := by
  induction groups generalizing calls results with
  | nil => rfl
  | cons g rest ih =>
    rw [List.forall_mem_cons] at h
    rw [relayGroups, ih h.2, relayGroup_eq]
    exact placeAll_of_not_mem h.1

/-- The status of a member stands at its place in the end. -/
theorem relayGroups_of_mem (sub : Submission) {groups pre post : List Group} {g : Group}
    {calls : List SmtpDelivery} {results : List (Option RelayStatus)} {i k : Nat} {rcpt : String}
    {status : RelayStatus} (hgroups : groups = pre ++ g :: post) (hi : i < results.length)
    (hnodup : (g.2.map (·.1)).Nodup) (hpost : ∀ g' ∈ post, i ∉ g'.2.map (·.1))
    (hmember : g.2[k]? = some (i, rcpt))
    (hstatus : (attemptGroup sub (sessionsAfter sub pre calls) g).2[k]? = some status) :
    (relayGroups sub groups calls results).2[i]? = some (some status) := by
  subst hgroups
  induction pre generalizing calls results with
  | nil =>
    have hidx : (g.2.map (·.1))[k]? = some i := by
      rw [List.getElem?_map, hmember]
      rfl
    rw [List.nil_append, relayGroups, relayGroups_of_not_mem sub hpost, relayGroup_eq]
    exact placeAll_of_mem hnodup hi hidx hstatus
  | cons first pre ih =>
    rw [List.cons_append, relayGroups, relayGroup_eq]
    exact ih (by rwa [length_placeAll]) hstatus

theorem walkMx_grows (sub : Submission) (group_rcpts : List String)
    (attempts : List (MxRecord × UInt16)) (calls : List SmtpDelivery) (last_skip : Option String) :
    calls <+: (walkMx sub group_rcpts attempts calls last_skip).1 := by
  induction attempts generalizing calls last_skip with
  | nil => exact List.prefix_refl calls
  | cons attempt rest ih =>
    rw [walkMx]
    split
    · exact ih calls last_skip
    · dsimp only
      split
      · exact (List.prefix_append _ _).trans (ih _ _)
      · exact List.prefix_append _ _
      · exact (List.prefix_append _ _).trans (ih _ _)

theorem attemptGroup_of_error {sub : Submission} {g : Group} {e : String}
    (h : sub.world.resolveMx g.1 = .error e) (calls : List SmtpDelivery) :
    attemptGroup sub calls g =
      (calls, g.2.map fun _ => .tempFail s!"MX lookup for {g.1}: {e}" none) := by
  simp only [attemptGroup, h]

theorem attemptGroup_of_ok {sub : Submission} {g : Group} {mxs : List MxRecord}
    (h : sub.world.resolveMx g.1 = .ok mxs) (calls : List SmtpDelivery) :
    let walked := walkMx sub (g.2.map (·.2))
      (mxs.flatMap fun mx => sub.cfg.allowed_smtp_ports.map fun port => (mx, port)) calls none
    attemptGroup sub calls g = (walked.1, walked.2.1.getD
      (g.2.map fun _ => .tempFail (walked.2.2.getD s!"no usable MX for {g.1}") none)) := by
  simp only [attemptGroup, h]
  generalize walkMx sub (g.2.map (·.2)) _ calls none = walked
  obtain ⟨calls', outcomes, last_skip⟩ := walked
  cases outcomes <;> rfl

theorem attemptGroup_grows (sub : Submission) (calls : List SmtpDelivery) (g : Group) :
    calls <+: (attemptGroup sub calls g).1 := by
  cases h : sub.world.resolveMx g.1 with
  | error e =>
    simp only [attemptGroup_of_error h, List.prefix_refl]
  | ok mxs =>
    rw [attemptGroup_of_ok h]
    exact walkMx_grows _ _ _ _ _

theorem sessionsAfter_grows (sub : Submission) (groups : List Group) (calls : List SmtpDelivery) :
    calls <+: sessionsAfter sub groups calls := by
  induction groups generalizing calls with
  | nil => exact List.prefix_refl calls
  | cons g rest ih => exact (attemptGroup_grows sub calls g).trans (ih _)

/-- A request that is not refused. -/
theorem handleRelay_ok {cfg : EdgeConfig} {world : World} {helo_name envelope_from : String}
    {recipients : List String} {raw_message : Bytes} {opts : RelayOpts} {rs : List RecipientResult}
    {calls : List SmtpDelivery}
    (h : handleRelay cfg world helo_name envelope_from recipients raw_message opts = (.ok rs, calls)) :
    ∃ by_domain, groupByDomain 0 [] recipients = .ok by_domain ∧
      calls = sessionsAfter ⟨cfg, world, helo_name, envelope_from, raw_message, opts⟩ by_domain [] ∧
      rs = finalResults recipients
        (relayGroups ⟨cfg, world, helo_name, envelope_from, raw_message, opts⟩ by_domain []
          (recipients.map fun _ => none)).2 := by
  unfold handleRelay at h
  cases hreject : rejectRelay cfg envelope_from recipients raw_message with
  | some rej =>
    rw [hreject] at h
    cases h
  | none =>
    cases hgroups : groupByDomain 0 [] recipients with
    | error rej =>
      rw [hreject, hgroups] at h
      cases h
    | ok by_domain =>
      rw [hreject, hgroups] at h
      obtain ⟨hok, hcalls⟩ := Prod.mk.inj h
      rw [relayGroups_calls] at hcalls
      exact ⟨by_domain, rfl, hcalls.symm, (Except.ok.inj hok).symm⟩

/-- The groups of a request. -/
structure Grouped (recipients : List String) (by_domain : List Group) : Prop where
  sorted : Sorted by_domain
  members : ∀ g ∈ by_domain, g.2 = members g.1 recipients
  covers : ∀ (i : Nat) (rcpt : String), recipients[i]? = some rcpt → ∃ g ∈ by_domain, domainOf rcpt = some g.1

theorem grouped {recipients : List String} {by_domain : List Group}
    (h : groupByDomain 0 [] recipients = .ok by_domain) : Grouped recipients by_domain := by
  obtain ⟨hsorted, hdomains, hat⟩ := groupByDomain_spec List.Pairwise.nil h
  have hmembers : ∀ key, groupAt key by_domain = members key recipients := fun key =>
    (hat key).trans (List.nil_append _)
  refine ⟨hsorted, fun g hg => ?_, fun i rcpt hrcpt => ?_⟩
  · rw [← hmembers, groupAt_of_mem hsorted hg]
  · obtain ⟨domain, hdomain⟩ := Option.ne_none_iff_exists'.mp
      (hdomains rcpt (List.mem_of_getElem? hrcpt))
    have hmember : (i, rcpt) ∈ groupAt domain by_domain := by
      rw [hmembers]
      exact mem_members.mpr ⟨hrcpt, hdomain⟩
    obtain ⟨g, hg, hin⟩ := List.mem_flatMap.mp hmember
    split at hin
    · rename_i heq
      exact ⟨g, hg, by rw [heq, hdomain]⟩
    · cases hin

/-- The sessions held before the group of a domain is tried. -/
def sessionsBefore (sub : Submission) (by_domain : List Group) (domain : String) :
    List SmtpDelivery :=
  sessionsAfter sub (by_domain.takeWhile (·.1 ≠ domain)) []

theorem finalResults_recipients (recipients : List String) (results : List (Option RelayStatus)) :
    (finalResults recipients results).map (·.recipient) = recipients := by
  apply List.ext_getElem?
  intro i
  rw [List.getElem?_map, finalResults, List.getElem?_mapIdx, Option.map_map]
  cases recipients[i]? <;> rfl

/-- Where attempts give one status for each member, each is found at the member's place. -/
theorem placed (sub : Submission) {recipients : List String} {by_domain : List Group}
    (hgrouped : Grouped recipients by_domain)
    (hlength : ∀ calls g, (attemptGroup sub calls g).2.length = g.2.length)
    {i : Nat} {rcpt : String} (hrcpt : recipients[i]? = some rcpt) :
    ∃ (domain : String) (k : Nat) (status : RelayStatus), domainOf rcpt = some domain ∧
      (members domain recipients)[k]? = some (i, rcpt) ∧
      (attemptGroup sub (sessionsBefore sub by_domain domain)
        (domain, members domain recipients)).1 <+: sessionsAfter sub by_domain [] ∧
      (attemptGroup sub (sessionsBefore sub by_domain domain)
        (domain, members domain recipients)).2[k]? = some status ∧
      (finalResults recipients (relayGroups sub by_domain [] (recipients.map fun _ => none)).2)[i]? =
        some ⟨rcpt, status⟩ := by
  obtain ⟨g, hg, hdomain⟩ := hgrouped.covers i rcpt hrcpt
  obtain ⟨pre, post, rfl⟩ := List.append_of_mem hg
  have hmembers := hgrouped.members g hg
  obtain ⟨k, hk⟩ := List.mem_iff_getElem?.mp (mem_members.mpr ⟨hrcpt, hdomain⟩)
  obtain ⟨-, hpost, -⟩ := List.pairwise_append.mp hgrouped.sorted
  have hbefore : sessionsBefore sub (pre ++ g :: post) g.1 = sessionsAfter sub pre [] := by
    rw [sessionsBefore, takeWhile_ne hgrouped.sorted]
  have hpair : (g.1, members g.1 recipients) = g := by rw [← hmembers]
  have hmember : g.2[k]? = some (i, rcpt) := by rw [hmembers, hk]
  obtain ⟨status, hstatus⟩ : ∃ status,
      (attemptGroup sub (sessionsAfter sub pre []) g).2[k]? = some status := by
    have hbound := (List.getElem?_eq_some_iff.mp hmember).1
    rw [← hlength (sessionsAfter sub pre [])] at hbound
    exact ⟨_, List.getElem?_eq_getElem hbound⟩
  refine ⟨g.1, k, status, hdomain, hk, ?_, ?_, ?_⟩
  · rw [hbefore, hpair, sessionsAfter_append]
    exact sessionsAfter_grows sub post _
  · rw [hbefore, hpair]
    exact hstatus
  · have hroom : i < (recipients.map fun _ => (none : Option RelayStatus)).length := by
      rw [List.length_map]
      exact (List.getElem?_eq_some_iff.mp hrcpt).1
    have hnodup : (g.2.map (·.1)).Nodup := by
      rw [hmembers]
      exact nodup_places _ _
    have hlater : ∀ g' ∈ post, i ∉ g'.2.map (·.1) := by
      intro g' hg'
      have hne : g.1 ≠ g'.1 := ((List.pairwise_cons.mp hpost).1 g' hg').ne
      have hmem : i ∈ (members g.1 recipients).map (·.1) :=
        List.mem_map.mpr ⟨_, List.mem_of_getElem? hk, rfl⟩
      rw [hgrouped.members g' (List.mem_append_right _ (List.mem_cons_of_mem _ hg'))]
      exact places_disjoint hne hmem
    have hplace := relayGroups_of_mem sub rfl hroom hnodup hlater hmember hstatus
    rw [finalResults, List.getElem?_mapIdx, hrcpt, Option.map_some, hplace]
    rfl

/-! ## Sessions with real hosts -/

/-- The hosts there are to talk to, as they are when the sessions so far have been held. -/
abbrev Net := List SmtpDelivery → SmtpDelivery → SmtpClient.Peer

def Net.session (net : Net) (calls : List SmtpDelivery) (d : SmtpDelivery) :
    Except String SmtpAttempt × List SmtpClient.Event :=
  (net calls d).deliver d []

def World.ofNet (resolveMx : String → Except String (List MxRecord)) (net : Net) : World where
  resolveMx := resolveMx
  deliver calls d := (net.session calls d).1

/-- A session that reached the recipients has one outcome for each. -/
theorem length_of_reached {net : Net} {calls : List SmtpDelivery} {d : SmtpDelivery}
    {outcomes : List RecipientOutcome} (h : (net.session calls d).1 = .ok (.reached outcomes)) :
    outcomes.length = d.recipients.length := by
  have htold := (SmtpClient.deliver_reports (net calls d) d).told outcomes h
  rw [← htold.named, List.length_map]

section
variable {cfg : EdgeConfig} {resolveMx : String → Except String (List MxRecord)} {net : Net}
  {helo_name envelope_from : String} {raw_message : Bytes} {opts : RelayOpts}

theorem walkMx_length {attempts : List (MxRecord × UInt16)} {group_rcpts : List String}
    {calls : List SmtpDelivery} {last_skip : Option String} {statuses : List RelayStatus}
    (h : (walkMx ⟨cfg, .ofNet resolveMx net, helo_name, envelope_from, raw_message, opts⟩ group_rcpts
      attempts calls last_skip).2.1 = some statuses) : statuses.length = group_rcpts.length := by
  induction attempts generalizing calls last_skip with
  | nil => cases h
  | cons attempt rest ih =>
    rw [walkMx] at h
    split at h
    · exact ih h
    · dsimp only at h
      split at h
      · exact ih h
      · rename_i outcomes hreached
        cases h
        rw [List.length_map]
        exact length_of_reached hreached
      · exact ih h

theorem attemptGroup_length (calls : List SmtpDelivery) (g : Group) :
    (attemptGroup ⟨cfg, .ofNet resolveMx net, helo_name, envelope_from, raw_message, opts⟩
      calls g).2.length = g.2.length := by
  generalize hsub : (⟨cfg, .ofNet resolveMx net, helo_name, envelope_from, raw_message, opts⟩ :
    Submission) = sub
  cases h : sub.world.resolveMx g.1 with
  | error e =>
    rw [attemptGroup_of_error h]
    exact List.length_map _
  | ok mxs =>
    rw [attemptGroup_of_ok h]
    dsimp only
    generalize hwalk : (walkMx sub (g.2.map (·.2)) _ calls none).2.1 = outcomes
    cases outcomes with
    | none => exact List.length_map _
    | some statuses =>
      subst hsub
      have hlength := walkMx_length hwalk
      rwa [List.length_map] at hlength

/-- Every entry of the result names the recipient of its place and has the status that the
attempt for the recipient's own domain gave to its place in the group. -/
theorem handleRelay_aligned {recipients : List String} {rs : List RecipientResult}
    {calls : List SmtpDelivery}
    (h : handleRelay cfg (.ofNet resolveMx net) helo_name envelope_from recipients raw_message opts =
      (.ok rs, calls)) :
    rs.map (·.recipient) = recipients ∧
    ∃ before : String → List SmtpDelivery, ∀ (i : Nat) (rcpt : String), recipients[i]? = some rcpt →
      ∃ (domain : String) (k : Nat) (status : RelayStatus), domainOf rcpt = some domain ∧
        (members domain recipients)[k]? = some (i, rcpt) ∧
        (attemptGroup ⟨cfg, .ofNet resolveMx net, helo_name, envelope_from, raw_message, opts⟩
          (before domain) (domain, members domain recipients)).1 <+: calls ∧
        (attemptGroup ⟨cfg, .ofNet resolveMx net, helo_name, envelope_from, raw_message, opts⟩
          (before domain) (domain, members domain recipients)).2[k]? = some status ∧
        rs[i]? = some ⟨rcpt, status⟩ := by
  obtain ⟨by_domain, hgroups, rfl, rfl⟩ := handleRelay_ok h
  refine ⟨finalResults_recipients _ _, sessionsBefore
    ⟨cfg, .ofNet resolveMx net, helo_name, envelope_from, raw_message, opts⟩ by_domain, ?_⟩
  intro i rcpt hrcpt
  exact placed _ (grouped hgroups) attemptGroup_length hrcpt

end

/-- A host that takes mail for all but one recipient. -/
def picky (refused : String) : SmtpClient.Peer where
  connect _ := .connected
  banner _ := .ok ⟨220, "ready"⟩
  answer _ _ c :=
    match c with
    | .data => .ok ⟨354, "go"⟩
    | .rcpt rcpt => if rcpt = refused then .ok ⟨550, "no"⟩ else .ok ⟨250, "ok"⟩
    | _ => .ok ⟨250, "ok"⟩
  handshake _ := .ok ()
  body _ _ _ := .replied ⟨250, "queued"⟩
  elapsed _ := 1
  date _ := "now"

theorem groupByDomain_picky : groupByDomain 0 [] ["a@y.org", "c@x.org", "b@Y.org"] =
    .ok [("x.org", [(1, "c@x.org")]), ("y.org", [(0, "a@y.org"), (2, "b@Y.org")])] := by
  -- evaluated at once, the domains are split off again at each comparison of the keys
  have ha : rsplitOnce "a@y.org" '@' = some ("a", "y.org") := by decide +kernel
  have hc : rsplitOnce "c@x.org" '@' = some ("c", "x.org") := by decide +kernel
  have hb : rsplitOnce "b@Y.org" '@' = some ("b", "Y.org") := by decide +kernel
  have hy : toAsciiLowercase "y.org" = "y.org" := by decide +kernel
  have hx : toAsciiLowercase "x.org" = "x.org" := by decide +kernel
  have hY : toAsciiLowercase "Y.org" = "y.org" := by decide +kernel
  simp only [groupByDomain, ha, hc, hb, hy, hx, hY]
  decide +kernel

/-- Two domains in turns, one without MX hosts; of the other's two members one is refused. -/
theorem handleRelay_aligned_picky :
    ∃ (domain : String) (k : Nat) (status : RelayStatus), domainOf "b@Y.org" = some domain ∧
      (members domain ["a@y.org", "c@x.org", "b@Y.org"])[k]? = some (2, "b@Y.org") ∧
      [(⟨"a@y.org", .delivered "mx" 250 "queued"⟩ : RecipientResult),
        ⟨"c@x.org", .tempFail "MX lookup for x.org: none" none⟩,
        ⟨"b@Y.org", .permFail "RCPT TO: no" (some 550)⟩][2]? = some ⟨"b@Y.org", status⟩ := by
  have h : (handleRelay .default (.ofNet
      (fun domain => if domain = "y.org" then .ok [⟨"mx", 10⟩] else .error "none")
      fun _ _ => picky "b@Y.org") "helo" "" ["a@y.org", "c@x.org", "b@Y.org"] [] .default).1 =
      .ok [⟨"a@y.org", .delivered "mx" 250 "queued"⟩,
        ⟨"c@x.org", .tempFail "MX lookup for x.org: none" none⟩,
        ⟨"b@Y.org", .permFail "RCPT TO: no" (some 550)⟩] := by
    have haccepted : rejectRelay .default "" ["a@y.org", "c@x.org", "b@Y.org"] [] = none := by
      decide +kernel
    rw [handleRelay, haccepted]
    dsimp only
    rw [groupByDomain_picky]
    decide +kernel
  obtain ⟨-, before, haligned⟩ := handleRelay_aligned (Prod.ext h rfl)
  obtain ⟨domain, k, status, hdomain, hk, -, -, hrs⟩ := haligned 2 "b@Y.org" rfl
  exact ⟨domain, k, status, hdomain, hk, hrs⟩

end MailCue.Tunnel.Edge
