import MailCue.Backend.Forwarding.Service
import MailCue.Lib.Transition

/-!
# Types of forwarding rules

The action type and the configuration of a stored rule, over every sequence of requests.
An update that brings a configuration is validated against the type the rule will have;
one that brings a type alone is not.
-/
namespace MailCue.Backend.Forwarding
open MailCue.Lib

/-- Requests one after the other, from no rules. -/
def rulesOf (lib : Library) : Machine Rules Request where
  start := Table.empty
  step := Request.step lib

def ForwardingRule.WellTyped (lib : Library) (rule : ForwardingRule) : Prop :=
  validates lib rule.action_type rule.action_config = true

def AllWellTyped (lib : Library) (rules : Rules) : Prop :=
  ∀ rule ∈ rules.rows, rule.WellTyped lib

/-- No column is set to null that cannot be. -/
structure ForwardingRuleUpdateRequest.NoNull (body : ForwardingRuleUpdateRequest) : Prop where
  name : body.name ≠ some none
  enabled : body.enabled ≠ some none
  action_type : body.action_type ≠ some none
  action_config : body.action_config ≠ some none

structure ForwardingRuleUpdateRequest.Storable (lib : Library)
    (body : ForwardingRuleUpdateRequest) : Prop where
  validates : ∃ validated, body.validate lib = .ok validated
  noNull : body.NoNull

/-- An update that can be stored and gives a rule a type without a configuration finds one
of that type. -/
def Request.Fits (lib : Library) (rules : Rules) : Request → Prop
  | update rule_id user_id body =>
    body.Storable lib → body.action_config = none → ∀ action_type,
      body.action_type = some (some action_type) → ∀ rule,
        getRule rules rule_id user_id = .ok rule →
          validates lib action_type rule.action_config = true
  | _ => True

section
variable {lib : Library}

/-! ## What a request does -/

theorem Patch.assign_ok_iff {α : Type} {patch : Patch α} {old value : α} :
    patch.assign old = .ok value ↔ patch ≠ some none ∧ value = patch.join.getD old := by
  cases patch with
  | none => simp [Patch.assign, eq_comm]
  | some set =>
    cases set with
    | none => simp [Patch.assign]
    | some new => simp [Patch.assign, eq_comm]

/-- The rule with what is set. -/
def ForwardingRule.assigned (rule : ForwardingRule) (body : ForwardingRuleUpdateRequest) :
    ForwardingRule :=
  { rule with
    name := body.name.join.getD rule.name
    enabled := body.enabled.join.getD rule.enabled
    action_type := body.action_type.join.getD rule.action_type
    action_config := body.action_config.join.getD rule.action_config
    match_from := body.match_from.getD rule.match_from
    match_to := body.match_to.getD rule.match_to
    match_subject := body.match_subject.getD rule.match_subject
    match_mailbox := body.match_mailbox.getD rule.match_mailbox }

theorem ForwardingRule.assign_ok_iff {rule new : ForwardingRule}
    {body : ForwardingRuleUpdateRequest} :
    rule.assign body = .ok new ↔ body.NoNull ∧ new = rule.assigned body := by
  constructor
  · intro h
    obtain ⟨name, hname, h⟩ := ok_of_bind h
    obtain ⟨enabled, henabled, h⟩ := ok_of_bind h
    obtain ⟨action_type, htype, h⟩ := ok_of_bind h
    obtain ⟨action_config, hconfig, h⟩ := ok_of_bind h
    obtain ⟨hsetName, rfl⟩ := Patch.assign_ok_iff.mp hname
    obtain ⟨hsetEnabled, rfl⟩ := Patch.assign_ok_iff.mp henabled
    obtain ⟨hsetType, rfl⟩ := Patch.assign_ok_iff.mp htype
    obtain ⟨hsetConfig, rfl⟩ := Patch.assign_ok_iff.mp hconfig
    exact ⟨⟨hsetName, hsetEnabled, hsetType, hsetConfig⟩, (Except.ok.inj h).symm⟩
  · rintro ⟨h, rfl⟩
    rw [ForwardingRule.assign, Patch.assign_ok_iff.mpr ⟨h.name, rfl⟩,
      Patch.assign_ok_iff.mpr ⟨h.enabled, rfl⟩, Patch.assign_ok_iff.mpr ⟨h.action_type, rfl⟩,
      Patch.assign_ok_iff.mpr ⟨h.action_config, rfl⟩]
    rfl

/-- Validation touches the patterns only. -/
theorem ForwardingRuleUpdateRequest.validate_ok {body validated : ForwardingRuleUpdateRequest}
    (h : body.validate lib = .ok validated) :
    validated.name = body.name ∧ validated.enabled = body.enabled ∧
      validated.action_type = body.action_type ∧ validated.action_config = body.action_config := by
  obtain ⟨match_from, -, h⟩ := ok_of_bind h
  obtain ⟨match_to, -, h⟩ := ok_of_bind h
  obtain ⟨match_subject, -, h⟩ := ok_of_bind h
  split at h
  · cases h
    exact ⟨rfl, rfl, rfl, rfl⟩
  · cases h

theorem ForwardingRuleCreateRequest.validate_ok {body validated : ForwardingRuleCreateRequest}
    (h : body.validate lib = .ok validated) :
    validates lib validated.action_type validated.action_config = true := by
  obtain ⟨match_from, -, h⟩ := ok_of_bind h
  obtain ⟨match_to, -, h⟩ := ok_of_bind h
  obtain ⟨match_subject, -, h⟩ := ok_of_bind h
  split at h
  · rename_i hvalid
    cases h
    exact hvalid
  · cases h

theorem getRule_ok {rules : Rules} {rule_id user_id : String} {rule : ForwardingRule}
    (h : getRule rules rule_id user_id = .ok rule) : rule ∈ rules.rows := by
  unfold getRule at h
  split at h
  · cases h
  · rename_i found hfind
    cases h
    exact List.mem_of_find?_eq_some hfind

/-- One rule is found, assigned to and put back, with a configuration that was checked
against the type it will have. -/
theorem updateRule_ok_iff {rules after : Rules} {rule_id user_id : String}
    {body : ForwardingRuleUpdateRequest} :
    updateRule lib rule_id user_id body rules = .ok after ↔
      ∃ rule, getRule rules rule_id user_id = .ok rule ∧ body.NoNull ∧
        after = rules.replace (rule.assigned body) ∧
        ∀ config, body.action_config.join = some config →
          validates lib (rule.assigned body).action_type config = true := by
  constructor
  · intro h
    obtain ⟨rule, hrule, h⟩ := ok_of_bind h
    dsimp only at h
    split at h
    · cases h
    · rename_i hchecked
      obtain ⟨new, hnew, h⟩ := ok_of_bind h
      obtain ⟨hnoNull, rfl⟩ := ForwardingRule.assign_ok_iff.mp hnew
      refine ⟨rule, hrule, hnoNull, (Except.ok.inj h).symm, fun config hconfig => ?_⟩
      simpa [hconfig, ForwardingRule.assigned] using hchecked
  · rintro ⟨rule, hrule, hnoNull, rfl, hchecked⟩
    have hpass : ¬ (body.action_config.join.any fun config =>
        !validates lib (body.action_type.join.getD rule.action_type) config) = true := by
      cases hconfig : body.action_config.join with
      | none => simp
      | some config => simpa [ForwardingRule.assigned] using hchecked config hconfig
    rw [updateRule, hrule]
    simp only [Bind.bind, Except.bind]
    rw [if_neg hpass, ForwardingRule.assign_ok_iff.mpr ⟨hnoNull, rfl⟩]
    rfl

theorem mem_replace {rules : Rules} {new rule : ForwardingRule}
    (h : rule ∈ (rules.replace new).rows) : rule = new ∨ rule ∈ rules.rows := by
  obtain ⟨old, hold, rfl⟩ := List.mem_map.mp h
  split
  · exact .inl rfl
  · exact .inr hold

theorem mem_replace_self {rules : Rules} {new old : ForwardingRule} (hold : old ∈ rules.rows)
    (hid : new.id = old.id) : new ∈ (rules.replace new).rows :=
  List.mem_map.mpr ⟨old, hold, if_pos hid.symm⟩

/-! ## One request -/

/-- The configuration of an updated rule is of its type: it was checked, or it stays with
the type, or the type came alone. -/
theorem wellTyped_assigned {rules : Rules} {rule_id user_id : String} {rule : ForwardingRule}
    {body validated : ForwardingRuleUpdateRequest} (hvalidated : body.validate lib = .ok validated)
    (hrule : getRule rules rule_id user_id = .ok rule) (hnoNull : validated.NoNull)
    (hchecked : ∀ config, validated.action_config.join = some config →
      validates lib (rule.assigned validated).action_type config = true)
    (h : rule.WellTyped lib) (hfits : (Request.update rule_id user_id body).Fits lib rules) :
    (rule.assigned validated).WellTyped lib := by
  obtain ⟨hname, henabled, htype, hconfig⟩ := body.validate_ok hvalidated
  unfold ForwardingRule.WellTyped
  cases hset : validated.action_config with
  | some set =>
    cases set with
    | none => exact absurd hset hnoNull.action_config
    | some config =>
      have hnew : (rule.assigned validated).action_config = config := by
        simp [ForwardingRule.assigned, hset]
      rw [hnew]
      exact hchecked config (by rw [hset]; rfl)
  | none =>
    have hold : (rule.assigned validated).action_config = rule.action_config := by
      simp [ForwardingRule.assigned, hset]
    rw [hold]
    cases hnewType : validated.action_type with
    | none =>
      have hsame : (rule.assigned validated).action_type = rule.action_type := by
        simp [ForwardingRule.assigned, hnewType]
      rw [hsame]
      exact h
    | some set =>
      cases set with
      | none => exact absurd hnewType hnoNull.action_type
      | some action_type =>
        have hnew : (rule.assigned validated).action_type = action_type := by
          simp [ForwardingRule.assigned, hnewType]
        have hstored : body.NoNull :=
          ⟨hname ▸ hnoNull.name, henabled ▸ hnoNull.enabled, htype ▸ hnoNull.action_type,
            hconfig ▸ hnoNull.action_config⟩
        rw [hnew]
        exact hfits ⟨⟨validated, hvalidated⟩, hstored⟩ (hconfig ▸ hset) action_type
          (htype ▸ hnewType) rule hrule

/-- A request that fits keeps every rule well typed. -/
theorem allWellTyped_step {rules : Rules} {request : Request} (h : AllWellTyped lib rules)
    (hfits : request.Fits lib rules) : AllWellTyped lib (request.step lib rules) := by
  unfold Request.step
  split
  · rename_i after hserve
    cases request with
    | create id user_id body =>
      obtain ⟨validated, hvalidated, hcreate⟩ := ok_of_bind hserve
      simp only [createRule] at hcreate
      split at hcreate
      · cases hcreate
      · rename_i inserted hinsert
        cases hcreate
        rw [AllWellTyped, (Table.insert_eq_some hinsert).1]
        intro rule hrule
        rcases List.mem_append.mp hrule with hold | hnew
        · exact h rule hold
        · rw [List.mem_singleton.mp hnew]
          exact body.validate_ok hvalidated
    | update rule_id user_id body =>
      obtain ⟨validated, hvalidated, hupdate⟩ := ok_of_bind hserve
      obtain ⟨rule, hrule, hnoNull, rfl, hchecked⟩ := updateRule_ok_iff.mp hupdate
      intro row hrow
      rcases mem_replace hrow with rfl | hold
      · exact wellTyped_assigned hvalidated hrule hnoNull hchecked (h rule (getRule_ok hrule)) hfits
      · exact h row hold
    | delete rule_id user_id =>
      obtain ⟨rule, -, hdelete⟩ := ok_of_bind hserve
      cases hdelete
      exact fun row hrow => h row (Table.mem_erase.mp hrow).1
  · exact h

/-- A request after which every rule is well typed fitted. -/
theorem fits_of_step {rules : Rules} {request : Request}
    (h : AllWellTyped lib (request.step lib rules)) : request.Fits lib rules := by
  cases request with
  | create id user_id body => trivial
  | delete rule_id user_id => trivial
  | update rule_id user_id body =>
    rintro ⟨⟨validated, hvalidated⟩, hnoNull⟩ hconfig action_type htype rule hrule
    obtain ⟨hname, henabled, htype', hconfig'⟩ := body.validate_ok hvalidated
    have hstored : validated.NoNull :=
      ⟨hname ▸ hnoNull.name, henabled ▸ hnoNull.enabled, htype' ▸ hnoNull.action_type,
        hconfig' ▸ hnoNull.action_config⟩
    have hupdate : updateRule lib rule_id user_id validated rules =
        .ok (rules.replace (rule.assigned validated)) := by
      refine updateRule_ok_iff.mpr ⟨rule, hrule, hstored, rfl, fun config hset => ?_⟩
      rw [hconfig', hconfig] at hset
      cases hset
    have hstep : (Request.update rule_id user_id body).step lib rules =
        rules.replace (rule.assigned validated) := by
      simp only [Request.step, Request.serve, hvalidated, Bind.bind, Except.bind, hupdate]
    rw [hstep] at h
    have hwell := h _ (mem_replace_self (getRule_ok hrule) rfl)
    simpa [ForwardingRule.WellTyped, ForwardingRule.assigned, htype', htype, hconfig', hconfig]
      using hwell

end

/-! ## Every sequence of requests -/

/-- **Stored rules stay well typed** exactly where every update that gives a rule a type
without a configuration finds one of that type. -/
theorem wellTyped_always_iff (lib : Library) (requests : List Request) :
    (rulesOf lib).Always (fun _ rules => AllWellTyped lib rules) requests ↔
      (rulesOf lib).EveryStep (fun _ rules request => request.Fits lib rules) requests := by
  refine Machine.always_iff_everyStep (K := fun _ _ => True) (fun _ _ => trivial) ?_ ?_ ?_
  · intro rule hrule
    cases hrule
  · intro pre request _ h hfits
    rw [Machine.run_snoc]
    exact allWellTyped_step h hfits
  · intro pre request _ h
    rw [Machine.run_snoc] at h
    exact fits_of_step h

/-- URLs as they are written, and every pattern. -/
def Library.asWritten : Library where
  anyHttpUrl url := some url
  compile _ := .ok ()

/-- A rule that forwards to an address is made a webhook. -/
def typeAlone : List Request :=
  [.create "rule" "alice"
      { name := "fwd".toList, action_type := .smtp_forward
        action_config := [("to_address", .str "erin@x.org".toList)] },
    .update "rule" "alice" { action_type := some (some .webhook) }]

theorem type_alone_mistypes :
    ¬ ∀ lib requests, (rulesOf lib).Always (fun _ rules => AllWellTyped lib rules) requests := by
  intro h
  have hall := h .asWritten typeAlone typeAlone (List.prefix_refl _)
  have hrule := hall
    { id := "rule", user_id := "alice", name := "fwd".toList, action_type := .webhook
      action_config := [("to_address", .str "erin@x.org".toList)] } (List.mem_singleton.mpr rfl)
  unfold ForwardingRule.WellTyped at hrule
  exact absurd hrule (by decide)

end MailCue.Backend.Forwarding
