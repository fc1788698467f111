import MailCue.Backend.Emails.BounceFeedback
import MailCue.Backend.Emails.Canary
import MailCue.Backend.Emails.Syntax

/-!
# Suppressed domains in a staged send

`create_canary` of backend/app/emails/canary.py and `domain_suppression` of
validation_feedback.py: which recipients a staged send starts with as pending and
which as skipped. Suppressions are stored under the domain the syntax check
yields; the staged send asks for the domain as the caller spelled it. The two
are one for every spelling in ASCII.
-/
namespace MailCue.Backend.Emails.Suppression
open MailCue.Lib

/-- The table `domain_send_suppression`, by its unique column. -/
abbrev Suppressions := String → Option Bounce.DomainSendSuppression

/-- An active suppression of the domain, if one exists. -/
def domainSuppression (py : Python) (suppressions : Suppressions) (now : Int) (domain : Text) :
    Option Bounce.DomainSendSuppression :=
  match suppressions (String.ofList (py.lower domain)) with
  | none => none
  | some record => if record.expires_at.any (· < now) then none else some record

structure Recipient where
  email : Text
  domain : Text
  status : RecipientStatus

/-- `address.rsplit("@", 1)[-1].lower()` -/
def spelledDomain (py : Python) (address : Text) : Text := py.lower (Text.afterLast '@' address)

/-- The valid addresses, the first of each that differ in case alone. -/
def uniqueAddresses (py : Python) (recipients : List Text) : List (Text × Text) :=
  recipients.foldl (fun unique raw =>
    let candidate := Text.strip Text.isSpace raw
    let syntax_ := validateSyntax py candidate
    if candidate.isEmpty || !syntax_.is_valid || (syntax_.domain.getD []).isEmpty then unique
    else if (unique.map (·.1)).contains (py.lower candidate) then unique
    else unique ++ [(py.lower candidate, candidate)]) []

def suppressedDomains (py : Python) (suppressions : Suppressions) (now : Int)
    (addresses : List Text) : List Text :=
  addresses.foldl (fun suppressed address =>
    let domain := spelledDomain py address
    if suppressed.contains domain then suppressed
    else if (domainSuppression py suppressions now domain).isSome then suppressed ++ [domain]
    else suppressed) []

/-- The recipient rows of a new staged send. -/
def createCanary (py : Python) (suppressions : Suppressions) (now : Int) (recipients : List Text) :
    Except String (List Recipient) :=
  let addresses := (uniqueAddresses py recipients).map (·.2)
  if addresses.isEmpty then .error "No valid recipient addresses were supplied"
  else
    let suppressed := suppressedDomains py suppressions now addresses
    let (skipped, sendable) := addresses.partition fun address =>
      suppressed.contains (spelledDomain py address)
    .ok (sendable.map (fun address => ⟨address, spelledDomain py address, .pending⟩) ++
      skipped.map fun address => ⟨address, spelledDomain py address, .skipped⟩)

/-- No recipient that may be sent to has an active suppression of the domain its
address is checked to have. -/
def Honoured (py : Python) (suppressions : Suppressions) (now : Int) (recipients : List Text) :
    Prop :=
  ∀ rows, createCanary py suppressions now recipients = .ok rows → ∀ row ∈ rows,
    row.status = .pending → ∀ domain, (validateSyntax py row.email).domain = some domain →
    domainSuppression py suppressions now domain = none

/-! ## What is asked for -/

variable {py : Python} {suppressions : Suppressions} {now : Int}

/-- Every address kept is stripped and valid. -/
theorem mem_uniqueAddresses {recipients : List Text} {key address : Text}
    (h : (key, address) ∈ uniqueAddresses py recipients) :
    Text.strip Text.isSpace address = address ∧ (validateSyntax py address).is_valid = true := by
  induction recipients using List.reverseRecOn with
  | nil => cases h
  | append_singleton recipients raw ih =>
    simp only [uniqueAddresses, List.foldl_append, List.foldl_cons, List.foldl_nil] at h ih
    split at h
    · exact ih h
    · rename_i hvalid
      split at h
      · exact ih h
      · rcases List.mem_append.mp h with hold | hnew
        · exact ih hold
        · obtain ⟨-, rfl⟩ := Prod.mk.inj (List.mem_singleton.mp hnew)
          simp only [Bool.or_eq_true, Bool.not_eq_true', not_or, Bool.not_eq_false] at hvalid
          exact ⟨Text.strip_strip _ _, hvalid.1.2⟩

theorem mem_suppressedDomains (addresses : List Text) (domain : Text) :
    domain ∈ suppressedDomains py suppressions now addresses ↔
      (∃ address ∈ addresses, spelledDomain py address = domain) ∧
        (domainSuppression py suppressions now domain).isSome = true := by
  induction addresses using List.reverseRecOn with
  | nil => simp [suppressedDomains]
  | append_singleton addresses address ih =>
    have hstep : suppressedDomains py suppressions now (addresses ++ [address]) =
        if (suppressedDomains py suppressions now addresses).contains (spelledDomain py address) then
          suppressedDomains py suppressions now addresses
        else if (domainSuppression py suppressions now (spelledDomain py address)).isSome then
          suppressedDomains py suppressions now addresses ++ [spelledDomain py address]
        else suppressedDomains py suppressions now addresses := by
      simp [suppressedDomains]
    rw [hstep]
    by_cases hdomain : spelledDomain py address = domain
    · -- asked for now, if it was not found before
      subst hdomain
      have hexists : ∃ x ∈ addresses ++ [address], spelledDomain py x = spelledDomain py address :=
        ⟨address, by simp, rfl⟩
      split
      · rename_i hfound
        have hmem : spelledDomain py address ∈ suppressedDomains py suppressions now addresses := by
          simpa using hfound
        exact iff_of_true hmem ⟨hexists, (ih.mp hmem).2⟩
      · rename_i hnot
        split
        · rename_i hactive
          exact iff_of_true (by simp) ⟨hexists, hactive⟩
        · rename_i hinactive
          refine iff_of_false (fun hmem => hnot (by simpa using hmem)) fun h => hinactive h.2
    · have hsame : (∃ x ∈ addresses ++ [address], spelledDomain py x = domain) ↔
          ∃ x ∈ addresses, spelledDomain py x = domain := by
        simp [or_and_right, exists_or, hdomain]
      rw [hsame, ← ih]
      split
      · rfl
      · split
        · simp [Ne.symm hdomain]
        · rfl

/-- The addresses a staged send may send to. -/
theorem createCanary_pending {recipients : List Text} {rows : List Recipient}
    (h : createCanary py suppressions now recipients = .ok rows) (address : Text) :
    (∃ row ∈ rows, row.status = .pending ∧ row.email = address) ↔
      address ∈ (uniqueAddresses py recipients).map (·.2) ∧
        domainSuppression py suppressions now (spelledDomain py address) = none := by
  unfold createCanary at h
  dsimp only at h
  split at h
  · cases h
  obtain rfl := (Except.ok.inj h).symm
  have hsuppressed : ∀ x ∈ (uniqueAddresses py recipients).map (·.2),
      spelledDomain py x ∈ suppressedDomains py suppressions now
        ((uniqueAddresses py recipients).map (·.2)) ↔
      (domainSuppression py suppressions now (spelledDomain py x)).isSome = true := by
    intro x hx
    rw [mem_suppressedDomains]
    exact ⟨fun h => h.2, fun h => ⟨⟨x, hx, rfl⟩, h⟩⟩
  simp only [List.partition_eq_filter_filter, List.mem_append, List.mem_map, List.mem_filter]
  constructor
  · rintro ⟨row, ⟨x, ⟨hx, hnot⟩, rfl⟩ | ⟨x, -, rfl⟩, hpending, rfl⟩
    · refine ⟨hx, ?_⟩
      have hinactive := mt (hsuppressed x (by simpa using hx)).mpr (by simpa using hnot)
      simpa using hinactive
    · cases hpending
  · rintro ⟨hx, hnone⟩
    refine ⟨⟨address, spelledDomain py address, .pending⟩, .inl ⟨address, ⟨hx, ?_⟩, rfl⟩, rfl, rfl⟩
    have hnot : spelledDomain py address ∉ suppressedDomains py suppressions now
        ((uniqueAddresses py recipients).map (·.2)) := by
      rw [hsuppressed address (by simpa using hx), hnone]
      simp
    simpa using hnot

/-! ## The spelling and the checked domain -/

/-- In ASCII the codec changes nothing, and both sides lower-case alike. -/
theorem domain_eq_spelled {address : Text} (hstrip : Text.strip Text.isSpace address = address)
    (hvalid : (validateSyntax py address).is_valid = true)
    (hascii : ∀ c ∈ Text.afterLast '@' address, Text.ascii c = true) :
    (validateSyntax py address).domain = some (spelledDomain py address) := by
  obtain ⟨ascii_domain, hencode, hdomain⟩ := validateSyntax_domain hvalid
  rw [hstrip] at hencode
  rw [hdomain, py.idna.ascii _ _ hascii hencode, spelledDomain]

/-- **Suppressions are honoured** exactly when every accepted address whose domain
is not spelled in ASCII, and whose checked domain is suppressed, has a domain that
is suppressed as it is spelled. -/
theorem canary_honours_suppression (py : Python) (suppressions : Suppressions) (now : Int)
    (recipients : List Text) :
    Honoured py suppressions now recipients ↔
      ∀ address ∈ (uniqueAddresses py recipients).map (·.2),
        (∃ c ∈ Text.afterLast '@' address, Text.ascii c = false) →
        ∀ domain, (validateSyntax py address).domain = some domain →
        (domainSuppression py suppressions now domain).isSome = true →
        (domainSuppression py suppressions now (spelledDomain py address)).isSome = true := by
  constructor
  · intro hhonoured address haddress _ domain hdomain hactive
    by_contra hinactive
    have hnone : domainSuppression py suppressions now (spelledDomain py address) = none := by
      simpa using hinactive
    cases hcreate : createCanary py suppressions now recipients with
    | error e =>
      simp only [createCanary] at hcreate
      split at hcreate
      · rename_i hempty
        rw [List.isEmpty_iff] at hempty
        rw [hempty] at haddress
        cases haddress
      · cases hcreate
    | ok rows =>
      obtain ⟨row, hrow, hpending, rfl⟩ :=
        (createCanary_pending hcreate address).mpr ⟨haddress, hnone⟩
      have hclear := hhonoured rows hcreate row hrow hpending domain hdomain
      rw [hclear] at hactive
      cases hactive
  · intro hspelled rows hcreate row hrow hpending domain hdomain
    obtain ⟨haddress, hnone⟩ :=
      (createCanary_pending hcreate row.email).mp ⟨row, hrow, hpending, rfl⟩
    obtain ⟨⟨key, address⟩, hmem, hemail⟩ := List.mem_map.mp haddress
    obtain rfl : address = row.email := hemail
    obtain ⟨hstrip, hvalid⟩ := mem_uniqueAddresses hmem
    by_cases hascii : ∀ c ∈ Text.afterLast '@' row.email, Text.ascii c = true
    · rw [domain_eq_spelled hstrip hvalid hascii] at hdomain
      obtain rfl := Option.some.inj hdomain
      exact hnone
    · have hforeign : ∃ c ∈ Text.afterLast '@' row.email, Text.ascii c = false := by
        simpa using hascii
      by_contra hactive
      have hsome := hspelled row.email haddress hforeign domain hdomain
        (Option.isSome_iff_ne_none.mpr hactive)
      rw [hnone] at hsome
      cases hsome

/-- The codec on one domain with an umlaut, and on ASCII. -/
def muenchenCodec : IdnaCodec where
  encode domain :=
    if domain.all Text.ascii then .ok domain
    else if domain = "münchen.de".toList then .ok "xn--mnchen-3ya.de".toList
    else .error "label empty or too long"
  ascii domain encoded hascii h := by
    rw [if_pos (List.all_eq_true.mpr hascii)] at h
    exact (Except.ok.inj h).symm

def muenchenPython : Python := ⟨.asciiOnly, muenchenCodec⟩

def muenchenSuppressed : Suppressions := fun domain =>
  if domain = "xn--mnchen-3ya.de" then some ⟨"9 of 10", 9, 10, none⟩ else none

/-- A domain suppressed in its IDNA form, written with its umlaut. -/
theorem unicode_spelling_is_sent :
    ¬ Honoured muenchenPython muenchenSuppressed 0 ["info@münchen.de".toList] := by
  intro hhonoured
  have haddress : "info@münchen.de".toList ∈
      (uniqueAddresses muenchenPython ["info@münchen.de".toList]).map (·.2) := by decide
  have hdomain : (validateSyntax muenchenPython "info@münchen.de".toList).domain =
      some "xn--mnchen-3ya.de".toList := by decide
  have hspelled : (domainSuppression muenchenPython muenchenSuppressed 0
      (spelledDomain muenchenPython "info@münchen.de".toList)).isNone = true := by decide
  have hactive : (domainSuppression muenchenPython muenchenSuppressed 0
      "xn--mnchen-3ya.de".toList).isSome = true := by decide
  obtain ⟨rows, hcreate⟩ : ∃ rows, createCanary muenchenPython muenchenSuppressed 0
      ["info@münchen.de".toList] = .ok rows := ⟨_, rfl⟩
  obtain ⟨row, hrow, hpending, hemail⟩ := (createCanary_pending hcreate _).mpr
    ⟨haddress, Option.isNone_iff_eq_none.mp hspelled⟩
  have hclear := hhonoured rows hcreate row hrow hpending _ (hemail ▸ hdomain)
  rw [hclear] at hactive
  cases hactive

end MailCue.Backend.Emails.Suppression
