import MailCue.Backend.Sandbox.Models

/-!
# Providers by their credentials

backend/app/sandbox/service.py `resolve_provider_by_credential`, and the functions of
providers/twilio, plivo and vonage that ask it for an account and compare the secret then.
The rows come in the order the database gives them.
-/
namespace MailCue.Backend.Sandbox
open MailCue.Lib

/-- `credentials.get(key) == value` -/
def SandboxProvider.hasCredential (provider : SandboxProvider) (key : String) (value : Text) :
    Bool :=
  match Json.field provider.credentials key with
  | some (some (.str found)) => found == value
  | _ => false

/-- An active provider of a type with this credential. -/
def SandboxProvider.named (provider : SandboxProvider) (provider_type credential_key : String)
    (credential_value : Text) : Bool :=
  provider.provider_type == provider_type && provider.is_active &&
    provider.hasCredential credential_key credential_value

def resolveProviderByCredential (rows : List SandboxProvider)
    (provider_type credential_key : String) (credential_value : Text) : Option SandboxProvider :=
  rows.find? fun provider => provider.named provider_type credential_key credential_value

/-- How an account of a provider type is named and what its secret is. -/
structure AccountScheme where
  provider_type : String
  id_key : String
  secret_key : String

def twilioAccount : AccountScheme := ⟨"twilio", "account_sid", "auth_token"⟩

def plivoAccount : AccountScheme := ⟨"plivo", "auth_id", "auth_token"⟩

def vonageAccount : AccountScheme := ⟨"vonage", "api_key", "api_secret"⟩

/-- `resolve_account`, `resolve_by_api_key` -/
def AccountScheme.resolve (scheme : AccountScheme) (rows : List SandboxProvider)
    (account secret : Text) : Option SandboxProvider :=
  match resolveProviderByCredential rows scheme.provider_type scheme.id_key account with
  | none => none
  | some provider => if provider.hasCredential scheme.secret_key secret then some provider else none

/-! ## Who an account belongs to -/

section
variable (scheme : AccountScheme) (account secret : Text)

/-- The provider is active and of the type, and the account is its. -/
def AccountScheme.Names (provider : SandboxProvider) : Prop :=
  provider.named scheme.provider_type scheme.id_key account = true

/-- Account and secret are those of the provider. -/
def AccountScheme.Holds (provider : SandboxProvider) : Prop :=
  scheme.Names account provider ∧ provider.hasCredential scheme.secret_key secret = true

instance (provider : SandboxProvider) : Decidable (scheme.Holds account secret provider) :=
  inferInstanceAs (Decidable (provider.named scheme.provider_type scheme.id_key account = true ∧
    provider.hasCredential scheme.secret_key secret = true))

/-- The answer is the provider the pair is that of and none where there is none, and it is
the same when the rows of all others are not there. -/
structure AccountScheme.Correct (rows : List SandboxProvider) : Prop where
  found : ∀ provider ∈ rows, scheme.Holds account secret provider →
    scheme.resolve rows account secret = some provider
  none_found : (∀ provider ∈ rows, ¬ scheme.Holds account secret provider) →
    scheme.resolve rows account secret = none
  alone : scheme.resolve (rows.filter fun provider => scheme.Holds account secret provider)
    account secret = scheme.resolve rows account secret

/-- In front of a provider the pair is that of, no other has the account, and behind it
none has both. -/
def AccountScheme.Unshared (rows : List SandboxProvider) : Prop :=
  ∀ front provider back, rows = front ++ provider :: back → scheme.Holds account secret provider →
    (∀ other ∈ front, ¬ scheme.Names account other) ∧
      ∀ other ∈ back, ¬ scheme.Holds account secret other

variable {scheme account secret} {rows : List SandboxProvider}

/-- What is found has the pair. -/
theorem holds_of_resolve {provider : SandboxProvider}
    (h : scheme.resolve rows account secret = some provider) :
    provider ∈ rows ∧ scheme.Holds account secret provider := by
  unfold AccountScheme.resolve at h
  split at h
  · cases h
  · rename_i found hfound
    split at h
    · rename_i hsecret
      cases h
      rw [resolveProviderByCredential] at hfound
      have hnames := List.find?_some hfound
      exact ⟨List.mem_of_find?_eq_some hfound, hnames, hsecret⟩
    · cases h

theorem resolve_eq_none (h : ∀ provider ∈ rows, ¬ scheme.Holds account secret provider) :
    scheme.resolve rows account secret = none := by
  cases hresolve : scheme.resolve rows account secret with
  | none => rfl
  | some provider =>
    obtain ⟨hmem, hholds⟩ := holds_of_resolve hresolve
    exact absurd hholds (h provider hmem)

/-- Behind rows of other accounts a provider is found by its pair. -/
theorem resolve_append {front back : List SandboxProvider} {provider : SandboxProvider}
    (hfront : ∀ other ∈ front, ¬ scheme.Names account other)
    (h : scheme.Holds account secret provider) :
    scheme.resolve (front ++ provider :: back) account secret = some provider := by
  have hfind : resolveProviderByCredential (front ++ provider :: back) scheme.provider_type
      scheme.id_key account = some provider := by
    have hnone : (front.find? fun row => row.named scheme.provider_type scheme.id_key account) =
        none := List.find?_eq_none.mpr hfront
    have hnames : provider.named scheme.provider_type scheme.id_key account = true := h.1
    rw [resolveProviderByCredential, List.find?_append, hnone, Option.none_or, List.find?_cons,
      hnames]
  rw [AccountScheme.resolve, hfind]
  exact if_pos h.2

/-- A row of the account in front keeps a provider from being found. -/
theorem resolve_append_of_names {front back : List SandboxProvider}
    {provider other : SandboxProvider} (hnodup : (front ++ provider :: back).Nodup) (hother : other ∈ front)
    (hnames : scheme.Names account other) :
    scheme.resolve (front ++ provider :: back) account secret ≠ some provider := by
  intro h
  unfold AccountScheme.resolve at h
  split at h
  · cases h
  · rename_i found hfound
    obtain ⟨first, hfirst⟩ := Option.isSome_iff_exists.mp (List.find?_isSome.mpr
      ⟨other, hother, hnames⟩ : (front.find? fun row => row.named scheme.provider_type
        scheme.id_key account).isSome)
    have hsame : found = first := by
      rw [resolveProviderByCredential, List.find?_append, hfirst, Option.some_or] at hfound
      exact (Option.some.inj hfound).symm
    split at h
    · cases h
      have hmem : provider ∈ front := hsame ▸ List.mem_of_find?_eq_some hfirst
      exact (List.nodup_append.mp hnodup).2.2 provider hmem provider List.mem_cons_self rfl
    · cases h

/-! ## Every table of providers -/

/-- **A pair of credentials resolves to its provider**, whatever other rows there are,
exactly where no row in front shares the account and none behind shares both. -/
theorem resolve_correct_iff (scheme : AccountScheme) (account secret : Text)
    (providers : Table SandboxProvider.id) :
    scheme.Correct account secret providers.rows ↔
      scheme.Unshared account secret providers.rows := by
  have hnodup : providers.rows.Nodup := List.Nodup.of_map _ providers.nodup
  constructor
  · rintro hcorrect front provider back hrows hholds
    have hfound := hcorrect.found provider (by simp [hrows]) hholds
    rw [hrows] at hnodup hfound
    refine ⟨fun other hother hnames => ?_, fun other hother hboth => ?_⟩
    · exact resolve_append_of_names hnodup hother hnames hfound
    · have hsecond := hcorrect.found other (by simp [hrows, hother]) hboth
      rw [hrows, hfound] at hsecond
      obtain rfl := Option.some.inj hsecond
      exact (List.nodup_cons.mp (List.nodup_append.mp hnodup).2.1).1 hother
  · intro hunshared
    have hfound : ∀ provider ∈ providers.rows, scheme.Holds account secret provider →
        scheme.resolve providers.rows account secret = some provider := by
      intro provider hmem hholds
      obtain ⟨front, back, hrows⟩ := List.append_of_mem hmem
      rw [hrows]
      exact resolve_append (hunshared front provider back hrows hholds).1 hholds
    refine ⟨hfound, resolve_eq_none, ?_⟩
    by_cases hany : ∃ provider ∈ providers.rows, scheme.Holds account secret provider
    · obtain ⟨provider, hmem, hholds⟩ := hany
      rw [hfound provider hmem hholds]
      obtain ⟨front, back, hrows⟩ := List.append_of_mem hmem
      obtain ⟨hfront, -⟩ := hunshared front provider back hrows hholds
      have hnone : (front.filter fun row => scheme.Holds account secret row) = [] :=
        List.filter_eq_nil_iff.mpr fun other hother =>
          by simpa using fun hboth : scheme.Holds account secret other =>
            hfront other hother hboth.1
      rw [hrows, List.filter_append, hnone, List.filter_cons_of_pos (by simpa using hholds)]
      have hnoFront : ∀ other ∈ ([] : List SandboxProvider), ¬ scheme.Names account other := nofun
      exact resolve_append hnoFront hholds
    · have hnone : ∀ provider ∈ providers.rows, ¬ scheme.Holds account secret provider :=
        fun provider hmem hholds => hany ⟨provider, hmem, hholds⟩
      rw [resolve_eq_none hnone, resolve_eq_none]
      intro provider hmem hholds
      exact hnone provider (List.mem_of_mem_filter hmem) hholds

end

/-- Two users with an account of one name and tokens of their own. -/
def firstAccount : SandboxProvider where
  id := "p1"
  user_id := "alice"
  provider_type := "twilio"
  name := "A"
  created_at := 0
  credentials := [("account_sid", .str "AC1".toList), ("auth_token", .str "one".toList)]

def secondAccount : SandboxProvider where
  id := "p2"
  user_id := "bob"
  provider_type := "twilio"
  name := "B"
  created_at := 1
  credentials := [("account_sid", .str "AC1".toList), ("auth_token", .str "two".toList)]

theorem second_account_not_found :
    ¬ ∀ (providers : Table SandboxProvider.id) account secret,
      twilioAccount.Correct account secret providers.rows := by
  intro h
  have hfound := (h ⟨[firstAccount, secondAccount], by decide⟩ "AC1".toList "two".toList).found
    secondAccount (List.mem_cons_of_mem _ List.mem_cons_self) (by decide)
  have hnone : (twilioAccount.resolve [firstAccount, secondAccount] "AC1".toList
      "two".toList).isSome = false := by decide
  rw [hfound] at hnone
  cases hnone

end MailCue.Backend.Sandbox
