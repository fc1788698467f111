import MailCue.Backend.Sandbox.Models
import MailCue.Backend.Sandbox.VoiceInterpreter
import MailCue.Lib.Dict

/-!
# Seeding of providers

backend/app/sandbox/admin.py `seed_providers`. The rows of a query have no order of their
own: each call finds them in one that a session gives. `str` of a value is a parameter.
-/
namespace MailCue.Backend.Sandbox.Seeding
open MailCue.Lib
open Voice.Ncco (truthy)

structure SeedProviderSpec where
  provider_type : String
  name : String
  credentials : Json.Fields
  nodup : (credentials.map Prod.fst).Nodup

structure SeedProvidersRequest where
  owner_email : String
  providers : List SeedProviderSpec

structure SeedProvidersResponse where
  created : Nat
  updated : Nat
  provider_ids : List (Text × String)

/-- What a call meets: the order of the rows of its queries, and its new ids. -/
structure Session where
  order : Nat → List SandboxProvider → List SandboxProvider
  perm : ∀ n rows, (order n rows).Perm rows
  uuid : Nat → List String → String
  fresh : ∀ n taken, uuid n taken ∉ taken
  now : Nat → Int

def identityFields : List String := ["account_sid", "auth_id", "api_key", "account_id"]

section
variable (str : Json → Text)

/-- `_identity_key` -/
def identityKey (spec : SeedProviderSpec) : Text :=
  match identityFields.findSome? fun key => (Dict.get spec.credentials key).filter truthy with
  | some val => str val
  | none => spec.name.toList

/-- One of the identity fields is `ident`; a missing one is empty. -/
def hasIdentity (credentials : Json.Fields) (ident : Text) : Bool :=
  identityFields.any fun key => str ((Dict.get credentials key).getD (.str [])) == ident

/-- `existing_stmt` -/
def ofOwner (owner_id : String) (spec : SeedProviderSpec) (row : SandboxProvider) : Bool :=
  row.user_id == owner_id && row.provider_type == spec.provider_type

/-- `match` with the name and the credentials of the spec. -/
def merge (row : SandboxProvider) (spec : SeedProviderSpec) : SandboxProvider :=
  { row with
    name := spec.name
    credentials := Dict.update row.credentials spec.credentials
    is_active := true }

def newRow (id owner_id : String) (now : Int) (spec : SeedProviderSpec) : SandboxProvider :=
  { id, user_id := owner_id, provider_type := spec.provider_type, name := spec.name
    credentials := spec.credentials, is_active := true, created_at := now }

/-- The loop over the specs; `log` has the row that each spec went into. -/
structure Progress where
  providers : Table SandboxProvider.id
  created : Nat := 0
  updated : Nat := 0
  ids : List (Text × String) := []
  log : List (SeedProviderSpec × String) := []

/-- The row that is found for a spec. -/
def existing (session : Session) (owner_id : String) (n : Nat) (rows : List SandboxProvider)
    (spec : SeedProviderSpec) : Option SandboxProvider :=
  (session.order n (rows.filter (ofOwner owner_id spec))).find? fun row =>
    hasIdentity str row.credentials (identityKey str spec)

def upsert (session : Session) (owner_id : String) (n : Nat) (progress : Progress)
    (spec : SeedProviderSpec) : Progress :=
  let key := spec.provider_type.toList ++ ':' :: identityKey str spec
  match existing str session owner_id n progress.providers.rows spec with
  | none =>
    let id := session.uuid n (progress.providers.rows.map SandboxProvider.id)
    { progress with
      providers := progress.providers.add (newRow id owner_id (session.now n) spec)
        (session.fresh n _)
      created := progress.created + 1
      ids := Dict.set progress.ids key id
      log := progress.log ++ [(spec, id)] }
  | some row =>
    { progress with
      providers := progress.providers.replace (merge row spec)
      updated := progress.updated + 1
      ids := Dict.set progress.ids key row.id
      log := progress.log ++ [(spec, row.id)] }

def upsertAll (session : Session) (owner_id : String) :
    Nat → List SeedProviderSpec → Progress → Progress
  | _, [], progress => progress
  | n, spec :: rest, progress =>
    upsertAll session owner_id (n + 1) rest (upsert str session owner_id n progress spec)

/-- What a call leaves behind and answers. -/
structure Seeded where
  response : Except Text SeedProvidersResponse
  db : Database
  log : List (SeedProviderSpec × String)

def seedProviders (findOwner : String → Option String) (session : Session) (db : Database)
    (body : SeedProvidersRequest) : Seeded :=
  match findOwner body.owner_email with
  | none =>
    { response := .error ("Mailcue user '".toList ++ body.owner_email.toList ++
        "' not found".toList)
      db, log := [] }
  | some owner_id =>
    let progress := upsertAll str session owner_id 0 body.providers { providers := db.providers }
    { response := .ok {
        created := progress.created, updated := progress.updated, provider_ids := progress.ids }
      db := { db with providers := progress.providers }
      log := progress.log }

/-! ## Idempotence -/

/-- What identifies the row of a spec. -/
def identity (spec : SeedProviderSpec) : String × Text :=
  (spec.provider_type, identityKey str spec)

/-- No two specs with different identities go into one row. -/
def Apart (log : List (SeedProviderSpec × String)) : Prop :=
  ∀ a ∈ log, ∀ b ∈ log, a.2 = b.2 → identity str a.1 = identity str b.1

def Seeded.providerIds (seeded : Seeded) : Option (List (Text × String)) :=
  seeded.response.toOption.map SeedProvidersResponse.provider_ids

/-- Two calls leave what one leaves, and answer the ids it answers. -/
def Idempotent (findOwner : String → Option String) (db : Database) (body : SeedProvidersRequest) :
    Prop :=
  ∀ first second : Session,
    let once := seedProviders str findOwner first db body
    let twice := seedProviders str findOwner second once.db body
    twice.db = once.db ∧ twice.providerIds = once.providerIds ∧ Apart str once.log ∧
      Apart str twice.log

/-- Credentials an identity starts from: those of a row that holds it, or none where no
row does. -/
def Base (owner_id : String) (rows : List SandboxProvider) (spec : SeedProviderSpec)
    (credentials : Json.Fields) : Prop :=
  (∃ row ∈ rows, ofOwner owner_id spec row = true ∧
    hasIdentity str row.credentials (identityKey str spec) = true ∧ credentials = row.credentials) ∨
  credentials = [] ∧ ∀ row ∈ rows, ofOwner owner_id spec row = true →
    hasIdentity str row.credentials (identityKey str spec) = false

/-- Each identity keeps to one row, and each row to one identity. -/
structure Settled (owner_id : String) (rows : List SandboxProvider)
    (specs : List SeedProviderSpec) : Prop where
  kept : ∀ spec ∈ specs, ∀ credentials, Base str owner_id rows spec credentials →
    ∀ merged, merged ≠ [] → (∀ t ∈ merged, t ∈ specs ∧ identity str t = identity str spec) →
      hasIdentity str (Dict.update credentials (merged.flatMap SeedProviderSpec.credentials))
        (identityKey str spec) = true
  apart : ∀ spec ∈ specs, ∀ other ∈ specs, spec.provider_type = other.provider_type →
    hasIdentity str other.credentials (identityKey str spec) = true →
      identityKey str other = identityKey str spec
  one_identity : ∀ row ∈ rows, ∀ spec ∈ specs, ∀ other ∈ specs,
    ofOwner owner_id spec row = true → ofOwner owner_id other row = true →
    hasIdentity str row.credentials (identityKey str spec) = true →
    hasIdentity str row.credentials (identityKey str other) = true →
      identityKey str other = identityKey str spec
  one_row : ∀ spec ∈ specs, ∀ row ∈ rows, ∀ other ∈ rows,
    ofOwner owner_id spec row = true → ofOwner owner_id spec other = true →
    hasIdentity str row.credentials (identityKey str spec) = true →
    hasIdentity str other.credentials (identityKey str spec) = true → other = row

end

/-! ## Rows and what was merged into them -/

theorem foldl_merge (row : SandboxProvider) {merged : List SeedProviderSpec} (h : merged ≠ []) :
    merged.foldl merge row =
      { row with
        name := (merged.getLast h).name
        credentials := Dict.update row.credentials (merged.flatMap SeedProviderSpec.credentials)
        is_active := true } := by
  induction merged generalizing row with
  | nil => exact absurd rfl h
  | cons spec rest ih =>
    rw [List.foldl_cons]
    cases rest with
    | nil =>
      rw [List.foldl_nil, List.flatMap_singleton]
      rfl
    | cons next rest =>
      have hfields : (spec :: next :: rest).flatMap SeedProviderSpec.credentials =
          spec.credentials ++ (next :: rest).flatMap SeedProviderSpec.credentials :=
        List.flatMap_cons
      rw [ih _ (List.cons_ne_nil next rest), hfields, Dict.update_append,
        List.getLast_cons (List.cons_ne_nil next rest)]
      rfl

theorem foldl_merge_credentials (row : SandboxProvider) (merged : List SeedProviderSpec) :
    (merged.foldl merge row).credentials =
      Dict.update row.credentials (merged.flatMap SeedProviderSpec.credentials) := by
  cases merged with
  | nil => rfl
  | cons spec rest => rw [foldl_merge row (List.cons_ne_nil spec rest)]

@[simp] theorem foldl_merge_id (row : SandboxProvider) (merged : List SeedProviderSpec) :
    (merged.foldl merge row).id = row.id := by
  cases merged with
  | nil => rfl
  | cons spec rest => rw [foldl_merge row (List.cons_ne_nil spec rest)]

@[simp] theorem ofOwner_foldl_merge (owner_id : String) (spec : SeedProviderSpec)
    (row : SandboxProvider) (merged : List SeedProviderSpec) :
    ofOwner owner_id spec (merged.foldl merge row) = ofOwner owner_id spec row := by
  cases merged with
  | nil => rfl
  | cons first rest =>
    rw [foldl_merge row (List.cons_ne_nil first rest)]
    rfl

/-- The same specs once more change nothing. -/
theorem foldl_merge_merged (row : SandboxProvider) (merged : List SeedProviderSpec) :
    merged.foldl merge (merged.foldl merge row) = merged.foldl merge row := by
  cases merged with
  | nil => rfl
  | cons spec rest =>
    rw [foldl_merge _ (List.cons_ne_nil spec rest), foldl_merge row (List.cons_ne_nil spec rest)]
    simp only [Dict.update_update]

/-- The specs that went into a row. -/
def mine (log : List (SeedProviderSpec × String)) (id : String) : List SeedProviderSpec :=
  (log.filter fun entry => entry.2 == id).map Prod.fst

theorem mem_mine {log : List (SeedProviderSpec × String)} {id : String} {spec : SeedProviderSpec} :
    spec ∈ mine log id ↔ (spec, id) ∈ log := by
  simp [mine]

theorem mine_append (log more : List (SeedProviderSpec × String)) (id : String) :
    mine (log ++ more) id = mine log id ++ mine more id := by
  rw [mine, List.filter_append, List.map_append]
  rfl

theorem mine_singleton (spec : SeedProviderSpec) (id : String) : mine [(spec, id)] id = [spec] := by
  simp [mine]

theorem mine_singleton_of_ne (spec : SeedProviderSpec) {id other : String} (h : id ≠ other) :
    mine [(spec, id)] other = [] := by
  simp [mine, h]

/-- An identity field of merged credentials is one of what was merged. -/
theorem hasIdentity_of_update {str : Json → Text} {ident : Text} {credentials : Json.Fields}
    {merged : List SeedProviderSpec}
    (h : hasIdentity str (Dict.update credentials (merged.flatMap SeedProviderSpec.credentials))
      ident = true) :
    (hasIdentity str credentials ident = true ∧
      (credentials = [] → ∀ spec ∈ merged, hasIdentity str spec.credentials ident = true)) ∨
    ∃ spec ∈ merged, hasIdentity str spec.credentials ident = true := by
  obtain ⟨key, hkey, hident⟩ := List.any_eq_true.mp h
  rw [Dict.get_update] at hident
  cases hget : Dict.get (merged.flatMap SeedProviderSpec.credentials).reverse key with
  | none =>
    rw [hget] at hident
    refine .inl ⟨List.any_eq_true.mpr ⟨key, hkey, hident⟩, fun hnil spec hspec => ?_⟩
    refine List.any_eq_true.mpr ⟨key, hkey, ?_⟩
    have hmissing : Dict.get spec.credentials key = none := by
      rw [Dict.get_eq_none_iff] at hget ⊢
      intro hmem
      obtain ⟨entry, hentry, rfl⟩ := List.mem_map.mp hmem
      refine hget (List.mem_map.mpr ⟨entry, ?_, rfl⟩)
      exact List.mem_reverse.mpr (List.mem_flatMap.mpr ⟨spec, hspec, hentry⟩)
    rw [hnil] at hident
    rw [hmissing]
    exact hident
  | some value =>
    rw [hget] at hident
    obtain ⟨spec, hspec, hentry⟩ :=
      List.mem_flatMap.mp (List.mem_reverse.mp (Dict.mem_of_get hget))
    refine .inr ⟨spec, hspec, List.any_eq_true.mpr ⟨key, hkey, ?_⟩⟩
    rw [Dict.get_of_nodup spec.nodup hentry]
    exact hident

end MailCue.Backend.Sandbox.Seeding
