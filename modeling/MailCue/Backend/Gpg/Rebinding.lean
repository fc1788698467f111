import MailCue.Backend.Gpg.Messages
import MailCue.Backend.Gpg.SharedKeyring

/-!
# Keys that reading mail rebinds

`get_email` imports every key block of a message, and the key of its signer, for the
address in its From header. An import finds a row by its fingerprint, whatever
address and whose key it is, and writes the new address into it: which keys of the
message take the place of a key in use, or take it away from its address.
-/
namespace MailCue.Backend.Gpg
open MailCue.Lib

/-! ## Imports one after another -/

section
variable {Ring : Type} (G : Gnupg Ring)

/-- The keys that the requests import, and the keyring behind them. -/
def importedBy (ring : Ring) : List ImportKeyRequest → List Imported × Ring
  | [] => ([], ring)
  | request :: requests =>
    match importOf G ring request with
    | (.ok i, ring) => let (rest, ring) := importedBy ring requests; (i :: rest, ring)
    | (.error _, ring) => importedBy ring requests

def saveAll (user_id : String) (imports : List Imported) (t : KeyTable) : KeyTable :=
  imports.foldl (fun t i => i.save user_id t) t

def importAll (user_id : String) (requests : List ImportKeyRequest) (s : State Ring) :
    State Ring :=
  ⟨(importedBy G s.ring requests).2, saveAll user_id (importedBy G s.ring requests).1 s.gpg_keys⟩

theorem importKey_state (request : ImportKeyRequest) (user_id : String) (s : State Ring) :
    (importKey G request user_id true s).2 = importAll G user_id [request] s := by
  unfold importKey importAll importedBy
  split <;> rename_i heq <;> simp [heq, importedBy, saveAll]

theorem importedBy_append (ring : Ring) (before behind : List ImportKeyRequest) :
    importedBy G ring (before ++ behind) =
      ((importedBy G ring before).1 ++ (importedBy G (importedBy G ring before).2 behind).1,
        (importedBy G (importedBy G ring before).2 behind).2) := by
  induction before generalizing ring with
  | nil => rfl
  | cons request before ih =>
    simp only [List.cons_append, importedBy]
    split <;> simp [ih]

theorem importAll_append (user_id : String) (before behind : List ImportKeyRequest)
    (s : State Ring) :
    importAll G user_id (before ++ behind) s =
      importAll G user_id behind (importAll G user_id before s) := by
  simp [importAll, importedBy_append, saveAll, List.foldl_append]

theorem extractAndImport_state (text sender_address : Text) (user_id : String) (s : State Ring) :
    (extractAndImportKeysFromEmail G text sender_address user_id s).2 =
      importAll G user_id (blockRequests text sender_address) s := by
  unfold extractAndImportKeysFromEmail
  induction blockRequests text sender_address using List.reverseRecOn with
  | nil => rfl
  | append_singleton requests request ih =>
    rw [List.foldl_append, List.foldl_cons, List.foldl_nil, importBlock_state, importKey_state,
      ih, importAll_append]

end

/-! ## The keys of a message -/

section
variable {Message Content Ring : Type}
variable (p : EmailPackage Message Content) (G : Gnupg Ring)

def sourceRequests (detail : EmailDetail Content) (sources : List Bytes) :
    List ImportKeyRequest :=
  sources.flatMap fun source => blockRequests (p.decode source) detail.from_address

def signerRequests (detail : EmailDetail Content) (ring : Ring) : List ImportKeyRequest :=
  match detail.gpg.bind (·.signer_fingerprint) with
  | none => []
  | some fingerprint =>
    let armor := G.exportKeys ring fingerprint
    if armor = [] then [] else [⟨armor, some detail.from_address⟩]

/-- The keys reading the message imports, each with the address it imports it for. -/
def messageKeys (ring : Ring) (mailbox : Text) (raw_bytes : Bytes) : List Imported :=
  let (detail, sources) := readMessage p G ring mailbox raw_bytes
  let (found, ring) := importedBy G ring (sourceRequests p detail sources)
  found ++ (importedBy G ring (signerRequests G detail ring)).1

theorem importSigner_state (detail : EmailDetail Content) (user_id : String) (s : State Ring) :
    importSigner G detail (some user_id) s =
      importAll G user_id (signerRequests G detail s.ring) s := by
  unfold importSigner signerRequests
  cases detail.gpg.bind (·.signer_fingerprint) with
  | none => rfl
  | some fingerprint =>
    dsimp only
    by_cases harmor : G.exportKeys s.ring fingerprint = []
    · rw [if_pos harmor, if_pos harmor]
      rfl
    · rw [if_neg harmor, if_neg harmor]
      exact importKey_state G _ user_id s

theorem autoImports_state (detail : EmailDetail Content) (user_id : String) (sources : List Bytes)
    (s : State Ring) :
    sources.foldl
        (fun s source => autoImport p G source detail.from_address (some user_id) s) s =
      importAll G user_id (sourceRequests p detail sources) s := by
  unfold sourceRequests
  induction sources generalizing s with
  | nil => rfl
  | cons source sources ih =>
    rw [List.foldl_cons, ih, List.flatMap_cons, importAll_append]
    congr 1
    exact extractAndImport_state G _ _ user_id s

theorem getEmail_table (mailbox : Text) (raw_bytes : Bytes) (user_id : String) (s : State Ring) :
    (getEmail p G mailbox raw_bytes (some user_id) s).2.gpg_keys =
      saveAll user_id (messageKeys p G s.ring mailbox raw_bytes) s.gpg_keys := by
  rw [getEmail_eq]
  dsimp only
  rw [importSigner_state, autoImports_state]
  simp only [importAll, messageKeys, saveAll, List.foldl_append]

end

/-! ## Rows under imports -/

def refreshAll (user_id : String) (imports : List Imported) (k : GpgKey) : GpgKey :=
  imports.foldl (fun k i => i.refreshOwned user_id k) k

/-- The last address the imports give the key, or its own. -/
def newAddress (imports : List Imported) (k : GpgKey) : Text :=
  imports.foldl (fun address i =>
    if i.fingerprint = k.fingerprint ∧ i.address ≠ [] then i.address else address)
    k.mailbox_address

def Mentioned (imports : List Imported) (k : GpgKey) : Prop :=
  ∃ i ∈ imports, i.fingerprint = k.fingerprint

/-- The first row stands before the second. -/
def KeyTable.Before (t : KeyTable) (k₀ k : GpgKey) : Prop :=
  ∃ front behind, t.rows = front ++ k :: behind ∧ k₀ ∈ front

section
variable {t t' : KeyTable} {user_id : String} {address : Text} {imports : List Imported}
variable {k k₀ : GpgKey}

theorem save_rows (i : Imported) (user_id : String) (t : KeyTable) :
    ∃ new, (i.save user_id t).rows = t.rows.map (i.refreshOwned user_id) ++ new := by
  unfold Imported.save
  split
  · rename_i hnone
    have hsame : ∀ k ∈ t.rows, i.refreshOwned user_id k = k := by
      intro k hk
      have hnot := List.find?_eq_none.mp hnone k hk
      rw [Imported.refreshOwned, Imported.isFor, if_neg hnot]
    exact ⟨[i.newRow user_id], by rw [List.map_congr_left hsame, List.map_id']; rfl⟩
  · exact ⟨[], by rw [List.append_nil]; rfl⟩

/-- The old rows keep their places before the new ones. -/
theorem saveAll_rows (user_id : String) (imports : List Imported) (t : KeyTable) :
    ∃ new, (saveAll user_id imports t).rows = t.rows.map (refreshAll user_id imports) ++ new := by
  induction imports generalizing t with
  | nil => exact ⟨[], by rw [List.append_nil]; exact (List.map_id _).symm⟩
  | cons i imports ih =>
    obtain ⟨new, hnew⟩ := save_rows i user_id t
    obtain ⟨new', hnew'⟩ := ih (i.save user_id t)
    refine ⟨new.map (refreshAll user_id imports) ++ new', ?_⟩
    rw [hnew, List.map_append, List.map_map, List.append_assoc] at hnew'
    exact hnew'

/-- What each import leaves alone, all of them do. -/
theorem refreshAll_keeps {β : Type} (field : GpgKey → β)
    (hfield : ∀ (i : Imported) k, field (i.refreshOwned user_id k) = field k)
    (imports : List Imported) (k : GpgKey) : field (refreshAll user_id imports k) = field k := by
  induction imports generalizing k with
  | nil => rfl
  | cons i imports ih => exact (ih _).trans (hfield i k)

@[simp] theorem refreshAll_user_id (user_id : String) (imports : List Imported) (k : GpgKey) :
    (refreshAll user_id imports k).user_id = k.user_id :=
  refreshAll_keeps GpgKey.user_id (fun i k => i.refreshOwned_user_id user_id k) imports k

@[simp] theorem refreshAll_fingerprint (user_id : String) (imports : List Imported) (k : GpgKey) :
    (refreshAll user_id imports k).fingerprint = k.fingerprint :=
  refreshAll_keeps GpgKey.fingerprint (fun i k => i.refreshOwned_fingerprint user_id k) imports k

@[simp] theorem refreshAll_is_private (user_id : String) (imports : List Imported) (k : GpgKey) :
    (refreshAll user_id imports k).is_private = k.is_private :=
  refreshAll_keeps GpgKey.is_private (fun i k => i.refreshOwned_is_private user_id k) imports k

theorem refreshAll_mailbox_address (huser : k.user_id = some user_id) (imports : List Imported) :
    (refreshAll user_id imports k).mailbox_address = newAddress imports k := by
  induction imports generalizing k with
  | nil => rfl
  | cons i imports ih =>
    have hrest := ih ((i.refreshOwned_user_id user_id k).trans huser)
    refine hrest.trans ?_
    have haddress : (i.refreshOwned user_id k).mailbox_address =
        if i.fingerprint = k.fingerprint ∧ i.address ≠ [] then i.address
        else k.mailbox_address := by
      unfold Imported.refreshOwned Imported.isFor Imported.refresh
      by_cases hfingerprint : i.fingerprint = k.fingerprint
      · by_cases hempty : i.address = [] <;> simp [huser, hfingerprint, hempty]
      · simp [hfingerprint, Ne.symm hfingerprint]
    simp only [newAddress, List.foldl_cons, haddress, Imported.refreshOwned_fingerprint]

theorem refreshAll_is_active (huser : k.user_id = some user_id) (imports : List Imported) :
    (refreshAll user_id imports k).is_active = true ↔
      k.is_active = true ∨ Mentioned imports k := by
  induction imports generalizing k with
  | nil => simp [refreshAll, Mentioned]
  | cons i imports ih =>
    have hrest := ih ((i.refreshOwned_user_id user_id k).trans huser)
    have hactive : (i.refreshOwned user_id k).is_active = true ↔
        k.is_active = true ∨ i.fingerprint = k.fingerprint := by
      unfold Imported.refreshOwned Imported.isFor Imported.refresh
      by_cases hfingerprint : i.fingerprint = k.fingerprint
      · simp [huser, hfingerprint]
      · simp [hfingerprint, Ne.symm hfingerprint]
    refine hrest.trans ?_
    simp only [hactive, Mentioned, Imported.refreshOwned_fingerprint, List.exists_mem_cons_iff,
      or_assoc]

theorem newAddress_of_not_mentioned (h : ¬ Mentioned imports k) :
    newAddress imports k = k.mailbox_address := by
  unfold newAddress
  induction imports with
  | nil => rfl
  | cons i imports ih =>
    have hnot : i.fingerprint ≠ k.fingerprint := fun heq => h ⟨i, List.mem_cons_self, heq⟩
    have hrest : ¬ Mentioned imports k := fun ⟨j, hj, heq⟩ =>
      h ⟨j, List.mem_cons_of_mem _ hj, heq⟩
    simpa [hnot] using ih hrest

theorem serves_refreshAll (user_id : String) (imports : List Imported) (k : GpgKey) :
    (refreshAll user_id imports k).serves address user_id = true ↔
      k.user_id = some user_id ∧ newAddress imports k = address ∧
        (k.is_active = true ∨ Mentioned imports k) := by
  simp only [GpgKey.serves, Bool.and_eq_true, beq_iff_eq, refreshAll_user_id]
  constructor
  · rintro ⟨⟨haddress, hactive⟩, huser⟩
    exact ⟨huser, (refreshAll_mailbox_address huser imports).symm.trans haddress,
      (refreshAll_is_active huser imports).mp hactive⟩
  · rintro ⟨huser, haddress, hactive⟩
    exact ⟨⟨(refreshAll_mailbox_address huser imports).trans haddress,
      (refreshAll_is_active huser imports).mpr hactive⟩, huser⟩

/-! ## Keys in use -/

/-- For every address with a key in use, the first table has the key the second has. -/
def KeysKept (t t' : KeyTable) (user_id : String) : Prop :=
  ∀ address k, getKeyForAddress t address user_id = some k →
    ∃ k', getKeyForAddress t' address user_id = some k' ∧ k'.fingerprint = k.fingerprint ∧
      k'.is_private = k.is_private

/-- No key in use is imported for another address, and no key that stands before the
key in use for an address is imported for that address. -/
structure SparesKeys (t : KeyTable) (user_id : String) (imports : List Imported) : Prop where
  own : ∀ address k, getKeyForAddress t address user_id = some k → newAddress imports k = address
  ahead : ∀ address k k₀, getKeyForAddress t address user_id = some k → t.Before k₀ k →
    k₀.user_id = some user_id → Mentioned imports k₀ → newAddress imports k₀ ≠ address

theorem not_serves_before (hk : getKeyForAddress t address user_id = some k) :
    ∃ front behind, t.rows = front ++ k :: behind ∧
      ∀ k₀ ∈ front, k₀.serves address user_id = false := by
  obtain ⟨-, front, behind, hrows, hfront⟩ := List.find?_eq_some_iff_append.mp hk
  exact ⟨front, behind, hrows, fun k₀ hk₀ => by simpa using hfront k₀ hk₀⟩

theorem serves_of_getKey (hk : getKeyForAddress t address user_id = some k) :
    k.mailbox_address = address ∧ k.is_active = true ∧ k.user_id = some user_id := by
  have hserves := List.find?_some hk
  simpa [GpgKey.serves, and_assoc] using hserves

/-- A row does not stand before itself. -/
theorem ne_of_before (hbefore : t.Before k₀ k) (huser : k.user_id = some user_id) : k₀ ≠ k := by
  obtain ⟨front, behind, hrows, hfront⟩ := hbefore
  rintro rfl
  have hdistinct := List.pairwise_append.mp (hrows ▸ t.unique)
  have hnone := hdistinct.2.2 k₀ hfront k₀ List.mem_cons_self rfl rfl
  rw [huser] at hnone
  cases hnone

/-- A key in use stays in use for its address when it keeps the address and no
row before it serves the address behind the imports. -/
theorem getKey_kept (hk : getKeyForAddress t address user_id = some k)
    (hspares : SparesKeys t user_id imports) :
    getKeyForAddress (saveAll user_id imports t) address user_id =
      some (refreshAll user_id imports k) := by
  obtain ⟨new, hnew⟩ := saveAll_rows user_id imports t
  obtain ⟨haddress, hactive, huser⟩ := serves_of_getKey hk
  obtain ⟨front, behind, hrows, hfront⟩ := not_serves_before hk
  refine List.find?_eq_some_iff_append.mpr ⟨?_, front.map (refreshAll user_id imports),
    behind.map (refreshAll user_id imports) ++ new, ?_, ?_⟩
  · exact (serves_refreshAll user_id imports k).mpr ⟨huser, hspares.own address k hk, .inl hactive⟩
  · rw [hnew, hrows]
    simp
  · intro k' hk'
    obtain ⟨k₀, hk₀, rfl⟩ := List.mem_map.mp hk'
    have hnot : ¬ (refreshAll user_id imports k₀).serves address user_id = true := by
      intro hserves
      obtain ⟨huser₀, haddress₀, hactive₀⟩ := (serves_refreshAll user_id imports k₀).mp hserves
      by_cases hmentioned : Mentioned imports k₀
      · exact hspares.ahead address k k₀ hk ⟨front, behind, hrows, hk₀⟩ huser₀ hmentioned haddress₀
      · have hserved : k₀.serves address user_id = true := by
          rw [newAddress_of_not_mentioned hmentioned] at haddress₀
          simp [GpgKey.serves, haddress₀, hactive₀.resolve_right hmentioned, huser₀]
        rw [hfront k₀ hk₀] at hserved
        cases hserved
    simpa using hnot

/-- Behind the imports the key in use is still the same row. -/
theorem getKey_of_kept (hkept : KeysKept t (saveAll user_id imports t) user_id)
    (hk : getKeyForAddress t address user_id = some k) :
    getKeyForAddress (saveAll user_id imports t) address user_id =
      some (refreshAll user_id imports k) := by
  obtain ⟨k', hk', hfingerprint, -⟩ := hkept address k hk
  obtain ⟨new, hnew⟩ := saveAll_rows user_id imports t
  obtain ⟨-, -, huser⟩ := serves_of_getKey hk
  obtain ⟨-, -, huser'⟩ := serves_of_getKey hk'
  have hmem : refreshAll user_id imports k ∈ (saveAll user_id imports t).rows := by
    rw [hnew]
    exact List.mem_append_left _ (List.mem_map_of_mem (List.mem_of_find?_eq_some hk))
  have hsame : k' = refreshAll user_id imports k :=
    KeyTable.eq_of_owner (List.mem_of_find?_eq_some hk') hmem huser' (by simpa using huser)
      (by simpa using hfingerprint)
  rw [hk', hsame]

/-- A row that serves the address behind the imports is passed over only for one that
stands before it. -/
theorem getKey_in_front {front behind : List GpgKey} (hrows : t.rows = front ++ k :: behind)
    (hk₀ : k₀ ∈ front)
    (hserves : (refreshAll user_id imports k₀).serves address user_id = true) :
    ∃ k₁ ∈ front, getKeyForAddress (saveAll user_id imports t) address user_id =
      some (refreshAll user_id imports k₁) := by
  obtain ⟨new, hnew⟩ := saveAll_rows user_id imports t
  obtain ⟨found, hfound⟩ : ∃ found,
      (front.map (refreshAll user_id imports)).find? (GpgKey.serves address user_id) =
        some found := by
    apply Option.isSome_iff_exists.mp
    exact List.find?_isSome.mpr ⟨_, List.mem_map_of_mem hk₀, hserves⟩
  obtain ⟨k₁, hk₁, rfl⟩ := List.mem_map.mp (List.mem_of_find?_eq_some hfound)
  refine ⟨k₁, hk₁, ?_⟩
  unfold getKeyForAddress
  rw [hnew, hrows, List.map_append, List.append_assoc, List.find?_append, hfound]
  rfl

theorem sparesKeys_of_kept (hkept : KeysKept t (saveAll user_id imports t) user_id) :
    SparesKeys t user_id imports := by
  constructor
  · intro address k hk
    have hserves := List.find?_some (getKey_of_kept hkept hk)
    exact ((serves_refreshAll user_id imports k).mp hserves).2.1
  · rintro address k k₀ hk ⟨front, behind, hrows, hk₀⟩ huser₀ hmentioned haddress₀
    obtain ⟨-, -, huser⟩ := serves_of_getKey hk
    have hserves : (refreshAll user_id imports k₀).serves address user_id = true :=
      (serves_refreshAll user_id imports k₀).mpr ⟨huser₀, haddress₀, .inr hmentioned⟩
    obtain ⟨k₁, hk₁, hfirst⟩ := getKey_in_front hrows hk₀ hserves
    have hsame : refreshAll user_id imports k₁ = refreshAll user_id imports k := by
      rw [getKey_of_kept hkept hk] at hfirst
      exact (Option.some.inj hfirst).symm
    have huser₁ : k₁.user_id = some user_id := by
      have heq := congrArg GpgKey.user_id hsame
      simpa [huser] using heq
    have hfingerprint : k₁.fingerprint = k.fingerprint := by
      have heq := congrArg GpgKey.fingerprint hsame
      simpa using heq
    have hmem₁ : k₁ ∈ t.rows := by
      rw [hrows]
      exact List.mem_append_left _ hk₁
    have hbefore : t.Before k₁ k := ⟨front, behind, hrows, hk₁⟩
    exact ne_of_before hbefore huser
      (KeyTable.eq_of_owner hmem₁ (List.mem_of_find?_eq_some hk) huser₁ huser hfingerprint)

theorem keysKept_iff :
    KeysKept t (saveAll user_id imports t) user_id ↔ SparesKeys t user_id imports := by
  constructor
  · exact sparesKeys_of_kept
  · intro hspares address k hk
    exact ⟨_, getKey_kept hk hspares, refreshAll_fingerprint user_id imports k,
      refreshAll_is_private user_id imports k⟩

end

/-- **Reading mail keeps the keys in use** exactly when the keys of the message spare
them. -/
theorem reading_keeps_keys_iff {Message Content Ring : Type} (p : EmailPackage Message Content)
    (G : Gnupg Ring) (mailbox : Text) (raw_bytes : Bytes) (user_id : String) (s : State Ring) :
    KeysKept s.gpg_keys (getEmail p G mailbox raw_bytes (some user_id) s).2.gpg_keys user_id ↔
      SparesKeys s.gpg_keys user_id (messageKeys p G s.ring mailbox raw_bytes) := by
  rw [getEmail_table]
  exact keysKept_iff

def ownerKey : GpgKey :=
  { user_id := some "u", mailbox_address := "owner@x".toList, fingerprint := "AA",
    is_private := true }

def ownerState : State (Keyring String) :=
  ⟨Keyring.empty.importKey ("AA", true), KeyTable.empty.add "u" ownerKey rfl rfl⟩

def ownerKeyMail : Bytes :=
  ("From: mallory@y\n\n".toList ++ beginBlock ++ "owner".toList ++ endBlock).map fun c =>
    UInt8.ofNat c.toNat

/-- A stranger mails the owner her own public key: her private key is now his address's. -/
theorem own_key_rebound :
    ¬ KeysKept ownerState.gpg_keys
      (getEmail testPackage testPgp.gnupg "owner@x".toList ownerKeyMail (some "u")
        ownerState).2.gpg_keys "u" := by
  intro hkept
  obtain ⟨k', hk', -⟩ := hkept "owner@x".toList ownerKey (by decide)
  have hnone : getKeyForAddress (getEmail testPackage testPgp.gnupg "owner@x".toList ownerKeyMail
      (some "u") ownerState).2.gpg_keys "owner@x".toList "u" = none := by
    decide +kernel
  rw [hnone] at hk'
  cases hk'

end MailCue.Backend.Gpg
