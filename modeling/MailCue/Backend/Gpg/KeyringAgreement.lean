import MailCue.Backend.Gpg.Messages
import MailCue.Backend.Gpg.SharedKeyring
import MailCue.Lib.Transition

/-!
# The key table and the keyring

Rows belong to users, the keyring to all of them. Over whole histories of
generations, imports, fetches, readings and deletions by any users: the keyring has
the key of every active row as long as no deletion strikes the public key of an
active row that stays.
-/
namespace MailCue.Backend.Gpg
open MailCue.Lib

/-! ## Histories -/

inductive Op
  | generate (request : GenerateKeyRequest) (user_id : String) (saved : Bool)
  | importKey (request : ImportKeyRequest) (user_id : String) (saved : Bool)
  | fetch (address : Text) (answer : Option Text) (user_id : String) (saved : Bool)
  | read (mailbox : Text) (raw_bytes : Bytes) (gpg_user_id : Option String)
  | delete (address : Text) (user_id : String) (stopped : Option Nat)

section
variable {Message Content : Type} (p : EmailPackage Message Content) (pgp : OpenPgp)

def apply (s : State (Keyring String)) : Op → State (Keyring String)
  | .generate request user_id saved => (generateKey pgp.gnupg request user_id saved s).2
  | .importKey request user_id saved => (importKey pgp.gnupg request user_id saved s).2
  | .fetch address answer user_id saved =>
    (fetchKeyFromKeyserver pgp.gnupg address answer user_id saved s).2
  | .read mailbox raw_bytes gpg_user_id => (getEmail p pgp.gnupg mailbox raw_bytes gpg_user_id s).2
  | .delete address user_id stopped => (deleteKey pgp.gnupg address user_id stopped s).2

def history (s : State (Keyring String)) : Machine (State (Keyring String)) Op where
  start := s
  step := apply p pgp

end

/-- The keyring has the key of every active row of every user. -/
def Agrees (s : State (Keyring String)) : Prop :=
  ∀ k ∈ s.gpg_keys.rows, k.is_active = true → k.fingerprint ∈ s.ring.publicKeys

/-- The rows a deletion is for. -/
def deletedRows (t : KeyTable) (address : Text) (user_id : String) : List GpgKey :=
  t.rows.filter (GpgKey.deletedBy address user_id)

/-- The rows behind it: where it stops halfway, all of them. -/
def keptRows (t : KeyTable) (address : Text) (user_id : String) (stopped : Option Nat) :
    List GpgKey :=
  if stopped.isSome then t.rows else t.rows.filter (!GpgKey.deletedBy address user_id ·)

def callsMade (t : KeyTable) (address : Text) (user_id : String) (stopped : Option Nat) :
    List (String × Bool) :=
  let calls := deletions (deletedRows t address user_id)
  match stopped with
  | some n => calls.take n
  | none => calls

/-- A deletion strikes the public key of no active row that stays. -/
def Op.SparesKeyring (s : State (Keyring String)) : Op → Prop
  | .delete address user_id stopped =>
    ∀ k ∈ keptRows s.gpg_keys address user_id stopped, k.is_active = true →
      ¬ s.ring.Strikes (callsMade s.gpg_keys address user_id stopped) k.fingerprint
  | _ => True

/-! ## What only adds keys -/

section
variable {Message Content : Type} {p : EmailPackage Message Content} {pgp : OpenPgp}
variable {s : State (Keyring String)} {ring : Keyring String} {user_id : String}

theorem Agrees.grow (h : Agrees s) (hgrow : s.ring.publicKeys ⊆ ring.publicKeys) :
    Agrees { s with ring := ring } :=
  fun k hk hactive => hgrow (h k hk hactive)

theorem Agrees.add (h : Agrees s) (hgrow : s.ring.publicKeys ⊆ ring.publicKeys) {row : GpgKey}
    (hrow : row.fingerprint ∈ ring.publicKeys) (huser : row.user_id = some user_id)
    (hnew : s.gpg_keys.owned user_id row.fingerprint = none) :
    Agrees ⟨ring, s.gpg_keys.add user_id row huser hnew⟩ := by
  intro k hk hactive
  rcases List.mem_append.mp hk with hold | hlast
  · exact hgrow (h k hold hactive)
  · obtain rfl := List.mem_singleton.mp hlast
    exact hrow

/-- A row that an import makes active has the fingerprint it imported. -/
theorem Agrees.save (h : Agrees s) (hgrow : s.ring.publicKeys ⊆ ring.publicKeys) {i : Imported}
    (hi : i.fingerprint ∈ ring.publicKeys) : Agrees ⟨ring, i.save user_id s.gpg_keys⟩ := by
  unfold Imported.save
  split
  · exact h.add hgrow hi rfl _
  · intro k hk hactive
    obtain ⟨k₀, hk₀, rfl⟩ := List.mem_map.mp hk
    rw [Imported.refreshOwned_fingerprint]
    by_cases hfor : i.isFor user_id k₀ = true
    · have hsame : k₀.fingerprint = i.fingerprint := by
        simp only [Imported.isFor, Bool.and_eq_true, beq_iff_eq] at hfor
        exact hfor.2
      rw [hsame]
      exact hi
    · rw [Imported.refreshOwned, if_neg hfor] at hactive
      exact hgrow (h k₀ hk₀ hactive)

theorem importKeys_grow (pgp : OpenPgp) (ring : Keyring String) (armored_key : Text) :
    ring.publicKeys ⊆ (pgp.gnupg.importKeys ring armored_key).2.publicKeys := fun f hf =>
  (Keyring.mem_public_importAll ring f _).mpr (.inl hf)

theorem importOf_grow (pgp : OpenPgp) (ring : Keyring String) (request : ImportKeyRequest) :
    ring.publicKeys ⊆ (importOf pgp.gnupg ring request).2.publicKeys := by
  have hgrow := importKeys_grow pgp ring request.armored_key
  unfold importOf
  dsimp only
  split <;> exact hgrow

theorem importOf_fingerprint {ring ring' : Keyring String} {request : ImportKeyRequest}
    {i : Imported} (h : importOf pgp.gnupg ring request = (.ok i, ring')) :
    i.fingerprint ∈ ring'.publicKeys := by
  unfold importOf at h
  dsimp only at h
  split at h
  · cases h
  · rename_i fingerprint rest hfound
    obtain ⟨hi, rfl⟩ := Prod.mk.inj h
    obtain rfl := Except.ok.inj hi
    refine (Keyring.mem_public_importAll ring _ _).mpr (.inr ?_)
    rw [show (pgp.keys request.armored_key).map Prod.fst = fingerprint :: rest from hfound]
    exact List.mem_cons_self

theorem Agrees.importKey (h : Agrees s) (pgp : OpenPgp) (request : ImportKeyRequest) (user_id : String)
    (saved : Bool) : Agrees (importKey pgp.gnupg request user_id saved s).2 := by
  have hgrow := importOf_grow pgp s.ring request
  unfold Gpg.importKey
  split
  · rename_i ring heq
    rw [heq] at hgrow
    exact h.grow hgrow
  · rename_i i ring heq
    rw [heq] at hgrow
    split
    · exact h.grow hgrow
    · exact h.save hgrow (importOf_fingerprint heq)

theorem Agrees.extract (h : Agrees s) (text sender_address : Text) (user_id : String) :
    Agrees (extractAndImportKeysFromEmail pgp.gnupg text sender_address user_id s).2 := by
  unfold extractAndImportKeysFromEmail
  induction blockRequests text sender_address using List.reverseRecOn with
  | nil => exact h
  | append_singleton requests request ih =>
    rw [List.foldl_append, List.foldl_cons, List.foldl_nil, importBlock_state]
    exact ih.importKey pgp request user_id true

theorem Agrees.autoImport (h : Agrees s) (raw_bytes : Bytes) (from_address : Text)
    (gpg_user_id : Option String) :
    Agrees (autoImport p pgp.gnupg raw_bytes from_address gpg_user_id s) := by
  cases gpg_user_id with
  | none => exact h
  | some user_id => exact h.extract (p.decode raw_bytes) from_address user_id

theorem Agrees.importSigner (h : Agrees s) (detail : EmailDetail Content)
    (gpg_user_id : Option String) : Agrees (importSigner pgp.gnupg detail gpg_user_id s) := by
  unfold Gpg.importSigner
  split
  · exact h
  · dsimp only
    split
    · exact h
    · split
      · exact h
      · exact h.importKey pgp _ _ true

theorem Agrees.getEmail (h : Agrees s) (mailbox : Text) (raw_bytes : Bytes)
    (gpg_user_id : Option String) :
    Agrees (getEmail p pgp.gnupg mailbox raw_bytes gpg_user_id s).2 := by
  rw [getEmail_eq]
  refine Agrees.importSigner ?_ _ gpg_user_id
  induction (readMessage p pgp.gnupg s.ring mailbox raw_bytes).2 using List.reverseRecOn with
  | nil => exact h
  | append_singleton sources source ih =>
    rw [List.foldl_append, List.foldl_cons, List.foldl_nil]
    exact ih.autoImport source _ gpg_user_id

theorem Agrees.fetch (h : Agrees s) (address : Text) (answer : Option Text) (user_id : String)
    (saved : Bool) :
    Agrees (fetchKeyFromKeyserver pgp.gnupg address answer user_id saved s).2 := by
  unfold fetchKeyFromKeyserver
  cases answer with
  | none => exact h
  | some armored_key =>
    have himport := h.importKey pgp ⟨armored_key, some address⟩ user_id saved
    dsimp only
    split
    · exact h
    · split <;> rename_i heq <;> rw [heq] at himport <;> exact himport

theorem genKey_error {input : GenKeyInput} {stderr : Text} {ring' : Keyring String}
    (h : pgp.gnupg.genKey ring input = (.error stderr, ring')) : ring' = ring := by
  dsimp only [OpenPgp.gnupg] at h
  split at h
  · exact (Prod.mk.inj h).2.symm
  · cases (Prod.mk.inj h).1

theorem genKey_ok {input : GenKeyInput} {fingerprint : String} {ring' : Keyring String}
    (h : pgp.gnupg.genKey ring input = (.ok fingerprint, ring')) :
    ring' = ring.importKey (fingerprint, true) := by
  dsimp only [OpenPgp.gnupg] at h
  split at h
  · cases (Prod.mk.inj h).1
  · obtain ⟨hsame, rfl⟩ := Prod.mk.inj h
    rw [Except.ok.inj hsame]

theorem Agrees.generate (h : Agrees s) (request : GenerateKeyRequest) (user_id : String)
    (saved : Bool) : Agrees (generateKey pgp.gnupg request user_id saved s).2 := by
  unfold generateKey
  split
  · rename_i stderr ring heq
    obtain rfl := genKey_error heq
    exact h
  · rename_i fingerprint ring heq
    obtain rfl := genKey_ok heq
    have hgrow : s.ring.publicKeys ⊆ (s.ring.importKey (fingerprint, true)).publicKeys :=
      fun f hf => (Keyring.mem_public_importKey s.ring f _).mpr (.inr hf)
    dsimp only
    split
    · exact h.grow hgrow
    · split
      · exact h.add hgrow ((Keyring.mem_public_importKey s.ring _ _).mpr (.inl rfl)) rfl _
      · exact h.grow hgrow

end

/-! ## Deletions -/

section
variable {Message Content : Type} {p : EmailPackage Message Content} {pgp : OpenPgp}
variable {s : State (Keyring String)} {address : Text} {user_id : String} {stopped : Option Nat}

/-- What a loop that gets to its end strikes: the key of a private row, and any other
key whose secret part is not there. -/
theorem strikes_deletions (r : Keyring String) (keys : List GpgKey) (f : String) :
    r.Strikes (deletions keys) f ↔
      ∃ k ∈ keys, k.fingerprint = f ∧ (k.is_private = true ∨ f ∉ r.secretKeys) := by
  induction keys using List.reverseRecOn with
  | nil => simp [deletions, Keyring.Strikes]
  | append_singleton keys k ih =>
    have hlast : deletions (keys ++ [k]) =
        (if k.is_private then deletions keys ++ [(k.fingerprint, true)] else deletions keys) ++
          [(k.fingerprint, false)] := by
      by_cases hprivate : k.is_private = true <;> simp [deletions, hprivate]
    have hsecret : ∀ f, (f, true) ∈ deletions keys ↔
        ∃ k ∈ keys, k.fingerprint = f ∧ k.is_private = true := by
      intro f
      simp only [deletions, List.mem_flatMap]
      refine exists_congr fun k => and_congr_right fun _ => ?_
      by_cases hprivate : k.is_private = true <;> simp [hprivate, eq_comm]
    have hold : (∃ k' ∈ keys ++ [k], k'.fingerprint = f ∧
        (k'.is_private = true ∨ f ∉ r.secretKeys)) ↔
        (∃ k' ∈ keys, k'.fingerprint = f ∧ (k'.is_private = true ∨ f ∉ r.secretKeys)) ∨
          k.fingerprint = f ∧ (k.is_private = true ∨ f ∉ r.secretKeys) := by
      simp [or_and_right, exists_or]
    rw [hlast, Keyring.strikes_snoc, hold]
    by_cases hprivate : k.is_private = true
    · rw [if_pos hprivate, Keyring.strikes_snoc, ih]
      by_cases hsame : k.fingerprint = f
      · simp [hsame, hprivate]
      · simp [hsame]
    · rw [if_neg hprivate, ih]
      by_cases hsame : k.fingerprint = f
      · by_cases hthere : f ∈ r.secretKeys
        · -- an earlier row of the loop has deleted the secret part
          simp only [hsame, hthere, hprivate, hsecret, true_implies, true_and, not_true_eq_false,
            or_false, and_false, Bool.false_eq_true, or_self_iff]
        · simp [hsame, hthere]
      · simp [hsame]

theorem deleteKey_ring :
    (deleteKey pgp.gnupg address user_id stopped s).2.ring =
      s.ring.deleteAll (callsMade s.gpg_keys address user_id stopped) := by
  unfold deleteKey callsMade deletedRows
  dsimp only
  split
  · rename_i hnone
    rw [hnone]
    cases stopped with
    | none => rfl
    | some n => simp [deletions, Keyring.deleteAll]
  · cases stopped <;> rfl

theorem deleteKey_rows :
    (deleteKey pgp.gnupg address user_id stopped s).2.gpg_keys.rows =
      keptRows s.gpg_keys address user_id stopped := by
  unfold deleteKey keptRows
  dsimp only
  split
  · rename_i hnone
    have hkept : s.gpg_keys.rows.filter (!GpgKey.deletedBy address user_id ·) =
        s.gpg_keys.rows := by
      refine List.filter_eq_self.mpr fun k hk => ?_
      simpa using List.filter_eq_nil_iff.mp hnone k hk
    cases stopped with
    | none => simpa using hkept.symm
    | some n => rfl
  · cases stopped <;> rfl

theorem agrees_delete_iff :
    Agrees (deleteKey pgp.gnupg address user_id stopped s).2 ↔
      ∀ k ∈ keptRows s.gpg_keys address user_id stopped, k.is_active = true →
        k.fingerprint ∈ s.ring.publicKeys ∧
          ¬ s.ring.Strikes (callsMade s.gpg_keys address user_id stopped) k.fingerprint := by
  unfold Agrees
  rw [deleteKey_rows, deleteKey_ring]
  simp only [Keyring.mem_public_deleteAll]

/-- A deletion that gets to its end spares the keyring when each row it deletes of a
fingerprint that an active row keeps is not private and has its secret key there. -/
theorem sparesKeyring_delete_iff :
    (Op.delete address user_id none).SparesKeyring s ↔
      ∀ k ∈ keptRows s.gpg_keys address user_id none, k.is_active = true →
        ∀ k' ∈ deletedRows s.gpg_keys address user_id, k'.fingerprint = k.fingerprint →
          k'.is_private = false ∧ k.fingerprint ∈ s.ring.secretKeys := by
  unfold Op.SparesKeyring callsMade
  simp only [strikes_deletions]
  refine forall_congr' fun k => forall_congr' fun _ => forall_congr' fun _ => ?_
  constructor
  · intro hnone k' hk' hsame
    constructor
    · by_contra hprivate
      exact hnone ⟨k', hk', hsame, .inl (by simpa using hprivate)⟩
    · by_contra hgone
      exact hnone ⟨k', hk', hsame, .inr hgone⟩
  · rintro hspared ⟨k', hk', hsame, hprivate | hgone⟩
    · rw [(hspared k' hk' hsame).1] at hprivate
      cases hprivate
    · exact hgone (hspared k' hk' hsame).2

theorem mem_of_mem_keptRows {k : GpgKey} {t : KeyTable}
    (hk : k ∈ keptRows t address user_id stopped) : k ∈ t.rows := by
  unfold keptRows at hk
  split at hk
  · exact hk
  · exact (List.mem_filter.mp hk).1

theorem Agrees.delete (h : Agrees s)
    (hspares : (Op.delete address user_id stopped).SparesKeyring s) :
    Agrees (deleteKey pgp.gnupg address user_id stopped s).2 :=
  agrees_delete_iff.mpr fun k hk hactive =>
    ⟨h k (mem_of_mem_keptRows hk) hactive, hspares k hk hactive⟩

/-! ## Encryption -/

/-- A message to addresses with keys in use is encrypted. -/
def Encrypts (p : EmailPackage Message Content) (pgp : OpenPgp) (s : State (Keyring String)) :
    Prop :=
  ∀ (raw_bytes : Bytes) (recipients : List Text) (keyserver : Text → Option Text)
    (user_id : String), (∀ a ∈ recipients, (getKeyForAddress s.gpg_keys a user_id).isSome = true) →
    ∃ encrypted, (encryptMessage p pgp.gnupg raw_bytes recipients keyserver user_id s).1 =
      .ok encrypted

theorem recipientKeys_of_keys (h : Agrees s) (pgp : OpenPgp) (keyserver : Text → Option Text) (user_id : String)
    (recipients : List Text)
    (hkeys : ∀ a ∈ recipients, (getKeyForAddress s.gpg_keys a user_id).isSome = true) :
    ∃ fingerprints, recipientKeys pgp.gnupg keyserver user_id recipients s =
      (.ok fingerprints, s) ∧ ∀ f ∈ fingerprints, f ∈ s.ring.publicKeys := by
  induction recipients with
  | nil => exact ⟨[], rfl, by simp⟩
  | cons a recipients ih =>
    obtain ⟨fingerprints, hrest, hmem⟩ := ih fun b hb => hkeys b (List.mem_cons_of_mem _ hb)
    obtain ⟨key, hkey⟩ := Option.isSome_iff_exists.mp (hkeys a List.mem_cons_self)
    have hserves := List.find?_some hkey
    simp only [GpgKey.serves, Bool.and_eq_true] at hserves
    refine ⟨key.fingerprint :: fingerprints, ?_, ?_⟩
    · rw [recipientKeys, hkey]
      dsimp only
      rw [hrest]
    · intro f hf
      rcases List.mem_cons.mp hf with rfl | hf
      · exact h key (List.mem_of_find?_eq_some hkey) hserves.1.2
      · exact hmem f hf

theorem Agrees.encrypts (h : Agrees s) : Encrypts p pgp s := by
  intro raw_bytes recipients keyserver user_id hkeys
  obtain ⟨fingerprints, hrecipients, hmem⟩ :=
    recipientKeys_of_keys h pgp keyserver user_id recipients hkeys
  have hok : pgp.gnupg.encrypt s.ring (p.asBytes (p.pgpMimeBody (p.messageFromBytes raw_bytes)))
      fingerprints = .ok (pgp.encrypted _ fingerprints) := if_pos hmem
  unfold encryptMessage
  rw [hrecipients]
  dsimp only
  rw [hok]
  exact ⟨_, rfl⟩

/-! ## Histories -/

theorem Agrees.apply (h : Agrees s) {op : Op} (hspares : op.SparesKeyring s) :
    Agrees (apply p pgp s op) := by
  cases op with
  | generate request user_id saved => exact h.generate request user_id saved
  | importKey request user_id saved => exact h.importKey pgp request user_id saved
  | fetch address answer user_id saved => exact h.fetch address answer user_id saved
  | read mailbox raw_bytes gpg_user_id => exact h.getEmail mailbox raw_bytes gpg_user_id
  | delete address user_id stopped => exact h.delete hspares

theorem sparesKeyring_of_agrees {op : Op} (h : Agrees (apply p pgp s op)) :
    op.SparesKeyring s := by
  cases op with
  | delete address user_id stopped =>
    exact fun k hk hactive => (agrees_delete_iff.mp h k hk hactive).2
  | _ => exact trivial

end

/-- **The keyring and the key table agree** in every state of a history, and encryption
to every key in use works, exactly when they agree at its start and every deletion
spares the keys of the rows that stay. -/
theorem keyring_agrees_iff {Message Content : Type} (p : EmailPackage Message Content)
    (pgp : OpenPgp) (s : State (Keyring String)) (ops : List Op) :
    (history p pgp s).Always (fun _ s => Agrees s ∧ Encrypts p pgp s) ops ↔
      Agrees s ∧ (history p pgp s).EveryStep (fun _ s op => op.SparesKeyring s) ops := by
  constructor
  · intro h
    refine ⟨(h [] List.nil_prefix).1, fun pre op hpre => ?_⟩
    have hafter := (h _ hpre).1
    rw [Machine.run_snoc] at hafter
    exact sparesKeyring_of_agrees hafter
  · rintro ⟨hs, hguard⟩
    have hagrees : (history p pgp s).Always (fun _ s => Agrees s) ops := by
      refine Machine.always_of_step hs (fun pre op h hspares => ?_) hguard
      rw [Machine.run_snoc]
      exact h.apply hspares
    exact fun pre hpre => ⟨hagrees pre hpre, (hagrees pre hpre).encrypts⟩

/-- Two users import one key, and the first deletes hers. -/
def sharedKeyHistory : List Op :=
  let request : ImportKeyRequest := ⟨"owner".toList, some "owner@x".toList⟩
  [.importKey request "alice" true, .importKey request "bob" true,
    .delete "owner@x".toList "alice" none]

theorem shared_key_deleted :
    ¬ (history testPackage testPgp ⟨Keyring.empty, KeyTable.empty⟩).Always
      (fun _ s => Agrees s) sharedKeyHistory := by
  intro h
  have hend : ∀ k ∈ ((history testPackage testPgp ⟨Keyring.empty, KeyTable.empty⟩).run
      sharedKeyHistory).gpg_keys.rows, k.is_active = true → k.fingerprint ∈
        ((history testPackage testPgp ⟨Keyring.empty, KeyTable.empty⟩).run
          sharedKeyHistory).ring.publicKeys := h _ (List.prefix_refl _)
  revert hend
  decide +kernel

end MailCue.Backend.Gpg
