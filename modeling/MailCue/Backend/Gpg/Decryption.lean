import MailCue.Backend.Gpg.Messages
import MailCue.Backend.Gpg.SharedKeyring

/-!
# Whose private keys decrypt

`decrypt_message` asks the keyring all users share and does not look whose private
key opens the message: for which messages a user reads the same whatever private
keys another user holds.
-/
namespace MailCue.Backend.Gpg
open MailCue.Lib

/-! ## Private keys of users -/

namespace KeyTable

variable (t : KeyTable) (user_id fingerprint : String)

/-- A private key is recorded for the user. -/
def HasPrivate : Prop :=
  ∃ k ∈ t.rows, k.user_id = some user_id ∧ k.is_private = true ∧ k.fingerprint = fingerprint

/-- And for nobody else. -/
def HeldAlone : Prop :=
  t.HasPrivate user_id fingerprint ∧ ∀ k ∈ t.rows, k.is_private = true →
    k.fingerprint = fingerprint → k.user_id = some user_id

/-- The rows that are not the user's. -/
def others : List GpgKey := t.rows.filter fun k => !(k.user_id == some user_id)

/-- The table without the user's rows. -/
def without : KeyTable := t.remove fun k => k.user_id == some user_id

theorem owned_without : (t.without user_id).owned user_id fingerprint = none := by
  refine List.find?_eq_none.mpr ?_
  intro k hk hfound
  have hnot := (List.mem_filter.mp hk).2
  simp only [Bool.and_eq_true, beq_iff_eq] at hfound
  simp [hfound.1] at hnot

@[simp] theorem others_without : (t.without user_id).others user_id = t.others user_id := by
  simp [others, without, remove, List.filter_filter]

/-- The user's rows replaced by one private key. -/
def withOnly : KeyTable :=
  (t.without user_id).add user_id
    { user_id := some user_id, mailbox_address := [], fingerprint := fingerprint,
      is_private := true } rfl (t.owned_without user_id fingerprint)

theorem hasPrivate_withOnly : (t.withOnly user_id fingerprint).HasPrivate user_id fingerprint :=
  ⟨_, List.mem_append_right _ List.mem_cons_self, rfl, rfl, rfl⟩

@[simp] theorem others_withOnly :
    (t.withOnly user_id fingerprint).others user_id = t.others user_id := by
  rw [← t.others_without user_id]
  simp [others, withOnly, add, List.filter_append]

end KeyTable

/-- The second state is the first with other private keys of the user: it lacks none
but those the user alone held, and has no other new ones than those the user holds. -/
structure OtherKeysOf (user_id : String) (s s' : State (Keyring String)) : Prop where
  rows : s.gpg_keys.others user_id = s'.gpg_keys.others user_id
  publicKeys : s.ring.publicKeys = s'.ring.publicKeys
  lost : ∀ f ∈ s.ring.secretKeys, f ∉ s'.ring.secretKeys → s.gpg_keys.HeldAlone user_id f
  gained : ∀ f ∈ s'.ring.secretKeys, f ∉ s.ring.secretKeys → s'.gpg_keys.HasPrivate user_id f

/-! ## What opens a message -/

section
variable {Message Content : Type} (p : EmailPackage Message Content) (pgp : OpenPgp)
variable (raw_bytes : Bytes)

/-- The keys a message is encrypted to, if `get_email` hands it to GnuPG. -/
def recipients : List String :=
  if (p.parseEmail raw_bytes).is_encrypted then
    match (encryptedData p raw_bytes).bind pgp.message with
    | none => []
    | some (fingerprints, _) => fingerprints
  else []

def Opens (r : Keyring String) : Prop := ∃ f ∈ recipients p pgp raw_bytes, f ∈ r.secretKeys

def EmailDetail.decrypted (detail : EmailDetail Content) : Bool := detail.gpg.any (·.decrypted)

variable {p pgp raw_bytes} {r r' : Keyring String}

theorem parsedDetail_is_encrypted {Ring : Type} (G : Gnupg Ring) (ring : Ring) :
    (parsedDetail p G ring raw_bytes).is_encrypted = (p.parseEmail raw_bytes).is_encrypted := by
  unfold parsedDetail
  dsimp only
  split <;> rfl

theorem verifySignature_decrypted {Ring : Type} (G : Gnupg Ring) (ring : Ring) :
    (verifySignature p G ring raw_bytes).decrypted = false := by
  unfold verifySignature
  dsimp only
  split
  · rfl
  · split <;> rfl

theorem parsedDetail_decrypted {Ring : Type} (G : Gnupg Ring) (ring : Ring) :
    (parsedDetail p G ring raw_bytes).decrypted = false := by
  unfold parsedDetail
  dsimp only
  split
  · exact verifySignature_decrypted G ring
  · rfl

theorem decryptMessage_decrypted {Ring : Type} (G : Gnupg Ring) (ring : Ring) (mailbox : Text) :
    (decryptMessage p G ring raw_bytes mailbox).2.decrypted =
      ((encryptedData p raw_bytes).bind (G.decrypt ring)).isSome := by
  unfold decryptMessage
  cases encryptedData p raw_bytes with
  | none => rfl
  | some data =>
    rw [Option.bind_some]
    dsimp only
    cases G.decrypt ring data <;> rfl

theorem decrypt_isSome (data : Bytes) :
    (pgp.gnupg.decrypt r data).isSome = true ↔
      ∃ message, pgp.message data = some message ∧ ∃ f ∈ message.1, f ∈ r.secretKeys := by
  simp only [OpenPgp.gnupg]
  cases pgp.message data with
  | none => simp
  | some message =>
    by_cases hopen : ∃ f ∈ message.1, f ∈ r.secretKeys
    · simp [hopen]
    · simp [hopen]

/-- GnuPG decrypts the data of an encrypted message when a private key opens it. -/
theorem opens_iff (hencrypted : (p.parseEmail raw_bytes).is_encrypted = true) :
    Opens p pgp raw_bytes r ↔
      ((encryptedData p raw_bytes).bind (pgp.gnupg.decrypt r)).isSome = true := by
  unfold Opens recipients
  rw [if_pos hencrypted]
  cases encryptedData p raw_bytes with
  | none => simp
  | some data =>
    rw [Option.bind_some, Option.bind_some, decrypt_isSome]
    cases pgp.message data with
    | none => simp
    | some message => simp

theorem readMessage_decrypted (mailbox : Text) :
    (readMessage p pgp.gnupg r mailbox raw_bytes).1.decrypted = true ↔
      Opens p pgp raw_bytes r := by
  unfold readMessage
  dsimp only
  rw [parsedDetail_is_encrypted]
  by_cases hencrypted : (p.parseEmail raw_bytes).is_encrypted = true
  · rw [if_pos hencrypted, opens_iff hencrypted, ← decryptMessage_decrypted pgp.gnupg r mailbox]
    split
    · rename_i hdecrypted
      simp [EmailDetail.decrypted, hdecrypted]
    · rename_i hdecrypted
      simp [EmailDetail.decrypted, hdecrypted]
  · have hnone : recipients p pgp raw_bytes = [] := if_neg hencrypted
    simp [hencrypted, parsedDetail_decrypted, Opens, hnone]

theorem parsedDetail_congr (hpublic : r.publicKeys = r'.publicKeys) :
    parsedDetail p pgp.gnupg r raw_bytes = parsedDetail p pgp.gnupg r' raw_bytes := by
  simp only [parsedDetail, verifySignature, OpenPgp.gnupg, hpublic]

/-- The plaintext does not depend on the key that opens the message. -/
theorem decryptMessage_congr (hencrypted : (p.parseEmail raw_bytes).is_encrypted = true)
    (hopen : Opens p pgp raw_bytes r ↔ Opens p pgp raw_bytes r') (mailbox : Text) :
    decryptMessage p pgp.gnupg r raw_bytes mailbox =
      decryptMessage p pgp.gnupg r' raw_bytes mailbox := by
  unfold Opens recipients at hopen
  rw [if_pos hencrypted] at hopen
  unfold decryptMessage
  cases hdata : encryptedData p raw_bytes with
  | none => rfl
  | some data =>
    have hsame : pgp.gnupg.decrypt r data = pgp.gnupg.decrypt r' data := by
      rw [hdata, Option.bind_some] at hopen
      simp only [OpenPgp.gnupg]
      cases hmessage : pgp.message data with
      | none => rfl
      | some message =>
        rw [hmessage] at hopen
        simp only [propext hopen]
    simp only [hsame]

/-- What is returned depends on the public keys, and on whether some private key opens
the message. -/
theorem readMessage_congr (hpublic : r.publicKeys = r'.publicKeys)
    (hopen : Opens p pgp raw_bytes r ↔ Opens p pgp raw_bytes r') (mailbox : Text) :
    readMessage p pgp.gnupg r mailbox raw_bytes =
      readMessage p pgp.gnupg r' mailbox raw_bytes := by
  unfold readMessage
  rw [parsedDetail_congr hpublic]
  by_cases hencrypted : (p.parseEmail raw_bytes).is_encrypted = true
  · rw [decryptMessage_congr hencrypted hopen]
  · dsimp only
    rw [parsedDetail_is_encrypted, if_neg hencrypted, if_neg hencrypted]

end

/-! ## Reading one's mail -/

section
variable {Message Content : Type} (p : EmailPackage Message Content) (pgp : OpenPgp)

def Decrypts (mailbox : Text) (raw_bytes : Bytes) (b : String) (s : State (Keyring String)) :
    Prop :=
  (getEmail p pgp.gnupg mailbox raw_bytes (some b) s).1.decrypted = true

/-- `b` reads a message decrypted only if it is encrypted to a private key recorded for
`b`, and reads the same whatever private keys another user holds. -/
structure ServesOwner (mailbox : Text) (raw_bytes : Bytes) (b : String)
    (s : State (Keyring String)) : Prop where
  recorded : Decrypts p pgp mailbox raw_bytes b s →
    ∃ f ∈ recipients p pgp raw_bytes, s.gpg_keys.HasPrivate b f
  independent : ∀ a ≠ b, ∀ s', OtherKeysOf a s s' →
    (getEmail p pgp.gnupg mailbox raw_bytes (some b) s').1 =
      (getEmail p pgp.gnupg mailbox raw_bytes (some b) s).1

variable {p pgp} {mailbox : Text} {raw_bytes : Bytes} {a b f : String}
variable {s s' : State (Keyring String)}

theorem decrypts_iff : Decrypts p pgp mailbox raw_bytes b s ↔ Opens p pgp raw_bytes s.ring := by
  unfold Decrypts
  rw [getEmail_eq]
  exact readMessage_decrypted mailbox

theorem getEmail_congr (hpublic : s.ring.publicKeys = s'.ring.publicKeys)
    (hopen : Opens p pgp raw_bytes s.ring ↔ Opens p pgp raw_bytes s'.ring) :
    (getEmail p pgp.gnupg mailbox raw_bytes (some b) s).1 =
      (getEmail p pgp.gnupg mailbox raw_bytes (some b) s').1 := by
  rw [getEmail_eq, getEmail_eq, readMessage_congr hpublic hopen]

/-- Where the same is read in both states, a key opens the message in both. -/
theorem opens_of_independent (hserves : ServesOwner p pgp mailbox raw_bytes b s) (hab : a ≠ b)
    (hother : OtherKeysOf a s s') :
    Opens p pgp raw_bytes s'.ring ↔ Opens p pgp raw_bytes s.ring := by
  have hsame : Decrypts p pgp mailbox raw_bytes b s' ↔ Decrypts p pgp mailbox raw_bytes b s := by
    unfold Decrypts
    rw [hserves.independent a hab s' hother]
  exact decrypts_iff.symm.trans (hsame.trans decrypts_iff)

/-- The user loses her private keys, among them the secret keys in the list. -/
def dispossessed (s : State (Keyring String)) (a : String) (keys : List String) :
    State (Keyring String) where
  ring :=
    { publicKeys := s.ring.publicKeys
      secretKeys := s.ring.secretKeys.filter (· ∉ keys)
      paired := fun _ hf => s.ring.paired (List.mem_filter.mp hf).1 }
  gpg_keys := s.gpg_keys.without a

/-- The user holds the private key to a public key of the keyring, and no other. -/
def endowed (s : State (Keyring String)) (a f : String) (hf : f ∈ s.ring.publicKeys) :
    State (Keyring String) where
  ring :=
    { publicKeys := s.ring.publicKeys
      secretKeys := f :: s.ring.secretKeys
      paired := List.cons_subset.mpr ⟨hf, s.ring.paired⟩ }
  gpg_keys := s.gpg_keys.withOnly a f

theorem otherKeysOf_dispossessed {keys : List String}
    (halone : ∀ f ∈ keys, f ∈ s.ring.secretKeys → s.gpg_keys.HeldAlone a f) :
    OtherKeysOf a s (dispossessed s a keys) where
  rows := (s.gpg_keys.others_without a).symm
  publicKeys := rfl
  lost f hf hgone := by
    refine halone f ?_ hf
    by_contra hnot
    exact hgone (List.mem_filter.mpr ⟨hf, by simpa using hnot⟩)
  gained _ hf hnot := absurd (List.mem_filter.mp hf).1 hnot

theorem otherKeysOf_endowed (hf : f ∈ s.ring.publicKeys) :
    OtherKeysOf a s (endowed s a f hf) where
  rows := (s.gpg_keys.others_withOnly a f).symm
  publicKeys := rfl
  lost _ hg hgone := absurd (List.mem_cons_of_mem f hg) hgone
  gained g hg hnot := by
    obtain rfl : g = f := (List.mem_cons.mp hg).resolve_right hnot
    exact s.gpg_keys.hasPrivate_withOnly a g

theorem opens_public (h : Opens p pgp raw_bytes s.ring) :
    ∃ f ∈ recipients p pgp raw_bytes, f ∈ s.ring.publicKeys := by
  obtain ⟨f, hf, hsecret⟩ := h
  exact ⟨f, hf, s.ring.paired hsecret⟩

/-- Some key that opens the message is not the other user's alone: else she could lose
them all. -/
theorem kept_key_of_independent (hserves : ServesOwner p pgp mailbox raw_bytes b s) (hab : a ≠ b)
    (hopen : Opens p pgp raw_bytes s.ring) :
    ∃ f ∈ recipients p pgp raw_bytes, f ∈ s.ring.secretKeys ∧ ¬ s.gpg_keys.HeldAlone a f := by
  by_contra hall
  have halone : ∀ f ∈ recipients p pgp raw_bytes, f ∈ s.ring.secretKeys →
      s.gpg_keys.HeldAlone a f := fun f hf hsecret => by
    by_contra hnot
    exact hall ⟨f, hf, hsecret, hnot⟩
  have hstill := (opens_of_independent hserves hab (otherKeysOf_dispossessed halone)).mpr hopen
  obtain ⟨f, hf, hkept⟩ := hstill
  have hgone := (List.mem_filter.mp hkept).2
  simp [hf] at hgone

/-- No key of the keyring is a recipient's: else another user could hold its private
key. -/
theorem no_key_of_independent (hserves : ServesOwner p pgp mailbox raw_bytes b s)
    (hclosed : ¬ Opens p pgp raw_bytes s.ring) :
    ∀ f ∈ recipients p pgp raw_bytes, f ∉ s.ring.publicKeys := by
  intro f hf hpublic
  obtain ⟨a, hab⟩ : ∃ a : String, a ≠ b := by
    by_cases hb : b = ""
    · exact ⟨"a", by rw [hb]; decide⟩
    · exact ⟨"", Ne.symm hb⟩
  have hother : OtherKeysOf a s (endowed s a f hpublic) := otherKeysOf_endowed hpublic
  exact hclosed ((opens_of_independent hserves hab hother).mp ⟨f, hf, List.mem_cons_self⟩)

theorem servesOwner_of_no_key (hnone : ∀ f ∈ recipients p pgp raw_bytes, f ∉ s.ring.publicKeys) :
    ServesOwner p pgp mailbox raw_bytes b s := by
  have hclosed : ∀ s' : State (Keyring String), s.ring.publicKeys = s'.ring.publicKeys →
      ¬ Opens p pgp raw_bytes s'.ring := by
    intro s' hpublic hopen
    obtain ⟨f, hf, hmem⟩ := opens_public hopen
    exact hnone f hf (hpublic ▸ hmem)
  constructor
  · exact fun hdecrypts => absurd (decrypts_iff.mp hdecrypts) (hclosed s rfl)
  · intro a _ s' hother
    refine (getEmail_congr hother.publicKeys ?_).symm
    exact iff_of_false (hclosed s rfl) (hclosed s' hother.publicKeys)

theorem servesOwner_of_kept_keys
    (hrecorded : ∃ f ∈ recipients p pgp raw_bytes, s.gpg_keys.HasPrivate b f)
    (hothers : ∀ a ≠ b, ∃ f ∈ recipients p pgp raw_bytes,
      f ∈ s.ring.secretKeys ∧ ¬ s.gpg_keys.HeldAlone a f) :
    ServesOwner p pgp mailbox raw_bytes b s := by
  refine ⟨fun _ => hrecorded, ?_⟩
  intro a hab s' hother
  obtain ⟨f, hf, hsecret, hnot⟩ := hothers a hab
  have hkept : f ∈ s'.ring.secretKeys := by
    by_contra hgone
    exact hnot (hother.lost f hsecret hgone)
  refine (getEmail_congr hother.publicKeys ?_).symm
  exact iff_of_true ⟨f, hf, hsecret⟩ ⟨f, hf, hkept⟩

/-- A key of one's own in the keyring that opens the message is enough. -/
theorem servesOwner_of_own_key (hf : f ∈ recipients p pgp raw_bytes)
    (hsecret : f ∈ s.ring.secretKeys) (hrecorded : s.gpg_keys.HasPrivate b f) :
    ServesOwner p pgp mailbox raw_bytes b s := by
  refine servesOwner_of_kept_keys ⟨f, hf, hrecorded⟩ ?_
  intro a hab
  refine ⟨f, hf, hsecret, ?_⟩
  rintro ⟨-, halone⟩
  obtain ⟨k, hk, huser, hprivate, hfingerprint⟩ := hrecorded
  have hother := halone k hk hprivate hfingerprint
  rw [huser] at hother
  exact hab (Option.some.inj hother).symm

end

/-- **Private keys serve their owner** exactly when no key of the keyring is one the
message is encrypted to, or a private key recorded for the reader is, and for every
other user a secret key opens the message that the other does not hold alone. -/
theorem private_keys_serve_owner_iff {Message Content : Type}
    (p : EmailPackage Message Content) (pgp : OpenPgp) (mailbox : Text) (raw_bytes : Bytes)
    (b : String) (s : State (Keyring String)) :
    ServesOwner p pgp mailbox raw_bytes b s ↔
      (∀ f ∈ recipients p pgp raw_bytes, f ∉ s.ring.publicKeys) ∨
      (∃ f ∈ recipients p pgp raw_bytes, s.gpg_keys.HasPrivate b f) ∧
        ∀ a ≠ b, ∃ f ∈ recipients p pgp raw_bytes,
          f ∈ s.ring.secretKeys ∧ ¬ s.gpg_keys.HeldAlone a f := by
  constructor
  · intro hserves
    by_cases hopen : Opens p pgp raw_bytes s.ring
    · exact .inr ⟨hserves.recorded (decrypts_iff.mpr hopen), fun a hab =>
        kept_key_of_independent hserves hab hopen⟩
    · exact .inl (no_key_of_independent hserves hopen)
  · rintro (hnone | ⟨hrecorded, hothers⟩)
    · exact servesOwner_of_no_key hnone
    · exact servesOwner_of_kept_keys hrecorded hothers

/-- A PGP/MIME message with one encrypted part. -/
def encryptedMail : EmailPackage Bytes Unit :=
  { testPackage with
    contentType := fun _ => "multipart/encrypted"
    parts := fun msg => [[], msg]
    parseEmail := fun _ =>
      { from_address := "mallory@y".toList, is_signed := false, is_encrypted := true,
        content := () } }

def aliceState : State (Keyring String) :=
  ⟨Keyring.empty.importKey ("AA", true), KeyTable.empty.withOnly "alice" "AA"⟩

/-- A message encrypted to a key of hers alone is forwarded to another user, who reads
it. -/
theorem forwarded_message_read :
    ¬ ServesOwner encryptedMail testPgp "bob@x".toList [1] "bob" aliceState := by
  intro hserves
  have hopen : Opens encryptedMail testPgp [1] aliceState.ring := ⟨"AA", by decide, by decide⟩
  obtain ⟨f, -, k, hk, huser, -⟩ := hserves.recorded (decrypts_iff.mpr hopen)
  obtain rfl := List.mem_singleton.mp hk
  exact absurd huser (by decide)

end MailCue.Backend.Gpg
