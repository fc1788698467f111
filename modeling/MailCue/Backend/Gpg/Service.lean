import Mathlib.Data.List.Pairwise
import MailCue.Lib.Codec
import MailCue.Lib.Text

/-!
# GPG keys

backend/app/gpg/models.py and backend/app/gpg/service.py: the rows of each user in
the table `gpg_keys`, and what the functions do to them and to the one keyring all
users share. GnuPG and Python's email package are parameters. Queries give rows in
the order of their insertion, as SQLite does; ids, key ids and times are left out.
-/
namespace MailCue.Backend.Gpg
open MailCue.Lib

/-! ## Rows -/

structure GpgKey where
  user_id : Option String
  mailbox_address : Text
  fingerprint : String
  uid_name : Option Text := none
  uid_email : Option Text := none
  algorithm : Option String := none
  key_length : Option Nat := none
  is_private : Bool := false
  public_key_armor : Option Text := none
  is_active : Bool := true
  deriving DecidableEq, Repr

/-- `uq_gpg_keys_user_fingerprint`. It does not bind rows without a user. -/
def GpgKey.Distinct (k k' : GpgKey) : Prop :=
  k.user_id = k'.user_id → k.fingerprint = k'.fingerprint → k.user_id = none

structure KeyTable where
  rows : List GpgKey
  unique : rows.Pairwise GpgKey.Distinct

namespace KeyTable

def empty : KeyTable := ⟨[], .nil⟩

def owned (t : KeyTable) (user_id fingerprint : String) : Option GpgKey :=
  t.rows.find? fun k => k.user_id == some user_id && k.fingerprint == fingerprint

/-- The rows keep their users and fingerprints. -/
def modify (t : KeyTable) (f : GpgKey → GpgKey)
    (hf : ∀ k, (f k).user_id = k.user_id ∧ (f k).fingerprint = k.fingerprint) : KeyTable where
  rows := t.rows.map f
  unique := by
    refine List.pairwise_map.mpr (t.unique.imp ?_)
    intro k k' hdistinct huser hfingerprint
    rw [(hf k).1] at huser ⊢
    rw [(hf k').1] at huser
    rw [(hf k).2, (hf k').2] at hfingerprint
    exact hdistinct huser hfingerprint

theorem distinct_of_owned {t : KeyTable} {user_id : String} {row k : GpgKey}
    (huser : row.user_id = some user_id) (h : t.owned user_id row.fingerprint = none)
    (hk : k ∈ t.rows) : k.Distinct row := by
  intro hsame hfingerprint
  have hnot := List.find?_eq_none.mp h k hk
  simp [hsame, huser, hfingerprint] at hnot

def add (t : KeyTable) (user_id : String) (row : GpgKey) (huser : row.user_id = some user_id)
    (h : t.owned user_id row.fingerprint = none) : KeyTable where
  rows := t.rows ++ [row]
  unique := by
    refine List.pairwise_append.mpr ⟨t.unique, List.pairwise_singleton _ _, ?_⟩
    intro k hk new hnew
    obtain rfl := List.mem_singleton.mp hnew
    exact distinct_of_owned huser h hk

def remove (t : KeyTable) (p : GpgKey → Bool) : KeyTable where
  rows := t.rows.filter (!p ·)
  unique := t.unique.filter _

/-- One row for a user and a fingerprint. -/
theorem eq_of_owner {t : KeyTable} {k k' : GpgKey} {user_id : String} (hk : k ∈ t.rows)
    (hk' : k' ∈ t.rows) (huser : k.user_id = some user_id) (huser' : k'.user_id = some user_id)
    (hfingerprint : k.fingerprint = k'.fingerprint) : k = k' := by
  by_contra hne
  have hforall : t.rows.Pairwise fun k k' => ¬ (k.user_id = some user_id ∧
      k'.user_id = some user_id ∧ k.fingerprint = k'.fingerprint) := by
    refine t.unique.imp ?_
    rintro a b hdistinct ⟨ha, hb, hsame⟩
    have hnone := hdistinct (ha.trans hb.symm) hsame
    rw [ha] at hnone
    cases hnone
  have : Std.Symm fun k k' : GpgKey => ¬ (k.user_id = some user_id ∧
      k'.user_id = some user_id ∧ k.fingerprint = k'.fingerprint) :=
    ⟨fun a b hnot h => hnot ⟨h.2.1, h.1, h.2.2.symm⟩⟩
  exact hforall.forall hk hk' hne ⟨huser, huser', hfingerprint⟩

end KeyTable

/-! ## GnuPG -/

/-- An entry of the listing of public keys. -/
structure KeyInfo where
  fingerprint : String
  uids : List Text := []
  algo : Option String := none
  length : Option Nat := none
  deriving DecidableEq, Repr

structure ImportResult where
  fingerprints : List String
  stderr : Text := []

structure Verified where
  valid : Bool
  key_id : Option String
  status : Text
  fingerprint : Option String
  username : Option Text

structure GenKeyInput where
  key_type : String
  key_curve : Option String := none
  subkey_type : Option String := none
  subkey_curve : Option String := none
  key_length : Option Nat := none
  name_real : Text
  name_email : Text
  expire_date : Text

/-- What the functions call of `gnupg.GPG`, on the state of its keyring. -/
structure Gnupg (Ring : Type) where
  /-- The fingerprint of the new key, or what GnuPG says instead. -/
  genKey : Ring → GenKeyInput → Except Text String × Ring
  importKeys : Ring → Text → ImportResult × Ring
  listKeys : Ring → List KeyInfo
  exportKeys : Ring → String → Text
  /-- The secret part, or the public key. -/
  deleteKeys : Ring → String → Bool → Ring
  encrypt : Ring → Bytes → List String → Except Text Bytes
  /-- `none` where GnuPG gives no plaintext. -/
  decrypt : Ring → Bytes → Option Bytes
  verifyData : Ring → Bytes → Bytes → Verified

/-- The keyring with the table. -/
structure State (Ring : Type) where
  ring : Ring
  gpg_keys : KeyTable

inductive Failure
  | valueError (message : Text)
  | integrityError
  /-- Whatever else is raised between two calls, or by the commit. -/
  | interrupted
  deriving DecidableEq, Repr

variable {Ring : Type} (G : Gnupg Ring)

/-! ## Generation -/

structure GenerateKeyRequest where
  mailbox_address : Text
  name : Text := "MailCue User".toList
  algorithm : String := "RSA"
  key_length : Nat := 2048
  expire : Option Text := none

/-- A text that is not empty, as Python's `or` reads it. -/
def orElse (text : Option Text) (fallback : Text) : Text :=
  match text with
  | some (c :: rest) => c :: rest
  | _ => fallback

def GenerateKeyRequest.input (request : GenerateKeyRequest) : GenKeyInput :=
  let expire_date := orElse request.expire "0".toList
  if request.algorithm = "ECC" then
    { key_type := "EDDSA", key_curve := some "ed25519", subkey_type := some "ECDH",
      subkey_curve := some "cv25519", name_real := request.name,
      name_email := request.mailbox_address, expire_date := expire_date }
  else
    { key_type := "RSA", key_length := some request.key_length, name_real := request.name,
      name_email := request.mailbox_address, expire_date := expire_date }

def keyInfo (ring : Ring) (fingerprint : String) : Option KeyInfo :=
  (G.listKeys ring).find? (·.fingerprint == fingerprint)

def generatedRow (request : GenerateKeyRequest) (user_id fingerprint : String)
    (key_info : Option KeyInfo) (armor : Text) : GpgKey :=
  { user_id := some user_id
    mailbox_address := request.mailbox_address
    fingerprint := fingerprint
    uid_name := some request.name
    uid_email := some request.mailbox_address
    algorithm := some ((key_info.bind (·.algo)).getD request.algorithm)
    key_length := some ((key_info.bind (·.length)).getD request.key_length)
    is_private := true
    public_key_armor := some armor }

/-- `saved` says whether the commit goes through. -/
def generateKey (request : GenerateKeyRequest) (user_id : String) (saved : Bool)
    (s : State Ring) : Except Failure GpgKey × State Ring :=
  match G.genKey s.ring request.input with
  | (.error stderr, ring) =>
    (.error (.valueError ("Failed to generate key: ".toList ++ stderr)), { s with ring := ring })
  | (.ok fingerprint, ring) =>
    let row := generatedRow request user_id fingerprint (keyInfo G ring fingerprint)
      (G.exportKeys ring fingerprint)
    if !saved then (.error .interrupted, { s with ring := ring })
    else if h : s.gpg_keys.owned user_id row.fingerprint = none then
      (.ok row, ⟨ring, s.gpg_keys.add user_id row rfl h⟩)
    else (.error .integrityError, { s with ring := ring })

/-! ## Import -/

structure ImportKeyRequest where
  armored_key : Text
  mailbox_address : Option Text := none

/-- `_parse_uid` -/
def parseUid (uid : Text) : Option Text × Option Text :=
  let present (text : Text) : Option Text := if text = [] then none else some text
  if '<' ∈ uid ∧ '>' ∈ uid then
    let name := Text.strip Text.isSpace (uid.takeWhile (· != '<'))
    let rest := ((uid.dropWhile (· != '<')).drop 1).takeWhile (· != '<')
    (present name, present (Text.strip Text.isSpace (rest.takeWhile (· != '>'))))
  else (present (Text.strip Text.isSpace uid), none)

/-- What an import found out about the key it is for. -/
structure Imported where
  fingerprint : String
  address : Text
  uid_parts : Option Text × Option Text
  key_info : Option KeyInfo
  armored_key : Text

namespace Imported

/-- What the import leaves alone: the user, the fingerprint and `is_private`. -/
def refresh (i : Imported) (k : GpgKey) : GpgKey :=
  { k with
    mailbox_address := if i.address = [] then k.mailbox_address else i.address
    public_key_armor := if i.armored_key = [] then k.public_key_armor else some i.armored_key
    uid_name := i.uid_parts.1 <|> k.uid_name
    uid_email := i.uid_parts.2 <|> k.uid_email
    algorithm := i.key_info.bind (·.algo) <|> k.algorithm
    key_length := i.key_info.bind (·.length) <|> k.key_length
    is_active := true }

def newRow (i : Imported) (user_id : String) : GpgKey :=
  { user_id := some user_id
    mailbox_address := i.address
    fingerprint := i.fingerprint
    uid_name := i.uid_parts.1
    uid_email := i.uid_parts.2
    algorithm := i.key_info.bind (·.algo)
    key_length := i.key_info.map fun info => info.length.getD 0
    public_key_armor := some i.armored_key }

def isFor (i : Imported) (user_id : String) (k : GpgKey) : Bool :=
  k.user_id == some user_id && k.fingerprint == i.fingerprint

def refreshOwned (i : Imported) (user_id : String) (k : GpgKey) : GpgKey :=
  if i.isFor user_id k then i.refresh k else k

variable (i : Imported) (user_id : String) (k : GpgKey)

@[simp] theorem refreshOwned_user_id : (i.refreshOwned user_id k).user_id = k.user_id := by
  unfold refreshOwned
  split <;> rfl

@[simp] theorem refreshOwned_fingerprint :
    (i.refreshOwned user_id k).fingerprint = k.fingerprint := by
  unfold refreshOwned
  split <;> rfl

@[simp] theorem refreshOwned_is_private : (i.refreshOwned user_id k).is_private = k.is_private := by
  unfold refreshOwned
  split <;> rfl

/-- The user's row for the fingerprint is written, or there is a new one. -/
def save (t : KeyTable) : KeyTable :=
  if h : t.owned user_id i.fingerprint = none then t.add user_id (i.newRow user_id) rfl h
  else t.modify (i.refreshOwned user_id) fun k => ⟨by simp, by simp⟩

end Imported

/-- `import_key` up to its query of the table. -/
def importOf (ring : Ring) (request : ImportKeyRequest) : Except Failure Imported × Ring :=
  let (result, ring) := G.importKeys ring request.armored_key
  match result.fingerprints with
  | [] => (.error (.valueError ("Failed to import key: ".toList ++ result.stderr)), ring)
  | fingerprint :: _ =>
    let key_info := keyInfo G ring fingerprint
    let uid_parts := match key_info.bind (·.uids.head?) with
      | some uid => parseUid uid
      | none => (none, none)
    let address := orElse request.mailbox_address (orElse uid_parts.2 [])
    (.ok ⟨fingerprint, address, uid_parts, key_info, request.armored_key⟩, ring)

/-- `saved` says whether the commit goes through. -/
def importKey (request : ImportKeyRequest) (user_id : String) (saved : Bool) (s : State Ring) :
    Except Failure GpgKey × State Ring :=
  match importOf G s.ring request with
  | (.error failure, ring) => (.error failure, { s with ring := ring })
  | (.ok i, ring) =>
    if !saved then (.error .interrupted, { s with ring := ring })
    else
      let row := ((s.gpg_keys.owned user_id i.fingerprint).map i.refresh).getD (i.newRow user_id)
      (.ok row, ⟨ring, i.save user_id s.gpg_keys⟩)

/-! ## Key blocks in mail -/

def beginBlock : Text := "-----BEGIN PGP PUBLIC KEY BLOCK-----".toList

def endBlock : Text := "-----END PGP PUBLIC KEY BLOCK-----".toList

/-- What stands before and behind the first occurrence. -/
def cut (marker : Text) : Text → Option (Text × Text)
  | [] => none
  | c :: rest =>
    if marker.isPrefixOf (c :: rest) then some ([], (c :: rest).drop marker.length)
    else (cut marker rest).map fun (before, behind) => (c :: before, behind)

/-- `re.findall`, for at most so many blocks. -/
def findBlocks : Nat → Text → List Text
  | 0, _ => []
  | fuel + 1, text =>
    match cut beginBlock text with
    | none => []
    | some (_, behind) =>
      match cut endBlock behind with
      | none => []
      | some (body, rest) => (beginBlock ++ body ++ endBlock) :: findBlocks fuel rest

/-- A block has more than one character. -/
def keyBlocks (text : Text) : List Text := findBlocks text.length text

def blockRequests (text sender_address : Text) : List ImportKeyRequest :=
  (keyBlocks text).map fun block =>
    { armored_key := block, mailbox_address := some sender_address }

/-- A block whose import fails is passed over. -/
def importBlock (user_id : String) (soFar : List GpgKey × State Ring)
    (request : ImportKeyRequest) : List GpgKey × State Ring :=
  match importKey G request user_id true soFar.2 with
  | (.ok key, s) => (soFar.1 ++ [key], s)
  | (.error _, s) => (soFar.1, s)

theorem importBlock_state (user_id : String) (soFar : List GpgKey × State Ring)
    (request : ImportKeyRequest) :
    (importBlock G user_id soFar request).2 = (importKey G request user_id true soFar.2).2 := by
  unfold importBlock
  split <;> rename_i heq <;> rw [heq]

def extractAndImportKeysFromEmail (text sender_address : Text) (user_id : String)
    (s : State Ring) : List GpgKey × State Ring :=
  (blockRequests text sender_address).foldl (importBlock G user_id) ([], s)

/-! ## Queries -/

def GpgKey.serves (address : Text) (user_id : String) (k : GpgKey) : Bool :=
  k.mailbox_address == address && k.is_active && k.user_id == some user_id

def getKeyForAddress (t : KeyTable) (address : Text) (user_id : String) : Option GpgKey :=
  t.rows.find? (GpgKey.serves address user_id)

def noKeyFound (address : Text) : Failure := .valueError ("No key found for ".toList ++ address)

/-! ## Deletion -/

def GpgKey.deletedBy (address : Text) (user_id : String) (k : GpgKey) : Bool :=
  k.mailbox_address == address && k.user_id == some user_id

/-- The calls of the loop; `true` for the secret part, which goes first. -/
def deletions (keys : List GpgKey) : List (String × Bool) :=
  keys.flatMap fun k => if k.is_private then [(k.fingerprint, true), (k.fingerprint, false)]
    else [(k.fingerprint, false)]

/-- `stopped` is the number of calls to GnuPG behind which something is raised, if
it is; behind the last of them it is the commit that fails. -/
def deleteKey (address : Text) (user_id : String) (stopped : Option Nat) (s : State Ring) :
    Except Failure Unit × State Ring :=
  let keys := s.gpg_keys.rows.filter (GpgKey.deletedBy address user_id)
  let run (calls : List (String × Bool)) : Ring :=
    calls.foldl (fun ring (fingerprint, secret) => G.deleteKeys ring fingerprint secret) s.ring
  if keys = [] then (.error (noKeyFound address), s)
  else
    match stopped with
    | some n => (.error .interrupted, { s with ring := run ((deletions keys).take n) })
    | none =>
      (.ok (), ⟨run (deletions keys), s.gpg_keys.remove (GpgKey.deletedBy address user_id)⟩)

/-! ## Keyserver -/

/-- `answer` is what the keyserver sends, if it can be reached. -/
def fetchKeyFromKeyserver (address : Text) (answer : Option Text) (user_id : String)
    (saved : Bool) (s : State Ring) : Except Failure GpgKey × State Ring :=
  let missing : Failure := .valueError ("No public key found on keyserver for ".toList ++ address)
  match answer with
  | none => (.error missing, s)
  | some armored_key =>
    if !Text.contains armored_key beginBlock then (.error missing, s)
    else
      match importKey G ⟨armored_key, some address⟩ user_id saved s with
      | (.error .interrupted, s) => (.error missing, s)
      | (.error .integrityError, s) => (.error missing, s)
      | (result, s) => (result, s)

end MailCue.Backend.Gpg
