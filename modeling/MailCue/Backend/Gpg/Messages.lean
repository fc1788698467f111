import MailCue.Backend.Gpg.Service

/-!
# PGP/MIME mail

backend/app/gpg/service.py `encrypt_message`, `verify_signature` and
`decrypt_message`, and what backend/app/emails/service.py `get_email` makes of the
message it has fetched: it verifies or decrypts it and imports the keys it finds in
it for the user who reads it.
-/
namespace MailCue.Backend.Gpg
open MailCue.Lib

inductive SignatureStatus
  | valid | invalid | noPublicKey | expiredKey | error
  deriving DecidableEq, Repr

structure GpgEmailInfo where
  is_signed : Bool := false
  is_encrypted : Bool := false
  signature_status : Option SignatureStatus := none
  signer_fingerprint : Option String := none
  signer_key_id : Option String := none
  signer_uid : Option Text := none
  decrypted : Bool := false
  encryption_key_ids : List String := []
  deriving DecidableEq, Repr

/-- What `parse_email` finds in a message; `content` is all of it these functions do not
read. -/
structure ParsedEmail (Content : Type) where
  from_address : Text
  is_signed : Bool
  is_encrypted : Bool
  content : Content

structure EmailDetail (Content : Type) extends ParsedEmail Content where
  is_read : Bool := false
  gpg : Option GpgEmailInfo := none

/-- Python's `email` package as far as the functions call it, and `parse_email`. -/
structure EmailPackage (Message Content : Type) where
  messageFromBytes : Bytes → Message
  contentType : Message → String
  parts : Message → List Message
  /-- The decoded payload, or where there is none the payload as it stands. -/
  payload : Message → Bytes
  header : Message → String → Option String
  setHeader : Message → String → String → Message
  asBytes : Message → Bytes
  /-- `_pgp_mime_body` -/
  pgpMimeBody : Message → Message
  /-- The `multipart/encrypted` message with the outer headers of the original. -/
  encryptedMessage : Message → Bytes → Message
  decode : Bytes → Text
  lower : Text → Text
  parseEmail : Bytes → ParsedEmail Content

variable {Message Content Ring : Type}
variable (p : EmailPackage Message Content) (G : Gnupg Ring)

/-! ## Encryption -/

/-- The keys of the recipients, fetched where the user has none. -/
def recipientKeys (keyserver : Text → Option Text) (user_id : String) :
    List Text → State Ring → Except Failure (List String) × State Ring
  | [], s => (.ok [], s)
  | addr :: recipients, s =>
    let (key, s) : Option GpgKey × State Ring :=
      match getKeyForAddress s.gpg_keys addr user_id with
      | some key => (some key, s)
      | none =>
        match fetchKeyFromKeyserver G addr (keyserver addr) user_id true s with
        | (.ok key, s) => (some key, s)
        | (.error _, s) => (none, s)
    match key with
    | none => (.error (.valueError ("No public key found for ".toList ++ addr)), s)
    | some key =>
      match recipientKeys keyserver user_id recipients s with
      | (.ok fingerprints, s) => (.ok (key.fingerprint :: fingerprints), s)
      | (.error failure, s) => (.error failure, s)

def encryptMessage (raw_bytes : Bytes) (recipients : List Text) (keyserver : Text → Option Text)
    (user_id : String) (s : State Ring) : Except Failure Bytes × State Ring :=
  match recipientKeys G keyserver user_id recipients s with
  | (.error failure, s) => (.error failure, s)
  | (.ok fingerprints, s) =>
    let original := p.messageFromBytes raw_bytes
    match G.encrypt s.ring (p.asBytes (p.pgpMimeBody original)) fingerprints with
    | .error stderr =>
      (.error (.valueError ("Failed to encrypt message: ".toList ++ stderr)), s)
    | .ok encrypted => (.ok (p.asBytes (p.encryptedMessage original encrypted)), s)

/-! ## Verification -/

def signatureStatus (verified : Verified) : SignatureStatus :=
  if verified.valid then .valid
  else if verified.key_id.isSome then
    if Text.contains (p.lower verified.status) "expired".toList then .expiredKey else .invalid
  else if verified.status = "no public key".toList then .noPublicKey
  else .error

def verifySignature (ring : Ring) (raw_bytes : Bytes) : GpgEmailInfo :=
  let msg := p.messageFromBytes raw_bytes
  if p.contentType msg ≠ "multipart/signed" then { is_signed := false }
  else
    match p.parts msg with
    | content_part :: sig_part :: _ =>
      let verified := G.verifyData ring (p.payload sig_part) (p.asBytes content_part)
      { is_signed := true
        signature_status := some (signatureStatus p verified)
        signer_fingerprint := verified.fingerprint
        signer_key_id := verified.key_id
        signer_uid := verified.username }
    | _ => { is_signed := true, signature_status := some .error }

/-! ## Decryption -/

/-- The data `decrypt_message` hands to GnuPG. -/
def encryptedData (raw_bytes : Bytes) : Option Bytes :=
  let msg := p.messageFromBytes raw_bytes
  if p.contentType msg ≠ "multipart/encrypted" then none
  else
    match p.parts msg with
    | _ :: encrypted_part :: _ => some (p.payload encrypted_part)
    | _ => none

def originalHeaders : List String := ["From", "To", "Cc", "Bcc", "Subject", "Date", "Message-ID"]

def restoreHeaders (msg decrypted_msg : Message) : Message :=
  originalHeaders.foldl (fun decrypted_msg name =>
    match p.header msg name with
    | none => decrypted_msg
    | some value =>
      if value = "" ∨ (p.header decrypted_msg name).isSome then decrypted_msg
      else p.setHeader decrypted_msg name value) decrypted_msg

/-- It does not read `recipient`. -/
def decryptMessage (ring : Ring) (raw_bytes : Bytes) (_recipient : Text) :
    Bytes × GpgEmailInfo :=
  let msg := p.messageFromBytes raw_bytes
  match encryptedData p raw_bytes with
  | none =>
    (raw_bytes, { is_encrypted := decide (p.contentType msg = "multipart/encrypted") })
  | some encrypted_data =>
    match G.decrypt ring encrypted_data with
    | none => (raw_bytes, { is_encrypted := true })
    | some decrypted_bytes =>
      (p.asBytes (restoreHeaders p msg (p.messageFromBytes decrypted_bytes)),
        { is_encrypted := true, decrypted := true })

/-! ## Reading -/

/-- The import raises for no user, which is suppressed. -/
def autoImport (raw_bytes : Bytes) (from_address : Text) (gpg_user_id : Option String)
    (s : State Ring) : State Ring :=
  match gpg_user_id with
  | none => s
  | some user_id => (extractAndImportKeysFromEmail G (p.decode raw_bytes) from_address user_id s).2

/-- The signer's key as the keyring has it, for the address in the From header. -/
def importSigner (detail : EmailDetail Content) (gpg_user_id : Option String) (s : State Ring) :
    State Ring :=
  match detail.gpg.bind (·.signer_fingerprint) with
  | none => s
  | some fingerprint =>
    let armor := G.exportKeys s.ring fingerprint
    if armor = [] then s
    else
      match gpg_user_id with
      | none => s
      | some user_id => (importKey G ⟨armor, some detail.from_address⟩ user_id true s).2

/-- The parsed message, with its signature if it has one. -/
def parsedDetail (ring : Ring) (raw_bytes : Bytes) : EmailDetail Content :=
  let detail : EmailDetail Content := { p.parseEmail raw_bytes with is_read := true }
  if detail.is_signed then { detail with gpg := some (verifySignature p G ring raw_bytes) }
  else detail

/-- `get_email` behind the FETCH, which gave `raw_bytes`. -/
def getEmail (mailbox : Text) (raw_bytes : Bytes) (gpg_user_id : Option String) (s : State Ring) :
    EmailDetail Content × State Ring :=
  let detail := parsedDetail p G s.ring raw_bytes
  let (detail, s) : EmailDetail Content × State Ring :=
    if detail.is_encrypted then
      let (decrypted_bytes, gpg_info) := decryptMessage p G s.ring raw_bytes mailbox
      if gpg_info.decrypted then
        let detail : EmailDetail Content := { p.parseEmail decrypted_bytes with is_read := true }
        let s := autoImport p G decrypted_bytes detail.from_address gpg_user_id s
        ({ detail with gpg := some gpg_info }, s)
      else ({ detail with gpg := some gpg_info }, s)
    else (detail, s)
  let s := autoImport p G raw_bytes detail.from_address gpg_user_id s
  (detail, importSigner G detail gpg_user_id s)

/-- What is returned, and the bytes that are searched for keys. -/
def readMessage (ring : Ring) (mailbox : Text) (raw_bytes : Bytes) :
    EmailDetail Content × List Bytes :=
  let detail := parsedDetail p G ring raw_bytes
  if detail.is_encrypted then
    let (decrypted_bytes, gpg_info) := decryptMessage p G ring raw_bytes mailbox
    if gpg_info.decrypted then
      ({ p.parseEmail decrypted_bytes with is_read := true, gpg := some gpg_info },
        [decrypted_bytes, raw_bytes])
    else ({ detail with gpg := some gpg_info }, [raw_bytes])
  else (detail, [raw_bytes])

/-- The reading comes before all imports. -/
theorem getEmail_eq (mailbox : Text) (raw_bytes : Bytes) (gpg_user_id : Option String)
    (s : State Ring) :
    getEmail p G mailbox raw_bytes gpg_user_id s =
      let (detail, sources) := readMessage p G s.ring mailbox raw_bytes
      (detail, importSigner G detail gpg_user_id
        (sources.foldl (fun s source => autoImport p G source detail.from_address gpg_user_id s)
          s)) := by
  unfold getEmail readMessage
  generalize parsedDetail p G s.ring raw_bytes = detail
  generalize decryptMessage p G s.ring raw_bytes mailbox = decryption
  cases hencrypted : detail.is_encrypted with
  | false => simp [hencrypted]
  | true => cases hdecrypted : decryption.2.decrypted <;> simp [hencrypted, hdecrypted]

/-- Plain mail of a stranger. -/
def testPackage : EmailPackage Bytes Unit where
  messageFromBytes raw_bytes := raw_bytes
  contentType _ := "text/plain"
  parts _ := []
  payload msg := msg
  header _ _ := none
  setHeader msg _ _ := msg
  asBytes msg := msg
  pgpMimeBody msg := msg
  encryptedMessage _ data := data
  decode raw_bytes := raw_bytes.map fun b => Char.ofNat b.toNat
  lower := Text.asciiLower
  parseEmail _ :=
    { from_address := "mallory@y".toList, is_signed := false, is_encrypted := false, content := () }

end MailCue.Backend.Gpg
