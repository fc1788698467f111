import Mathlib
import MailCue.Backend.Gpg.Messages
import MailCue.Backend.Mailboxes.UsersFile
import MailCue.Lib.Fallible
import MailCue.Lib.Utf8

/-!
# Signing and encrypting a message

backend/app/gpg/service.py `_pgp_mime_body`, `_copy_outer_headers`, `sign_message` and
`encrypt_message`, over messages with their header fields and parts. Field names are
ASCII, where `casefold` is `lower`.
-/
namespace MailCue.Backend.Gpg
open MailCue.Lib

/-! ## Messages -/

structure Header where
  name : Text
  value : Text
  deriving DecidableEq, Repr

/-- The content of a part is the one before its transfer encoding. -/
inductive Entity
  | part (headers : List Header) (content : Bytes)
  | multipart (headers : List Header) (parts : List Entity)

namespace Entity

def headers : Entity → List Header
  | part headers _ => headers
  | multipart headers _ => headers

def withHeaders (headers : List Header) : Entity → Entity
  | part _ content => part headers content
  | multipart _ parts => multipart headers parts

@[simp] theorem headers_withHeaders (headers : List Header) (e : Entity) :
    (e.withHeaders headers).headers = headers := by
  cases e <;> rfl

def parts : Entity → List Entity
  | part _ _ => []
  | multipart _ parts => parts

def content : Entity → Option Bytes
  | part _ content => some content
  | multipart _ _ => none

def IsBase64 (e : Entity) : Prop :=
  ⟨"Content-Transfer-Encoding".toList, "base64".toList⟩ ∈ e.headers

/-- What the second part holds. -/
def payload (e : Entity) : Option Bytes := (e.parts.map content)[1]?.join

end Entity

/-- What `MIMEBase` begins a part with. -/
def mimeHeaders (content_type : Text) : List Header :=
  [⟨"Content-Type".toList, content_type⟩, ⟨"MIME-Version".toList, "1.0".toList⟩]

def Header.isContent (h : Header) : Bool :=
  let lowered := Text.asciiLower h.name
  lowered == "mime-version".toList || "content-".toList.isPrefixOf lowered

def Header.isBcc (h : Header) : Bool := Text.asciiLower h.name == "bcc".toList

def Header.isOuter (h : Header) : Bool := !(h.isBcc || h.isContent)

/-- Printable ASCII without a colon. -/
def Header.isNamed (h : Header) : Bool :=
  !h.name.isEmpty && h.name.all fun c => 33 ≤ c.toNat && c.toNat ≤ 126 && c != ':'

inductive Policy
  | compat32 | smtp
  deriving DecidableEq, Repr

/-- Python's `email` package. `Wire` is a message in bytes. -/
structure EmailLibrary (Wire : Type) where
  /-- `none` where it raises. -/
  asBytes : Policy → Entity → Option Wire
  messageFromBytes : Wire → Entity
  octets : Wire → Bytes
  /-- A header field that was written and is read again. -/
  reread : Policy → Header → Header
  reread_name : ∀ policy h, (reread policy h).name = h.name
  /-- Each field is written for itself; those of the content may get parameters. -/
  headers_read : ∀ policy e raw, (∀ h ∈ e.headers, h.isNamed = true) →
    asBytes policy e = some raw →
      (messageFromBytes raw).headers.filter (!·.isContent) =
        (e.headers.filter (!·.isContent)).map (reread policy)
  /-- Base64 keeps what a part holds. -/
  parts_read : ∀ policy e raw, (∀ part ∈ e.parts, part.IsBase64) →
    asBytes policy e = some raw →
      (messageFromBytes raw).parts.map Entity.content = e.parts.map Entity.content

/-- `_pgp_mime_body` -/
def pgpMimeBody (original : Entity) : Entity :=
  original.withHeaders (original.headers.filter Header.isContent)

/-- The fields of `email.headerregistry` that a message has once. -/
def fieldsOnce : List Text :=
  ["subject", "date", "orig-date", "sender", "to", "cc", "bcc", "from", "reply-to",
    "message-id", "mime-version", "content-type", "content-disposition",
    "content-transfer-encoding"].map String.toList

/-- `wrapped[header] = value` under `policy.SMTP`. -/
def storeHeader (wrapped : List Header) (h : Header) : Except Failure (List Header) :=
  let lowered := Text.asciiLower h.name
  if lowered ∈ fieldsOnce ∧ wrapped.any (Text.asciiLower ·.name == lowered) then
    .error (.valueError ("There may be at most 1 ".toList ++ h.name ++
      " headers in a message".toList))
  else if 1 < (Lines.splitLines Mailboxes.isLineBreak
      (Mailboxes.universalNewlines h.value)).length then
    .error (.valueError
      "Header values may not contain linefeed or carriage return characters".toList)
  else .ok (wrapped ++ [h])

/-- `_copy_outer_headers` -/
def copyOuterHeaders (original : Entity) (wrapped : List Header) : Except Failure (List Header) :=
  (original.headers.filter Header.isOuter).foldlM storeHeader wrapped

theorem storeHeader_ok {wrapped stored : List Header} {h : Header}
    (hstore : storeHeader wrapped h = .ok stored) : stored = wrapped ++ [h] := by
  simp only [storeHeader] at hstore
  split_ifs at hstore
  exact (Except.ok.inj hstore).symm

theorem foldlM_storeHeader {headers wrapped stored : List Header}
    (h : headers.foldlM storeHeader wrapped = .ok stored) : stored = wrapped ++ headers := by
  induction headers generalizing wrapped with
  | nil => simpa [pure, Except.pure, eq_comm] using h
  | cons header headers ih =>
    rw [List.foldlM_cons] at h
    obtain ⟨next, hstore, hrest⟩ := ok_of_bind h
    rw [ih hrest, storeHeader_ok hstore, List.append_assoc, List.singleton_append]

theorem copyOuterHeaders_ok {original : Entity} {wrapped stored : List Header}
    (h : copyOuterHeaders original wrapped = .ok stored) :
    stored = wrapped ++ original.headers.filter Header.isOuter :=
  foldlM_storeHeader h

/-! ## What is read of a message that was written -/

theorem isNamed_mimeHeaders (content_type : Text) :
    ∀ h ∈ mimeHeaders content_type, h.isNamed = true := by
  intro h hmem
  simp only [mimeHeaders, List.mem_cons, List.not_mem_nil, or_false] at hmem
  rcases hmem with rfl | rfl <;> rfl

theorem filter_mimeHeaders (content_type : Text) :
    (mimeHeaders content_type).filter Header.isOuter = [] := by
  have htype : Header.isOuter ⟨"Content-Type".toList, content_type⟩ = false := rfl
  have hversion : Header.isOuter ⟨"MIME-Version".toList, "1.0".toList⟩ = false := rfl
  simp only [mimeHeaders, List.filter_cons, htype, hversion, List.filter_nil, Bool.false_eq_true,
    if_false]

theorem not_content_of_bcc {h : Header} (hbcc : h.isBcc = true) : h.isContent = false := by
  have hname : Text.asciiLower h.name = "bcc".toList := by simpa [Header.isBcc] using hbcc
  simp only [Header.isContent, hname]
  decide

theorem filter_isOuter (headers : List Header) :
    headers.filter Header.isOuter = (headers.filter (!·.isContent)).filter (!·.isBcc) := by
  rw [List.filter_filter]
  refine List.filter_congr fun h _ => ?_
  rw [Header.isOuter, Bool.not_or]

namespace EmailLibrary

variable {Wire : Type} (p : EmailLibrary Wire) {policy : Policy} {e : Entity} {raw : Wire}

theorem outer_read (hnames : ∀ h ∈ e.headers, h.isNamed = true)
    (h : p.asBytes policy e = some raw) :
    (p.messageFromBytes raw).headers.filter Header.isOuter =
      (e.headers.filter Header.isOuter).map (p.reread policy) := by
  have hbcc : (fun h : Header => !h.isBcc) ∘ p.reread policy = fun h => !h.isBcc := by
    funext h
    simp [Header.isBcc, p.reread_name]
  rw [filter_isOuter, filter_isOuter, p.headers_read policy e raw hnames h, List.filter_map, hbcc]

theorem no_bcc_read (hnames : ∀ h ∈ e.headers, h.isNamed = true)
    (hnone : ∀ h ∈ e.headers, h.isBcc = false) (h : p.asBytes policy e = some raw) :
    ∀ h ∈ (p.messageFromBytes raw).headers, h.isBcc = false := by
  intro field hfield
  by_contra hbcc
  replace hbcc : field.isBcc = true := by simpa using hbcc
  have hkept : field ∈ (p.messageFromBytes raw).headers.filter (!·.isContent) :=
    List.mem_filter.mpr ⟨hfield, by simp [not_content_of_bcc hbcc]⟩
  rw [p.headers_read policy e raw hnames h] at hkept
  obtain ⟨written, hwritten, rfl⟩ := List.mem_map.mp hkept
  have hsame : (p.reread policy written).isBcc = written.isBcc := by
    simp [Header.isBcc, p.reread_name]
  rw [hsame, hnone written (List.mem_filter.mp hwritten).1] at hbcc
  cases hbcc

/-- A message with outer fields behind those of its content. -/
theorem outer_read_of_mime {content_type : Text} {fields : List Header}
    (he : e.headers = mimeHeaders content_type ++ fields)
    (hfields : ∀ h ∈ fields, h.isOuter = true ∧ h.isNamed = true)
    (h : p.asBytes policy e = some raw) :
    (p.messageFromBytes raw).headers.filter Header.isOuter = fields.map (p.reread policy) := by
  have hnames : ∀ h ∈ e.headers, h.isNamed = true := by
    intro field hfield
    rw [he] at hfield
    rcases List.mem_append.mp hfield with hmime | hother
    · exact isNamed_mimeHeaders content_type field hmime
    · exact (hfields field hother).2
  have hall : fields.filter Header.isOuter = fields :=
    List.filter_eq_self.mpr fun field hfield => (hfields field hfield).1
  rw [p.outer_read hnames h, he, List.filter_append, filter_mimeHeaders, List.nil_append, hall]

end EmailLibrary

/-- `MIMEApplication` with a description. -/
def application (content_type description : String) (content : Bytes) : Entity :=
  .part (mimeHeaders content_type.toList ++
    [⟨"Content-Transfer-Encoding".toList, "base64".toList⟩,
      ⟨"Content-Description".toList, description.toList⟩]) content

/-! ## Signing -/

variable {Wire Ring : Type} (p : EmailLibrary Wire) (G : Gnupg Ring)

def signedType : Text :=
  "multipart/signed; protocol=\"application/pgp-signature\"; micalg=\"pgp-sha256\"".toList

def signedMessage (headers : List Header) (content_part : Entity) (sig : Bytes) : Entity :=
  .multipart headers [content_part,
    application "application/pgp-signature; name=\"signature.asc\""
      "OpenPGP digital signature" sig]

/-- What raises in the `email` package. -/
def written (raw : Option Wire) : Except Failure Wire :=
  match raw with
  | some raw => .ok raw
  | none => .error .interrupted

/-- What GnuPG says where it gives nothing. -/
def raised (message : String) (data : Except Text Bytes) : Except Failure Bytes :=
  data.mapError fun stderr => .valueError (message.toList ++ stderr)

def signingKey (t : KeyTable) (sender : Text) (user_id : String) : Except Failure GpgKey :=
  let missing : Failure := .valueError ("No private key found for ".toList ++ sender)
  match getKeyForAddress t sender user_id with
  | none => .error missing
  | some key => if key.is_private then .ok key else .error missing

/-- `sign` makes a detached signature, or says why it does not. -/
def signMessage (sign : Ring → Bytes → String → Except Text Bytes) (raw_bytes : Wire)
    (sender : Text) (user_id : String) (s : State Ring) : Except Failure Wire := do
  let key ← signingKey s.gpg_keys sender user_id
  let original := p.messageFromBytes raw_bytes
  let content_part := pgpMimeBody original
  let content_bytes ← written (p.asBytes .smtp content_part)
  let sig ← raised "Failed to sign message: "
    (sign s.ring (p.octets content_bytes) key.fingerprint)
  let headers ← copyOuterHeaders original (mimeHeaders signedType)
  written (p.asBytes .smtp (signedMessage headers content_part sig))

theorem written_ok {raw : Option Wire} {w : Wire} (h : written raw = .ok w) : raw = some w := by
  cases raw with
  | none => cases h
  | some raw => exact congrArg some (Except.ok.inj h)

theorem raised_ok {message : String} {data : Except Text Bytes} {payload : Bytes}
    (h : raised message data = .ok payload) : data = .ok payload := by
  cases data with
  | error stderr => cases h
  | ok data => simpa [raised, Except.mapError] using h

/-- What was signed under the sender's name keeps the outer fields of the message. -/
theorem signMessage_ok {sign : Ring → Bytes → String → Except Text Bytes} {raw_bytes signed : Wire}
    {sender : Text} {user_id : String} {s : State Ring}
    (h : signMessage p sign raw_bytes sender user_id s = .ok signed) :
    ∃ sig, p.asBytes .smtp (signedMessage
      (mimeHeaders signedType ++ (p.messageFromBytes raw_bytes).headers.filter Header.isOuter)
      (pgpMimeBody (p.messageFromBytes raw_bytes)) sig) = some signed := by
  unfold signMessage at h
  obtain ⟨key, -, h⟩ := ok_of_bind h
  obtain ⟨content_bytes, -, h⟩ := ok_of_bind h
  obtain ⟨sig, -, h⟩ := ok_of_bind h
  obtain ⟨headers, hheaders, h⟩ := ok_of_bind h
  rw [copyOuterHeaders_ok hheaders] at h
  exact ⟨sig, written_ok h⟩

/-! ## Encryption -/

def encryptedType : Text :=
  "multipart/encrypted; protocol=\"application/pgp-encrypted\"".toList

def encryptedMessage (headers : List Header) (encrypted : Bytes) : Entity :=
  .multipart headers [
    application "application/pgp-encrypted" "PGP/MIME version identification"
      (Utf8.encode "Version: 1\n".toList),
    application "application/octet-stream; name=\"encrypted.asc\""
      "OpenPGP encrypted message" encrypted]

/-- `encrypt_message` behind its search for the keys. -/
def encryptTo (ring : Ring) (raw_bytes : Wire) (fingerprints : List String) :
    Except Failure Wire := do
  let original := p.messageFromBytes raw_bytes
  let body_bytes ← written (p.asBytes .smtp (pgpMimeBody original))
  let encrypted ← raised "Failed to encrypt message: "
    (G.encrypt ring (p.octets body_bytes) fingerprints)
  let headers ← copyOuterHeaders original (mimeHeaders encryptedType)
  written (p.asBytes .smtp (encryptedMessage headers encrypted))

theorem payload_encryptedMessage {headers : List Header} {encrypted : Bytes} {policy : Policy}
    {raw : Wire} (h : p.asBytes policy (encryptedMessage headers encrypted) = some raw) :
    (p.messageFromBytes raw).payload = some encrypted := by
  have hparts := p.parts_read policy _ raw (by
    intro part hpart
    simp only [encryptedMessage, Entity.parts, List.mem_cons, List.not_mem_nil, or_false] at hpart
    rcases hpart with rfl | rfl <;> simp [Entity.IsBase64, application, Entity.headers]) h
  rw [Entity.payload, hparts]
  rfl

theorem encryptTo_ok {ring : Ring} {raw_bytes sealed : Wire} {fingerprints : List String}
    (h : encryptTo p G ring raw_bytes fingerprints = .ok sealed) :
    ∃ body_bytes encrypted,
      p.asBytes .smtp (pgpMimeBody (p.messageFromBytes raw_bytes)) = some body_bytes ∧
      G.encrypt ring (p.octets body_bytes) fingerprints = .ok encrypted ∧
      p.asBytes .smtp (encryptedMessage
        (mimeHeaders encryptedType ++ (p.messageFromBytes raw_bytes).headers.filter Header.isOuter)
        encrypted) = some sealed := by
  unfold encryptTo at h
  obtain ⟨body_bytes, hbody, h⟩ := ok_of_bind h
  obtain ⟨encrypted, hencrypted, h⟩ := ok_of_bind h
  obtain ⟨headers, hheaders, h⟩ := ok_of_bind h
  rw [copyOuterHeaders_ok hheaders] at h
  exact ⟨body_bytes, encrypted, written_ok hbody, raised_ok hencrypted, written_ok h⟩

/-- `encrypt_message` -/
def sealMessage (raw_bytes : Wire) (recipients : List Text) (keyserver : Text → Option Text)
    (user_id : String) (s : State Ring) : Except Failure Wire × State Ring :=
  match recipientKeys G keyserver user_id recipients s with
  | (.error failure, s) => (.error failure, s)
  | (.ok fingerprints, s) => (encryptTo p G s.ring raw_bytes fingerprints, s)

/-- The library where a message is its bytes, as `encryptMessage` has it. -/
def EmailLibrary.package {Content : Type} (p : EmailLibrary Bytes)
    (rest : EmailPackage Entity Content) : EmailPackage Entity Content :=
  { rest with
    messageFromBytes := p.messageFromBytes
    asBytes := fun e => (p.asBytes .smtp e).getD []
    pgpMimeBody := pgpMimeBody
    encryptedMessage := fun original encrypted => encryptedMessage
      (mimeHeaders encryptedType ++ original.headers.filter Header.isOuter) encrypted }

/-- Where nothing raises, it does what `encryptMessage` does. -/
theorem sealMessage_encryptMessage {Content : Type} (p : EmailLibrary Bytes)
    (hoctets : ∀ raw, p.octets raw = raw) (rest : EmailPackage Entity Content)
    {raw_bytes sealed : Bytes} {recipients : List Text} {keyserver : Text → Option Text}
    {user_id : String} {s s' : State Ring}
    (h : sealMessage p G raw_bytes recipients keyserver user_id s = (.ok sealed, s')) :
    encryptMessage (p.package rest) G raw_bytes recipients keyserver user_id s =
      (.ok sealed, s') := by
  unfold sealMessage at h
  unfold encryptMessage
  split at h
  · cases h
  · rename_i fingerprints after hkeys
    obtain ⟨hsealed, rfl⟩ := Prod.mk.inj h
    obtain ⟨body_bytes, encrypted, hbody, hencrypted, hwritten⟩ := encryptTo_ok p G hsealed
    rw [hoctets] at hencrypted
    simp only [hkeys, EmailLibrary.package, hbody, Option.getD_some, hencrypted, hwritten]

end MailCue.Backend.Gpg
