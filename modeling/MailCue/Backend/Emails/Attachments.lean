import MailCue.Backend.Gpg.SharedKeyring
import MailCue.Backend.Gpg.Messages

/-!
# Attachments by number

backend/app/emails/parser.py `_extract_body_and_attachments`, which numbers the parts of
a message, and backend/app/emails/service.py `get_email`, which lists those of the message
it shows, and `get_attachment`, which looks a number up in the message that is stored. A
message is the tree of its parts, as the email package parses it.
-/
namespace MailCue.Backend.Emails.Attachments
open MailCue.Lib MailCue.Backend.Gpg

/-- What is read of a part's header. -/
structure PartHeader where
  content_type : Text := "text/plain".toList
  /-- The Content-Disposition, empty where there is none. -/
  disposition : Text := []
  filename : Option Text := none
  charset : Option Text := none
  /-- The `protocol` parameter in lower case, empty where there is none. -/
  protocol : Text := []

/-- A message or a part of one. The parts of an embedded message are its own. -/
inductive Mime
  | single (header : PartHeader) (payload : Option Bytes)
  | nested (header : PartHeader) (parts : List Mime)

namespace Mime

def header : Mime → PartHeader
  | single header _ => header
  | nested header _ => header

/-- `get_payload(decode=True)` -/
def payload : Mime → Option Bytes
  | single _ payload => payload
  | nested _ _ => none

mutual

/-- The message and all its parts, depth first. -/
def walk : Mime → List Mime
  | single header payload => [single header payload]
  | nested header parts => nested header parts :: walkAll parts

def walkAll : List Mime → List Mime
  | [] => []
  | part :: rest => walk part ++ walkAll rest

end

def maintype (part : Mime) : Text := part.header.content_type.takeWhile (· != '/')

end Mime

structure AttachmentInfo where
  filename : Text
  content_type : Text
  size : Nat
  part_id : Text
  deriving DecidableEq, Repr

/-! ## Listing -/

/-- `str(n)` -/
def str (n : Nat) : Text := Nat.toDigits 10 n

def defaultName (n : Nat) : Text := "attachment_".toList ++ str n

/-- `_decode_header_str`, of a text or nothing. -/
def decode_header_str (value : Option Text) : Text := value.getD []

def is_attachment (part : Mime) : Bool :=
  Text.contains part.header.disposition "attachment".toList ||
    (part.header.filename.isSome && !Text.contains part.header.disposition "inline".toList)

structure Extracted where
  text_body : Option Text := none
  html_body : Option Text := none
  attachments : List AttachmentInfo := []
  part_counter : Nat := 0

variable (safe_decode : Bytes → Text → Text)

/-- One round of the walk. -/
def extractPart (s : Extracted) (part : Mime) : Extracted :=
  if part.maintype = "multipart".toList then s
  else
    match part.payload with
    | none => s
    | some payload =>
      let charset := orElse part.header.charset "utf-8".toList
      let part_counter := s.part_counter + 1
      if is_attachment part then
        let filename :=
          orElse (some (decode_header_str part.header.filename)) (defaultName part_counter)
        { s with
          part_counter
          attachments := s.attachments ++
            [⟨filename, part.header.content_type, payload.length, str part_counter⟩] }
      else if part.header.content_type = "text/plain".toList ∧ s.text_body = none then
        { s with part_counter, text_body := some (safe_decode payload charset) }
      else if part.header.content_type = "text/html".toList ∧ s.html_body = none then
        { s with part_counter, html_body := some (safe_decode payload charset) }
      else { s with part_counter }

def extract_body_and_attachments (msg : Mime) : Extracted :=
  msg.walk.foldl (extractPart safe_decode) {}

/-! ## Looking up -/

inductive Failure
  | notFound (resource : String) (identifier : Text)
  deriving DecidableEq, Repr

def findPart (part_id : Text) : Nat → List Mime → Except Failure (Bytes × Text × Text)
  | _, [] => .error (.notFound "Attachment" part_id)
  | counter, part :: rest =>
    if part.maintype = "multipart".toList then findPart part_id counter rest
    else
      match part.payload with
      | none => findPart part_id counter rest
      | some payload =>
        let counter := counter + 1
        if str counter = part_id then
          .ok (payload, part.header.content_type, orElse part.header.filename (defaultName counter))
        else findPart part_id counter rest

/-- The email package and `message_from_bytes`. -/
structure Reader (Message : Type) where
  package : EmailPackage Message Unit
  tree : Bytes → Mime
  safe_decode : Bytes → Text → Text

variable {Message Ring : Type} (r : Reader Message) (G : Gnupg Ring)

/-- `get_attachment` behind the FETCH, which gave `raw`. -/
def get_attachment (raw : Bytes) (part_id : Text) : Except Failure (Bytes × Text × Text) :=
  findPart part_id 0 (r.tree raw).walk

/-! ## Showing a message -/

/-- `_detect_pgp_mime` -/
def detect_pgp_mime (msg : Mime) : Bool × Bool :=
  (msg.header.content_type = "multipart/signed".toList ∧
      msg.header.protocol = "application/pgp-signature".toList,
    msg.header.content_type = "multipart/encrypted".toList ∧
      msg.header.protocol = "application/pgp-encrypted".toList)

def parse_email (raw : Bytes) : ParsedEmail Extracted where
  from_address := (r.package.parseEmail raw).from_address
  is_signed := (detect_pgp_mime (r.tree raw)).1
  is_encrypted := (detect_pgp_mime (r.tree raw)).2
  content := extract_body_and_attachments r.safe_decode (r.tree raw)

def Reader.emailPackage : EmailPackage Message Extracted :=
  { r.package with parseEmail := parse_email r }

/-- Without a session nothing is verified or decrypted. -/
def get_email (db : Bool) (mailbox : Text) (raw : Bytes) (gpg_user_id : Option String)
    (s : State Ring) : EmailDetail Extracted × State Ring :=
  if db then getEmail r.emailPackage G mailbox raw gpg_user_id s
  else ({ parse_email r raw with is_read := true }, s)

/-! ## The numbers of parts -/

/-- A part that is counted, with its payload. -/
def countedPart (part : Mime) : Option (Mime × Bytes) :=
  if part.maintype = "multipart".toList then none
  else part.payload.map fun payload => (part, payload)

def counted (msg : Mime) : List (Mime × Bytes) := msg.walk.filterMap countedPart

/-- The name of the part with a number. -/
def nameOf (n : Nat) (part : Mime) : Text := orElse part.header.filename (defaultName n)

/-- The part that a number in its decimal digits is of. -/
def numbered (msg : Mime) (part_id : Text) : Option (Mime × Bytes) :=
  (((counted msg).zipIdx 1).find? fun entry => str entry.2 = part_id).map (·.1)

/-- What is listed of a part: nothing where it is no attachment. -/
def listed (entry : (Mime × Bytes) × Nat) : Option AttachmentInfo :=
  if is_attachment entry.1.1 then
    some ⟨nameOf entry.2 entry.1.1, entry.1.1.header.content_type, entry.1.2.length, str entry.2⟩
  else none

theorem str_injective {m n : Nat} (h : str m = str n) : m = n := by
  rw [← Nat.ofDigitChars_ten_toDigits (n := m), ← Nat.ofDigitChars_ten_toDigits (n := n)]
  exact congrArg (Nat.ofDigitChars 10 · 0) h

theorem nameOf_eq (n : Nat) (part : Mime) :
    orElse (some (decode_header_str part.header.filename)) (defaultName n) = nameOf n part := by
  rw [nameOf, decode_header_str]
  cases part.header.filename with
  | none => rfl
  | some filename => rfl

/-- A round counts a part that is counted, and lists it where it is an attachment. -/
theorem extractPart_eq (safe_decode : Bytes → Text → Text) (s : Extracted) (part : Mime) :
    (extractPart safe_decode s part).part_counter =
        s.part_counter + (countedPart part).toList.length ∧
      (extractPart safe_decode s part).attachments =
        s.attachments ++
          ((countedPart part).toList.zipIdx (s.part_counter + 1)).filterMap listed := by
  unfold extractPart countedPart
  by_cases hmultipart : part.maintype = "multipart".toList
  · simp [hmultipart]
  · rw [if_neg hmultipart, if_neg hmultipart]
    cases part.payload with
    | none => simp
    | some payload =>
      simp only [nameOf_eq, Option.map_some, Option.toList_some, List.zipIdx_singleton,
        List.length_singleton]
      by_cases hattachment : is_attachment part = true
      · simp [listed, hattachment]
      · rw [if_neg hattachment]
        split
        · simp [listed, hattachment]
        · split <;> simp [listed, hattachment]

theorem foldl_extractPart (safe_decode : Bytes → Text → Text) (parts : List Mime) (s : Extracted) :
    (parts.foldl (extractPart safe_decode) s).attachments =
      s.attachments ++
        ((parts.filterMap countedPart).zipIdx (s.part_counter + 1)).filterMap listed := by
  induction parts generalizing s with
  | nil => simp
  | cons part parts ih =>
    obtain ⟨hcounter, hattachments⟩ := extractPart_eq safe_decode s part
    rw [List.foldl_cons, ih, hcounter, hattachments]
    have hcons : (part :: parts).filterMap countedPart =
        (countedPart part).toList ++ parts.filterMap countedPart := by
      rw [List.filterMap_cons]
      cases countedPart part <;> rfl
    rw [hcons, List.zipIdx_append, List.filterMap_append, List.append_assoc]
    congr 4
    omega

/-- The attachments listed are those among the numbered parts. -/
theorem attachments_eq (safe_decode : Bytes → Text → Text) (msg : Mime) :
    (extract_body_and_attachments safe_decode msg).attachments =
      ((counted msg).zipIdx 1).filterMap listed := by
  rw [extract_body_and_attachments, foldl_extractPart, List.nil_append]
  rfl

theorem findPart_eq (part_id : Text) (parts : List Mime) (counter : Nat) :
    findPart part_id counter parts =
      match ((parts.filterMap countedPart).zipIdx (counter + 1)).find? fun entry =>
          str entry.2 = part_id with
      | none => .error (.notFound "Attachment" part_id)
      | some ((part, payload), n) => .ok (payload, part.header.content_type, nameOf n part) := by
  induction parts generalizing counter with
  | nil => rfl
  | cons part parts ih =>
    rw [findPart, List.filterMap_cons, countedPart]
    by_cases hmultipart : part.maintype = "multipart".toList
    · rw [if_pos hmultipart, if_pos hmultipart, ih]
    · rw [if_neg hmultipart, if_neg hmultipart]
      cases part.payload with
      | none => simp only [Option.map_none, ih]
      | some payload =>
        simp only [Option.map_some, List.zipIdx_cons, List.find?_cons]
        by_cases hnumber : str (counter + 1) = part_id
        · simp [hnumber, nameOf]
        · simp [hnumber, ih]

theorem find?_number {α : Type} (items : List α) (first k : Nat) :
    (items.zipIdx first).find? (fun entry => str entry.2 = str (first + k)) =
      items[k]?.map (·, first + k) := by
  induction items generalizing first k with
  | nil => rfl
  | cons item items ih =>
    rw [List.zipIdx_cons, List.find?_cons]
    cases k with
    | zero => simp
    | succ k =>
      have hne : str first ≠ str (first + (k + 1)) := fun h => by
        have heq := str_injective h
        omega
      have hlater := ih (first + 1) k
      rw [Nat.add_right_comm, Nat.add_assoc] at hlater
      simpa [hne] using hlater

theorem numbered_eq (msg : Mime) (k : Nat) : numbered msg (str (1 + k)) = (counted msg)[k]? := by
  rw [numbered, find?_number]
  cases (counted msg)[k]? <;> rfl

theorem get_attachment_eq (raw : Bytes) (k : Nat) :
    get_attachment r raw (str (1 + k)) =
      match (counted (r.tree raw))[k]? with
      | none => .error (.notFound "Attachment" (str (1 + k)))
      | some (part, payload) =>
        .ok (payload, part.header.content_type, nameOf (1 + k) part) := by
  rw [get_attachment, findPart_eq, Nat.zero_add, ← counted, find?_number]
  cases (counted (r.tree raw))[k]? <;> rfl

/-! ## The message that is shown -/

/-- The message is decrypted when it is opened. -/
def Opened (db : Bool) (ring : Ring) (mailbox : Text) (raw : Bytes) : Prop :=
  db = true ∧ (parse_email r raw).is_encrypted = true ∧
    (decryptMessage r.emailPackage G ring raw mailbox).2.decrypted = true

instance (db : Bool) (ring : Ring) (mailbox : Text) (raw : Bytes) :
    Decidable (Opened r G db ring mailbox raw) :=
  inferInstanceAs (Decidable (_ ∧ _))

/-- The message whose parts are listed. -/
def shown (db : Bool) (ring : Ring) (mailbox : Text) (raw : Bytes) : Mime :=
  if Opened r G db ring mailbox raw then
    r.tree (decryptMessage r.emailPackage G ring raw mailbox).1
  else r.tree raw

theorem parsedDetail_eq (ring : Ring) (raw : Bytes) :
    (parsedDetail r.emailPackage G ring raw).content =
        extract_body_and_attachments r.safe_decode (r.tree raw) ∧
      (parsedDetail r.emailPackage G ring raw).is_encrypted = (parse_email r raw).is_encrypted := by
  simp only [parsedDetail]
  split <;> exact ⟨rfl, rfl⟩

theorem get_email_content (db : Bool) (mailbox : Text) (raw : Bytes) (gpg_user_id : Option String)
    (s : State Ring) :
    (get_email r G db mailbox raw gpg_user_id s).1.content =
      extract_body_and_attachments r.safe_decode (shown r G db s.ring mailbox raw) := by
  cases db with
  | false => rfl
  | true =>
    obtain ⟨hcontent, hencrypted⟩ := parsedDetail_eq r G s.ring raw
    simp only [get_email, if_true, getEmail_eq, readMessage, shown, Opened, true_and, hencrypted]
    cases hflag : (parse_email r raw).is_encrypted with
    | false => simpa using hcontent
    | true =>
      cases hdecrypted : (decryptMessage r.emailPackage G s.ring raw mailbox).2.decrypted with
      | false => simpa using hcontent
      | true => rfl

/-- Every attachment listed is looked up as the part it is of. -/
def Identified (db : Bool) (mailbox : Text) (raw : Bytes) (gpg_user_id : Option String)
    (s : State Ring) : Prop :=
  ∀ info ∈ (get_email r G db mailbox raw gpg_user_id s).1.content.attachments,
    ∃ part payload,
      numbered (shown r G db s.ring mailbox raw) info.part_id = some (part, payload) ∧
        get_attachment r raw info.part_id = .ok (payload, part.header.content_type, info.filename)

/-- The attachments of one message are parts of the other under the same numbers. -/
def AttachmentsShared (msg stored : Mime) : Prop :=
  ∀ k part payload, (counted msg)[k]? = some (part, payload) → is_attachment part = true →
    ∃ part', (counted stored)[k]? = some (part', payload) ∧
      part'.header.content_type = part.header.content_type ∧
        nameOf (1 + k) part' = nameOf (1 + k) part

theorem mem_listed {msg : Mime} {info : AttachmentInfo} :
    info ∈ ((counted msg).zipIdx 1).filterMap listed ↔
      ∃ k part payload, (counted msg)[k]? = some (part, payload) ∧ is_attachment part = true ∧
        info = ⟨nameOf (1 + k) part, part.header.content_type, payload.length, str (1 + k)⟩ := by
  rw [List.mem_filterMap]
  constructor
  · rintro ⟨⟨⟨part, payload⟩, n⟩, hentry, hlisted⟩
    obtain ⟨hfirst, hget⟩ := List.mk_mem_zipIdx_iff_le_and_getElem?_sub.mp hentry
    obtain ⟨k, rfl⟩ := Nat.exists_eq_add_of_le hfirst
    rw [Nat.add_sub_cancel_left] at hget
    rw [listed] at hlisted
    split at hlisted
    · next hattachment =>
      exact ⟨k, part, payload, hget, hattachment, (Option.some.inj hlisted).symm⟩
    · cases hlisted
  · rintro ⟨k, part, payload, hget, hattachment, rfl⟩
    refine ⟨((part, payload), 1 + k), ?_, if_pos hattachment⟩
    rw [List.mk_mem_zipIdx_iff_le_and_getElem?_sub, Nat.add_sub_cancel_left]
    exact ⟨Nat.le_add_right 1 k, hget⟩

theorem identified_iff_shared (db : Bool) (mailbox : Text) (raw : Bytes)
    (gpg_user_id : Option String) (s : State Ring) :
    Identified r G db mailbox raw gpg_user_id s ↔
      AttachmentsShared (shown r G db s.ring mailbox raw) (r.tree raw) := by
  unfold Identified
  rw [get_email_content, attachments_eq]
  constructor
  · intro hidentified k part payload hget hattachment
    obtain ⟨part', payload', hnumbered, hlookup⟩ :=
      hidentified _ (mem_listed.mpr ⟨k, part, payload, hget, hattachment, rfl⟩)
    rw [numbered_eq, hget] at hnumbered
    obtain ⟨rfl, rfl⟩ : part = part' ∧ payload = payload' := by simpa using hnumbered
    rw [get_attachment_eq] at hlookup
    cases hstored : (counted (r.tree raw))[k]? with
    | none => simp [hstored] at hlookup
    | some entry =>
      obtain ⟨found, content⟩ := entry
      obtain ⟨rfl, htype, hname⟩ : content = payload ∧
          found.header.content_type = part.header.content_type ∧
            nameOf (1 + k) found = nameOf (1 + k) part := by simpa [hstored] using hlookup
      exact ⟨found, rfl, htype, hname⟩
  · intro hshared info hinfo
    obtain ⟨k, part, payload, hget, hattachment, rfl⟩ := mem_listed.mp hinfo
    obtain ⟨found, hstored, htype, hname⟩ := hshared k part payload hget hattachment
    refine ⟨part, payload, by rw [numbered_eq, hget], ?_⟩
    rw [get_attachment_eq, hstored]
    simp only [htype, hname]

theorem attachmentsShared_refl (msg : Mime) : AttachmentsShared msg msg :=
  fun _ part _ hget _ => ⟨part, hget, rfl, rfl⟩

theorem get_attachment_identifies_iff (db : Bool) (mailbox : Text) (raw : Bytes)
    (gpg_user_id : Option String) (s : State Ring) :
    Identified r G db mailbox raw gpg_user_id s ↔
      (Opened r G db s.ring mailbox raw →
        AttachmentsShared (r.tree (decryptMessage r.emailPackage G s.ring raw mailbox).1)
          (r.tree raw)) := by
  rw [identified_iff_shared, shown]
  by_cases hopened : Opened r G db s.ring mailbox raw
  · simp [hopened]
  · simp [hopened, attachmentsShared_refl]

/-! ## A message decrypted when it is opened -/

/-- As it is stored: the version part and the encrypted one. -/
def encryptedTree : Mime :=
  .nested { content_type := "multipart/encrypted".toList,
            protocol := "application/pgp-encrypted".toList }
    [.single { content_type := "application/pgp-encrypted".toList } (some []),
      .single { content_type := "application/octet-stream".toList,
                filename := some "encrypted.asc".toList } (some [1])]

def decryptedTree : Mime :=
  .nested { content_type := "multipart/mixed".toList }
    [.single {} (some []),
      .single { content_type := "application/pdf".toList, disposition := "attachment".toList,
                filename := some "report.pdf".toList } (some [3])]

def encryptedReader : Reader Bytes where
  package :=
    { testPackage with
      contentType := fun msg => if msg = [1] then "multipart/encrypted" else "multipart/mixed"
      parts := fun msg => [[], msg] }
  tree raw := if raw = [1] then encryptedTree else decryptedTree
  safe_decode _ _ := []

theorem report_is_looked_up_in_the_stored_message :
    ¬ ∀ (Message Ring : Type) (r : Reader Message) (G : Gnupg Ring) (db : Bool) (mailbox : Text)
      (raw : Bytes) (gpg_user_id : Option String) (s : State Ring),
      Identified r G db mailbox raw gpg_user_id s := by
  intro hall
  have hidentified := hall Bytes (Keyring String) encryptedReader testPgp.gnupg true [] [1] none
    ⟨Keyring.empty.importKey ("AA", true), KeyTable.empty⟩
  have hlisted : (⟨"report.pdf".toList, "application/pdf".toList, 1, "2".toList⟩ : AttachmentInfo) ∈
      (get_email encryptedReader testPgp.gnupg true [] [1] none
        ⟨Keyring.empty.importKey ("AA", true), KeyTable.empty⟩).1.content.attachments := by
    decide +kernel
  obtain ⟨part, payload, -, hlookup⟩ := hidentified _ hlisted
  have hstored : get_attachment encryptedReader [1] "2".toList =
      .ok ([1], "application/octet-stream".toList, "encrypted.asc".toList) := by rfl
  have hname : "encrypted.asc".toList = "report.pdf".toList :=
    congrArg (fun found => found.2.2) (Except.ok.inj (hstored.symm.trans hlookup))
  exact absurd hname (by decide)

end MailCue.Backend.Emails.Attachments
