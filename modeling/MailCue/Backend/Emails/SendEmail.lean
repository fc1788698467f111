import MailCue.Backend.Gpg.Sealing

/-!
# Sending mail

backend/app/emails/service.py `send_email`: the message is made, signed and encrypted
if that is asked for, and handed to the SMTP server for all recipients. The database
session is `none` where the caller gives none. The event and the log are left out.
-/
namespace MailCue.Backend.Emails
open MailCue.Lib MailCue.Backend.Gpg

structure SendAttachment where
  filename : Text
  content_type : Text
  data : Text

structure SendEmailRequest where
  from_address : Text
  from_name : Text := []
  to_addresses : List Text
  cc_addresses : List Text := []
  bcc_addresses : List Text := []
  subject : Text
  body : Text := []
  body_type : String := "plain"
  attachments : List SendAttachment := []
  reply_to : Option Text := none
  in_reply_to : Option Text := none
  references : List Text := []
  bulk : Bool := false
  list_unsubscribe : Option Text := none
  list_unsubscribe_post : Option Text := none

/-- What the message is made with; the last three may raise a `ValueError`. -/
structure Composer where
  htmlToPlainText : Text → Text
  /-- The `re.sub` on `br`, `hr` and `img`. -/
  closeVoidElements : Text → Text
  lower : Text → Text
  /-- The Content-Disposition of an attachment with this file name. -/
  disposition : Text → Text
  b64decode : Text → Except Text Bytes
  formataddr : Text → Text → Except Text Text
  encode : Text → Except Text Bytes

/-- What one call finds around it. -/
structure Surroundings where
  domain : Text
  date : Text
  message_id : Text
  /-- The display name of the sender's mailbox, if that can be read. -/
  display_name : Option Text

/-! ## The message -/

variable (c : Composer)

def valueError {α : Type} (data : Except Text α) : Except Failure α :=
  data.mapError .valueError

/-- `MIMEText(text, subtype, "utf-8")` -/
def mimeText (subtype : String) (text : Text) : Except Failure Entity := do
  let content ← valueError (c.encode text)
  return .part (mimeHeaders ("text/".toList ++ subtype.toList ++ "; charset=\"utf-8\"".toList) ++
    [⟨"Content-Transfer-Encoding".toList, "base64".toList⟩]) content

def wrapDocument (html_body : Text) : Text :=
  ("<!DOCTYPE html>\n<html lang=\"en\" xmlns=\"http://www.w3.org/1999/xhtml\">\n<head>\n" ++
    "  <meta http-equiv=\"Content-Type\" content=\"text/html; charset=utf-8\" />\n" ++
    "  <meta name=\"viewport\" content=\"width=device-width, initial-scale=1.0\" />\n" ++
    "  <title></title>\n</head>\n<body>\n").toList ++ html_body ++ "\n</body>\n</html>".toList

def xhtml (html_body : Text) : Text :=
  let html_body := c.closeVoidElements html_body
  if Text.contains (c.lower html_body) "<html".toList then html_body else wrapDocument html_body

/-- The alternatives of the body, by type. -/
def alternativeTexts (request : SendEmailRequest) : List (String × Text) :=
  if request.body = [] then []
  else if request.body_type = "html" then
    [("plain", c.htmlToPlainText request.body), ("html", xhtml c request.body)]
  else if request.body_type = "plain" then [("plain", request.body)]
  else []

def mimeAttachment (att : SendAttachment) : Except Failure Entity := do
  let maintype := att.content_type.takeWhile (· != '/')
  let subtype := (att.content_type.dropWhile (· != '/')).drop 1
  let content ← valueError (c.b64decode att.data)
  return .part (mimeHeaders (maintype ++ '/' :: (orElse (some subtype) "octet-stream".toList)) ++
    [⟨"Content-Transfer-Encoding".toList, "base64".toList⟩,
      ⟨"Content-Disposition".toList, c.disposition att.filename⟩]) content

def mimeContent (request : SendEmailRequest) : Except Failure Entity := do
  let texts ← (alternativeTexts c request).mapM fun (subtype, text) => mimeText c subtype text
  let body_part : Entity := .multipart (mimeHeaders "multipart/alternative".toList) texts
  if request.attachments = [] then return body_part
  else
    let attachments ← request.attachments.mapM (mimeAttachment c)
    return .multipart (mimeHeaders "multipart/mixed".toList) (body_part :: attachments)

/-- `_mailbox_display_name` -/
def mailboxDisplayName (address : Text) (display_name : Option Text) : Text :=
  let name := Text.strip Text.isSpace (display_name.getD [])
  if c.lower name = c.lower (address.takeWhile (· != '@')) then [] else name

def senderField (request : SendEmailRequest) (display_name : Option Text) : Except Failure Text :=
  let from_name := orElse (some request.from_name)
    (mailboxDisplayName c request.from_address display_name)
  if from_name = [] then .ok request.from_address
  else valueError (c.formataddr from_name request.from_address)

/-- A field that is set where there is something to set. -/
def optional (name : String) (value : Option Text) : List Header :=
  match value with
  | some (c :: rest) => [⟨name.toList, c :: rest⟩]
  | _ => []

def messageHeaders (request : SendEmailRequest) (around : Surroundings) (sender : Text) :
    List Header :=
  [⟨"From".toList, sender⟩, ⟨"To".toList, ", ".toList.intercalate request.to_addresses⟩] ++
  (if request.cc_addresses = [] then []
    else [⟨"Cc".toList, ", ".toList.intercalate request.cc_addresses⟩]) ++
  [⟨"Subject".toList, request.subject⟩, ⟨"Date".toList, around.date⟩,
    ⟨"Message-ID".toList, around.message_id⟩, ⟨"X-Mailer".toList, "MailCue/1.0".toList⟩] ++
  optional "Reply-To" request.reply_to ++
  optional "In-Reply-To" request.in_reply_to ++
  (if request.references = [] then []
    else [⟨"References".toList, " ".toList.intercalate request.references⟩]) ++
  (if request.bulk then
    [⟨"List-Unsubscribe".toList, orElse request.list_unsubscribe
        ("<mailto:unsubscribe@".toList ++ around.domain ++ "?subject=unsubscribe>".toList)⟩,
      ⟨"List-Unsubscribe-Post".toList,
        orElse request.list_unsubscribe_post "List-Unsubscribe=One-Click".toList⟩]
  else [])

def buildMessage (request : SendEmailRequest) (around : Surroundings) : Except Failure Entity := do
  let content ← mimeContent c request
  let sender ← senderField c request around.display_name
  return content.withHeaders (content.headers ++ messageHeaders request around sender)

theorem optional_outer {name : String} {value : Option Text}
    (hname : ∀ text : Text, (⟨name.toList, text⟩ : Header).isOuter = true ∧
      (⟨name.toList, text⟩ : Header).isNamed = true) :
    ∀ h ∈ optional name value, h.isOuter = true ∧ h.isNamed = true := by
  intro h hmem
  unfold optional at hmem
  split at hmem
  · rw [List.mem_singleton.mp hmem]
    exact hname _
  · cases hmem

/-- A new message has no field for blind copies. -/
theorem messageHeaders_outer {request : SendEmailRequest} {around : Surroundings} {sender : Text} :
    ∀ h ∈ messageHeaders request around sender, h.isOuter = true ∧ h.isNamed = true := by
  simp only [messageHeaders, List.forall_mem_append]
  refine ⟨⟨⟨⟨⟨⟨?addresses, ?cc⟩, ?fixed⟩, ?reply⟩, ?inReply⟩, ?references⟩, ?unsubscribe⟩
  case addresses =>
    exact List.forall_mem_cons.mpr ⟨⟨rfl, rfl⟩, List.forall_mem_singleton.mpr ⟨rfl, rfl⟩⟩
  case cc =>
    split
    · exact List.forall_mem_nil _
    · exact List.forall_mem_singleton.mpr ⟨rfl, rfl⟩
  case fixed =>
    intro h hmem
    simp only [List.mem_cons, List.not_mem_nil, or_false] at hmem
    rcases hmem with rfl | rfl | rfl | rfl <;> exact ⟨rfl, rfl⟩
  case reply => exact optional_outer fun _ => ⟨rfl, rfl⟩
  case inReply => exact optional_outer fun _ => ⟨rfl, rfl⟩
  case references =>
    split
    · exact List.forall_mem_nil _
    · exact List.forall_mem_singleton.mpr ⟨rfl, rfl⟩
  case unsubscribe =>
    split
    · exact List.forall_mem_cons.mpr ⟨⟨rfl, rfl⟩, List.forall_mem_singleton.mpr ⟨rfl, rfl⟩⟩
    · exact List.forall_mem_nil _

theorem mimeContent_headers {request : SendEmailRequest} {content : Entity}
    (h : mimeContent c request = .ok content) :
    ∃ content_type, content.headers = mimeHeaders content_type := by
  unfold mimeContent at h
  obtain ⟨texts, -, h⟩ := ok_of_bind h
  split at h
  · rw [← Except.ok.inj h]
    exact ⟨_, rfl⟩
  · obtain ⟨attachments, -, h⟩ := ok_of_bind h
    rw [← Except.ok.inj h]
    exact ⟨_, rfl⟩

theorem buildMessage_headers {request : SendEmailRequest} {around : Surroundings} {msg : Entity}
    (h : buildMessage c request around = .ok msg) :
    ∃ content_type sender, senderField c request around.display_name = .ok sender ∧
      msg.headers = mimeHeaders content_type ++ messageHeaders request around sender := by
  unfold buildMessage at h
  obtain ⟨content, hcontent, h⟩ := ok_of_bind h
  obtain ⟨sender, hsender, h⟩ := ok_of_bind h
  obtain ⟨content_type, hheaders⟩ := mimeContent_headers c hcontent
  refine ⟨content_type, sender, hsender, ?_⟩
  rw [← Except.ok.inj h, Entity.headers_withHeaders, hheaders]

def SendEmailRequest.all_recipients (request : SendEmailRequest) : List Text :=
  request.to_addresses ++ request.cc_addresses ++ request.bcc_addresses

/-! ## Signing, encrypting and handing over -/

structure SmtpCall where
  message : Entity
  recipients : List Text

inductive SendFailure
  | raised (failure : Failure)
  | mailServerError (message : Text)

structure SendOutcome (Ring : Type) where
  /-- What `aiosmtplib.send` is called with. -/
  submitted : Option SmtpCall
  result : Except SendFailure Text
  db : Option (Gpg.State Ring)

variable {Wire Ring : Type} (p : EmailLibrary Wire) (G : Gnupg Ring)
variable (detached : Ring → Bytes → String → Except Text Bytes)
variable (request : SendEmailRequest) (around : Surroundings)

/-- `msg.as_bytes()`. Without a session no display name is looked up. -/
def messageBytes (db : Option (Gpg.State Ring)) : Except Failure Wire := do
  let display_name := if db.isSome then around.display_name else none
  let msg ← buildMessage c request { around with display_name := display_name }
  written (p.asBytes .compat32 msg)

def signBytes (sign : Bool) (gpg_user_id : Option String) (raw_bytes : Wire) (s : Gpg.State Ring) :
    Except Failure Wire :=
  if sign then
    match gpg_user_id with
    | none => .error (.valueError "GPG owner is required for signing".toList)
    | some user_id => signMessage p detached raw_bytes request.from_address user_id s
  else .ok raw_bytes

def gpgOperations (sign encrypt : Bool) (gpg_user_id : Option String)
    (keyserver : Text → Option Text) (raw_bytes : Wire) (s : Gpg.State Ring) :
    Except Failure Wire × Gpg.State Ring :=
  match signBytes p detached request sign gpg_user_id raw_bytes s with
  | .error failure => (.error failure, s)
  | .ok raw_bytes =>
    if encrypt then
      match gpg_user_id with
      | none => (.error (.valueError "GPG owner is required for encryption".toList), s)
      | some user_id => sealMessage p G raw_bytes request.to_addresses keyserver user_id s
    else (.ok raw_bytes, s)

/-- The bytes that are sent, and the session behind it. -/
def finalBytes (db : Option (Gpg.State Ring)) (sign encrypt : Bool) (gpg_user_id : Option String)
    (keyserver : Text → Option Text) : Except Failure Wire × Option (Gpg.State Ring) :=
  match messageBytes c p request around db with
  | .error failure => (.error failure, db)
  | .ok raw_bytes =>
    match db with
    | none => (.ok raw_bytes, none)
    | some s =>
      let (raw_bytes, s) :=
        gpgOperations p G detached request sign encrypt gpg_user_id keyserver raw_bytes s
      (raw_bytes, some s)

/-- `accepted` says whether `aiosmtplib.send` returns. -/
def sendEmail (db : Option (Gpg.State Ring)) (sign encrypt : Bool) (gpg_user_id : Option String)
    (keyserver : Text → Option Text) (accepted : Bool) : SendOutcome Ring :=
  match finalBytes c p G detached request around db sign encrypt gpg_user_id keyserver with
  | (.error failure, db) => ⟨none, .error (.raised failure), db⟩
  | (.ok raw_bytes, db) =>
    ⟨some ⟨p.messageFromBytes raw_bytes, request.all_recipients⟩,
      if accepted then .ok around.message_id
      else .error (.mailServerError "Failed to send email. Please try again later.".toList), db⟩

end MailCue.Backend.Emails
