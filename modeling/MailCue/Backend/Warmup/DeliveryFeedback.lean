import Mathlib
import MailCue.Lib.Pattern
import MailCue.Lib.UnreadQueue
import MailCue.Backend.Emails.SmtpReply
import MailCue.Backend.Warmup.Campaign

/-!
# Delivery feedback

backend/app/warmup/service.py, `_dsn_feedback`, `_fetch_local_dsns_sync` and
`ingest_delivery_feedback`: mail arriving in the local mailboxes and campaigns polling
them one poll after another. Mailboxes may be shared, the unread flag is all that says
what has been looked at, and the server sets it on every message it hands out in full. A
poll that fails anywhere before its commit leaves the flags and nothing else. Messages are
given as the email package parses them.
-/
namespace MailCue.Backend.Warmup.Feedback
open MailCue.Lib

/-- What Python makes of characters, with the value of a decimal digit. -/
structure DsnReader extends Emails.PyText where
  decimal : Char → Nat
  ascii_decimal : ∀ c, c.isDigit = true → decimal c = c.toNat - '0'.toNat

/-! ## Delivery reports -/

/-- The header fields of one block of a delivery report. -/
structure Block where
  headers : List (Text × Text)

structure Part where
  content_type : String
  /-- The payload, where it is a list of messages. -/
  blocks : List Block

/-- The parts of a message, as it is walked. -/
structure Message where
  parts : List Part

/-- A message with a delivery report. -/
def Message.isDsn (m : Message) : Bool :=
  m.parts.any fun part => part.content_type == "message/delivery-status"

structure FeedbackRow where
  recipient : Text
  failure : DeliveryFailure

/-- `x or y`, of texts. -/
def orElse (text : Option Text) (other : Text) : Text := (text.filter (· ≠ [])).getD other

/-- `value.split(";", 1)[-1]` -/
def afterSemicolon (value : Text) : Text :=
  match value.dropWhile (· ≠ ';') with
  | [] => value
  | _ :: rest => rest

namespace DsnReader

variable (reader : DsnReader)

def lower (text : Text) : Text := reader.lowering.lower text

def get (block : Block) (name : String) : Option Text :=
  (block.headers.find? fun field => reader.lower field.1 == reader.lower name.toList).map (·.2)

def SMTP_CODE_RE : Pattern :=
  .sequence [.boundary,
    .group 1 (.sequence [.one fun c => c == '2' || c == '4' || c == '5', .one reader.isDigit,
      .one reader.isDigit]),
    .boundary]

/-- `int(text)`, of decimal digits. -/
def int (text : Text) : Int := text.foldl (fun n c => 10 * n + reader.decimal c) 0

def smtpCode (diagnostic : Text) : Option Int :=
  ((Pattern.search reader.isWord reader.SMTP_CODE_RE diagnostic).bind (·.group 1)).map reader.int

def blockFeedback (block : Block) : Option FeedbackRow :=
  let action := reader.lower ((reader.get block "Action").getD [])
  if action ≠ "failed".toList ∧ action ≠ "delayed".toList then none
  else
    let recipient_value := orElse (reader.get block "Final-Recipient")
      (orElse (reader.get block "Original-Recipient") [])
    let recipient := reader.lower (Text.strip Text.isSpace (afterSemicolon recipient_value))
    if '@' ∉ recipient then none
    else
      let enhanced := Text.strip Text.isSpace ((reader.get block "Status").getD [])
      let diagnostic := orElse (reader.get block "Diagnostic-Code")
        "Delivery status notification".toList
      some
        { recipient
          failure :=
            { smtp_code := reader.smtpCode diagnostic
              enhanced_status := if enhanced = [] then none else some (String.ofList enhanced)
              response := some (String.ofList (diagnostic.take 2000)) } }

def dsnFeedback (message : Message) : List FeedbackRow :=
  message.parts.flatMap fun part =>
    if part.content_type ≠ "message/delivery-status" then []
    else part.blocks.filterMap reader.blockFeedback

end DsnReader

/-! ## Campaigns -/

/-- An enabled and verified account; its provider is given normalised. -/
structure Recipient extends WarmupAccount where
  email : Text

structure WarmupCampaign where
  local_address : Text
  accounts : List Recipient

inductive EventStatus
  | bounced | deferred
  deriving DecidableEq, Repr

structure WarmupEvent where
  created_at : Int
  campaign_id : String
  account : WarmupAccount
  status : EventStatus
  failure : DeliveryFailure
  /-- The place of the message in its mailbox. -/
  uid : Nat

def WarmupEvent.report (event : WarmupEvent) : WarmupAccount × DeliveryFailure :=
  (event.account, event.failure)

namespace DsnReader

variable (reader : DsnReader) (c : WarmupCampaign)

/-- `by_email`: of two accounts with one address the later counts. -/
def byEmail (recipient : Text) : Option WarmupAccount :=
  (c.accounts.reverse.find? fun account => reader.lower account.email == recipient).map
    (·.toWarmupAccount)

def expectedRecipients : List Text := c.accounts.map fun account => reader.lower account.email

/-- The rows of the message about recipients of the campaign. -/
def parsed (message : Message) : List FeedbackRow :=
  (reader.dsnFeedback message).filter fun row => row.recipient ∈ reader.expectedRecipients c

/-- What the message reports to the campaign, row by row. -/
def reports (message : Message) : List (WarmupAccount × DeliveryFailure) :=
  (reader.parsed c message).filterMap fun row =>
    (reader.byEmail c row.recipient).map fun account => (account, row.failure)

end DsnReader

/-! ## Polls -/

/-- How the server and the database serve one poll. -/
structure PollRun where
  now : Int
  /-- The messages whose FETCH the server refuses. -/
  refused : List Nat
  /-- The number of messages behind which the poll fails, if it does. -/
  failed : Option Nat

structure State where
  mailboxes : Text → UnreadQueue Message
  campaigns : String → Campaign
  total_failed : String → Nat
  /-- The delivery feedback of all campaigns, in order. -/
  events : List WarmupEvent

def emptyState : State where
  mailboxes _ := {}
  campaigns _ := created
  total_failed _ := 0
  events := []

def pollWindow : Nat := 100

namespace PollRun

variable (run : PollRun) (inbox : UnreadQueue Message)

/-- What the server hands out. -/
def fetched : List Nat :=
  let uids := inbox.newest pollWindow
  (run.failed.elim uids uids.take).filter (· ∉ run.refused)

def served : Bool := run.failed.isNone && run.refused.isEmpty

end PollRun

section
variable (reader : DsnReader)

/-- The mailbox behind the poll, and the rows with the messages they come from. -/
def fetchLocalDsns (c : WarmupCampaign) (inbox : UnreadQueue Message) (run : PollRun) :
    UnreadQueue Message × List (Nat × FeedbackRow) :=
  let uids := run.fetched inbox
  let feedback := uids.flatMap fun uid =>
    ((inbox.contentAt uid).elim [] (reader.parsed c)).map fun row => (uid, row)
  -- RFC822 without PEEK sets the flag that the STORE sets on the parsed ones again
  ((inbox.markSeen uids).markSeen (feedback.map (·.1)), feedback)

def deliveryEvent (id : String) (now : Int) (uid : Nat) (report : WarmupAccount × DeliveryFailure) :
    WarmupEvent where
  created_at := now
  campaign_id := id
  account := report.1
  status := if 500 ≤ report.2.smtp_code.getD 0 then .bounced else .deferred
  failure := report.2
  uid := uid

/-- Where the poll fails, the messages it fetched are read and that is all. -/
def State.ingest (s : State) (id : String) (c : WarmupCampaign) (run : PollRun) : State :=
  let (inbox, feedback) := fetchLocalDsns reader c (s.mailboxes c.local_address) run
  let s := { s with mailboxes := Function.update s.mailboxes c.local_address inbox }
  if run.failed.isSome then s
  else
    let reported := feedback.filterMap fun (uid, row) =>
      (reader.byEmail c row.recipient).map fun account => (uid, account, row.failure)
    { s with
      campaigns := Function.update s.campaigns id
        (ingestDeliveryFeedback (s.campaigns id) run.now (reported.map (·.2)))
      total_failed := Function.update s.total_failed id (s.total_failed id + feedback.length)
      events := s.events ++ reported.map fun (uid, report) => deliveryEvent id run.now uid report }

inductive Act
  | arrive (address : Text) (message : Message)
  | poll (id : String) (run : PollRun)

/-- The campaigns under their ids, with the accounts they send to. -/
abbrev Campaigns := String → Option WarmupCampaign

def step (campaigns : Campaigns) (s : State) : Act → State
  | .arrive address message =>
    let inbox := (s.mailboxes address).arrive message
    { s with mailboxes := Function.update s.mailboxes address inbox }
  | .poll id run =>
    match campaigns id with
    | none => s
    | some c => s.ingest reader id c run

def polls (campaigns : Campaigns) : Machine State Act where
  start := emptyState
  step := step reader campaigns

end

/-- What a campaign has been told from one message of its mailbox. -/
def State.applied (s : State) (id : String) (uid : Nat) : List (WarmupAccount × DeliveryFailure) :=
  (s.events.filter fun event => event.campaign_id == id && event.uid == uid).map (·.report)

end MailCue.Backend.Warmup.Feedback
