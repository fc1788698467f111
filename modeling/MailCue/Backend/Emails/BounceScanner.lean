import Mathlib.Data.List.Nodup
import MailCue.Lib.Text
import MailCue.Lib.Transition
import MailCue.Backend.Emails.Dsn

/-!
# The bounce scanner

backend/app/emails/bounce_scanner.py and the page `list_emails` of service.py
gives it: one owned mailbox, mail arriving in it and one scan after another. A
scan has the headers and the bodies the server gave it, and may raise anywhere
in the middle of what it records, where each record is a commit of its own.
-/
namespace MailCue.Backend.Emails.Bounce
open MailCue.Lib

/-! ## The mailbox -/

structure Received where
  uid : Nat
  from_address : String
  subject : String
  /-- What `parse_dsn` makes of the message. -/
  report : DsnReport

/-- The INBOX, with UIDs ascending in the order of arrival. -/
structure Inbox where
  messages : List Received
  uidnext : Nat
  ascending : messages.Pairwise fun m m' => m.uid < m'.uid
  fresh : ∀ m ∈ messages, m.uid < uidnext

def Inbox.arrive (inbox : Inbox) (gap : Nat) (m : Received) : Inbox where
  messages := inbox.messages ++ [{ m with uid := inbox.uidnext + gap }]
  uidnext := inbox.uidnext + gap + 1
  ascending := by
    refine List.pairwise_append.mpr ⟨inbox.ascending, List.pairwise_singleton _ _, ?_⟩
    intro m' hm' new hnew
    obtain rfl := List.mem_singleton.mp hnew
    exact Nat.lt_add_right gap (inbox.fresh m' hm')
  fresh := by
    intro m' hm'
    rcases List.mem_append.mp hm' with h | h
    · have hlt := inbox.fresh m' h
      omega
    · obtain rfl := List.mem_singleton.mp h
      exact Nat.lt_succ_self _

/-- `list_emails` sorted by date descending. `header` says whose header the
server's FETCH answer has. -/
def listEmails (inbox : Inbox) (page per_page : Nat) (header : Nat → Bool) : List Received :=
  let start := (page - 1) * per_page
  let page_uids := (inbox.messages.reverse.drop start).take per_page
  page_uids.filter fun m => header m.uid

/-! ## What is recorded -/

/-- The two writes that ingest one recipient of one notification. -/
inductive Record
  | feedback (uid : Nat) (entry : DsnRecipient) (outcome : Outcome)
  | bounce (uid : Nat) (entry : DsnRecipient) (outcome : Outcome)
  deriving DecidableEq, Repr

def Record.uid : Record → Nat
  | .feedback uid _ _ => uid
  | .bounce uid _ _ => uid

structure Scanner where
  lower : Text.Lowering
  /-- Whether `validate_syntax` accepts the address and names its domain. -/
  validSyntax : String → Bool

def maxMessagesPerMailbox : Nat := 100

namespace Scanner

variable (scanner : Scanner)

/-- The pre-filter. -/
def isCandidate (m : Received) : Bool :=
  let sender := scanner.lower.lower m.from_address.toList
  let subject := scanner.lower.lower m.subject.toList
  Text.containsAny sender ["mailer-daemon", "postmaster"] ||
    Text.containsAny subject ["undeliverable", "delivery status notification", "returned mail",
      "delivery has failed", "failure notice"]

/-- What ingesting the notification records, in order. -/
def records (m : Received) : List Record :=
  if m.report.is_dsn then
    m.report.recipients.flatMap fun entry =>
      match entry.outcome with
      | some outcome =>
        if scanner.validSyntax entry.recipient then
          [.feedback m.uid entry outcome, .bounce m.uid entry outcome]
        else []
      | none => []
  else []

/-- A notification the scanner is there for. -/
def Qualifies (m : Received) : Prop := scanner.isCandidate m = true ∧ scanner.records m ≠ []

end Scanner

/-! ## Scans -/

/-- How the server and the database serve one scan. -/
structure ScanRun where
  /-- The headers that come back, or `none` where the listing raises. -/
  header : Option (Nat → Bool)
  /-- The bodies that come back. -/
  body : Nat → Bool
  /-- The number of records behind which the scan raises, if it does. -/
  raised : Option Nat

structure State where
  inbox : Inbox
  last_uid : Nat
  /-- Everything recorded, in order. -/
  recorded : List Record

namespace Scanner

variable (scanner : Scanner)

def listing (s : State) (header : Nat → Bool) : List Received :=
  listEmails s.inbox 1 maxMessagesPerMailbox header

/-- The UIDs the scan fetches. -/
def candidates (s : State) (header : Nat → Bool) : List Received :=
  (listing s header).filter fun m => s.last_uid < m.uid && scanner.isCandidate m

def highest (s : State) (header : Nat → Bool) : Nat :=
  (listing s header).foldl (fun highest m => max highest m.uid) s.last_uid

def effects (s : State) (header body : Nat → Bool) : List Record :=
  ((scanner.candidates s header).filter fun m => body m.uid).flatMap scanner.records

def scanMailbox (s : State) (run : ScanRun) : State :=
  match run.header with
  | none => s
  | some header =>
    match run.raised with
    | some k => { s with recorded := s.recorded ++ (scanner.effects s header run.body).take k }
    | none =>
      { s with
        recorded := s.recorded ++ scanner.effects s header run.body
        last_uid := highest s header }

end Scanner

inductive Act
  | arrive (gap : Nat) (m : Received)
  | scan (run : ScanRun)

def step (scanner : Scanner) (s : State) : Act → State
  | .arrive gap m => { s with inbox := s.inbox.arrive gap m }
  | .scan run => scanner.scanMailbox s run

def emptyInbox : Inbox where
  messages := []
  uidnext := 1
  ascending := List.Pairwise.nil
  fresh := by simp

/-- A mailbox from its first mail and its first scan on. -/
def scans (scanner : Scanner) : Machine State Act where
  start := ⟨emptyInbox, 0, []⟩
  step := step scanner

end MailCue.Backend.Emails.Bounce
