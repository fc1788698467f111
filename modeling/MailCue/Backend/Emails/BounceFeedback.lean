import Mathlib.Data.Rat.Defs
import Mathlib.Logic.Function.Basic
import MailCue.Backend.Emails.Dsn

/-!
# Bounce feedback

backend/app/emails/validation_feedback.py, `apply_bounce` of canary.py, and what
records outcomes through them: the feedback endpoint of router.py, the ingestion
endpoint of validation_router.py and the bounce scanner. The rows are those of
all tenants. A staged send carries its recipient rows, and a row the columns the
modelled queries read and write. The keyed hash of an address, its syntax check,
lower-casing and the lookup of a provider are parameters. Times are microseconds; scores
are exact.
-/
namespace MailCue.Backend.Emails.Bounce

/-! ## Rows -/

inductive RecipientStatus
  | pending | skipped | sent | delivered | hard_bounce | soft_bounce | released | blocked
  deriving DecidableEq, Repr

structure CanaryRecipient where
  email_hash : String
  status : RecipientStatus
  smtp_code : Option Int := none
  enhanced_status : Option String := none
  resolved_at : Option Int := none
  deriving DecidableEq

structure Canary where
  id : String
  user_id : String
  recipients : List CanaryRecipient
  deriving DecidableEq

structure Prediction where
  user_id : String
  email_hash : String
  score : Rat
  created_at : Int
  deriving DecidableEq

structure FeedbackRow where
  user_id : String
  email_hash : String
  domain : String
  outcome : Outcome
  smtp_code : Option Int
  enhanced_status : Option String
  provider_id : Option String
  source : String
  predicted_score : Option Rat
  occurred_at : Int
  deriving DecidableEq

structure DomainSendSuppression where
  reason : String
  hard_bounces : Nat
  observations : Nat
  expires_at : Option Int

structure Database where
  canaries : List Canary
  predictions : List Prediction
  feedback : List FeedbackRow
  /-- The column `domain` is unique. -/
  suppressions : String → Option DomainSendSuppression

structure Services where
  emailHash : String → String
  lower : String → String
  /-- The domain `validate_syntax` yields for a valid address. -/
  validDomain : String → Option String
  providerIdForDomain : String → Option String
  dsnIngestEnabled : Bool

def days (n : Nat) : Int := n * 86400000000

def historyDays : Nat := 180
def predictionMatchDays : Nat := 30
def suppressionMinObservations : Nat := 8
def suppressionDays : Nat := 30

/-! ## Recording an outcome -/

/-- `ORDER BY created_at DESC LIMIT 1` -/
def newest : List Prediction → Option Prediction
  | [] => none
  | p :: rest =>
    match newest rest with
    | none => some p
    | some q => some (if p.created_at < q.created_at then q else p)

/-- The predictions the score of an outcome is looked up in. -/
def Database.matching (db : Database) (email_hash : String) (now : Int) : List Prediction :=
  db.predictions.filter fun p =>
    p.email_hash == email_hash && now - days predictionMatchDays ≤ p.created_at

def Database.predictedScore (db : Database) (email_hash : String) (now : Int) : Option Rat :=
  (newest (db.matching email_hash now)).map (·.score)

/-- `_counts_for` of one domain, the hard bounces and the decisive outcomes. -/
def countsFor (feedback : List FeedbackRow) (domain : String) (since : Int) : Nat × Nat :=
  let rows := feedback.filter fun row => row.domain == domain && since ≤ row.occurred_at
  let hard_bounce := (rows.filter fun row => row.outcome == .hard_bounce).length
  let delivered := (rows.filter fun row => row.outcome == .delivered).length
  (hard_bounce, delivered + hard_bounce)

def maybeSuppressDomain (db : Database) (now : Int) (domain : String) : Database :=
  let (hard_bounce, decisive) := countsFor db.feedback domain (now - days historyDays)
  if decisive < suppressionMinObservations then db
  -- the rate is below 0.30
  else if 10 * hard_bounce < 3 * decisive then db
  else
    let reason :=
      s!"{hard_bounce} of {decisive} recorded outcomes at this domain were hard bounces."
    { db with suppressions := Function.update db.suppressions domain (some
        { reason := String.ofList (reason.toList.take 255)
          hard_bounces := hard_bounce
          observations := decisive
          expires_at := some (now + days suppressionDays) }) }

structure Report where
  email : String
  domain : String
  outcome : Outcome
  smtp_code : Option Int
  enhanced_status : Option String
  source : String

def recordValidationFeedback (services : Services) (user_id : String) (now : Int) (r : Report)
    (db : Database) : Database :=
  let email_hash := services.emailHash r.email
  let normalized_domain := services.lower r.domain
  let kept := db.feedback.filter fun row =>
    !(row.user_id == user_id && row.occurred_at < now - days historyDays)
  let row : FeedbackRow :=
    { user_id := user_id
      email_hash := email_hash
      domain := normalized_domain
      outcome := r.outcome
      smtp_code := r.smtp_code
      enhanced_status := r.enhanced_status
      provider_id := services.providerIdForDomain r.domain
      source := r.source
      predicted_score := db.predictedScore email_hash now
      occurred_at := now }
  let db := { db with feedback := kept ++ [row] }
  if r.outcome = .hard_bounce then maybeSuppressDomain db now normalized_domain else db

/-- What a bounce makes of a recipient row that waits for one. -/
def CanaryRecipient.resolve (row : CanaryRecipient) (now : Int) (r : Report) : CanaryRecipient :=
  { row with
    status :=
      match r.outcome with
      | .hard_bounce => .hard_bounce
      | .soft_bounce => .soft_bounce
      | .delivered => .delivered
    smtp_code := r.smtp_code
    enhanced_status := r.enhanced_status
    resolved_at := some now }

def Canary.applyBounce (services : Services) (now : Int) (r : Report) (canary : Canary) : Canary :=
  { canary with recipients := canary.recipients.map fun row =>
      if row.email_hash = services.emailHash r.email ∧ row.status = .sent then row.resolve now r
      else row }

def applyBounce (services : Services) (now : Int) (r : Report) (db : Database) : Database :=
  { db with canaries := db.canaries.map (Canary.applyBounce services now r) }

/-! ## Requests -/

inductive Write
  | feedback (r : Report)
  | bounce (r : Report)

def Write.report : Write → Report
  | .feedback r => r
  | .bounce r => r

def Write.run (services : Services) (user_id : String) (now : Int) (db : Database) :
    Write → Database
  | .feedback r => recordValidationFeedback services user_id now r db
  | .bounce r => applyBounce services now r db

/-- The recipients of a notification that have an outcome and a valid address. -/
def DsnReport.reports (services : Services) (report : DsnReport) : List (DsnRecipient × Report) :=
  if report.is_dsn then
    report.recipients.filterMap fun entry =>
      match entry.outcome, services.validDomain entry.recipient with
      | some outcome, some domain => some (entry,
          { email := entry.recipient
            domain := domain
            outcome := outcome
            smtp_code := entry.smtp_code
            enhanced_status := entry.status
            source := "dsn" })
      | _, _ => none
  else []

def DsnReport.writes (services : Services) (report : DsnReport) : List Write :=
  (report.reports services).flatMap fun (_, r) => [.feedback r, .bounce r]

inductive Request
  | report (email : String) (outcome : Outcome) (smtp_code : Option Int)
      (enhanced_status : Option String)
  | ingest (report : DsnReport)
  /-- The notifications a scan of the user's mailbox fetched, and the number of
  writes behind which it raises, if it does. -/
  | scan (reports : List DsnReport) (raised : Option Nat)

inductive Response
  | unprocessable | forbidden | recorded (outcome : Outcome)
  | ingested (is_dsn : Bool) (recipients : List (DsnRecipient × Outcome))
  | scanned (recorded : Nat)
  deriving DecidableEq

structure Op where
  now : Int
  request : Request

/-- The writes of a request, in order, and its response. -/
def Op.plan (services : Services) (op : Op) : List Write × Response :=
  match op.request with
  | .report email outcome smtp_code enhanced_status =>
    match services.validDomain email with
    | none => ([], .unprocessable)
    | some domain =>
      ([.feedback ⟨email, domain, outcome, smtp_code, enhanced_status, "api"⟩], .recorded outcome)
  | .ingest report =>
    if !services.dsnIngestEnabled then ([], .forbidden)
    else
      (report.writes services, .ingested report.is_dsn
        ((report.reports services).map fun (entry, r) => (entry, r.outcome)))
  | .scan reports raised =>
    let writes := reports.flatMap (DsnReport.writes services)
    match raised with
    | none => (writes, .scanned (writes.length / 2))
    | some k => (writes.take k, .scanned 0)

def Op.writes (services : Services) (op : Op) : List Write := (op.plan services).1

def Op.run (services : Services) (user_id : String) (db : Database) (op : Op) : Database :=
  (op.writes services).foldl (Write.run services user_id op.now) db

/-- One request after another on behalf of one user. -/
def run (services : Services) (user_id : String) (db : Database) (ops : List Op) : Database :=
  ops.foldl (Op.run services user_id) db

end MailCue.Backend.Emails.Bounce
