import MailCue.Lib.Text

/-!
# Delivery status notifications

backend/app/emails/dsn.py: what the parser reads off a notification, and the
outcome of one recipient. The parser itself, over the standard library's MIME
reader, is left out: a message carries the report it is parsed to.
-/
namespace MailCue.Backend.Emails.Bounce
open MailCue.Lib

inductive Outcome
  | delivered | hard_bounce | soft_bounce
  deriving DecidableEq, Repr

structure DsnRecipient where
  recipient : String
  action : String
  status : Option String := none
  smtp_code : Option Int := none
  deriving DecidableEq, Repr

namespace DsnRecipient

/-- `status.split(".", 1)[0]`, of a status that is not empty. -/
def statusClass (r : DsnRecipient) : Option String :=
  (r.status.filter (· ≠ "")).map fun status => String.ofList (status.toList.takeWhile (· ≠ '.'))

def outcome (r : DsnRecipient) : Option Outcome :=
  let action := String.ofList (Text.asciiLower r.action.toList)
  if action = "delivered" ∨ action = "relayed" ∨ action = "expanded" then some .delivered
  else if action = "delayed" then some .soft_bounce
  else if action = "failed" then
    if r.statusClass = some "5" then some .hard_bounce
    else if r.statusClass = some "4" then some .soft_bounce
    else
      match r.smtp_code with
      | some code => some (if code / 100 = 5 then .hard_bounce else .soft_bounce)
      | none => some .hard_bounce
  else none

end DsnRecipient

structure DsnReport where
  is_dsn : Bool := false
  recipients : List DsnRecipient := []
  deriving DecidableEq, Repr

end MailCue.Backend.Emails.Bounce
