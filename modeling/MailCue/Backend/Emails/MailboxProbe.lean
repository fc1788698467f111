import MailCue.Backend.Emails.SmtpReply
import MailCue.Tunnel.Sidecar.Probe

/-!
# The mailbox probe, direct and through the tunnel

backend/app/emails/validation.py. A host's answers are a function of the
recipient; no answer where it refused the envelope, from the sender and from the
empty one. Latencies are hundredths of a millisecond, and their median, over
floats, is a parameter, as are `int` and `float` of a text. Connecting, the
configuration and the walk over hosts are left out.
-/
namespace MailCue.Backend.Emails
open MailCue.Lib

structure RcptReply where
  code : UInt16
  text : String
  latency : Nat
  deriving DecidableEq, Repr

structure ProbeAttempt where
  label : String
  recipient : String
  code : Option Int
  message : String
  classification : RcptClassification
  latency_ms : Nat
  deriving DecidableEq, Repr

structure ProbeSession where
  target : Option ProbeAttempt := none
  controls : List ProbeAttempt := []
  order_degraded : Bool := false
  deriving DecidableEq, Repr

structure EmailValidationControlProbe where
  shape : String
  smtp_code : Option Int
  smtp_response : String
  verdict : RcptVerdict
  latency_ms : Nat
  deriving DecidableEq, Repr

structure EmailValidationMailbox where
  is_valid : Option Bool
  smtp_code : Option Int := none
  smtp_response : Option String := none
  catch_all : Option Bool := none
  transport : String
  reason_code : String
  error : Option String := none
  enhanced_status : Option String := none
  target_latency_ms : Option Nat := none
  control_median_latency_ms : Option Nat := none
  control_probes : List EmailValidationControlProbe := []
  controls_accepted : Int := 0
  controls_rejected : Int := 0
  controls_inconclusive : Int := 0
  selective_recipient_validation : Option Bool := none
  order_degraded : Bool := false
  sender_reputation_signal : Bool := false
  mx_host : Option String := none
  deriving DecidableEq, Repr

/-! ## Direct -/

def controlAddress (domain control_local : String) : String := s!"{control_local}@{domain}"

section
variable (py : PyText) (provider : Option MxProvider) (answer : String → Option RcptReply)

def rcptProbe (label recipient : String) : Option ProbeAttempt :=
  (answer recipient).map fun reply =>
    { label, recipient
      code := some reply.code.toNat
      message := reply.text
      classification :=
        classifyRcptResponse py (some reply.code.toNat) (some reply.text.toList) provider
      latency_ms := reply.latency }

/-- The controls after the target, up to the first that gets no answer. -/
def probeTrailing (domain : String) (offset : Nat) : List String → List ProbeAttempt
  | [] => []
  | control_local :: rest =>
    match rcptProbe py provider answer s!"control_{offset}" (controlAddress domain control_local) with
    | none => []
    | some attempt => attempt :: probeTrailing domain (offset + 1) rest

/-- `_run_probe_session`, with the control locals as they were drawn and shuffled. -/
def runProbeSession (target_email domain : String) (controls : List String) : ProbeSession :=
  let leading := (controls.take 1).filterMap fun control_local =>
    rcptProbe py provider answer "control_0" (controlAddress domain control_local)
  match rcptProbe py provider answer "target" target_email with
  | none => { controls := leading }
  | some target =>
    if target.classification.verdict ≠ .mailbox_present then
      { target := some target, controls := leading }
    else
      let controls := leading ++ probeTrailing py provider answer domain 1 (controls.drop 1)
      { target := some target, controls
        order_degraded := controls.head?.any (·.classification.isPresent) &&
          (controls.drop 1).any (·.classification.isAbsent) }

end

def controlProbe (control : ProbeAttempt) : EmailValidationControlProbe where
  shape := control.label
  smtp_code := control.code
  smtp_response := String.ofList (control.message.toList.take 255)
  verdict := control.classification.verdict
  latency_ms := control.latency_ms

def ProbeSession.accepted (s : ProbeSession) : Nat :=
  s.controls.countP (·.classification.isPresent)

def ProbeSession.rejected (s : ProbeSession) : Nat :=
  s.controls.countP (·.classification.isAbsent)

def ProbeSession.selective (s : ProbeSession) : Option Bool :=
  if s.controls.isEmpty then none
  else if s.rejected ≠ 0 ∧ s.order_degraded = false then some true
  else if s.accepted = s.controls.length then some false
  else none

/-- `catch_all`, of a target with this verdict. -/
def ProbeSession.catchAll (s : ProbeSession) (verdict : RcptVerdict) : Option Bool :=
  if verdict = .mailbox_absent then some false
  else if s.controls.isEmpty ∨ verdict ≠ .mailbox_present then none
  else if s.accepted = s.controls.length ∧ s.accepted > 0 then some true
  else if s.rejected ≠ 0 ∧ s.order_degraded = false then some false
  else none

def mailboxFromSession (median : List Nat → Nat) (session : ProbeSession)
    (transport : String) (matched_host : Option String) : EmailValidationMailbox :=
  match session.target with
  | none =>
    { is_valid := none, transport, reason_code := "smtp_unreachable"
      error := some "Destination did not accept a probe envelope" }
  | some target =>
    let latencies := session.controls.map (·.latency_ms)
    let verdict := target.classification.verdict
    let catch_all := session.catchAll verdict
    let outcome : Option Bool × String × Option String :=
      match verdict with
      | .mailbox_present =>
        (some true, if catch_all = some true then "accept_all_domain" else "mailbox_accepted", none)
      | .mailbox_absent => (some false, "mailbox_rejected", none)
      | .temporary =>
        (none, "smtp_temporary_failure", some s!"Temporary SMTP failure: {target.message}")
      | _ =>
        (none, target.classification.reason_code,
          some "SMTP policy rejection did not prove that the mailbox is absent")
    { is_valid := outcome.1
      smtp_code := target.code
      smtp_response := some target.message
      catch_all, transport
      reason_code := outcome.2.1
      error := outcome.2.2
      enhanced_status := target.classification.enhanced_status
      target_latency_ms := some target.latency_ms
      control_median_latency_ms := if latencies.isEmpty then none else some (median latencies)
      control_probes := session.controls.map controlProbe
      controls_accepted := session.accepted
      controls_rejected := session.rejected
      controls_inconclusive := session.controls.length - session.accepted - session.rejected
      selective_recipient_validation := session.selective
      order_degraded := session.order_degraded
      sender_reputation_signal := target.classification.sender_reputation_signal ||
        session.controls.any (·.classification.sender_reputation_signal)
      mx_host := matched_host }

/-! ## Through the tunnel -/

def isFieldKeyChar (c : Char) : Bool := ('a' ≤ c && c ≤ 'z') || c == '_'

/-- `\b([a-z_]+)=([^\s]+)` in a text without white space. -/
def PyText.fieldIn (py : PyText) (before : Option Char) : Text → Option (String × Text)
  | [] => none
  | c :: rest =>
    let key := (c :: rest).takeWhile isFieldKeyChar
    match (c :: rest).dropWhile isFieldKeyChar with
    | '=' :: value =>
      if key ≠ [] ∧ value ≠ [] ∧ py.boundary before (some c) then some (String.ofList key, value)
      else py.fieldIn (some c) rest
    | _ => py.fieldIn (some c) rest

/-- `_parse_probe_fields`: a match takes what is left of its word. -/
def parseProbeFields (py : PyText) (text : Text) : List (String × Text) :=
  (text.splitOnP Text.isSpace).filterMap (py.fieldIn none)

/-- `fields.get(key)`: the last one of that key. -/
def probeField (fields : List (String × Text)) (key : String) : Option Text :=
  (fields.reverse.find? (·.1 = key)).map (·.2)

/-- `validate_mailbox_via_tunnel`, from the reply of the sidecar on. -/
def validateMailboxViaTunnel (py : PyText) (int : Text → Option Int) (float : Text → Option Nat)
    (reply : Tunnel.Sidecar.SmtpReply) : EmailValidationMailbox :=
  let text := reply.line.toList.drop 4
  let fields := parseProbeFields py text
  let count (key : String) : Int := ((probeField fields key).bind int).getD 0
  let total := count "controls_total"
  let accepted := count "controls_accepted"
  let rejected := count "controls_rejected"
  let degraded := probeField fields "degraded" = some ['1']
  let selective :=
    if total = 0 then none
    else if rejected ≠ 0 ∧ ¬ degraded then some true
    else if accepted = total then some false
    else none
  let common (is_valid catch_all : Option Bool) (reason_code : String) (error : Option String) :
      EmailValidationMailbox :=
    { is_valid, catch_all, reason_code, error
      smtp_code := (probeField fields "upstream_code").bind int
      smtp_response := some (String.ofList text)
      transport := "mailcue_tunnel"
      enhanced_status := (probeField fields "enhanced").map String.ofList
      target_latency_ms := (probeField fields "target_ms").bind float
      control_median_latency_ms := (probeField fields "control_ms").bind float
      controls_accepted := accepted
      controls_rejected := rejected
      controls_inconclusive := max (total - accepted - rejected) 0
      selective_recipient_validation := selective
      order_degraded := degraded
      sender_reputation_signal := probeField fields "reputation" = some ['1']
      mx_host := (probeField fields "mx").map String.ofList }
  if reply.code = 250 then common (some true) (some false) "mailbox_accepted" none
  else if reply.code = 252 then common (some true) (some true) "accept_all_domain" none
  else if reply.code = 550 then common (some false) (some false) "mailbox_rejected" none
  else common none none "smtp_temporary_failure" (some (String.ofList text))

end MailCue.Backend.Emails
