import MailCue.Lib.Text
import MailCue.Tunnel.Sidecar.Relay

/-!
# The sidecar's reply to a recipient probe

tunnel/crates/sidecar/src/relay.rs, from the outcomes an edge reported to the
line the backend reads. Several tunnels are probed at once and the first reply
counts; `probeReply` is what one of them answers.
-/
namespace MailCue.Tunnel.Sidecar
open MailCue.Lib MailCue.Tunnel.Proto

def smtpSafe (value : String) : String :=
  String.ofList ((value.toList.filter fun c => c ≠ '\r' ∧ c ≠ '\n' ∧ c ≠ ' ').take 200)

structure ControlSummary where
  total : Nat
  accepted : Nat
  rejected : Nat
  degraded : Bool
  median_latency_ms : UInt32
  deriving DecidableEq, Repr

def countStatus (status : ProbeStatus) (controls : List ProbeOutcome) : Nat :=
  controls.countP (·.status = status)

def summariseControls (controls : List ProbeOutcome) : ControlSummary where
  total := controls.length
  accepted := countStatus .accepted controls
  rejected := countStatus .rejected controls
  degraded := controls.head?.any (·.status = .accepted) &&
    (controls.drop 1).any (·.status = .rejected)
  median_latency_ms :=
    ((controls.map (·.latency_ms)).mergeSort (· ≤ ·)).getD (controls.length / 2) 0

def reputationSignal (target : ProbeOutcome) (controls : List ProbeOutcome) : Bool :=
  (target :: controls).any fun value =>
    Text.containsAny (Text.asciiLower value.smtp_msg.toList)
      ["blocked", "blacklist", "blocklist", "spamhaus", "reputation", "client host rejected"]

/-! ## The enhanced status -/

/-- A dot and up to three digits behind it. -/
def dotGroup : Text → Option (Text × Text)
  | '.' :: rest =>
    let run := (rest.takeWhile Char.isDigit).take 3
    if run.isEmpty then none else some ('.' :: run, rest.drop run.length)
  | _ => none

def statusAt (before : Option Char) (text : Text) : Option Text :=
  match text with
  | [] => none
  | c :: rest =>
    if before.any fun b => b.isDigit || b == '.' then none
    else if ¬ (c = '2' ∨ c = '4' ∨ c = '5') then none
    else
      match dotGroup rest with
      | none => none
      | some (subject, rest) =>
        match dotGroup rest with
        | none => none
        | some (detail, rest) =>
          if rest.head?.any Char.isDigit then none else some (c :: subject ++ detail)

def searchStatus (before : Option Char) : Text → Option Text
  | [] => none
  | c :: rest => (statusAt before (c :: rest)).or (searchStatus (some c) rest)

def enhancedStatus (message : String) : Option String :=
  (searchStatus none message.toList).map String.ofList

/-! ## The reply -/

def probeDiagnostics (target : ProbeOutcome) (controls : List ProbeOutcome) : String :=
  let upstream_code := target.smtp_code.getD 0
  let mx := smtpSafe target.mx
  let summary := summariseControls controls
  let degraded := summary.degraded.toNat
  let reputation := (reputationSignal target controls).toNat
  let enhanced := (enhancedStatus target.smtp_msg).getD "-"
  s!"upstream_code={upstream_code} mx={mx} controls_total={summary.total} " ++
    s!"controls_accepted={summary.accepted} controls_rejected={summary.rejected} " ++
    s!"target_ms={target.latency_ms} control_ms={summary.median_latency_ms} " ++
    s!"degraded={degraded} reputation={reputation} enhanced={enhanced}"

def probeSmtpReply (target : ProbeOutcome) (controls : List ProbeOutcome) : Option SmtpReply :=
  let summary := summariseControls controls
  let diagnostics := probeDiagnostics target controls
  match target.status with
  | .rejected => some ⟨550, "550 5.1.1 recipient rejected " ++ diagnostics⟩
  | .accepted =>
    if summary.total = 0 then none
    else if summary.accepted = summary.total then
      some ⟨252, "252 2.1.5 accept-all " ++ diagnostics⟩
    else if summary.rejected > 0 ∧ summary.degraded = false then
      some ⟨250, "250 2.1.5 recipient accepted " ++ diagnostics⟩
    else none
  | .unknown => none

/-- `probe`, of the one tunnel that answered. -/
def probeReply (target : ProbeOutcome) (controls : List ProbeOutcome) : SmtpReply :=
  (probeSmtpReply target controls).getD
    ⟨451, "451 4.4.1 validation inconclusive across all tunnels"⟩

/-- The line begins with the code it is sent with. -/
def SmtpReply.Framed (reply : SmtpReply) : Prop := (Nat.repr reply.code).toList <+: reply.line.toList

theorem SmtpReply.framed_append {code : Nat} {head : String}
    (h : (Nat.repr code).toList <+: head.toList) (rest : String) :
    SmtpReply.Framed ⟨code, head ++ rest⟩ := by
  unfold SmtpReply.Framed
  rw [String.toList_append]
  exact h.trans (List.prefix_append _ _)

theorem probeReply_framed (target : ProbeOutcome) (controls : List ProbeOutcome) :
    (probeReply target controls).Framed := by
  have hinconclusive : SmtpReply.Framed
      ⟨451, "451 4.4.1 validation inconclusive across all tunnels"⟩ := by
    unfold SmtpReply.Framed
    decide
  unfold probeReply probeSmtpReply
  cases target.status with
  | rejected => exact SmtpReply.framed_append (by decide) _
  | unknown => exact hinconclusive
  | accepted =>
    dsimp only
    split
    · exact hinconclusive
    · split
      · exact SmtpReply.framed_append (by decide) _
      · split
        · exact SmtpReply.framed_append (by decide) _
        · exact hinconclusive

end MailCue.Tunnel.Sidecar
