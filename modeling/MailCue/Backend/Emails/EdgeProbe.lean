import MailCue.Backend.Emails.MailboxProbe
import MailCue.Tunnel.Edge.Relay

/-!
# What an edge reports of a host's answers

The edge's probe of one host, tunnel/crates/edge/src/relay.rs, with the sessions of
smtp_client.rs answered by the host. What it reports is determined by how its
classification reads each answer.
-/
namespace MailCue.Backend.Emails
open MailCue.Lib MailCue.Tunnel.Proto MailCue.Tunnel.Edge

/-! ## The edge's session with the host -/

/-- `char::is_whitespace`. -/
def isWhitespace (c : Char) : Bool :=
  let n := c.toNat
  (0x09 ≤ n && n ≤ 0x0D) || n == 0x20 || n == 0x85 || n == 0xA0 || n == 0x1680 ||
    (0x2000 ≤ n && n ≤ 0x200A) || n == 0x2028 || n == 0x2029 || n == 0x202F || n == 0x205F ||
    n == 0x3000

/-- `first_line`. -/
def firstLine (text : String) : String :=
  String.ofList (Text.strip isWhitespace (text.toList.takeWhile (· ≠ '\n')))

/-- smtp_client.rs, the status of one RCPT TO. -/
def rcptStatus (mx_host : String) (reply : RcptReply) : RelayStatus :=
  let first := firstLine reply.text
  if 200 ≤ reply.code ∧ reply.code < 300 then .delivered mx_host reply.code first
  else if 400 ≤ reply.code ∧ reply.code < 500 then
    .tempFail s!"RCPT TO: {first}" (some reply.code)
  else .permFail s!"RCPT TO: {first}" (some reply.code)

/-- Whole milliseconds, capped. -/
def latencyMs (reply : RcptReply) : UInt32 := .ofNat (min (reply.latency / 100) (2 ^ 32 - 1))

/-- An edge's sessions with the host: without an answer the envelope was refused. -/
def hostWorld (mx : MxRecord) (refusal : String) (answer : String → Option RcptReply) : World where
  resolveMx _ := .ok [mx]
  deliver _ d :=
    match d.recipients with
    | [recipient] =>
      match answer recipient with
      | none => .ok (.skipped ("MAIL FROM:" ++ refusal) false)
      | some reply => .ok (.reached [⟨recipient, rcptStatus d.mx_host reply, latencyMs reply⟩])
    | _ => .error "one recipient in a probe"

def edgeOutcome (mx : MxRecord) (reply : RcptReply) : ProbeOutcome :=
  probeOutcome mx.host (rcptStatus mx.host reply) (latencyMs reply)

section
variable (sub : Submission) (mx : MxRecord) (refusal : String)
  (answer : String → Option RcptReply)

theorem probeSingle_host (probe_sender recipient : String) (calls : List SmtpDelivery)
    (hworld : sub.world = hostWorld mx refusal answer) :
    (probeSingle sub mx probe_sender recipient calls).2 =
      match answer recipient with
      | none => .senderRejected ("MAIL FROM:" ++ refusal)
      | some reply => .reached (edgeOutcome mx reply) := by
  simp only [probeSingle, hworld, hostWorld, Submission.probe, Submission.delivery]
  cases answer recipient with
  | none =>
    have hleads : "MAIL FROM:".toList.isPrefixOf ("MAIL FROM:" ++ refusal).toList = true := by
      rw [List.isPrefixOf_iff_prefix, String.toList_append]
      exact List.prefix_append _ _
    simp only [hleads, if_true]
  | some reply => simp [edgeOutcome]

/-! ## Readings -/

def edgeReading (reply : RcptReply) : ProbeStatus := (edgeOutcome mx reply).status

/-- The readings of the answers in turn, up to the first that is missing, and
whether none is. -/
def seen (read : String → Option ProbeStatus) : List String → List ProbeStatus × Bool
  | [] => ([], true)
  | recipient :: rest =>
    match read recipient with
    | none => ([], false)
    | some status => (status :: (seen read rest).1, (seen read rest).2)

theorem probeControls_host (probe_sender : String)
    (hworld : sub.world = hostWorld mx refusal answer) (controls : List String) :
    ∀ (calls : List SmtpDelivery) (acc : List ProbeOutcome),
      let out := (probeControls sub mx probe_sender controls calls acc).2
      let read := seen (fun r => (answer r).map (edgeReading mx)) controls
      out.map (·.status) = acc.map (·.status) ++ read.1 ++ if read.2 then [] else [.unknown] := by
  induction controls with
  | nil =>
    intro calls acc
    simp [probeControls, seen]
  | cons control rest ih =>
    intro calls acc
    have hsingle := probeSingle_host sub mx refusal answer probe_sender control calls hworld
    rw [probeControls]
    cases hout : probeSingle sub mx probe_sender control calls with
    | mk calls' result =>
      rw [hout] at hsingle
      cases hanswer : answer control with
      | none =>
        rw [hanswer] at hsingle
        simp only at hsingle
        subst hsingle
        simp [seen, hanswer, unknownProbe]
      | some reply =>
        rw [hanswer] at hsingle
        simp only at hsingle
        subst hsingle
        simp [seen, hanswer, ih, edgeReading]

def passReading : SenderPass → Option (ProbeStatus × List ProbeStatus)
  | .done target controls => some (target.status, controls.map (·.status))
  | _ => none

theorem probeTarget_host (probe_sender recipient : String) (control_recipients : List String)
    (calls : List SmtpDelivery) (acc : List ProbeOutcome)
    (hworld : sub.world = hostWorld mx refusal answer) :
    let read := fun r => (answer r).map (edgeReading mx)
    let later := seen read (control_recipients.drop 1)
    passReading (probeTarget sub mx probe_sender recipient control_recipients calls acc).2 =
      (read recipient).map fun status =>
        (status, acc.map (·.status) ++
          if status ≠ .accepted then [] else later.1 ++ if later.2 then [] else [.unknown]) := by
  have hsingle := probeSingle_host sub mx refusal answer probe_sender recipient calls hworld
  unfold probeTarget
  cases hout : probeSingle sub mx probe_sender recipient calls with
  | mk calls' result =>
    rw [hout] at hsingle
    cases hanswer : answer recipient with
    | none =>
      rw [hanswer] at hsingle
      simp only at hsingle
      subst hsingle
      simp [hanswer, passReading]
    | some reply =>
      rw [hanswer] at hsingle
      simp only at hsingle
      subst hsingle
      have hcontrols := probeControls_host sub mx refusal answer probe_sender hworld
        (control_recipients.drop 1) calls' acc
      by_cases haccepted : (edgeOutcome mx reply).status = .accepted
      · simpa [hanswer, passReading, edgeReading, haccepted] using hcontrols
      · simp [hanswer, passReading, edgeReading, haccepted]

/-- The readings the edge reports: none where the host gave no answer to the first
control or to the target. -/
def reported (read : String → Option ProbeStatus) (recipient : String) (controls : List String) :
    Option (ProbeStatus × List ProbeStatus) :=
  if controls.head?.map read = some none then none
  else
    (read recipient).map fun status =>
      let all := seen read (if status ≠ .accepted then controls.take 1 else controls)
      (status, all.1 ++ if all.2 then [] else [.unknown])

theorem probeSender_host (probe_sender recipient : String) (control_recipients : List String)
    (calls : List SmtpDelivery) (hworld : sub.world = hostWorld mx refusal answer) :
    passReading (probeSender sub mx probe_sender recipient control_recipients calls).2 =
      reported (fun r => (answer r).map (edgeReading mx)) recipient control_recipients := by
  unfold probeSender reported
  cases control_recipients with
  | nil =>
    have htarget := probeTarget_host sub mx refusal answer probe_sender recipient [] calls [] hworld
    simpa [seen] using htarget
  | cons control rest =>
    have hsingle := probeSingle_host sub mx refusal answer probe_sender control calls hworld
    simp only [List.head?_cons]
    cases hout : probeSingle sub mx probe_sender control calls with
    | mk calls' result =>
      rw [hout] at hsingle
      cases hcontrol : answer control with
      | none =>
        rw [hcontrol] at hsingle
        simp only at hsingle
        subst hsingle
        simp [hcontrol, passReading]
      | some reply =>
        rw [hcontrol] at hsingle
        simp only at hsingle
        subst hsingle
        have htarget := probeTarget_host sub mx refusal answer probe_sender recipient
          (control :: rest) calls' [edgeOutcome mx reply] hworld
        simp only at htarget ⊢
        rw [htarget]
        cases hanswer : answer recipient with
        | none => simp [hcontrol]
        | some target =>
          by_cases haccepted : (edgeOutcome mx target).status = .accepted
          · simp [hcontrol, haccepted, seen, edgeReading]
          · simp [hcontrol, haccepted, seen, edgeReading]

/-- A host that gave no reading is given up, and there is no other. -/
theorem probeMxs_host (recipient : String) (control_recipients : List String)
    (hworld : sub.world = hostWorld mx refusal answer) :
    let out := (probeMxs sub recipient control_recipients [mx] [] "no reachable MX").1
    (out.1.status, out.2.map (·.status)) =
      (reported (fun r => (answer r).map (edgeReading mx)) recipient control_recipients).getD
        (.unknown, []) := by
  have hgiven : ∀ (calls : List SmtpDelivery) (reason : String),
      let out := (probeMxs sub recipient control_recipients [] calls reason).1
      (out.1.status, out.2.map (·.status)) = (.unknown, []) := fun _ _ => rfl
  have hfirst := probeSender_host sub mx refusal answer sub.envelope_from recipient
    control_recipients [] hworld
  rw [← hfirst, probeMxs]
  cases hout : probeSender sub mx sub.envelope_from recipient control_recipients [] with
  | mk calls pass =>
    rw [hout] at hfirst
    cases pass with
    | done target controls => rfl
    | unreachable reason => exact hgiven calls reason
    | senderRejected reason =>
      have hsecond := probeSender_host sub mx refusal answer "" recipient control_recipients calls
        hworld
      dsimp only
      split
      · exact hgiven calls reason
      · rw [← hfirst] at hsecond
        cases hempty : probeSender sub mx "" recipient control_recipients calls with
        | mk calls' pass =>
          rw [hempty] at hsecond
          cases pass with
          | done target controls => cases hsecond
          | unreachable reason => exact hgiven calls' reason
          | senderRejected reason => exact hgiven calls' reason

end

end MailCue.Backend.Emails
