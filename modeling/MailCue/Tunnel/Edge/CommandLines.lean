import MailCue.Lib.Text
import MailCue.Lib.Utf8
import MailCue.Tunnel.Edge.Failover
import MailCue.Tunnel.Edge.ProbeConsistency

/-!
# Command lines on the wire

Each command goes out as one line, and a CR or LF in what a frame put into it would make
it several. Senders and recipients are checked when the frame comes in; the HELO name is
the frame's as it is, though the trace header written from it leaves out all but a few
characters.
-/
namespace MailCue.Tunnel.Edge.SmtpClient
open MailCue.Lib MailCue.Lib.Talk MailCue.Tunnel.Proto

/-! ## Lines -/

/-- One CRLF, at the end, and no other CR or LF. -/
def OneLine (octets : Bytes) : Prop :=
  ∃ body, octets = body ++ [13, 10] ∧ 13 ∉ body ∧ 10 ∉ body

theorem unbroken_iff_encode (text : List Char) :
    Unbroken text ↔ 13 ∉ Utf8.encode text ∧ 10 ∉ Utf8.encode text := by
  rw [Unbroken, @Utf8.mem_encode_iff '\r' 13 rfl (by decide),
    @Utf8.mem_encode_iff '\n' 10 rfl (by decide)]

theorem oneLine_encode_iff (text : List Char) :
    OneLine (Utf8.encode (text ++ ['\r', '\n'])) ↔ Unbroken text := by
  have hend : Utf8.encode ['\r', '\n'] = [13, 10] := by decide +kernel
  rw [unbroken_iff_encode, Utf8.encode_append, hend]
  constructor
  · rintro ⟨body, heq, hbody⟩
    rwa [List.append_cancel_right heq]
  · intro h
    exact ⟨_, rfl, h⟩

/-- The octets of a command: `line.as_bytes()`. -/
def Command.octets (c : Command) : Bytes := Utf8.encode c.line.toList

/-- What stands in a command of its own. -/
def Command.argument : Command → List Char
  | .ehlo name => name.toList
  | .helo name => name.toList
  | .mail envelope_from => envelope_from.toList
  | .rcpt recipient => recipient.toList
  | .starttls => []
  | .data => []
  | .quit => []

/-- What stands in front of the argument, and behind it. -/
def Command.around : Command → String × String
  | .ehlo _ => ("EHLO ", "")
  | .helo _ => ("HELO ", "")
  | .mail _ => ("MAIL FROM:<", ">")
  | .rcpt _ => ("RCPT TO:<", ">")
  | .starttls => ("STARTTLS", "")
  | .data => ("DATA", "")
  | .quit => ("QUIT", "")

theorem Command.line_toList (c : Command) :
    c.line.toList = c.around.1.toList ++ c.argument ++ (c.around.2.toList ++ ['\r', '\n']) := by
  have happend : ∀ front arg back : String,
      (front ++ arg ++ back).toList = front.toList ++ arg.toList ++ back.toList := by
    intro front arg back
    rw [String.toList_append, String.toList_append]
  have hbare : "\r\n".toList = "".toList ++ ['\r', '\n'] := by decide
  have hquoted : ">\r\n".toList = ">".toList ++ ['\r', '\n'] := by decide
  cases c with
  | ehlo name => exact (happend "EHLO " name "\r\n").trans (congrArg _ hbare)
  | helo name => exact (happend "HELO " name "\r\n").trans (congrArg _ hbare)
  | mail envelope_from =>
    exact (happend "MAIL FROM:<" envelope_from ">\r\n").trans (congrArg _ hquoted)
  | rcpt recipient => exact (happend "RCPT TO:<" recipient ">\r\n").trans (congrArg _ hquoted)
  | starttls => decide
  | data => decide
  | quit => decide

theorem Command.unbroken_around (c : Command) :
    Unbroken c.around.1.toList ∧ Unbroken c.around.2.toList := by
  cases c with
  | ehlo name => exact (by decide : Unbroken "EHLO ".toList ∧ Unbroken "".toList)
  | helo name => exact (by decide : Unbroken "HELO ".toList ∧ Unbroken "".toList)
  | mail envelope_from => exact (by decide : Unbroken "MAIL FROM:<".toList ∧ Unbroken ">".toList)
  | rcpt recipient => exact (by decide : Unbroken "RCPT TO:<".toList ∧ Unbroken ">".toList)
  | starttls => decide
  | data => decide
  | quit => decide

/-- A command is one line as long as its argument is unbroken. -/
theorem Command.oneLine_iff (c : Command) : OneLine c.octets ↔ Unbroken c.argument := by
  have haround := c.unbroken_around
  rw [octets, line_toList, ← List.append_assoc, oneLine_encode_iff, unbroken_append,
    unbroken_append]
  exact ⟨fun h => h.1.2, fun h => ⟨⟨haround.1, h⟩, haround.2⟩⟩

/-! ## What a session writes -/

/-- The command, if there is one, is one line. -/
def Event.Lined : Event → Prop
  | .command _ c _ => OneLine c.octets
  | _ => True

namespace Peer
variable (peer : Peer) (d : SmtpDelivery)

/-- The events of a session: the connections, the banners and the handshake, the greetings
under the HELO name, and those of a transaction. -/
theorem deliver_emits {E : Event → Prop} (hconnect : ∀ answer, E (.connect answer))
    (hbanner : ∀ answer, E (.banner answer)) (hhandshake : ∀ answer, E (.handshake answer))
    (hehlo : ∀ secure answer, E (.command secure (.ehlo d.helo_name) answer))
    (hhelo : ∀ answer, E (.command false (.helo d.helo_name) answer))
    (hstarttls : ∀ answer, E (.command false .starttls answer))
    (htransaction : ∀ secure, Emits E (peer.transaction d secure)) :
    Emits E (peer.deliver d) := by
  have hdial : Emits E peer.dial := .exchange hconnect
  have hread : Emits E peer.readReply := .bind (.exchange hbanner) fun _ => .ofExcept _
  have hattempt : Emits E (peer.attemptStarttls d) := by
    refine .bind (peer.sendCmd_emits hstarttls) fun reply => ?_
    split
    · exact .ofExcept _
    · refine .bind (.exchange hhandshake) fun answer => .bind (.ofExcept _) fun _ => ?_
      refine .bind (peer.sendCmd_emits (hehlo true)) fun reply => ?_
      split
      · exact .ofExcept _
      · exact .ofPure _
  have hfallback : Emits E (peer.fallback d) := by
    refine .bind hdial fun answer => ?_
    split
    · refine .bind hread fun banner => ?_
      split
      · exact .ofPure _
      · refine .bind (peer.sendCmd_emits (hehlo false)) fun helo => ?_
        split
        · exact .ofPure _
        · exact htransaction false
    · exact .ofPure _
  have hupgrade : ∀ extensions, Emits E (peer.upgrade d extensions) := by
    intro extensions
    unfold upgrade
    split
    · refine .bind (.attempt hattempt) fun result => ?_
      split
      · exact htransaction true
      · split
        · exact .ofPure _
        · exact hfallback
    · split
      · exact .ofPure _
      · exact htransaction false
  have hgreet : Emits E (peer.greet d) := by
    refine .bind (peer.sendCmd_emits (hehlo false)) fun ehlo => ?_
    split
    · exact hupgrade _
    · refine .bind (peer.sendCmd_emits hhelo) fun helo => ?_
      split
      · exact .ofPure _
      · exact hupgrade _
  refine .bind hdial fun answer => ?_
  split
  · exact .ofPure _
  · exact .ofPure _
  · refine .bind (.attempt hread) fun result => ?_
    split
    · exact .ofPure _
    · split
      · exact .ofPure _
      · exact hgreet

/-- Every command of a session under unbroken names is one line. -/
theorem deliver_lined (hhelo : Unbroken d.helo_name.toList)
    (hfrom : Unbroken d.envelope_from.toList)
    (hrcpts : ∀ rcpt ∈ d.recipients, Unbroken rcpt.toList) :
    Emits Event.Lined (peer.deliver d) := by
  have hfixed : ∀ (secure : Bool) (c : Command) (answer : Except String Reply),
      Unbroken c.argument → Event.Lined (.command secure c answer) :=
    fun _ c _ hargument => c.oneLine_iff.mpr hargument
  have hnone : Unbroken [] := by decide
  refine peer.deliver_emits d (fun _ => trivial) (fun _ => trivial) (fun _ => trivial)
    (fun secure answer => hfixed secure (.ehlo d.helo_name) answer hhelo)
    (fun answer => hfixed false (.helo d.helo_name) answer hhelo)
    (fun answer => hfixed false .starttls answer hnone) fun secure => ?_
  exact peer.transaction_emits d (fun answer => hfixed secure .quit answer hnone)
    (fun answer => hfixed secure (.mail d.envelope_from) answer hfrom)
    (fun rcpt hrcpt answer => hfixed secure (.rcpt rcpt) answer (hrcpts rcpt hrcpt))
    fun _ => ⟨fun answer => hfixed secure .data answer hnone, fun _ _ => trivial⟩

end Peer

/-- A host that hangs up behind the first command. -/
def hangUp : Peer where
  connect _ := .connected
  banner _ := .ok ⟨220, "ready"⟩
  answer _ _ _ := .error "closed"
  handshake _ := .error "closed"
  body _ _ _ := .cut "closed"
  elapsed _ := 0
  date _ := ""

theorem hangUp_deliver (d : SmtpDelivery) : hangUp.deliver d [] =
    (.error "closed", [.connect .connected, .banner (.ok ⟨220, "ready"⟩),
      .command false (.ehlo d.helo_name) (.error "closed")]) := rfl

end MailCue.Tunnel.Edge.SmtpClient

namespace MailCue.Tunnel.Edge
open MailCue.Lib MailCue.Tunnel.Proto MailCue.Tunnel.Edge.SmtpClient

/-! ## The sessions of a frame -/

theorem unbroken_of_isValidMailbox {s : String} (h : isValidMailbox s = true) :
    Unbroken s.toList := by
  have hplain : ∀ c ∈ s.toList, isAsciiControl c = false := by
    unfold isValidMailbox at h
    split at h
    · cases h
    · split at h
      · cases h
      · split at h
        · cases h
        · intro c hc
          simp only [Bool.not_eq_true', List.any_eq_false, Bool.or_eq_true, not_or,
            Bool.not_eq_true] at h
          exact (h c hc).1.1.1
  constructor
  · intro hcr
    exact absurd (hplain _ hcr) (by decide)
  · intro hlf
    exact absurd (hplain _ hlf) (by decide)

theorem unbroken_of_isValidMailboxOrEmpty {s : String} (h : isValidMailboxOrEmpty s = true) :
    Unbroken s.toList := by
  rcases (Bool.or_eq_true _ _).mp h with hempty | hvalid
  · rw [String.isEmpty_iff.mp hempty]
    decide
  · exact unbroken_of_isValidMailbox hvalid

/-- The probe is not turned away before its domain is looked up. -/
def ProbeAdmitted (envelope_from recipient : String) (control_recipients : List String) : Prop :=
  isValidMailboxOrEmpty envelope_from = true ∧ isValidMailbox recipient = true ∧
    ∃ domain, domainOf recipient = some domain ∧ rejectControls domain control_recipients = none

/-- A session of a probe: one of its recipients, from its sender or the empty one. -/
def Submission.Probes (sub : Submission) (rcpts : List String) (d : SmtpDelivery) : Prop :=
  ∃ mx probe_sender rcpt, d = sub.probe mx probe_sender rcpt ∧
    (probe_sender = sub.envelope_from ∨ probe_sender = "") ∧ rcpt ∈ rcpts

section Probe
variable {sub : Submission} {rcpts : List String} {mx : MxRecord} {probe_sender : String}

theorem probeSingle_probes {rcpt : String} {calls : List SmtpDelivery}
    (hsender : probe_sender = sub.envelope_from ∨ probe_sender = "") (hrcpt : rcpt ∈ rcpts)
    (h : ∀ d ∈ calls, sub.Probes rcpts d) :
    ∀ d ∈ (probeSingle sub mx probe_sender rcpt calls).1, sub.Probes rcpts d := by
  rw [probeSingle_calls]
  intro d hd
  rcases List.mem_append.mp hd with hd | hd
  · exact h d hd
  · exact ⟨mx, probe_sender, rcpt, List.mem_singleton.mp hd, hsender, hrcpt⟩

theorem probeControls_probes (hsender : probe_sender = sub.envelope_from ∨ probe_sender = "")
    {rest : List String} (hrest : ∀ rcpt ∈ rest, rcpt ∈ rcpts) {calls : List SmtpDelivery}
    (controls : List ProbeOutcome) (h : ∀ d ∈ calls, sub.Probes rcpts d) :
    ∀ d ∈ (probeControls sub mx probe_sender rest calls controls).1, sub.Probes rcpts d := by
  induction rest generalizing calls controls with
  | nil => exact h
  | cons control rest ih =>
    obtain ⟨hcontrol, hrest⟩ := List.forall_mem_cons.mp hrest
    have hfirst := @probeSingle_probes sub rcpts mx probe_sender control calls hsender hcontrol h
    rw [probeControls]
    split
    · rename_i hout
      rw [hout] at hfirst
      exact ih hrest _ hfirst
    · rename_i hout
      rwa [hout] at hfirst
    · rename_i hout
      rwa [hout] at hfirst

theorem probeTarget_probes {recipient : String} {control_recipients : List String}
    (hsender : probe_sender = sub.envelope_from ∨ probe_sender = "")
    (hrcpts : ∀ rcpt ∈ recipient :: control_recipients, rcpt ∈ rcpts) {calls : List SmtpDelivery}
    (controls : List ProbeOutcome) (h : ∀ d ∈ calls, sub.Probes rcpts d) :
    ∀ d ∈ (probeTarget sub mx probe_sender recipient control_recipients calls controls).1,
      sub.Probes rcpts d := by
  obtain ⟨hrecipient, hcontrols⟩ := List.forall_mem_cons.mp hrcpts
  have hfirst := @probeSingle_probes sub rcpts mx probe_sender recipient calls hsender hrecipient h
  unfold probeTarget
  split
  · rename_i hout
    rwa [hout] at hfirst
  · rename_i hout
    rwa [hout] at hfirst
  · rename_i hout
    rw [hout] at hfirst
    split
    · exact hfirst
    · exact probeControls_probes hsender (fun rcpt hrcpt => hcontrols rcpt (List.mem_of_mem_drop hrcpt))
        controls hfirst

theorem probeSender_probes {recipient : String} {control_recipients : List String}
    (hsender : probe_sender = sub.envelope_from ∨ probe_sender = "")
    (hrcpts : ∀ rcpt ∈ recipient :: control_recipients, rcpt ∈ rcpts) {calls : List SmtpDelivery}
    (h : ∀ d ∈ calls, sub.Probes rcpts d) :
    ∀ d ∈ (probeSender sub mx probe_sender recipient control_recipients calls).1,
      sub.Probes rcpts d := by
  unfold probeSender
  split
  · exact probeTarget_probes hsender hrcpts [] h
  · rename_i control hhead
    have hcontrol := hrcpts control (List.mem_cons_of_mem _ (List.mem_of_head? hhead))
    have hfirst := @probeSingle_probes sub rcpts mx probe_sender control calls hsender hcontrol h
    split
    · rename_i hout
      rwa [hout] at hfirst
    · rename_i hout
      rwa [hout] at hfirst
    · rename_i hout
      rw [hout] at hfirst
      exact probeTarget_probes hsender hrcpts _ hfirst

theorem probeMxs_probes {recipient : String} {control_recipients : List String}
    (hrcpts : ∀ rcpt ∈ recipient :: control_recipients, rcpt ∈ rcpts) (mxs : List MxRecord)
    {calls : List SmtpDelivery} (last_reason : String) (h : ∀ d ∈ calls, sub.Probes rcpts d) :
    ∀ d ∈ (probeMxs sub recipient control_recipients mxs calls last_reason).2,
      sub.Probes rcpts d := by
  induction mxs generalizing calls last_reason with
  | nil => exact h
  | cons mx rest ih =>
    have hown := @probeSender_probes sub rcpts mx sub.envelope_from recipient control_recipients
      (.inl rfl) hrcpts calls h
    rw [probeMxs]
    split
    · rename_i hout
      rwa [hout] at hown
    · rename_i hout
      rw [hout] at hown
      exact ih _ hown
    · rename_i hout
      rw [hout] at hown
      split
      · exact ih _ hown
      · have hempty := @probeSender_probes sub rcpts mx "" recipient control_recipients
          (.inr rfl) hrcpts _ hown
        split
        · rename_i hout
          rwa [hout] at hempty
        · rename_i hout
          rw [hout] at hempty
          exact ih _ hempty
        · rename_i hout
          rw [hout] at hempty
          exact ih _ hempty

end Probe

theorem rejectControls_eq_none {domain : String} {control_recipients : List String}
    (h : rejectControls domain control_recipients = none) :
    ∀ control ∈ control_recipients, isValidMailbox control = true := by
  induction control_recipients with
  | nil => exact fun control hcontrol => absurd hcontrol List.not_mem_nil
  | cons control rest ih =>
    rw [rejectControls] at h
    split at h
    · cases h
    · rename_i hvalid
      split at h
      · cases h
      · split at h
        · cases h
        · exact List.forall_mem_cons.mpr ⟨by simpa using hvalid, ih h⟩

section Handlers
variable {cfg : EdgeConfig} {world : World} {helo_name envelope_from recipient : String}
  {control_recipients : List String} {opts : RelayOpts}

/-- The sessions of a probe that is admitted, and of one that is not. -/
theorem handleProbe_calls (h : ProbeAdmitted envelope_from recipient control_recipients) :
    ∃ domain, domainOf recipient = some domain ∧
      (handleProbe cfg world helo_name envelope_from recipient control_recipients opts).2 =
        match world.resolveMx domain with
        | .error _ => []
        | .ok mxs => (probeMxs ⟨cfg, world, helo_name, envelope_from, [], opts⟩ recipient
            control_recipients mxs [] "no reachable MX").2 := by
  obtain ⟨hsender, hrecipient, domain, hdomain, hcontrols⟩ := h
  refine ⟨domain, hdomain, ?_⟩
  obtain ⟨⟨local_part, value⟩, hsplit, rfl⟩ := Option.map_eq_some_iff.mp hdomain
  unfold handleProbe
  rw [hsender, hrecipient, hsplit]
  simp only [Bool.not_true, Bool.false_eq_true, if_false, hcontrols]
  cases world.resolveMx (toAsciiLowercase value) <;> rfl

theorem handleProbe_not_admitted
    (h : ¬ ProbeAdmitted envelope_from recipient control_recipients) :
    (handleProbe cfg world helo_name envelope_from recipient control_recipients opts).2 = [] := by
  unfold handleProbe
  split
  · rfl
  · rename_i hsender
    split
    · rfl
    · rename_i hrecipient
      split
      · rfl
      · rename_i local_part value hsplit
        dsimp only
        split
        · rfl
        · rename_i hcontrols
          refine absurd ⟨by simpa using hsender, by simpa using hrecipient, _, ?_, hcontrols⟩ h
          rw [domainOf, hsplit]
          rfl

theorem mem_handleProbe {d : SmtpDelivery}
    (h : d ∈ (handleProbe cfg world helo_name envelope_from recipient control_recipients opts).2) :
    ProbeAdmitted envelope_from recipient control_recipients ∧
      Submission.Probes ⟨cfg, world, helo_name, envelope_from, [], opts⟩
        (recipient :: control_recipients) d := by
  by_cases hadmitted : ProbeAdmitted envelope_from recipient control_recipients
  · refine ⟨hadmitted, ?_⟩
    obtain ⟨domain, -, hcalls⟩ :=
      @handleProbe_calls cfg world helo_name _ _ _ opts hadmitted
    rw [hcalls] at h
    split at h
    · cases h
    · exact probeMxs_probes (fun _ hrcpt => hrcpt) _ _ (fun d hd => by cases hd) d h
  · rw [handleProbe_not_admitted hadmitted] at h
    cases h

end Handlers

/-! ## Injection -/

/-- The sessions a handler opens for a frame, on an edge with its own HELO name. -/
def frameSessions (cfg : EdgeConfig) (own_helo : String) (world : World) :
    Frame → List SmtpDelivery
  | .relay req =>
    (handleRelay cfg world (req.opts.helo_name.getD own_helo) req.envelope_from req.recipients
      req.raw_message req.opts).2
  | .probe req =>
    (handleProbe cfg world (req.opts.helo_name.getD own_helo) req.envelope_from req.recipient
      req.control_recipients req.opts).2
  | _ => []

/-- Whatever the resolver answers and the hosts do, every command line is one line. -/
def NoInjection (cfg : EdgeConfig) (own_helo : String) (frame : Frame) : Prop :=
  ∀ (resolveMx : String → Except String (List MxRecord)) (net : Net) (n : Nat) (d : SmtpDelivery),
    (frameSessions cfg own_helo (.ofNet resolveMx net) frame)[n]? = some d →
    ∀ (secure : Bool) (c : Command) (answer : Except String Reply),
      .command secure c answer ∈ (net.session
        ((frameSessions cfg own_helo (.ofNet resolveMx net) frame).take n) d).2 → OneLine c.octets

/-- The HELO name of the frame's sessions is unbroken, or there are no sessions: the frame
is refused, or a Relay has no port it may use. -/
def Harmless (cfg : EdgeConfig) (own_helo : String) : Frame → Prop
  | .relay req => Unbroken (req.opts.helo_name.getD own_helo).toList ∨
      rejectRelay cfg req.envelope_from req.recipients req.raw_message ≠ none ∨
      25 ∉ cfg.allowed_smtp_ports
  | .probe req => Unbroken (req.opts.helo_name.getD own_helo).toList ∨
      ¬ ProbeAdmitted req.envelope_from req.recipient req.control_recipients
  | _ => True

/-- A session of a frame under an unbroken HELO name. -/
theorem session_lined {cfg : EdgeConfig} {own_helo : String} {world : World} {frame : Frame}
    {d : SmtpDelivery} (hharmless : Harmless cfg own_helo frame)
    (h : d ∈ frameSessions cfg own_helo world frame) (peer : Peer) :
    ∀ e ∈ (peer.deliver d []).2, e.Lined := by
  suffices hemits : Talk.Emits SmtpClient.Event.Lined (peer.deliver d) from Talk.Gives.run hemits
  cases frame with
  | relay req =>
    obtain ⟨haccepted, domain, mxs, mx, group_rcpts, -, -, hport, rfl, hgroup⟩ := mem_handleRelay h
    obtain ⟨hsender, -, hvalid⟩ := rejectRelay_eq_none haccepted
    have hhelo := hharmless.resolve_right fun hrefused =>
      hrefused.elim (fun hreject => hreject haccepted) fun hnone => hnone hport
    exact peer.deliver_lined _ hhelo (unbroken_of_isValidMailboxOrEmpty hsender)
      fun rcpt hrcpt => unbroken_of_isValidMailbox (hvalid rcpt (hgroup rcpt hrcpt).1)
  | probe req =>
    obtain ⟨hadmitted, mx, probe_sender, rcpt, rfl, hsender, hrcpt⟩ := mem_handleProbe h
    have hhelo := hharmless.resolve_right fun hrefused => hrefused hadmitted
    obtain ⟨hfrom, hrecipient, domain, -, hcontrols⟩ := hadmitted
    refine peer.deliver_lined _ hhelo ?_ fun r hr => ?_
    · rcases hsender with rfl | rfl
      · exact unbroken_of_isValidMailboxOrEmpty hfrom
      · exact (by decide : Unbroken "".toList)
    · obtain rfl : r = rcpt := List.mem_singleton.mp hr
      refine unbroken_of_isValidMailbox ?_
      rcases List.mem_cons.mp hrcpt with rfl | hcontrol
      · exact hrecipient
      · exact rejectControls_eq_none hcontrols r hcontrol
  | _ => cases h

/-- With a host that hangs up a probe ends after its first session. -/
theorem probeMxs_hangUp (sub : Submission)
    (hdeliver : ∀ calls d, sub.world.deliver calls d = .error "closed") (recipient : String)
    (control_recipients : List String) (mx : MxRecord) (last_reason : String) :
    (probeMxs sub recipient control_recipients [mx] [] last_reason).2 =
      [sub.probe mx sub.envelope_from (control_recipients.head?.getD recipient)] := by
  have hsingle : ∀ rcpt calls, probeSingle sub mx sub.envelope_from rcpt calls =
      (calls ++ [sub.probe mx sub.envelope_from rcpt], .unreachable "closed") := by
    intro rcpt calls
    simp [probeSingle, hdeliver]
  cases control_recipients with
  | nil => simp [probeMxs, probeSender, probeTarget, hsingle]
  | cons control rest => simp [probeMxs, probeSender, hsingle]

/-- A host that hangs up has the EHLO line before. -/
theorem NoInjection.unbroken_helo {cfg : EdgeConfig} {own_helo : String} {frame : Frame}
    (h : NoInjection cfg own_helo frame) {resolveMx : String → Except String (List MxRecord)}
    {d : SmtpDelivery}
    (hd : d ∈ frameSessions cfg own_helo (.ofNet resolveMx fun _ _ => hangUp) frame) :
    Unbroken d.helo_name.toList := by
  obtain ⟨n, hn⟩ := List.mem_iff_getElem?.mp hd
  have hline := h resolveMx (fun _ _ => hangUp) n d hn false (.ehlo d.helo_name) (.error "closed")
    (by rw [Net.session, hangUp_deliver]; simp)
  exact (Command.ehlo d.helo_name).oneLine_iff.mp hline

/-- One MX for every domain, and it hangs up. -/
def World.hangUp : World := .ofNet (fun _ => .ok [⟨"mx", 10⟩]) fun _ _ => SmtpClient.hangUp

theorem relay_session {cfg : EdgeConfig} {req : RelayRequest} (own_helo : String)
    (haccepted : rejectRelay cfg req.envelope_from req.recipients req.raw_message = none)
    (hport : 25 ∈ cfg.allowed_smtp_ports) :
    ∃ d ∈ frameSessions cfg own_helo .hangUp (.relay req),
      d.helo_name = req.opts.helo_name.getD own_helo := by
  obtain ⟨-, hsome, hvalid⟩ := rejectRelay_eq_none haccepted
  obtain ⟨rcpt, hrcpt⟩ := List.exists_mem_of_ne_nil _ hsome
  obtain ⟨parts, hsplit⟩ := Option.ne_none_iff_exists'.mp
    (rsplitOnce_of_isValidMailbox (hvalid rcpt hrcpt))
  have hdomain : domainOf rcpt = some (toAsciiLowercase parts.2) := by
    rw [domainOf, hsplit]
    rfl
  obtain ⟨d, hd, -, hname⟩ := @handleRelay_connects cfg .hangUp
    (req.opts.helo_name.getD own_helo) _ _ req.raw_message req.opts rcpt _ ⟨"mx", 10⟩ []
    haccepted hport hrcpt hdomain rfl
  exact ⟨d, hd, hname⟩

theorem probe_session {cfg : EdgeConfig} {req : ProbeRequest} (own_helo : String)
    (h : ProbeAdmitted req.envelope_from req.recipient req.control_recipients) :
    ∃ d ∈ frameSessions cfg own_helo .hangUp (.probe req),
      d.helo_name = req.opts.helo_name.getD own_helo := by
  obtain ⟨domain, -, hcalls⟩ :=
    @handleProbe_calls cfg .hangUp (req.opts.helo_name.getD own_helo) _ _ _ req.opts h
  have hsessions := hcalls.trans (probeMxs_hangUp _ (fun _ _ => rfl) req.recipient
    req.control_recipients ⟨"mx", 10⟩ "no reachable MX")
  rw [frameSessions, hsessions]
  exact ⟨_, List.mem_singleton_self _, rfl⟩

/-- A frame that is not harmless has a session under a name with CR or LF. -/
theorem exists_broken_session {cfg : EdgeConfig} {own_helo : String} {frame : Frame}
    (h : ¬ Harmless cfg own_helo frame) :
    ∃ d ∈ frameSessions cfg own_helo .hangUp frame, ¬ Unbroken d.helo_name.toList := by
  cases frame with
  | relay req =>
    simp only [Harmless, not_or, not_not] at h
    obtain ⟨hhelo, haccepted, hport⟩ := h
    obtain ⟨d, hd, hname⟩ := relay_session own_helo haccepted hport
    exact ⟨d, hd, by rwa [hname]⟩
  | probe req =>
    simp only [Harmless, not_or, not_not] at h
    obtain ⟨hhelo, hadmitted⟩ := h
    obtain ⟨d, hd, hname⟩ := @probe_session cfg _ own_helo hadmitted
    exact ⟨d, hd, by rwa [hname]⟩
  | _ => exact absurd trivial h

/-- No frame injects a command exactly where the HELO name it is sent under is unbroken,
or nothing is sent. -/
theorem noInjection_iff (cfg : EdgeConfig) (own_helo : String) (frame : Frame) :
    NoInjection cfg own_helo frame ↔ Harmless cfg own_helo frame := by
  constructor
  · intro h
    by_contra hharm
    obtain ⟨d, hd, hbroken⟩ := exists_broken_session hharm
    exact hbroken (h.unbroken_helo hd)
  · intro hharmless resolveMx net n d hn secure c answer he
    exact session_lined hharmless (List.mem_of_getElem? hn) _ _ he

/-- A Relay that the edge takes, and under whose HELO name a second command follows EHLO. -/
theorem helo_injects :
    let req : RelayRequest :=
      ⟨1, "", ["a@b.org"], [], { RelayOpts.default with helo_name := some "x\r\nRSET" }⟩
    rejectRelay .default req.envelope_from req.recipients req.raw_message = none ∧
      (Command.ehlo "x\r\nRSET").line = "EHLO x\r\nRSET\r\n" ∧
      ¬ NoInjection .default "edge.org" (.relay req) := by
  intro req
  have haccepted : rejectRelay .default req.envelope_from req.recipients req.raw_message = none := by
    decide +kernel
  refine ⟨haccepted, rfl, fun h => ?_⟩
  obtain ⟨d, hd, hname⟩ := relay_session "edge.org" haccepted (by decide)
  have hunbroken := h.unbroken_helo hd
  rw [hname] at hunbroken
  exact absurd hunbroken (by decide)

end MailCue.Tunnel.Edge
