import MailCue.Backend.Emails.EdgeProbe
import MailCue.Backend.Emails.RcptParity

/-!
# The two paths of a mailbox probe

One host answers the same recipients to the backend and to an edge. Where every
answer that counts is read alike, the tunnel gives the direct verdict or none.
-/
namespace MailCue.Backend.Emails
open MailCue.Lib MailCue.Tunnel.Proto MailCue.Tunnel.Edge

/-! ## The verdict of the readings -/

/-- The mailbox verdict and the catch-all verdict. -/
abbrev Verdicts := Option Bool × Option Bool

def EmailValidationMailbox.verdicts (m : EmailValidationMailbox) : Verdicts :=
  (m.is_valid, m.catch_all)

/-- What the controls say about accepting everything, if they settle it. -/
def controlsVerdict (statuses : List ProbeStatus) : Option Bool :=
  if statuses = [] then none
  else if statuses.countP (· = .accepted) = statuses.length then some true
  else if statuses.countP (· = .rejected) > 0 ∧
      (statuses.head?.any (· = .accepted) && (statuses.drop 1).any (· = .rejected)) = false then
    some false
  else none

theorem controlsVerdict_true_iff (statuses : List ProbeStatus) :
    controlsVerdict statuses = some true ↔ statuses ≠ [] ∧ ∀ s ∈ statuses, s = .accepted := by
  unfold controlsVerdict
  cases statuses with
  | nil => simp
  | cons first rest =>
    simp only [List.countP_eq_length, reduceCtorEq, if_false, decide_eq_true_eq]
    grind

/-- A control was rejected, and not after the first had been accepted. -/
theorem controlsVerdict_false_iff (statuses : List ProbeStatus) :
    controlsVerdict statuses = some false ↔
      .rejected ∈ statuses ∧ statuses.head? ≠ some .accepted := by
  unfold controlsVerdict
  cases statuses with
  | nil => simp
  | cons first rest =>
    simp only [List.countP_eq_length, reduceCtorEq, if_false, decide_eq_true_eq, gt_iff_lt,
      List.countP_pos_iff]
    cases first <;> simp
    grind

/-- The direct verdict: an accepted target is valid, whatever the controls say. -/
def directVerdicts : Option ProbeStatus → List ProbeStatus → Verdicts
  | some .accepted, statuses => (some true, controlsVerdict statuses)
  | some .rejected, _ => (some false, some false)
  | _, _ => (none, none)

/-- The tunnel's verdict: an accepted target is valid where the controls settle. -/
def tunnelVerdicts : ProbeStatus → List ProbeStatus → Verdicts
  | .accepted, statuses =>
    match controlsVerdict statuses with
    | some catch_all => (some true, some catch_all)
    | none => (none, none)
  | .rejected, _ => (some false, some false)
  | .unknown, _ => (none, none)

/-! ## The tunnel -/

theorem validateMailboxViaTunnel_verdicts (py : PyText) (int : Text → Option Int)
    (float : Text → Option Nat) (target : ProbeOutcome) (controls : List ProbeOutcome) :
    (validateMailboxViaTunnel py int float
        (Tunnel.Sidecar.probeReply target controls)).verdicts =
      tunnelVerdicts target.status (controls.map (·.status)) := by
  have hcount : ∀ status, Tunnel.Sidecar.countStatus status controls =
      (controls.map (·.status)).countP (· = status) := by
    intro status
    simp [Tunnel.Sidecar.countStatus, List.countP_map, Function.comp_def]
  have hdegraded : (Tunnel.Sidecar.summariseControls controls).degraded =
      ((controls.map (·.status)).head?.any (· = .accepted) &&
        ((controls.map (·.status)).drop 1).any (· = .rejected)) := by
    cases controls <;> simp [Tunnel.Sidecar.summariseControls, Function.comp_def]
  unfold Tunnel.Sidecar.probeReply Tunnel.Sidecar.probeSmtpReply tunnelVerdicts
  cases target.status with
  | rejected => rfl
  | unknown => rfl
  | accepted =>
    simp only [hdegraded, controlsVerdict]
    simp only [Tunnel.Sidecar.summariseControls, hcount]
    cases controls with
    | nil => rfl
    | cons first rest =>
      simp only [List.map_cons, List.length_cons, List.length_map, Nat.add_one_ne_zero, if_false,
        reduceCtorEq]
      split
      · rfl
      · split
        · rfl
        · rfl

/-! ## Direct -/

/-- The backend's verdicts, as readings. -/
def readVerdict : RcptVerdict → ProbeStatus
  | .mailbox_present => .accepted
  | .mailbox_absent => .rejected
  | _ => .unknown

def ProbeAttempt.status (a : ProbeAttempt) : ProbeStatus := readVerdict a.classification.verdict

theorem isPresent_eq (a : ProbeAttempt) :
    a.classification.isPresent = decide (a.status = .accepted) := by
  unfold RcptClassification.isPresent ProbeAttempt.status
  cases a.classification.verdict <;> rfl

theorem isAbsent_eq (a : ProbeAttempt) :
    a.classification.isAbsent = decide (a.status = .rejected) := by
  unfold RcptClassification.isAbsent ProbeAttempt.status
  cases a.classification.verdict <;> rfl

/-- What a session with an accepted target was told of its order. -/
def ProbeSession.Ordered (session : ProbeSession) : Prop :=
  session.target.map ProbeAttempt.status = some .accepted →
    session.order_degraded = (session.controls.head?.any (·.classification.isPresent) &&
      (session.controls.drop 1).any (·.classification.isAbsent))

theorem catchAll_present (session : ProbeSession)
    (hdegraded : session.order_degraded =
      (session.controls.head?.any (·.classification.isPresent) &&
        (session.controls.drop 1).any (·.classification.isAbsent))) :
    session.catchAll .mailbox_present =
      controlsVerdict (session.controls.map ProbeAttempt.status) := by
  unfold ProbeSession.catchAll ProbeSession.accepted ProbeSession.rejected controlsVerdict
  rw [hdegraded]
  simp only [isPresent_eq, isAbsent_eq, List.countP_map, Function.comp_def]
  cases session.controls with
  | nil => rfl
  | cons first rest =>
    simp only [List.isEmpty_cons, Bool.false_eq_true, ne_eq, not_true_eq_false, or_self, if_false,
      reduceCtorEq, List.map_cons, List.length_cons, List.length_map, List.head?_cons,
      Option.any_some, List.drop_one, List.tail_cons, List.any_map, Function.comp_def]
    grind

theorem mailboxFromSession_verdicts (median : List Nat → Nat) (session : ProbeSession)
    (transport : String) (matched_host : Option String) (h : session.Ordered) :
    (mailboxFromSession median session transport matched_host).verdicts =
      directVerdicts (session.target.map ProbeAttempt.status)
        (session.controls.map ProbeAttempt.status) := by
  cases htarget : session.target with
  | none =>
    simp only [mailboxFromSession, htarget]
    rfl
  | some target =>
    unfold ProbeSession.Ordered at h
    rw [htarget] at h
    simp only [mailboxFromSession, htarget, EmailValidationMailbox.verdicts, Option.map_some,
      ProbeAttempt.status] at h ⊢
    cases hverdict : target.classification.verdict with
    | mailbox_present =>
      rw [hverdict] at h
      exact congrArg (Prod.mk (some true)) (catchAll_present session (h rfl))
    | mailbox_absent => rfl
    | temporary => simp [readVerdict, directVerdicts, ProbeSession.catchAll]
    | policy => simp [readVerdict, directVerdicts, ProbeSession.catchAll]
    | unknown => simp [readVerdict, directVerdicts, ProbeSession.catchAll]

section
variable (py : PyText) (provider : Option MxProvider) (answer : String → Option RcptReply)

def directReading (reply : RcptReply) : ProbeStatus :=
  readVerdict (classifyRcptResponse py (some reply.code.toNat) (some reply.text.toList)
    provider).verdict

theorem rcptProbe_status (label recipient : String) :
    (rcptProbe py provider answer label recipient).map ProbeAttempt.status =
      (answer recipient).map (directReading py provider) := by
  unfold rcptProbe
  rw [Option.map_map]
  rfl

theorem probeTrailing_status (domain : String) (controls : List String) : ∀ offset,
    (probeTrailing py provider answer domain offset controls).map ProbeAttempt.status =
      (seen (fun r => (answer r).map (directReading py provider))
        (controls.map (controlAddress domain))).1 := by
  induction controls with
  | nil => exact fun _ => rfl
  | cons control rest ih =>
    intro offset
    have hstatus := rcptProbe_status py provider answer s!"control_{offset}"
      (controlAddress domain control)
    rw [probeTrailing, List.map_cons, seen]
    cases hanswer : rcptProbe py provider answer s!"control_{offset}" (controlAddress domain control) with
    | none =>
      rw [hanswer] at hstatus
      rw [← hstatus]
      rfl
    | some attempt =>
      rw [hanswer] at hstatus
      rw [← hstatus]
      simp only [Option.map_some, List.map_cons, ih]

/-- The session reads the target, and all that was seen of the controls behind an
accepted one. -/
theorem runProbeSession_status (target_email domain : String) (controls : List String) :
    let session := runProbeSession py provider answer target_email domain controls
    let read := fun r => (answer r).map (directReading py provider)
    session.Ordered ∧ session.target.map ProbeAttempt.status = read target_email ∧
      (read target_email = some .accepted →
        controls.head?.map (read ∘ controlAddress domain) ≠ some none →
        session.controls.map ProbeAttempt.status =
          (seen read (controls.map (controlAddress domain))).1) := by
  have htarget := rcptProbe_status py provider answer "target" target_email
  unfold runProbeSession
  cases hanswer : rcptProbe py provider answer "target" target_email with
  | none =>
    rw [hanswer] at htarget
    refine ⟨by simp [ProbeSession.Ordered], htarget, fun haccepted => ?_⟩
    cases htarget.trans haccepted
  | some target =>
    rw [hanswer] at htarget
    by_cases hverdict : target.classification.verdict = .mailbox_present
    · simp only [hverdict, ne_eq, not_true_eq_false, if_false]
      refine ⟨fun _ => rfl, htarget, fun _ hleading => ?_⟩
      cases controls with
      | nil => rfl
      | cons control rest =>
        have hfirst := rcptProbe_status py provider answer "control_0"
          (controlAddress domain control)
        have hlater := probeTrailing_status py provider answer domain rest 1
        cases hcontrol : rcptProbe py provider answer "control_0" (controlAddress domain control) with
        | none =>
          refine absurd ?_ hleading
          rw [hcontrol] at hfirst
          simp [← hfirst]
        | some attempt =>
          rw [hcontrol] at hfirst
          simp only [List.take_succ_cons, List.take_zero, List.filterMap_cons, List.filterMap_nil,
            hcontrol, List.map_cons, List.drop_one, List.tail_cons, hlater, seen, ← hfirst,
            Option.map_some, List.singleton_append]
    · have hstatus : target.status ≠ .accepted := by
        intro haccepted
        apply hverdict
        have hpresent := isPresent_eq target
        simpa [haccepted, RcptClassification.isPresent] using hpresent
      simp only [hverdict, ne_eq, not_false_eq_true, if_true]
      refine ⟨fun haccepted => ?_, htarget, fun haccepted => ?_⟩
      · exact absurd (Option.some.inj haccepted) hstatus
      · exact absurd (Option.some.inj (htarget.trans haccepted)) hstatus

end

/-! ## Both paths -/

theorem seen_congr {read read' : String → Option ProbeStatus} (recipients : List String)
    (h : ∀ r ∈ recipients, read r = read' r) : seen read recipients = seen read' recipients := by
  induction recipients with
  | nil => rfl
  | cons recipient rest ih =>
    rw [seen, seen, h recipient (List.mem_cons_self ..),
      ih fun r hr => h r (List.mem_cons_of_mem _ hr)]

/-- Nothing seen of controls whose first was answered: there are none. -/
theorem seen_complete {read : String → Option ProbeStatus} {recipients : List String}
    (hleading : recipients.head?.map read ≠ some none) (h : (seen read recipients).1 = []) :
    (seen read recipients).2 = true := by
  cases recipients with
  | nil => rfl
  | cons recipient rest =>
    rw [seen] at h ⊢
    cases hread : read recipient with
    | none => simp [hread] at hleading
    | some status => simp [hread] at h

/-- The edge closes controls it had to cut with one that is not known. -/
def closed (controls : List ProbeStatus × Bool) : List ProbeStatus :=
  controls.1 ++ if controls.2 then [] else [.unknown]

theorem controlsVerdict_closed_true_iff (controls : List ProbeStatus × Bool) :
    controlsVerdict (closed controls) = some true ↔
      controls.1 ≠ [] ∧ controls.2 = true ∧ ∀ s ∈ controls.1, s = .accepted := by
  rw [controlsVerdict_true_iff]
  unfold closed
  cases controls.2 <;> simp

theorem controlsVerdict_closed_false_iff (controls : List ProbeStatus × Bool)
    (hcut : controls.1 = [] → controls.2 = true) :
    controlsVerdict (closed controls) = some false ↔
      .rejected ∈ controls.1 ∧ controls.1.head? ≠ some .accepted := by
  rw [controlsVerdict_false_iff]
  unfold closed
  cases hstatuses : controls.1 with
  | nil => simp [hcut hstatuses]
  | cons first rest => cases controls.2 <;> simp

/-- One target and its controls, answered by one host, and what surrounds the probe. -/
structure ProbeRun where
  answer : String → Option RcptReply
  target_email : String
  domain : String
  controls : List String
  mx : MxRecord
  sender_email : String
  py : PyText
  provider : Option MxProvider := none
  matched_host : Option String := none
  median : List Nat → Nat
  int : Text → Option Int
  float : Text → Option Nat
  cfg : EdgeConfig := .default
  helo_name : String := "edge"
  opts : RelayOpts
  refusal : String := ""

namespace ProbeRun
variable (p : ProbeRun)

def addresses : List String := p.controls.map (controlAddress p.domain)

def direct : EmailValidationMailbox :=
  mailboxFromSession p.median
    (runProbeSession p.py p.provider p.answer p.target_email p.domain p.controls) "direct"
    p.matched_host

def submission : Submission :=
  ⟨p.cfg, hostWorld p.mx p.refusal p.answer, p.helo_name, p.sender_email, [], p.opts⟩

def tunnel : EmailValidationMailbox :=
  let out := (probeMxs p.submission p.target_email p.addresses [p.mx] [] "no reachable MX").1
  validateMailboxViaTunnel p.py p.int p.float (Tunnel.Sidecar.probeReply out.1 out.2)

def directRead (recipient : String) : Option ProbeStatus :=
  (p.answer recipient).map (directReading p.py p.provider)

def edgeRead (recipient : String) : Option ProbeStatus :=
  (p.answer recipient).map (edgeReading p.mx)

/-- Both classifiers read the target's answer alike and, where it is accepted, the
answers to the controls. -/
def ReadAlike : Prop :=
  p.directRead p.target_email = p.edgeRead p.target_email ∧
    (p.edgeRead p.target_email = some .accepted →
      ∀ control ∈ p.addresses, p.directRead control = p.edgeRead control)

/-- The host answered the first control, if there is one. -/
def LeadingAnswered : Prop :=
  p.addresses.head?.all (fun control => (p.answer control).isSome) = true

instance : Decidable p.LeadingAnswered := inferInstanceAs (Decidable (_ = _))

/-- The controls settle whether the host accepts everything: all were answered and
accepted, or one was rejected and the first one was not accepted. -/
def Settled : Prop :=
  let controls := seen p.edgeRead p.addresses
  (controls.1 ≠ [] ∧ controls.2 = true ∧ ∀ s ∈ controls.1, s = .accepted) ∨
    (.rejected ∈ controls.1 ∧ controls.1.head? ≠ some .accepted)

instance : Decidable p.Settled := inferInstanceAs (Decidable (_ ∨ _))

theorem direct_verdicts :
    p.direct.verdicts = directVerdicts (p.directRead p.target_email)
      ((runProbeSession p.py p.provider p.answer p.target_email p.domain p.controls).controls.map
        ProbeAttempt.status) := by
  obtain ⟨hordered, htarget, -⟩ :=
    runProbeSession_status p.py p.provider p.answer p.target_email p.domain p.controls
  unfold direct
  rw [mailboxFromSession_verdicts _ _ _ _ hordered, htarget]
  rfl

theorem tunnel_verdicts :
    p.tunnel.verdicts =
      let out := (reported p.edgeRead p.target_email p.addresses).getD (.unknown, [])
      tunnelVerdicts out.1 out.2 := by
  have hhost := probeMxs_host p.submission p.mx p.refusal p.answer p.target_email p.addresses rfl
  unfold tunnel
  rw [validateMailboxViaTunnel_verdicts]
  simp only [Prod.ext_iff] at hhost
  rw [hhost.1, hhost.2]
  rfl

theorem leadingAnswered_iff :
    p.LeadingAnswered ↔ p.addresses.head?.map p.edgeRead ≠ some none := by
  unfold LeadingAnswered edgeRead
  cases p.addresses.head? with
  | none => simp
  | some control => cases hanswer : p.answer control <;> simp [hanswer]

/-- An accepted target: the direct path has it valid, the tunnel where the controls
settle, and then with the same catch-all verdict. -/
theorem accepted_verdicts (halike : p.ReadAlike)
    (htarget : p.edgeRead p.target_email = some .accepted) (hleading : p.LeadingAnswered) :
    (p.Settled → p.tunnel.verdicts = p.direct.verdicts) ∧
      (¬ p.Settled → p.tunnel.verdicts = (none, none)) := by
  have hhead := p.leadingAnswered_iff.mp hleading
  have hread : p.directRead p.target_email = some .accepted := halike.1.trans htarget
  have hseen : seen p.directRead p.addresses = seen p.edgeRead p.addresses :=
    seen_congr _ (halike.2 htarget)
  have hcontrols : (runProbeSession p.py p.provider p.answer p.target_email p.domain
      p.controls).controls.map ProbeAttempt.status = (seen p.edgeRead p.addresses).1 := by
    rw [← hseen]
    refine (runProbeSession_status p.py p.provider p.answer p.target_email p.domain
      p.controls).2.2 hread fun hnone => ?_
    apply hhead
    unfold addresses edgeRead
    rw [List.head?_map]
    cases hcontrol : p.controls.head? with
    | none => simp [hcontrol] at hnone
    | some control => simpa [hcontrol] using hnone
  have hreported : reported p.edgeRead p.target_email p.addresses =
      some (.accepted, closed (seen p.edgeRead p.addresses)) := by
    unfold reported
    rw [if_neg hhead, htarget]
    rfl
  have hclosed := controlsVerdict_closed_false_iff (seen p.edgeRead p.addresses)
    (seen_complete hhead)
  rw [p.direct_verdicts, p.tunnel_verdicts, hreported, hread, hcontrols]
  simp only [Option.getD_some, tunnelVerdicts, directVerdicts]
  constructor
  · rintro (hall | hsome)
    · have hopen := (controlsVerdict_true_iff _).mpr ⟨hall.1, hall.2.2⟩
      rw [(controlsVerdict_closed_true_iff _).mpr hall, hopen]
    · have hopen := (controlsVerdict_false_iff _).mpr hsome
      rw [hclosed.mpr hsome, hopen]
  · intro hsettled
    cases hverdict : controlsVerdict (closed (seen p.edgeRead p.addresses)) with
    | none => rfl
    | some catch_all =>
      refine absurd ?_ hsettled
      cases catch_all with
      | true => exact .inl ((controlsVerdict_closed_true_iff _).mp hverdict)
      | false => exact .inr (hclosed.mp hverdict)

theorem direct_accepted (halike : p.ReadAlike)
    (htarget : p.edgeRead p.target_email = some .accepted) : p.direct.is_valid = some true := by
  have hverdicts := p.direct_verdicts
  rw [halike.1.trans htarget] at hverdicts
  exact congrArg Prod.fst hverdicts

theorem tunnel_unanswered (hleading : ¬ p.LeadingAnswered) : p.tunnel.verdicts = (none, none) := by
  have hhead := (not_congr p.leadingAnswered_iff).mp hleading
  rw [p.tunnel_verdicts, reported, if_pos (not_not.mp hhead)]
  rfl

/-- For answers that are read alike the tunnel gives the direct verdicts or none, and
which of the two is settled by the answers. -/
theorem tunnel_verdicts_iff (halike : p.ReadAlike) :
    (p.tunnel.verdicts = p.direct.verdicts ∨ p.tunnel.verdicts = (none, none)) ∧
      (p.tunnel.verdicts = p.direct.verdicts ↔
        p.edgeRead p.target_email = none ∨ p.edgeRead p.target_email = some .unknown ∨
          (p.LeadingAnswered ∧
            (p.edgeRead p.target_email = some .rejected ∨ p.Settled))) := by
  have hdirect := p.direct_verdicts
  rw [halike.1] at hdirect
  by_cases hleading : p.LeadingAnswered
  · have hhead := p.leadingAnswered_iff.mp hleading
    have htunnel := p.tunnel_verdicts
    unfold reported at htunnel
    rw [if_neg hhead] at htunnel
    cases htarget : p.edgeRead p.target_email with
    | none =>
      rw [htarget] at hdirect htunnel
      rw [hdirect, htunnel]
      simp [directVerdicts, tunnelVerdicts]
    | some status =>
      rw [htarget] at hdirect htunnel
      cases status with
      | unknown =>
        rw [hdirect, htunnel]
        simp [directVerdicts, tunnelVerdicts]
      | rejected =>
        rw [hdirect, htunnel]
        simp [directVerdicts, tunnelVerdicts, hleading]
      | accepted =>
        obtain ⟨hsettled, hopen⟩ := p.accepted_verdicts halike htarget hleading
        have hvalid : p.direct.verdicts.1 = some true := p.direct_accepted halike htarget
        by_cases hs : p.Settled
        · simp [hsettled hs, hs, hleading]
        · rw [hopen hs]
          refine ⟨.inr rfl, ⟨fun heq => ?_, by simp [hs]⟩⟩
          rw [← heq] at hvalid
          cases hvalid
  · rw [p.tunnel_unanswered hleading]
    refine ⟨.inr rfl, ?_⟩
    rw [hdirect]
    cases htarget : p.edgeRead p.target_email with
    | none => simp [directVerdicts]
    | some status => cases status <;> simp [directVerdicts, hleading]

/-- Two controls at a small host; numbers are read digit by digit. -/
def small (answer : String → Option RcptReply) : ProbeRun where
  answer := answer
  target_email := "ada@b.example"
  domain := "b.example"
  controls := ["x1", "x2"]
  mx := ⟨"mx.b.example", 10⟩
  sender_email := "probe@c.example"
  py := .asciiOnly
  median latencies := latencies.getD (latencies.length / 2) 0
  int text := some (text.foldl (fun n c => 10 * n + (c.toNat - 48)) 0)
  float text := some (100 * text.foldl (fun n c => 10 * n + (c.toNat - 48)) 0)
  opts := ⟨none, false, 0⟩

theorem tunnel_verdicts_accept_all :
    (small fun _ => some ⟨250, "OK", 1000⟩).tunnel.verdicts =
      (small fun _ => some ⟨250, "OK", 1000⟩).direct.verdicts :=
  ((small fun _ => some ⟨250, "OK", 1000⟩).tunnel_verdicts_iff
    ⟨by decide, fun _ => by decide⟩).2.mpr (.inr (.inr ⟨by decide, .inr (by decide)⟩))

/-- An accepted target whose controls are put off, a rejected target whose first
control gets no answer, and an answer only the backend takes for proof. -/
theorem paths_part :
    (small fun r => some (if r = "ada@b.example" then ⟨250, "OK", 1000⟩
        else ⟨451, "4.7.1 Try later", 1000⟩)).tunnel.verdicts = (none, none) ∧
      (small fun r => some (if r = "ada@b.example" then ⟨250, "OK", 1000⟩
        else ⟨451, "4.7.1 Try later", 1000⟩)).direct.verdicts = (some true, none) ∧
      (small fun r => if r = "ada@b.example" then some ⟨550, "5.1.1 User unknown", 1000⟩
        else none).tunnel.verdicts = (none, none) ∧
      (small fun r => if r = "ada@b.example" then some ⟨550, "5.1.1 User unknown", 1000⟩
        else none).direct.verdicts = (some false, some false) ∧
      (small fun _ => some ⟨550, "No such address", 1000⟩).tunnel.verdicts = (none, none) ∧
      (small fun _ => some ⟨550, "No such address", 1000⟩).direct.verdicts =
        (some false, some false) := by
  decide +kernel

end ProbeRun

end MailCue.Backend.Emails
