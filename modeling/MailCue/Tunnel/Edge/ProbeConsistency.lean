import MailCue.Tunnel.Edge.Relay

/-!
# One server for all of a probe

tunnel/crates/edge/src/relay.rs, `handle_probe`: a verdict compares what one
server says of the target with what it says of the controls, so the outcomes
returned are read in consecutive sessions with one MX under one sender. What an
earlier pair of MX and sender said is dropped when the next one is tried.
-/
namespace MailCue.Tunnel.Edge
open MailCue.Lib MailCue.Tunnel.Proto

/-! ## Readings -/

/-- What is recorded of an attempt at one recipient. -/
def ProbeAttemptResult.outcome (mx : MxRecord) : ProbeAttemptResult → ProbeOutcome
  | .reached outcome => outcome
  | .senderRejected reason => unknownProbe mx.host reason
  | .unreachable reason => unknownProbe mx.host reason

/-- The outcomes of sessions with one MX under one sender, held one after the
other behind the sessions given. -/
def Submission.readings (sub : Submission) (mx : MxRecord) (probe_sender : String) :
    List String → List SmtpDelivery → List ProbeOutcome
  | [], _ => []
  | recipient :: rest, calls =>
    let attempt := probeSingle sub mx probe_sender recipient calls
    attempt.2.outcome mx :: sub.readings mx probe_sender rest attempt.1

/-- The first control, the target, the other controls. -/
def aroundTarget {α : Type} (target : α) (controls : List α) : List α :=
  controls.take 1 ++ target :: controls.drop 1

theorem probeSingle_calls (sub : Submission) (mx : MxRecord) (probe_sender recipient : String)
    (calls : List SmtpDelivery) :
    (probeSingle sub mx probe_sender recipient calls).1 =
      calls ++ [sub.probe mx probe_sender recipient] := rfl

theorem probeOutcome_mx (mx : String) (status : RelayStatus) (latency_ms : UInt32) :
    (probeOutcome mx status latency_ms).mx = mx := by
  cases status <;> rfl

/-- Whatever comes of an attempt is recorded under the host it was made at. -/
theorem probeSingle_mx (sub : Submission) (mx : MxRecord) (probe_sender recipient : String)
    (calls : List SmtpDelivery) :
    ((probeSingle sub mx probe_sender recipient calls).2.outcome mx).mx = mx.host := by
  simp only [probeSingle]
  split
  · next outcomes hreached =>
    cases outcomes with
    | nil => rfl
    | cons o rest => exact probeOutcome_mx mx.host o.status o.latency_ms
  · split <;> rfl
  · rfl

theorem readings_mx (sub : Submission) (mx : MxRecord) (probe_sender : String) :
    ∀ (rcpts : List String) (calls : List SmtpDelivery),
      ∀ o ∈ sub.readings mx probe_sender rcpts calls, o.mx = mx.host
  | [], _, o, ho => by cases ho
  | recipient :: rest, calls, o, ho => by
    rcases List.mem_cons.mp ho with rfl | ho
    · exact probeSingle_mx sub mx probe_sender recipient calls
    · exact readings_mx sub mx probe_sender rest _ o ho

/-! ## One pair of MX and sender -/

/-- Some of the controls behind the first are asked, in their order, and what
is added are the readings of their sessions. -/
theorem probeControls_spec (sub : Submission) (mx : MxRecord) (probe_sender : String) :
    ∀ (rest : List String) (calls : List SmtpDelivery) (controls : List ProbeOutcome),
      ∃ added : List ProbeOutcome, added.length ≤ rest.length ∧
        probeControls sub mx probe_sender rest calls controls =
          (calls ++ (rest.take added.length).map (sub.probe mx probe_sender), controls ++ added) ∧
        added = sub.readings mx probe_sender (rest.take added.length) calls
  | [], calls, controls => ⟨[], Nat.le_refl 0, by simp [probeControls], rfl⟩
  | control :: rest, calls, controls => by
    have hcalls := probeSingle_calls sub mx probe_sender control calls
    cases hattempt : probeSingle sub mx probe_sender control calls with
    | mk sessions attempt =>
      rw [hattempt] at hcalls
      dsimp only at hcalls
      subst hcalls
      cases attempt with
      | reached outcome =>
        obtain ⟨added, hlen, hout, hread⟩ := probeControls_spec sub mx probe_sender rest
          (calls ++ [sub.probe mx probe_sender control]) (controls ++ [outcome])
        refine ⟨outcome :: added, by simpa using hlen, ?_, ?_⟩
        · simp only [probeControls, hattempt, hout]
          simp
        · simp only [List.length_cons, List.take_succ_cons, Submission.readings, hattempt,
            ProbeAttemptResult.outcome, ← hread]
      | senderRejected reason =>
        refine ⟨[unknownProbe mx.host reason], by simp, ?_, ?_⟩
        · simp [probeControls, hattempt]
        · simp [Submission.readings, hattempt, ProbeAttemptResult.outcome]
      | unreachable reason =>
        refine ⟨[unknownProbe mx.host reason], by simp, ?_, ?_⟩
        · simp [probeControls, hattempt]
        · simp [Submission.readings, hattempt, ProbeAttemptResult.outcome]

/-- The target and the controls as read behind the sessions `before`, one
session for each and no other, all with `mx` and from `probe_sender`. -/
structure Observed (sub : Submission) (mx : MxRecord) (probe_sender recipient : String)
    (control_recipients : List String) (before calls : List SmtpDelivery)
    (target : ProbeOutcome) (controls : List ProbeOutcome) : Prop where
  within : controls.length ≤ control_recipients.length
  leading : control_recipients ≠ [] → controls ≠ []
  sessions : calls = before ++
    (aroundTarget recipient (control_recipients.take controls.length)).map
      (sub.probe mx probe_sender)
  readings : aroundTarget target controls = sub.readings mx probe_sender
    (aroundTarget recipient (control_recipients.take controls.length)) before
  early : target.status ≠ .accepted → controls.length ≤ 1

theorem Observed.one_mx {sub : Submission} {mx : MxRecord} {probe_sender recipient : String}
    {control_recipients : List String} {before calls : List SmtpDelivery} {target : ProbeOutcome}
    {controls : List ProbeOutcome} (h : Observed sub mx probe_sender recipient control_recipients
      before calls target controls) : ∀ o ∈ target :: controls, o.mx = mx.host := by
  intro o ho
  have hmem : o ∈ aroundTarget target controls := by
    rw [← List.take_append_drop 1 controls] at ho
    simpa [aroundTarget, or_left_comm] using ho
  rw [h.readings] at hmem
  exact readings_mx sub mx probe_sender _ before o hmem

/-- The target's part of a pass, behind the leading controls already read. -/
theorem probeTarget_done (sub : Submission) (mx : MxRecord) (probe_sender recipient : String)
    (control_recipients : List String) (calls after : List SmtpDelivery)
    (leading : List ProbeOutcome) (target : ProbeOutcome) (controls : List ProbeOutcome)
    (h : probeTarget sub mx probe_sender recipient control_recipients calls leading =
      (after, .done target controls)) :
    ∃ added : List ProbeOutcome, controls = leading ++ added ∧
      added.length ≤ (control_recipients.drop 1).length ∧
      after = calls ++ (recipient :: (control_recipients.drop 1).take added.length).map
        (sub.probe mx probe_sender) ∧
      target :: added = sub.readings mx probe_sender
        (recipient :: (control_recipients.drop 1).take added.length) calls ∧
      (target.status ≠ .accepted → added = []) := by
  have hcalls := probeSingle_calls sub mx probe_sender recipient calls
  unfold probeTarget at h
  cases hattempt : probeSingle sub mx probe_sender recipient calls with
  | mk sessions attempt =>
    rw [hattempt] at hcalls h
    dsimp only at hcalls
    subst hcalls
    cases attempt with
    | senderRejected reason => cases h
    | unreachable reason => cases h
    | reached outcome =>
      dsimp only at h
      split at h
      · next hunaccepted =>
        cases h
        refine ⟨[], by simp, by simp, by simp, ?_, fun _ => rfl⟩
        simp [Submission.readings, hattempt, ProbeAttemptResult.outcome]
      · next haccepted =>
        obtain ⟨added, hlen, hout, hread⟩ := probeControls_spec sub mx probe_sender
          (control_recipients.drop 1) (calls ++ [sub.probe mx probe_sender recipient]) leading
        rw [hout] at h
        cases h
        refine ⟨added, rfl, hlen, by simp, ?_, fun hnot => absurd hnot haccepted⟩
        simp only [Submission.readings, hattempt, ProbeAttemptResult.outcome, ← hread]

theorem probeSender_done (sub : Submission) (mx : MxRecord) (probe_sender recipient : String)
    (control_recipients : List String) (before after : List SmtpDelivery) (target : ProbeOutcome)
    (controls : List ProbeOutcome)
    (h : probeSender sub mx probe_sender recipient control_recipients before =
      (after, .done target controls)) :
    Observed sub mx probe_sender recipient control_recipients before after target controls := by
  unfold probeSender at h
  cases control_recipients with
  | nil =>
    obtain ⟨added, hcontrols, hlen, hafter, hread, -⟩ := probeTarget_done sub mx probe_sender
      recipient [] before after [] target controls h
    obtain rfl : added = [] := List.length_eq_zero_iff.mp (Nat.le_zero.mp (by simpa using hlen))
    subst hcontrols
    exact ⟨Nat.le_refl _, fun hne => absurd rfl hne, hafter, hread, fun _ => by simp⟩
  | cons control rest =>
    have hcalls := probeSingle_calls sub mx probe_sender control before
    dsimp only [List.head?_cons] at h
    cases hattempt : probeSingle sub mx probe_sender control before with
    | mk sessions attempt =>
      rw [hattempt] at hcalls h
      dsimp only at hcalls
      subst hcalls
      cases attempt with
      | senderRejected reason => cases h
      | unreachable reason => cases h
      | reached outcome =>
        obtain ⟨added, rfl, hlen, hafter, hread, hearly⟩ := probeTarget_done sub mx probe_sender
          recipient (control :: rest) _ after [outcome] target controls h
        refine ⟨by simpa using hlen, fun _ => by simp, ?_, ?_, fun hnot => ?_⟩
        · rw [hafter]
          simp [aroundTarget]
        · have hfirst : sub.readings mx probe_sender
              (aroundTarget recipient ((control :: rest).take ([outcome] ++ added).length)) before =
              outcome :: sub.readings mx probe_sender (recipient :: rest.take added.length)
                (before ++ [sub.probe mx probe_sender control]) := by
            simp [aroundTarget, Submission.readings, hattempt, ProbeAttemptResult.outcome]
          rw [hfirst]
          simpa [aroundTarget] using hread
        · simp [hearly hnot]

/-! ## The loops -/

/-- Either no pair of MX and sender got an answer on the target, or the result
is what one of them said. -/
theorem probeMxs_observed (sub : Submission) (recipient : String)
    (control_recipients : List String) :
    ∀ (mxs : List MxRecord) (calls : List SmtpDelivery) (last_reason : String),
      let out := probeMxs sub recipient control_recipients mxs calls last_reason
      (∃ reason, out.1 = (unknownProbe "" reason, [])) ∨
        ∃ mx ∈ mxs, ∃ probe_sender ∈ [sub.envelope_from, ""], ∃ before,
          Observed sub mx probe_sender recipient control_recipients before out.2 out.1.1 out.1.2
  | [], _, last_reason => .inl ⟨last_reason, rfl⟩
  | mx :: rest, calls, last_reason => by
    have hrest (calls : List SmtpDelivery) (reason : String) :
        let out := probeMxs sub recipient control_recipients rest calls reason
        (∃ reason, out.1 = (unknownProbe "" reason, [])) ∨
          ∃ mx' ∈ mx :: rest, ∃ probe_sender ∈ [sub.envelope_from, ""], ∃ before,
            Observed sub mx' probe_sender recipient control_recipients before out.2 out.1.1
              out.1.2 := by
      refine (probeMxs_observed sub recipient control_recipients rest calls reason).imp_right ?_
      rintro ⟨mx', hmx', hobserved⟩
      exact ⟨mx', List.mem_cons_of_mem _ hmx', hobserved⟩
    unfold probeMxs
    rcases hfirst : probeSender sub mx sub.envelope_from recipient control_recipients calls with
      ⟨after, ⟨target, controls⟩ | reason | reason⟩
    · exact .inr ⟨mx, List.mem_cons_self, _, List.mem_cons_self, calls,
        probeSender_done sub mx _ recipient control_recipients calls after target controls hfirst⟩
    · dsimp only
      split
      · exact hrest _ _
      · rcases hsecond : probeSender sub mx "" recipient control_recipients after with
          ⟨after', ⟨target, controls⟩ | reason' | reason'⟩
        · exact .inr ⟨mx, List.mem_cons_self, _, List.mem_cons_of_mem _ List.mem_cons_self, after,
            probeSender_done sub mx _ recipient control_recipients after after' target controls
              hsecond⟩
        · exact hrest _ _
        · exact hrest _ _
    · exact hrest _ _

/-! ## The handler -/

/-- A probe that is not turned away either got no answer on the target or
reports one MX under one sender: the first control, the target, then more of
the controls in their order, of which there are none where the target was not
accepted. -/
theorem handleProbe_one_server (cfg : EdgeConfig) (world : World)
    (helo_name envelope_from recipient : String) (control_recipients : List String)
    (opts : RelayOpts) (target : ProbeOutcome) (controls : List ProbeOutcome)
    (h : (handleProbe cfg world helo_name envelope_from recipient control_recipients opts).1 =
      .ok (target, controls)) :
    ∃ local_part value mxs, rsplitOnce recipient '@' = some (local_part, value) ∧
      world.resolveMx (toAsciiLowercase value) = .ok mxs ∧
      ((∃ reason, target = unknownProbe "" reason ∧ controls = []) ∨
        ∃ mx ∈ mxs, ∃ probe_sender ∈ [envelope_from, ""], ∃ before,
          Observed ⟨cfg, world, helo_name, envelope_from, [], opts⟩ mx probe_sender recipient
            control_recipients before
            (handleProbe cfg world helo_name envelope_from recipient control_recipients opts).2
            target controls ∧
          ∀ o ∈ target :: controls, o.mx = mx.host) := by
  unfold handleProbe at h ⊢
  split at h
  · cases h
  · next hsender =>
    rw [if_neg hsender]
    split at h
    · cases h
    · next hrecipient =>
      rw [if_neg hrecipient]
      cases hsplit : rsplitOnce recipient '@' with
      | none => simp [hsplit] at h
      | some parts =>
        obtain ⟨local_part, value⟩ := parts
        simp only [hsplit] at h ⊢
        cases hreject : rejectControls (toAsciiLowercase value) control_recipients with
        | some rej => simp [hreject] at h
        | none =>
          cases hresolve : world.resolveMx (toAsciiLowercase value) with
          | error e => simp [hreject, hresolve] at h
          | ok mxs =>
            simp only [hreject, hresolve, Except.ok.injEq] at h ⊢
            refine ⟨local_part, value, mxs, rfl, hresolve, ?_⟩
            have hobserved := probeMxs_observed ⟨cfg, world, helo_name, envelope_from, [], opts⟩
              recipient control_recipients mxs [] "no reachable MX"
            dsimp only at hobserved
            rw [h] at hobserved
            refine hobserved.imp ?_ ?_
            · rintro ⟨reason, heq⟩
              cases heq
              exact ⟨reason, rfl, rfl⟩
            · rintro ⟨mx, hmx, probe_sender, hprobe, before, hread⟩
              exact ⟨mx, hmx, probe_sender, hprobe, before, hread, hread.one_mx⟩

/-- A host that takes every address, and only from the empty sender. -/
def bounceOnly : World where
  resolveMx _ := .ok [⟨"mx.b.org", 10⟩]
  deliver _ d :=
    if d.envelope_from.isEmpty then
      .ok (.reached (d.recipients.map fun rcpt => ⟨rcpt, .delivered d.mx_host 250 "2.1.5 ok", 3⟩))
    else .ok (.skipped "MAIL FROM: 550 go away" false)

def bounceOnlyOutcome : ProbeOutcome := ⟨"mx.b.org", some 250, "2.1.5 ok", .accepted, 3⟩

theorem handleProbe_one_server_bounceOnly :
    ∃ local_part value mxs, rsplitOnce "x@b.org" '@' = some (local_part, value) ∧
      bounceOnly.resolveMx (toAsciiLowercase value) = .ok mxs ∧
      ((∃ reason, bounceOnlyOutcome = unknownProbe "" reason ∧ [bounceOnlyOutcome] = []) ∨
        ∃ mx ∈ mxs, ∃ probe_sender ∈ ["a@b.c", ""], ∃ before,
          Observed ⟨.default, bounceOnly, "edge", "a@b.c", [], .default⟩ mx probe_sender
            "x@b.org" ["q@b.org"] before
            (handleProbe .default bounceOnly "edge" "a@b.c" "x@b.org" ["q@b.org"] .default).2
            bounceOnlyOutcome [bounceOnlyOutcome] ∧
          ∀ o ∈ [bounceOnlyOutcome, bounceOnlyOutcome], o.mx = mx.host) :=
  handleProbe_one_server .default bounceOnly "edge" "a@b.c" "x@b.org" ["q@b.org"] .default
    bounceOnlyOutcome [bounceOnlyOutcome] (by decide +kernel)

end MailCue.Tunnel.Edge
