import Mathlib.Logic.Function.Iterate
import MailCue.Tunnel.Edge.SmtpClient

/-!
# What passes in an SMTP session

Against any host: which commands may go out in the clear, that a probe sends no message,
and what a session that reached the recipients says of each of them. All three are read
off the record of the session. The commands in front of the transaction are gone through
once, for every claim that they do not touch.
-/
namespace MailCue.Tunnel.Edge.SmtpClient
open MailCue.Lib MailCue.Lib.Talk MailCue.Tunnel.Proto

/-! ## Kinds of events -/

def Command.ofEnvelope : Command → Bool
  | .mail _ => true
  | .rcpt _ => true
  | .data => true
  | _ => false

namespace Event

/-- Nothing of an envelope or a message. -/
def Quiet : Event → Prop
  | .command _ c _ => c.ofEnvelope = false
  | .body _ _ _ => False
  | _ => True

/-- An envelope or a message goes out under TLS only. -/
def Covered : Event → Prop
  | .command secure c _ => c.ofEnvelope = true → secure = true
  | .body secure _ _ => secure = true
  | _ => True

/-- Neither DATA nor a message. -/
def NoData : Event → Prop
  | .command _ c _ => c ≠ .data
  | .body _ _ _ => False
  | _ => True

theorem Quiet.covered {e : Event} (h : e.Quiet) : e.Covered := by
  cases e with
  | command secure c answer =>
    intro henvelope
    have hquiet : c.ofEnvelope = false := h
    rw [hquiet] at henvelope
    cases henvelope
  | body secure octets answer => exact absurd h not_false
  | connect answer => trivial
  | banner answer => trivial
  | handshake answer => trivial

theorem Quiet.noData {e : Event} (h : e.Quiet) : e.NoData := by
  cases e with
  | command secure c answer =>
    rintro rfl
    cases h
  | body secure octets answer => exact absurd h not_false
  | connect answer => trivial
  | banner answer => trivial
  | handshake answer => trivial

end Event

/-! ## The parts of a session -/

namespace Peer

variable (peer : Peer) (d : SmtpDelivery)

section
variable {E : Event → Prop}

theorem sendCmd_emits {secure : Bool} {c : Command} (h : ∀ answer, E (.command secure c answer)) :
    Emits E (peer.sendCmd secure c) :=
  .bind (.exchange h) fun _ => .ofExcept _

theorem sendBody_emits {secure : Bool} {octets : Bytes}
    (h : ∀ answer, E (.body secure octets answer)) : Emits E (peer.sendBody secure octets) := by
  refine .bind (.exchange h) fun answer => ?_
  cases answer with
  | cut e => exact .ofExcept _
  | lost e => exact .ofExcept _
  | replied reply => exact .ofPure reply

theorem quit_emits {secure : Bool} (h : ∀ answer, E (.command secure .quit answer)) :
    Emits E (peer.quit secure) :=
  .bind (.attempt (peer.sendCmd_emits h)) fun _ => .ofPure _

theorem rcptAll_emits {secure : Bool} {rest : List String}
    (h : ∀ rcpt ∈ rest, ∀ answer, E (.command secure (.rcpt rcpt) answer)) (idx : Nat) (outcomes : List RecipientOutcome) (accepted : List Nat) :
    Emits E (peer.rcptAll d secure rest idx outcomes accepted) := by
  induction rest generalizing idx outcomes accepted with
  | nil => exact .ofPure _
  | cons rcpt rest ih =>
    rw [List.forall_mem_cons] at h
    refine .bind (peer.sendCmd_emits h.1) fun reply => .bind (.look _) fun elapsed => ?_
    exact ih h.2 _ _ _

theorem transmit_emits {secure : Bool} (hquit : ∀ answer, E (.command secure .quit answer))
    (hdata : ∀ answer, E (.command secure .data answer))
    (hbody : ∀ octets answer, E (.body secure octets answer)) (outcomes : List RecipientOutcome)
    (accepted : List Nat) : Emits E (peer.transmit d secure outcomes accepted) := by
  refine .bind (peer.sendCmd_emits hdata) fun data => ?_
  split
  · exact .bind (peer.quit_emits hquit) fun _ => .ofPure _
  · refine .bind (.look _) fun date => .bind (peer.sendBody_emits (hbody _)) fun final_reply => ?_
    refine .bind (peer.quit_emits hquit) fun _ => ?_
    split
    · exact .ofPure _
    · exact .ofPure _

/-- The events of a transaction, where those behind the recipients come in no probe. -/
theorem transaction_emits {secure : Bool} (hquit : ∀ answer, E (.command secure .quit answer))
    (hmail : ∀ answer, E (.command secure (.mail d.envelope_from) answer))
    (hrcpt : ∀ rcpt ∈ d.recipients, ∀ answer, E (.command secure (.rcpt rcpt) answer))
    (htransmit : d.probe_only = false → (∀ answer, E (.command secure .data answer)) ∧
      ∀ octets answer, E (.body secure octets answer)) :
    Emits E (peer.transaction d secure) := by
  refine .bind (peer.sendCmd_emits hmail) fun mail_from => ?_
  split
  · exact .ofPure _
  · refine .bind (peer.rcptAll_emits d hrcpt _ _ _) fun out => ?_
    dsimp only
    split
    · exact .bind (peer.quit_emits hquit) fun _ => .ofPure _
    · split
      · exact .bind (peer.quit_emits hquit) fun _ => .ofPure _
      · rename_i hprobe
        have hsends := htransmit (by simpa using hprobe)
        exact peer.transmit_emits d hquit hsends.1 hsends.2 _ _

end

/-! ## In front of the transaction -/

theorem dial_quiet : Emits Event.Quiet peer.dial := .exchange fun _ => trivial

theorem readReply_quiet : Emits Event.Quiet peer.readReply :=
  .bind (.exchange fun _ => trivial) fun _ => .ofExcept _

theorem attemptStarttls_quiet : Emits Event.Quiet (peer.attemptStarttls d) := by
  refine .bind (peer.sendCmd_emits fun _ => rfl) fun reply => ?_
  split
  · exact .ofExcept _
  · refine .bind (.exchange fun _ => trivial) fun answer => .bind (.ofExcept _) fun _ => ?_
    refine .bind (peer.sendCmd_emits fun _ => rfl) fun reply => ?_
    split
    · exact .ofExcept _
    · exact .ofPure _

section Behind

variable {Q : Except String SmtpAttempt → List Event → Prop}

/-- A claim that events of no envelope and no message do not touch. -/
structure Untouched (Q : Except String SmtpAttempt → List Event → Prop) : Prop where
  behind : ∀ r new more, (∀ e ∈ new, e.Quiet) → Q r more → Q r (new ++ more)
  failed : ∀ reason, Q (.error reason) []
  skipped : ∀ reason transient, Q (.ok (.skipped reason transient)) []

theorem gives_behind {α : Type} (hQ : Untouched Q) {m : Talk Event String α}
    {f : α → Talk Event String SmtpAttempt} (hm : Emits Event.Quiet m) (hf : ∀ a, Gives (f a) Q) :
    Gives (m >>= f) Q := by
  refine .bind hm hf (fun reason new hnew => ?_) fun a new r more hnew hmore => ?_
  · have hquiet := hQ.behind (.error reason) new [] hnew (hQ.failed reason)
    rwa [List.append_nil] at hquiet
  · exact hQ.behind r new more hnew hmore

/-- A session is as its transaction is, which is in the clear only where that is allowed. -/
theorem deliver_gives (hQ : Untouched Q)
    (h : ∀ secure, (d.require_tls = true → secure = true) → Gives (peer.transaction d secure) Q) :
    Gives (peer.deliver d) Q := by
  have hskip : ∀ reason transient, Gives (pure (SmtpAttempt.skipped reason transient)) Q :=
    fun reason transient => .ofPure (hQ.skipped reason transient)
  have hfallback : d.require_tls = false → Gives (peer.fallback d) Q := by
    intro hplain
    refine gives_behind hQ peer.dial_quiet fun answer => ?_
    split
    · refine gives_behind hQ peer.readReply_quiet fun banner => ?_
      split
      · exact hskip _ _
      · refine gives_behind hQ (peer.sendCmd_emits fun _ => rfl) fun helo => ?_
        split
        · exact hskip _ _
        · exact h false fun htls => by simp [hplain] at htls
    · exact hskip _ _
  have hupgrade : ∀ extensions, Gives (peer.upgrade d extensions) Q := by
    intro extensions
    unfold upgrade
    split
    · refine gives_behind hQ (.attempt (peer.attemptStarttls_quiet d)) fun result => ?_
      split
      · exact h true fun _ => rfl
      · split
        · exact hskip _ _
        · rename_i hplain
          exact hfallback (by simpa using hplain)
    · split
      · exact hskip _ _
      · rename_i hplain
        exact h false fun htls => absurd htls hplain
  have hgreet : Gives (peer.greet d) Q := by
    refine gives_behind hQ (peer.sendCmd_emits fun _ => rfl) fun ehlo => ?_
    split
    · exact hupgrade _
    · refine gives_behind hQ (peer.sendCmd_emits fun _ => rfl) fun helo => ?_
      split
      · exact hskip _ _
      · exact hupgrade _
  refine gives_behind hQ peer.dial_quiet fun answer => ?_
  split
  · exact hskip _ _
  · exact hskip _ _
  · refine gives_behind hQ (.attempt peer.readReply_quiet) fun result => ?_
    split
    · exact hskip _ _
    · split
      · exact hskip _ _
      · exact hgreet

end Behind

end Peer

/-! ## What the recipients are told -/

/-- The recipients asked about, each with the reply to its RCPT. -/
def rcptAnswers (log : List Event) : List (String × Reply) :=
  log.filterMap fun e =>
    match e with
    | .command _ (.rcpt rcpt) (.ok reply) => some (rcpt, reply)
    | _ => none

def dataAnswers (log : List Event) : List Reply :=
  log.filterMap fun e =>
    match e with
    | .command _ .data (.ok reply) => some reply
    | _ => none

def finalAnswers (log : List Event) : List Reply :=
  log.filterMap fun e =>
    match e with
    | .body _ _ (.replied reply) => some reply
    | _ => none

def isDelivered : RelayStatus → Bool
  | .delivered _ _ _ => true
  | _ => false

/-- One outcome for each recipient, in order, which is `delivered` where the replies say so. -/
structure Told (d : SmtpDelivery) (outcomes : List RecipientOutcome) (log : List Event) : Prop where
  named : outcomes.map (·.recipient) = d.recipients
  asked : (rcptAnswers log).map (·.1) = d.recipients
  delivered : ∀ (i : Nat) (outcome : RecipientOutcome) (answer : String × Reply),
    outcomes[i]? = some outcome → (rcptAnswers log)[i]? = some answer →
    (isDelivered outcome.status = true ↔ answer.2.is2xx = true ∧ (d.probe_only = true ∨
      (dataAnswers log).any Reply.is3xx = true ∧ (finalAnswers log).any Reply.is2xx = true))

/-- Events that bring no answer about a recipient or the message. -/
structure Silent (log : List Event) : Prop where
  rcpt : rcptAnswers log = []
  data : dataAnswers log = []
  final : finalAnswers log = []

theorem Silent.of_quiet {log : List Event} (h : ∀ e ∈ log, e.Quiet) : Silent log := by
  refine ⟨?_, ?_, ?_⟩
  · refine List.filterMap_eq_nil_iff.mpr fun e he => ?_
    have hquiet := h e he
    split
    · cases hquiet
    · rfl
  · refine List.filterMap_eq_nil_iff.mpr fun e he => ?_
    have hquiet := h e he
    split
    · cases hquiet
    · rfl
  · refine List.filterMap_eq_nil_iff.mpr fun e he => ?_
    have hquiet := h e he
    split
    · exact absurd hquiet not_false
    · rfl

theorem rcptAnswers_append (log more : List Event) :
    rcptAnswers (log ++ more) = rcptAnswers log ++ rcptAnswers more := List.filterMap_append ..

theorem dataAnswers_append (log more : List Event) :
    dataAnswers (log ++ more) = dataAnswers log ++ dataAnswers more := List.filterMap_append ..

theorem finalAnswers_append (log more : List Event) :
    finalAnswers (log ++ more) = finalAnswers log ++ finalAnswers more := List.filterMap_append ..

/-! ### RCPT TO -/

/-- The loop so far. -/
structure Asked (recipients : List String) (outcomes : List RecipientOutcome) (accepted : List Nat)
    (answers : List (String × Reply)) : Prop where
  named : outcomes.map (·.recipient) = recipients
  asked : answers.map (·.1) = recipients
  delivered : ∀ (i : Nat) (outcome : RecipientOutcome) (answer : String × Reply),
    outcomes[i]? = some outcome → answers[i]? = some answer →
    (isDelivered outcome.status = true ↔ answer.2.is2xx = true)
  accepted : ∀ i : Nat, i ∈ accepted ↔ ∃ answer : String × Reply, answers[i]? = some answer ∧
    answer.2.is2xx = true

theorem isDelivered_rcptOutcome (mx_host rcpt : String) (latency_ms : UInt32) (reply : Reply) :
    isDelivered (Peer.rcptOutcome mx_host rcpt latency_ms reply).status = reply.is2xx := by
  unfold Peer.rcptOutcome
  split
  · rename_i h
    rw [h]
    rfl
  · rename_i h
    rw [Bool.not_eq_true] at h
    rw [h]
    split <;> rfl

theorem rcptOutcome_recipient (mx_host rcpt : String) (latency_ms : UInt32) (reply : Reply) :
    (Peer.rcptOutcome mx_host rcpt latency_ms reply).recipient = rcpt := by
  unfold Peer.rcptOutcome
  split
  · rfl
  · split <;> rfl

theorem getElem?_last {α : Type} {xs : List α} {x y : α} {i : Nat} (hi : ¬ i < xs.length)
    (h : (xs ++ [x])[i]? = some y) : i = xs.length ∧ y = x := by
  rw [List.getElem?_append_right (Nat.not_lt.mp hi), List.getElem?_singleton] at h
  split at h
  · rename_i hzero
    exact ⟨by omega, (Option.some.inj h).symm⟩
  · cases h

theorem Asked.snoc {recipients : List String} {outcomes : List RecipientOutcome}
    {accepted : List Nat} {answers : List (String × Reply)}
    (h : Asked recipients outcomes accepted answers) (mx_host rcpt : String) (latency_ms : UInt32)
    (reply : Reply) :
    Asked (recipients ++ [rcpt]) (outcomes ++ [Peer.rcptOutcome mx_host rcpt latency_ms reply])
      (if reply.is2xx then accepted ++ [outcomes.length] else accepted)
      (answers ++ [(rcpt, reply)]) := by
  have hlength : outcomes.length = answers.length := by
    rw [← List.length_map (·.recipient), h.named, ← h.asked, List.length_map]
  refine ⟨?_, ?_, ?_, ?_⟩
  · rw [List.map_append, h.named, List.map_singleton, rcptOutcome_recipient]
  · rw [List.map_append, h.asked, List.map_singleton]
  · intro i outcome answer houtcome hanswer
    by_cases hi : i < answers.length
    · rw [List.getElem?_append_left (hlength ▸ hi)] at houtcome
      rw [List.getElem?_append_left hi] at hanswer
      exact h.delivered i outcome answer houtcome hanswer
    · obtain ⟨rfl, rfl⟩ := getElem?_last hi hanswer
      rw [← hlength, List.getElem?_concat_length] at houtcome
      obtain rfl := Option.some.inj houtcome
      rw [isDelivered_rcptOutcome]
  · intro i
    have hold : i < answers.length → ((∃ answer : String × Reply,
        (answers ++ [(rcpt, reply)])[i]? = some answer ∧ answer.2.is2xx = true) ↔ i ∈ accepted) := by
      intro hi
      rw [List.getElem?_append_left hi, ← h.accepted]
    have hbound : i ∈ accepted → i < answers.length := by
      intro hmem
      obtain ⟨answer, hanswer, -⟩ := (h.accepted i).mp hmem
      exact (List.getElem?_eq_some_iff.mp hanswer).1
    by_cases hi : i < answers.length
    · rw [hold hi]
      split
      · rw [List.mem_append, List.mem_singleton, hlength]
        exact or_iff_left (Nat.ne_of_lt hi)
      · exact Iff.rfl
    · constructor
      · intro hmem
        split at hmem
        · rename_i h2xx
          rcases List.mem_append.mp hmem with hmem | hmem
          · exact absurd (hbound hmem) hi
          · refine ⟨(rcpt, reply), ?_, h2xx⟩
            rw [List.mem_singleton.mp hmem, hlength, List.getElem?_concat_length]
        · exact absurd (hbound hmem) hi
      · rintro ⟨answer, hanswer, h2xx⟩
        obtain ⟨rfl, rfl⟩ := getElem?_last hi hanswer
        rw [if_pos h2xx, ← hlength]
        exact List.mem_append_right _ List.mem_cons_self

/-! ### The single exchanges -/

section
variable (peer : Peer) (secure : Bool)

theorem sendCmd_gives (c : Command) :
    Gives (peer.sendCmd secure c) fun r new => new = [.command secure c r] := fun log =>
  ⟨[.command secure c (peer.answer log secure c)], rfl, rfl⟩

theorem quit_gives :
    Gives (peer.quit secure) fun r new => r = .ok () ∧ ∃ answer, new = [.command secure .quit answer] :=
  fun log => ⟨[.command secure .quit (peer.answer log secure .quit)], rfl, rfl, _, rfl⟩

theorem sendBody_gives (octets : Bytes) :
    Gives (peer.sendBody secure octets) fun r new => ∃ answer, new = [.body secure octets answer] ∧
      ∀ reply, r = .ok reply ↔ answer = .replied reply := by
  intro log
  refine ⟨[.body secure octets (peer.body log secure octets)], ?_, _, rfl, ?_⟩
  · unfold Peer.sendBody
    simp only [Bind.bind, Talk.exchange]
    cases peer.body log secure octets <;> rfl
  · intro reply
    unfold Peer.sendBody
    simp only [Bind.bind, Talk.exchange]
    cases peer.body log secure octets with
    | cut e => exact ⟨nofun, nofun⟩
    | lost e => exact ⟨nofun, nofun⟩
    | replied answer => exact ⟨by rintro ⟨⟩; rfl, by rintro ⟨⟩; rfl⟩

end

/-- The loop over the recipients asks each of them and keeps the account. -/
theorem rcptAll_gives (peer : Peer) (d : SmtpDelivery) (secure : Bool) (rest : List String)
    {done : List String} {outcomes : List RecipientOutcome} {accepted : List Nat}
    {answers : List (String × Reply)} (h : Asked done outcomes accepted answers) :
    Gives (peer.rcptAll d secure rest outcomes.length outcomes accepted) fun r new =>
      dataAnswers new = [] ∧ finalAnswers new = [] ∧
      ∀ out, r = .ok out → Asked (done ++ rest) out.1 out.2 (answers ++ rcptAnswers new) := by
  induction rest generalizing done outcomes accepted answers with
  | nil =>
    refine .ofPure ⟨rfl, rfl, ?_⟩
    rintro _ ⟨⟩
    simpa [rcptAnswers] using h
  | cons rcpt rest ih =>
    refine .bind (sendCmd_gives peer secure (.rcpt rcpt)) (Q := fun reply r new =>
      dataAnswers new = [] ∧ finalAnswers new = [] ∧ ∀ out, r = .ok out →
        Asked (done ++ [rcpt] ++ rest) out.1 out.2 (answers ++ [(rcpt, reply)] ++ rcptAnswers new))
      (fun reply => ?_) ?_ ?_
    · refine .lookBind fun elapsed => ?_
      have hsnoc := h.snoc d.mx_host rcpt (UInt32.ofNat (min elapsed (2 ^ 32 - 1))) reply
      have hrest := ih hsnoc
      rwa [List.length_append, List.length_singleton] at hrest
    · rintro e _ rfl
      exact ⟨rfl, rfl, nofun⟩
    · rintro reply _ r more rfl ⟨hdata, hfinal, hout⟩
      refine ⟨?_, ?_, ?_⟩
      · rw [dataAnswers_append, hdata]
        rfl
      · rw [finalAnswers_append, hfinal]
        rfl
      · intro out hr
        have hasked := hout out hr
        rw [List.append_assoc, List.append_assoc] at hasked
        rw [rcptAnswers_append]
        exact hasked

/-! ### DATA -/

theorem setStatus_getElem (f : RelayStatus → RelayStatus) (accepted : List Nat)
    (outcomes : List RecipientOutcome) (i : Nat) :
    (Peer.setStatus f accepted outcomes)[i]? =
      outcomes[i]?.map fun o => { o with status := f^[accepted.count i] o.status } := by
  unfold Peer.setStatus
  induction accepted generalizing outcomes with
  | nil => simp
  | cons idx accepted ih =>
    rw [List.foldl_cons, ih, List.getElem?_modify, List.count_cons]
    by_cases h : idx = i
    · simp [h, Function.comp_def]
    · simp [h]

theorem isDelivered_refusal (stage : String) (reply : Reply) :
    isDelivered (Peer.refusal stage reply) = false := by
  unfold Peer.refusal
  dsimp only
  split <;> rfl

/-- What the accepted recipients are told, and nobody else. -/
theorem setStatus_told {f : RelayStatus → RelayStatus} {told : Bool}
    (hf : ∀ status, isDelivered (f status) = told) {accepted : List Nat}
    {outcomes : List RecipientOutcome} {i : Nat} {outcome : RecipientOutcome}
    (h : (Peer.setStatus f accepted outcomes)[i]? = some outcome) :
    ∃ before, outcomes[i]? = some before ∧
      isDelivered outcome.status = if i ∈ accepted then told else isDelivered before.status := by
  rw [setStatus_getElem] at h
  obtain ⟨before, hbefore, rfl⟩ := Option.map_eq_some_iff.mp h
  refine ⟨before, hbefore, ?_⟩
  by_cases hi : i ∈ accepted
  · obtain ⟨n, hn⟩ := Nat.exists_eq_succ_of_ne_zero (Nat.ne_of_gt (List.count_pos_iff.mpr hi))
    rw [if_pos hi, hn, Function.iterate_succ_apply', hf]
  · rw [if_neg hi, List.count_eq_zero_of_not_mem hi]
    rfl

theorem setStatus_recipients (f : RelayStatus → RelayStatus) (accepted : List Nat)
    (outcomes : List RecipientOutcome) :
    (Peer.setStatus f accepted outcomes).map (·.recipient) = outcomes.map (·.recipient) := by
  apply List.ext_getElem?
  intro i
  rw [List.getElem?_map, List.getElem?_map, setStatus_getElem, Option.map_map]
  rfl

/-- The outcomes, where the accepted recipients are told what has become of the message. -/
structure Settled (outcomes : List RecipientOutcome) (accepted : List Nat) (told : Bool)
    (final : List RecipientOutcome) : Prop where
  named : final.map (·.recipient) = outcomes.map (·.recipient)
  status : ∀ (i : Nat) (outcome : RecipientOutcome), final[i]? = some outcome →
    ∃ before, outcomes[i]? = some before ∧
      isDelivered outcome.status = if i ∈ accepted then told else isDelivered before.status

theorem settled {f : RelayStatus → RelayStatus} {told : Bool}
    (hf : ∀ status, isDelivered (f status) = told) (outcomes : List RecipientOutcome)
    (accepted : List Nat) :
    Settled outcomes accepted told (Peer.setStatus f accepted outcomes) :=
  ⟨setStatus_recipients f accepted outcomes, fun _ _ h => setStatus_told hf h⟩

theorem Silent.quit (secure : Bool) (answer : Except String Reply) :
    Silent [.command secure .quit answer] :=
  .of_quiet (by simp [Event.Quiet, Command.ofEnvelope])

/-- A value returned behind QUIT. -/
theorem behind_quit (peer : Peer) (secure : Bool) {m : Talk Event String SmtpAttempt}
    {attempt : SmtpAttempt} (hm : ∀ log, m log = (.ok attempt, log)) :
    Gives (peer.quit secure >>= fun _ => m) fun r new => Silent new ∧ r = .ok attempt := by
  refine .bind (quit_gives peer secure) (Q := fun _ r more => more = [] ∧ r = .ok attempt)
    (fun _ log => ⟨[], ?_⟩) ?_ ?_
  · rw [hm, List.append_nil]
    exact ⟨rfl, rfl, rfl⟩
  · rintro e new ⟨he, -⟩
    cases he
  · rintro _ new r more ⟨-, answer, rfl⟩ ⟨rfl, rfl⟩
    exact ⟨Silent.quit secure answer, rfl⟩

def Reached (r : Except String SmtpAttempt) : Prop := ∃ outcomes, r = .ok (.reached outcomes)

/-- The message and its end, once it is asked for. -/
theorem body_gives (peer : Peer) (d : SmtpDelivery) (secure : Bool) (octets : Bytes)
    (outcomes : List RecipientOutcome) (accepted : List Nat) :
    Gives (do
      let final_reply ← peer.sendBody secure octets
      peer.quit secure
      if !final_reply.is2xx then
        pure (SmtpAttempt.reached
          (Peer.setStatus (fun _ => Peer.refusal "DATA end" final_reply) accepted outcomes))
      else
        pure (SmtpAttempt.reached
          (Peer.setStatus (Peer.acknowledged d.mx_host final_reply) accepted outcomes)))
      fun r new => rcptAnswers new = [] ∧ dataAnswers new = [] ∧ (finalAnswers new ≠ [] → Reached r) ∧
        ∀ final, r = .ok (.reached final) →
          Settled outcomes accepted ((finalAnswers new).any Reply.is2xx) final := by
  refine .bind (sendBody_gives peer secure octets) (Q := fun final_reply r more => Silent more ∧
    Reached r ∧ ∀ final, r = .ok (.reached final) →
      Settled outcomes accepted final_reply.is2xx final)
    (fun final_reply => ?_) ?_ ?_
  · have hsettled : ∃ final, Settled outcomes accepted final_reply.is2xx final ∧ ∀ log,
        (if !final_reply.is2xx then
          pure (SmtpAttempt.reached
            (Peer.setStatus (fun _ => Peer.refusal "DATA end" final_reply) accepted outcomes))
        else
          pure (SmtpAttempt.reached
            (Peer.setStatus (Peer.acknowledged d.mx_host final_reply) accepted outcomes)) :
          Talk Event String SmtpAttempt) log = (.ok (.reached final), log) := by
      cases h2xx : final_reply.is2xx with
      | true =>
        exact ⟨_, settled (f := Peer.acknowledged d.mx_host final_reply) (fun _ => rfl) outcomes
          accepted, fun _ => rfl⟩
      | false => exact ⟨_, settled (fun _ => isDelivered_refusal _ _) outcomes accepted, fun _ => rfl⟩
    obtain ⟨final, hfinal, hpure⟩ := hsettled
    refine (behind_quit peer secure hpure).mono ?_
    rintro r new ⟨hsilent, rfl⟩
    refine ⟨hsilent, ⟨final, rfl⟩, ?_⟩
    rintro _ ⟨⟩
    exact hfinal
  · rintro e new ⟨answer, rfl, hanswer⟩
    refine ⟨rfl, rfl, fun hfinal => ?_, nofun⟩
    cases answer with
    | cut _ => exact absurd rfl hfinal
    | lost _ => exact absurd rfl hfinal
    | replied reply => cases (hanswer reply).mpr rfl
  · rintro final_reply new r more ⟨answer, rfl, hanswer⟩ ⟨hsilent, hreached, hsettled⟩
    obtain rfl := (hanswer final_reply).mp rfl
    refine ⟨?_, ?_, fun _ => hreached, ?_⟩
    · rw [rcptAnswers_append, hsilent.rcpt]
      rfl
    · rw [dataAnswers_append, hsilent.data]
      rfl
    · intro final hfinal
      have hone : finalAnswers ([.body secure octets (.replied final_reply)] ++ more) =
          [final_reply] := by
        rw [finalAnswers_append, hsilent.final]
        rfl
      rw [hone]
      simpa using hsettled final hfinal

/-- From DATA on. -/
theorem transmit_gives (peer : Peer) (d : SmtpDelivery) (secure : Bool)
    (outcomes : List RecipientOutcome) (accepted : List Nat) :
    Gives (peer.transmit d secure outcomes accepted) fun r new =>
      rcptAnswers new = [] ∧ (finalAnswers new ≠ [] → Reached r) ∧
        ∀ final, r = .ok (.reached final) →
          Settled outcomes accepted ((dataAnswers new).any Reply.is3xx &&
            (finalAnswers new).any Reply.is2xx) final := by
  refine .bind (sendCmd_gives peer secure .data) (Q := fun data r more => rcptAnswers more = [] ∧
    dataAnswers more = [] ∧ (finalAnswers more ≠ [] → Reached r) ∧ ∀ final, r = .ok (.reached final) →
      Settled outcomes accepted (data.is3xx && (finalAnswers more).any Reply.is2xx) final)
    (fun data => ?_) ?_ ?_
  · split
    · rename_i h3xx
      rw [show data.is3xx = false by simpa using h3xx]
      refine (behind_quit peer secure fun _ => rfl).mono ?_
      rintro r new ⟨hsilent, rfl⟩
      refine ⟨hsilent.rcpt, hsilent.data, fun _ => ⟨_, rfl⟩, ?_⟩
      rintro _ ⟨⟩
      exact settled (fun _ => isDelivered_refusal "DATA" data) outcomes accepted
    · rename_i h3xx
      refine .lookBind fun date => (body_gives peer d secure _ outcomes accepted).mono ?_
      rintro r new ⟨hrcpt, hdata, hreplied, hsettled⟩
      rw [show data.is3xx = true by simpa using h3xx]
      exact ⟨hrcpt, hdata, hreplied, hsettled⟩
  · rintro e _ rfl
    exact ⟨rfl, fun hfinal => absurd rfl hfinal, nofun⟩
  · rintro data _ r more rfl ⟨hrcpt, hdata, hreplied, hsettled⟩
    have hsame : finalAnswers ([.command secure .data (.ok data)] ++ more) = finalAnswers more := by
      rw [finalAnswers_append]
      rfl
    refine ⟨?_, ?_, ?_⟩
    · rw [rcptAnswers_append, hrcpt]
      rfl
    · rw [hsame]
      exact hreplied
    · intro final hfinal
      have hone : dataAnswers ([.command secure .data (.ok data)] ++ more) = [data] := by
        rw [dataAnswers_append, hdata]
        rfl
      rw [hone, hsame]
      simpa using hsettled final hfinal

/-! ### The whole session -/

/-- What is claimed of a session that reached the recipients, and that every session with a
reply to the message is one. -/
structure Reports (d : SmtpDelivery) (r : Except String SmtpAttempt) (log : List Event) : Prop where
  told : ∀ outcomes, r = .ok (.reached outcomes) → Told d outcomes log
  replied : finalAnswers log ≠ [] → Reached r

theorem reports_untouched (d : SmtpDelivery) : Peer.Untouched (Reports d) where
  behind r new more hnew h := by
    have hsilent := Silent.of_quiet hnew
    have hrcpt : rcptAnswers (new ++ more) = rcptAnswers more := by
      rw [rcptAnswers_append, hsilent.rcpt, List.nil_append]
    have hdata : dataAnswers (new ++ more) = dataAnswers more := by
      rw [dataAnswers_append, hsilent.data, List.nil_append]
    have hfinal : finalAnswers (new ++ more) = finalAnswers more := by
      rw [finalAnswers_append, hsilent.final, List.nil_append]
    refine ⟨fun outcomes hr => ?_, by rw [hfinal]; exact h.replied⟩
    obtain ⟨hnamed, hasked, hdelivered⟩ := h.told outcomes hr
    refine ⟨hnamed, ?_, ?_⟩
    · rw [hrcpt]
      exact hasked
    · rw [hrcpt, hdata, hfinal]
      exact hdelivered
  failed _ := ⟨nofun, fun h => absurd rfl h⟩
  skipped _ _ := ⟨nofun, fun h => absurd rfl h⟩

/-- The outcomes of the recipients as they stand behind RCPT TO. -/
theorem told_asked {d : SmtpDelivery} {outcomes : List RecipientOutcome} {accepted : List Nat}
    {log : List Event} (h : Asked d.recipients outcomes accepted (rcptAnswers log))
    (hdone : accepted = [] ∨ d.probe_only = true) : Told d outcomes log := by
  refine ⟨h.named, h.asked, fun i outcome answer houtcome hanswer => ?_⟩
  rw [h.delivered i outcome answer houtcome hanswer]
  constructor
  · intro h2xx
    refine ⟨h2xx, .inl (hdone.resolve_left ?_)⟩
    rintro rfl
    exact absurd ((h.accepted i).mpr ⟨answer, hanswer, h2xx⟩) List.not_mem_nil
  · exact And.left

/-- And as they are settled behind the message. -/
theorem told_settled {d : SmtpDelivery} {outcomes final : List RecipientOutcome}
    {accepted : List Nat} {log : List Event}
    (h : Asked d.recipients outcomes accepted (rcptAnswers log)) (hprobe : d.probe_only = false)
    (hsettled : Settled outcomes accepted ((dataAnswers log).any Reply.is3xx &&
      (finalAnswers log).any Reply.is2xx) final) : Told d final log := by
  refine ⟨hsettled.named.trans h.named, h.asked, fun i outcome answer houtcome hanswer => ?_⟩
  obtain ⟨before, hbefore, hstatus⟩ := hsettled.status i outcome houtcome
  have hdelivered := h.delivered i before answer hbefore hanswer
  rw [hstatus]
  by_cases hi : i ∈ accepted
  · obtain ⟨answer', hanswer', h2xx⟩ := (h.accepted i).mp hi
    rw [hanswer] at hanswer'
    cases hanswer'
    rw [if_pos hi]
    simp [h2xx, hprobe]
  · have h2xx : ¬ answer.2.is2xx = true := fun h2xx =>
      hi ((h.accepted i).mpr ⟨answer, hanswer, h2xx⟩)
    rw [if_neg hi, hdelivered]
    simp [h2xx]

theorem transaction_reports (peer : Peer) (d : SmtpDelivery) (secure : Bool) :
    Gives (peer.transaction d secure) (Reports d) := by
  have hnone : Asked [] [] [] [] := ⟨rfl, rfl, by simp, by simp⟩
  refine .bind (sendCmd_gives peer secure (.mail d.envelope_from)) (Q := fun _ => Reports d)
    (fun mail_from => ?_) ?_ ?_
  · split
    · exact .ofPure ⟨nofun, fun h => absurd rfl h⟩
    · refine .bind (rcptAll_gives peer d secure d.recipients hnone) (Q := fun out r more =>
        rcptAnswers more = [] ∧ (finalAnswers more ≠ [] → Reached r) ∧
        ∀ outcomes, r = .ok (.reached outcomes) →
          (outcomes = out.1 ∧ (out.2 = [] ∨ d.probe_only = true) ∨ d.probe_only = false ∧
            Settled out.1 out.2 ((dataAnswers more).any Reply.is3xx &&
              (finalAnswers more).any Reply.is2xx) outcomes)) (fun out => ?_) ?_ ?_
      · dsimp only
        split
        · rename_i hempty
          refine (behind_quit peer secure fun _ => rfl).mono ?_
          rintro r new ⟨hsilent, rfl⟩
          refine ⟨hsilent.rcpt, fun _ => ⟨_, rfl⟩, ?_⟩
          rintro _ ⟨⟩
          exact .inl ⟨rfl, .inl (List.isEmpty_iff.mp hempty)⟩
        · split
          · rename_i hprobe
            refine (behind_quit peer secure fun _ => rfl).mono ?_
            rintro r new ⟨hsilent, rfl⟩
            refine ⟨hsilent.rcpt, fun _ => ⟨_, rfl⟩, ?_⟩
            rintro _ ⟨⟩
            exact .inl ⟨rfl, .inr hprobe⟩
          · rename_i hprobe
            refine (transmit_gives peer d secure out.1 out.2).mono ?_
            rintro r new ⟨hrcpt, hreplied, hsettled⟩
            exact ⟨hrcpt, hreplied, fun outcomes hr =>
              .inr ⟨by simpa using hprobe, hsettled outcomes hr⟩⟩
      · rintro e new ⟨-, hfinal, -⟩
        exact ⟨nofun, fun h => absurd hfinal h⟩
      · rintro out new r more ⟨hdata, hfinal, hasked⟩ ⟨hrcpt, hreplied, hends⟩
        refine ⟨fun outcomes hr => ?_, ?_⟩
        · have hall : Asked d.recipients out.1 out.2 (rcptAnswers (new ++ more)) := by
            rw [rcptAnswers_append, hrcpt, List.append_nil]
            exact hasked out rfl
          rcases hends outcomes hr with ⟨rfl, hdone⟩ | ⟨hprobe, hsettled⟩
          · exact told_asked hall hdone
          · refine told_settled hall hprobe ?_
            rw [dataAnswers_append, finalAnswers_append, hdata, hfinal]
            exact hsettled
        · rw [finalAnswers_append, hfinal]
          exact hreplied
  · rintro e _ rfl
    exact ⟨nofun, fun h => absurd rfl h⟩
  · rintro mail_from _ r more rfl ⟨htold, hreplied⟩
    refine ⟨fun outcomes hr => ?_, hreplied⟩
    obtain ⟨hnamed, hasked, hdelivered⟩ := htold outcomes hr
    exact ⟨hnamed, hasked, hdelivered⟩

theorem deliver_reports (peer : Peer) (d : SmtpDelivery) :
    Reports d (peer.deliver d []).1 (peer.deliver d []).2 :=
  Gives.run (peer.deliver_gives d (reports_untouched d) fun secure _ =>
    transaction_reports peer d secure)

theorem events_untouched {E : Event → Prop} (h : ∀ e, e.Quiet → E e) :
    Peer.Untouched fun _ log => ∀ e ∈ log, E e where
  behind _ _ _ hnew hmore e he :=
    (List.mem_append.mp he).elim (fun hmem => h e (hnew e hmem)) (hmore e)
  failed _ _ he := absurd he List.not_mem_nil
  skipped _ _ _ he := absurd he List.not_mem_nil

/-- Against any host: where TLS is required no envelope and no message goes out in the
clear; a probe sends neither DATA nor a message; and a session that reached the recipients
tells one outcome for each, in order, delivered exactly where RCPT and, but for a probe,
DATA and the message were accepted. -/
theorem deliver_dialogue (peer : Peer) (d : SmtpDelivery) :
    (d.require_tls = true → ∀ e ∈ (peer.deliver d []).2, e.Covered) ∧
    (d.probe_only = true → ∀ e ∈ (peer.deliver d []).2, e.NoData) ∧
    ∀ outcomes, (peer.deliver d []).1 = .ok (.reached outcomes) →
      Told d outcomes (peer.deliver d []).2 := by
  refine ⟨fun htls => ?_, fun hprobe => ?_, (deliver_reports peer d).told⟩
  · have huntouched := events_untouched fun _ h => Event.Quiet.covered h
    refine Gives.run (peer.deliver_gives d huntouched fun secure hsecure => ?_)
    obtain rfl := hsecure htls
    exact peer.transaction_emits d (fun _ => nofun) (fun _ _ => rfl) (fun _ _ _ _ => rfl)
      fun _ => ⟨fun _ _ => rfl, fun _ _ => rfl⟩
  · have huntouched := events_untouched fun _ h => Event.Quiet.noData h
    refine Gives.run (peer.deliver_gives d huntouched fun secure _ => ?_)
    refine peer.transaction_emits d (fun _ => nofun) (fun _ => nofun) (fun _ _ _ => nofun) ?_
    intro hfull
    rw [hprobe] at hfull
    cases hfull

end MailCue.Tunnel.Edge.SmtpClient
