import MailCue.Tunnel.Sidecar.ReadData

/-!
# Transactions of a submission session

What a session hands to the relay, read off the lines the client has sent and the answers
it got: the accepted MAIL, the recipients accepted behind it, and the lines behind the
354 reply. The machine is recorded line by line; what the record says of the transaction
under way is the envelope the session holds.
-/
namespace MailCue.Tunnel.Sidecar
open MailCue.Lib
open MailCue.Lib.MailData (isLf)

/-! ## The record -/

/-- A line the session has read, and what it did about it. -/
structure Exchange where
  inData : Bool
  raw : Bytes
  events : List SessionEvent

/-- What an exchange means to the transaction. -/
inductive Effect where
  | mail (addr : String)
  | rcpt (addr : String)
  | data
  | reset
  | nothing
  deriving DecidableEq, Repr

def trimLine (text : String) : List Char :=
  (text.toList.reverse.dropWhile fun c => c = '\r' || c = '\n').reverse

def commandWord (text : String) : String :=
  firstWord (String.ofList ((trimLine text).map Char.toUpper))

def argument (parse : List Char → Except String String) (text : String) : Option String :=
  (getFrom 4 (trimLine text)).bind fun rest => (parse rest).toOption

def hasCode (code line : String) : Bool := code.toList.isPrefixOf line.toList

namespace Exchange

variable (x : Exchange)

def answered (code : String) : Bool :=
  x.events.any fun event =>
    match event with
    | .reply line => hasCode code line
    | _ => false

/-- Any answer to the message ends the transaction, as EHLO, HELO and RSET do. -/
def effect : Effect :=
  if x.inData then if x.events.isEmpty then .nothing else .reset
  else
    match utf8? x.raw with
    | none => .nothing
    | some text =>
      let cmd := commandWord text
      if cmd = "EHLO" ∨ cmd = "HELO" ∨ cmd = "RSET" then .reset
      else if cmd = "MAIL" ∧ x.answered "250" then
        ((argument parseMailFrom text).map Effect.mail).getD .nothing
      else if cmd = "RCPT" ∧ x.answered "250" then
        ((argument parseRcptTo text).map Effect.rcpt).getD .nothing
      else if cmd = "DATA" ∧ x.answered "354" then .data
      else .nothing

end Exchange

/-! ## The transaction the record tells of -/

structure Envelope where
  sender : Option String
  recipients : List String
  deriving DecidableEq, Repr

def Effect.apply : Effect → Envelope → Envelope
  | .mail addr, _ => ⟨some addr, []⟩
  | .rcpt addr, e => { e with recipients := e.recipients ++ [addr] }
  | .reset, _ => ⟨none, []⟩
  | .data, e => e
  | .nothing, e => e

def envelopeOf (record : List Exchange) : Envelope :=
  record.foldl (fun e x => x.effect.apply e) ⟨none, []⟩

@[simp] theorem envelopeOf_snoc (record : List Exchange) (x : Exchange) :
    envelopeOf (record ++ [x]) = x.effect.apply (envelopeOf record) := by
  simp [envelopeOf]

/-- The exchange neither opens a transaction nor ends one. -/
def Effect.Within (e : Effect) : Prop := e ≠ .reset ∧ ∀ addr, e ≠ .mail addr

def Effect.recipient : Effect → Option String
  | .rcpt addr => some addr
  | _ => none

/-- The sender is that of the last MAIL, with no reset behind it, and the recipients are
those named since. -/
theorem envelopeOf_sender {record : List Exchange} {addr : String}
    (h : (envelopeOf record).sender = some addr) :
    ∃ before m mid, record = before ++ m :: mid ∧ m.effect = .mail addr ∧
      (∀ y ∈ mid, y.effect.Within) ∧
      (envelopeOf record).recipients = mid.filterMap (·.effect.recipient) := by
  induction record using List.reverseRecOn with
  | nil => cases h
  | append_singleton record x ih =>
    have hwithin : ∀ e', x.effect.apply (envelopeOf record) = e' → x.effect.Within →
        e'.sender = (envelopeOf record).sender → e'.recipients =
          (envelopeOf record).recipients ++ (x.effect.recipient).toList →
        ∃ before m mid, record ++ [x] = before ++ m :: mid ∧ m.effect = .mail addr ∧
          (∀ y ∈ mid, y.effect.Within) ∧
          (envelopeOf (record ++ [x])).recipients = mid.filterMap (·.effect.recipient) := by
      intro e' he' hx hsender hrecipients
      rw [envelopeOf_snoc, he', hsender] at h
      obtain ⟨before, m, mid, rfl, hm, hmid, hrcpts⟩ := ih h
      refine ⟨before, m, mid ++ [x], by simp, hm, ?_, ?_⟩
      · intro y hy
        rcases List.mem_append.mp hy with hy | hy
        · exact hmid y hy
        · rwa [List.mem_singleton.mp hy]
      · rw [envelopeOf_snoc, he', hrecipients, hrcpts, List.filterMap_append]
        cases hrcpt : x.effect.recipient <;> simp [hrcpt]
    cases hx : x.effect with
    | mail new =>
      rw [envelopeOf_snoc, hx] at h
      cases h
      refine ⟨record, x, [], rfl, hx, by simp, ?_⟩
      rw [envelopeOf_snoc, hx]
      rfl
    | reset =>
      rw [envelopeOf_snoc, hx] at h
      cases h
    | rcpt new =>
      exact hwithin _ rfl (by rw [hx]; exact ⟨by simp, by simp⟩) (by rw [hx]; rfl) (by rw [hx]; rfl)
    | data =>
      exact hwithin _ rfl (by rw [hx]; exact ⟨by simp, by simp⟩) (by rw [hx]; rfl)
        (by rw [hx]; simp [Effect.apply, Effect.recipient])
    | nothing =>
      exact hwithin _ rfl (by rw [hx]; exact ⟨by simp, by simp⟩) (by rw [hx]; rfl)
        (by rw [hx]; simp [Effect.apply, Effect.recipient])

/-! ## What a command line does to the transaction -/

def SessionState.envelope (st : SessionState) : Envelope := ⟨st.envelope_from, st.recipients⟩

namespace Server

variable (srv : Server)

/-- What is claimed of a command read in a state: the envelope moves as the exchange
says, a recipient is added only to a transaction with room for it, a message is read only
for a complete envelope, and nothing is relayed. -/
structure Moves (st : SessionState) (out : Outcome) (effect : Effect) : Prop where
  envelope : out.state.envelope = effect.apply st.envelope
  rcpt : ∀ addr, effect = .rcpt addr →
    st.recipients.length < srv.max_recipients_per_request ∧ isValidMailbox addr = true
  reading : ∀ buf, out.reading = .data buf →
    effect = .data ∧ buf = [] ∧ st.envelope_from ≠ none ∧ st.recipients ≠ []
  quiet : ∀ f rs b, .relayed f rs b ∉ out.events

/-- A refusal, and every answer that leaves the envelope alone. -/
theorem moves_nothing {st : SessionState} {out : Outcome} (hstate : out.state = st)
    (hreading : ∀ buf, out.reading ≠ .data buf)
    (hquiet : ∀ f rs b, .relayed f rs b ∉ out.events) : srv.Moves st out .nothing where
  envelope := by rw [hstate]; rfl
  rcpt := nofun
  reading buf h := absurd h (hreading buf)
  quiet := hquiet

theorem not_hasCode_syntax (reason : String) : hasCode "250" s!"501 5.5.4 syntax: {reason}" = false := by
  simp [hasCode, toString, List.isPrefixOf]

theorem parseRcptTo_valid {rest : List Char} {addr : String} (h : parseRcptTo rest = .ok addr) :
    isValidMailbox addr = true := by
  unfold parseRcptTo at h
  split at h
  · cases h
  · split at h
    · cases h
    · dsimp only at h
      split at h
      · cases h
      · rename_i hvalid
        cases h
        simpa using hvalid

/-- MAIL is refused with another code, or the transaction is a new one. -/
theorem onMail_cases (st : SessionState) (trimmed : List Char) :
    (∃ line, hasCode "250" line = false ∧ onMail st trimmed = say st line) ∨
      ∃ addr, (getFrom 4 trimmed).bind (fun rest => (parseMailFrom rest).toOption) = some addr ∧
        onMail st trimmed =
          say { st with envelope_from := some addr, recipients := [] } "250 2.1.0 sender ok" := by
  unfold onMail
  split
  · exact .inl ⟨_, by decide, rfl⟩
  · split
    · exact .inl ⟨_, by decide, rfl⟩
    · rename_i rest hrest
      split
      · rename_i addr haddr
        exact .inr ⟨addr, by simp [hrest, haddr, Except.toOption], rfl⟩
      · exact .inl ⟨_, not_hasCode_syntax _, rfl⟩

theorem onRcpt_cases (st : SessionState) (trimmed : List Char) :
    (∃ line, hasCode "250" line = false ∧ srv.onRcpt st trimmed = say st line) ∨
      ∃ addr, (getFrom 4 trimmed).bind (fun rest => (parseRcptTo rest).toOption) = some addr ∧
        st.recipients.length < srv.max_recipients_per_request ∧ isValidMailbox addr = true ∧
        srv.onRcpt st trimmed =
          say { st with recipients := st.recipients ++ [addr] } "250 2.1.5 recipient ok" := by
  unfold onRcpt
  split
  · exact .inl ⟨_, by decide, rfl⟩
  · split
    · exact .inl ⟨_, by decide, rfl⟩
    · rename_i hroom
      split
      · exact .inl ⟨_, by decide, rfl⟩
      · rename_i rest hrest
        split
        · rename_i addr haddr
          refine .inr ⟨addr, by simp [hrest, haddr, Except.toOption], Nat.not_le.mp hroom, ?_, rfl⟩
          exact parseRcptTo_valid haddr
        · exact .inl ⟨_, not_hasCode_syntax _, rfl⟩

/-- A probe leaves the envelope alone. -/
theorem onProbe_cases (history : List SessionEvent) (st : SessionState) (trimmed : List Char) :
    (srv.onProbe history st trimmed).state = st ∧
      ∀ f rs b, .relayed f rs b ∉ (srv.onProbe history st trimmed).events := by
  unfold onProbe
  split
  · exact ⟨rfl, by simp [say]⟩
  · dsimp only
    split
    · exact ⟨rfl, by simp [say]⟩
    · split
      · exact ⟨rfl, by simp [say]⟩
      · split
        · exact ⟨rfl, by simp [say]⟩
        · exact ⟨rfl, by simp⟩

/-- A command that is answered without touching the envelope. -/
theorem moves_say {st : SessionState} {raw : Bytes} {text : String} (hutf8 : utf8? raw = some text)
    (line : String) (hreset : ¬ (commandWord text = "EHLO" ∨ commandWord text = "HELO" ∨
      commandWord text = "RSET"))
    (hmail : commandWord text = "MAIL" → hasCode "250" line = false)
    (hrcpt : commandWord text = "RCPT" → hasCode "250" line = false)
    (hdata : commandWord text = "DATA" → hasCode "354" line = false) :
    srv.Moves st (say st line) (Exchange.effect ⟨false, raw, (say st line).events⟩) := by
  have heffect : Exchange.effect ⟨false, raw, (say st line).events⟩ = .nothing := by
    have hanswered : ∀ code, Exchange.answered ⟨false, raw, (say st line).events⟩ code =
        hasCode code line := by
      intro code
      simp [Exchange.answered, say]
    simp only [Exchange.effect, hutf8, Bool.false_eq_true, if_false, if_neg hreset, hanswered]
    rw [if_neg fun h => by simp [hmail h.1] at h, if_neg fun h => by simp [hrcpt h.1] at h,
      if_neg fun h => by simp [hdata h.1] at h]
  rw [heffect]
  exact srv.moves_nothing rfl (by simp) (by simp [say])

theorem moves_reset {st : SessionState} {out : Outcome} (hstate : out.state.envelope = ⟨none, []⟩)
    (hreading : out.reading = .command) (hquiet : ∀ f rs b, .relayed f rs b ∉ out.events) :
    srv.Moves st out .reset where
  envelope := hstate
  rcpt := nofun
  reading buf h := by
    rw [hreading] at h
    cases h
  quiet := hquiet

/-- A command line moves the envelope as its exchange says. -/
theorem onCommand_moves (history : List SessionEvent) (st : SessionState) {raw : Bytes}
    {text : String} (hutf8 : utf8? raw = some text) :
    srv.Moves st (srv.onCommand history st text)
      (Exchange.effect ⟨false, raw, (srv.onCommand history st text).events⟩) := by
  -- one branch of the command chain after another
  have branch : ∀ (c : Prop) [Decidable c] (a b : Outcome),
      (c → srv.Moves st a (Exchange.effect ⟨false, raw, a.events⟩)) →
      (¬ c → srv.Moves st b (Exchange.effect ⟨false, raw, b.events⟩)) →
      srv.Moves st (if c then a else b)
        (Exchange.effect ⟨false, raw, (if c then a else b).events⟩) := by
    intro c _ a b ha hb
    split
    · rename_i hc
      exact ha hc
    · rename_i hc
      exact hb hc
  have hreset : (commandWord text = "EHLO" ∨ commandWord text = "HELO" ∨
      commandWord text = "RSET") → ∀ events, Exchange.effect ⟨false, raw, events⟩ = .reset := by
    intro hcmd events
    simp only [Exchange.effect, hutf8, Bool.false_eq_true, if_false, if_pos hcmd]
  unfold onCommand
  dsimp only
  apply branch
  · intro h
    rw [hreset (.inl h)]
    exact srv.moves_reset rfl rfl (by simp)
  intro hehlo
  apply branch
  · intro h
    rw [hreset (.inr (.inl h))]
    exact srv.moves_reset rfl rfl (by simp [say])
  intro hhelo
  apply branch
  · intro (h : commandWord text = "MAIL")
    change srv.Moves st (onMail st (trimLine text))
      (Exchange.effect ⟨false, raw, (onMail st (trimLine text)).events⟩)
    obtain ⟨line, hline, hout⟩ | ⟨addr, haddr, hout⟩ := onMail_cases st (trimLine text)
    · rw [hout]
      exact srv.moves_say hutf8 line (by simp [h]) (fun _ => hline) (by simp [h]) (by simp [h])
    · have heffect : Exchange.effect ⟨false, raw, [.reply "250 2.1.0 sender ok"]⟩ = .mail addr := by
        simp [Exchange.effect, hutf8, h, Exchange.answered, argument, haddr,
          show hasCode "250" "250 2.1.0 sender ok" = true by decide]
      rw [hout, say, heffect]
      exact ⟨rfl, nofun, by simp, by simp⟩
  intro hmail
  apply branch
  · intro (h : commandWord text = "RCPT")
    change srv.Moves st (srv.onRcpt st (trimLine text))
      (Exchange.effect ⟨false, raw, (srv.onRcpt st (trimLine text)).events⟩)
    obtain ⟨line, hline, hout⟩ | ⟨addr, haddr, hroom, hvalid, hout⟩ :=
      srv.onRcpt_cases st (trimLine text)
    · rw [hout]
      exact srv.moves_say hutf8 line (by simp [h]) (by simp [h]) (fun _ => hline) (by simp [h])
    · have heffect : Exchange.effect ⟨false, raw, [.reply "250 2.1.5 recipient ok"]⟩ =
          .rcpt addr := by
        simp [Exchange.effect, hutf8, h, Exchange.answered, argument, haddr,
          show hasCode "250" "250 2.1.5 recipient ok" = true by decide]
      rw [hout, say, heffect]
      refine ⟨rfl, ?_, by simp, by simp⟩
      rintro _ ⟨⟩
      exact ⟨hroom, hvalid⟩
  intro hrcpt
  apply branch
  · intro (h : commandWord text = "DATA")
    apply branch
    · exact fun _ => srv.moves_say hutf8 _ (by simp [h]) (by simp [h]) (by simp [h])
        fun _ => by decide
    · intro hready
      have heffect : Exchange.effect
          ⟨false, raw, [.reply "354 end data with <CR><LF>.<CR><LF>"]⟩ = .data := by
        simp [Exchange.effect, hutf8, h, Exchange.answered,
          show hasCode "354" "354 end data with <CR><LF>.<CR><LF>" = true by decide]
      have hready : st.envelope_from ≠ none ∧ st.recipients ≠ [] := by
        simpa [Option.isNone_iff_eq_none] using hready
      rw [heffect]
      refine ⟨rfl, nofun, ?_, by simp⟩
      rintro _ ⟨⟩
      exact ⟨rfl, rfl, hready⟩
  intro hdata
  apply branch
  · intro h
    rw [hreset (.inr (.inr h))]
    exact srv.moves_reset rfl rfl (by simp [say])
  intro hrset
  -- what is left leaves the envelope alone
  have hnothing : ∀ events, Exchange.effect ⟨false, raw, events⟩ = .nothing := by
    intro events
    have hnot : ¬ (commandWord text = "EHLO" ∨ commandWord text = "HELO" ∨
        commandWord text = "RSET") := not_or.mpr ⟨hehlo, not_or.mpr ⟨hhelo, hrset⟩⟩
    simp only [Exchange.effect, hutf8, Bool.false_eq_true, if_false, if_neg hnot]
    rw [if_neg fun h => hmail h.1, if_neg fun h => hrcpt h.1, if_neg fun h => hdata h.1]
  have hsay : ∀ line, srv.Moves st (say st line)
      (Exchange.effect ⟨false, raw, (say st line).events⟩) := by
    intro line
    rw [hnothing]
    exact srv.moves_nothing rfl (by simp) (by simp [say])
  apply branch
  · exact fun _ => hsay _
  intro _
  apply branch
  · intro _
    obtain ⟨hstate, hquiet⟩ := srv.onProbe_cases history st (trimLine text)
    have hreading : ∀ buf, (srv.onProbe history st (trimLine text)).reading ≠ .data buf := by
      intro buf
      rw [srv.onProbe_reading]
      simp
    rw [hnothing]
    exact srv.moves_nothing hstate hreading hquiet
  intro _
  apply branch
  · exact fun _ => hsay _
  intro _
  apply branch
  · intro _
    rw [hnothing]
    exact srv.moves_nothing rfl nofun (by simp)
  · exact fun _ => hsay _

/-- A line read inside `read_data`: it is the message's last and what is held goes to the
relay, or the message is refused, or the reader holds one line more. -/
theorem onData_cases (history : List SessionEvent) (st : SessionState) (buf raw : Bytes) :
    (trimEol raw = [46] ∧ ∃ line, srv.onData history st buf raw =
      ⟨.command, { SessionState.default with helo := st.helo },
        [.relayed (st.envelope_from.getD "") st.recipients buf, .reply line]⟩) ∨
    (∃ line, srv.onData history st buf raw =
      say { st with envelope_from := none, recipients := [] } line) ∨
    (trimEol raw ≠ [46] ∧ buf.length + (payload raw).length + 2 ≤ srv.max_message_size_bytes ∧
      srv.onData history st buf raw = ⟨.data (buf ++ payload raw ++ CRLF), st, []⟩) := by
  unfold onData
  obtain ⟨hdot, heq⟩ | ⟨-, -, heq⟩ | ⟨hdot, hfits, buf', heq⟩ :=
    readDataLine_cases srv.max_message_size_bytes buf raw
  · rw [heq]
    exact .inl ⟨hdot, _, rfl⟩
  · rw [heq]
    exact .inr (.inl ⟨_, rfl⟩)
  · have hbuf : buf' = buf ++ payload raw ++ CRLF := by
      rw [readDataLine, if_neg hdot, if_neg (Nat.not_lt.mpr hfits)] at heq
      exact (DataStep.more.inj heq).symm
    rw [heq, hbuf]
    exact .inr (.inr ⟨hdot, hfits, rfl⟩)

/-! ## The recorded session -/

def exchanged (s : Session) (input : Option UInt8) : List Exchange :=
  if s.reading = .closed then []
  else
    match completedLine s input with
    | none => []
    | some raw =>
      [⟨s.reading ≠ .command, raw, (srv.step s input).events.drop s.events.length⟩]

/-- The session with the record of its lines. -/
def recorded : Machine (Session × List Exchange) (Option UInt8) where
  start := (srv.start, [])
  step sr input := (srv.step sr.1 input, sr.2 ++ srv.exchanged sr.1 input)

def record (inputs : List (Option UInt8)) : List Exchange := (srv.recorded.run inputs).2

theorem recorded_session (inputs : List (Option UInt8)) :
    (srv.recorded.run inputs).1 = srv.handleSession.run inputs := by
  induction inputs using List.reverseRecOn with
  | nil => rfl
  | append_singleton pre input ih =>
    rw [Machine.run_snoc, Machine.run_snoc, ← ih]
    rfl

theorem onLine_congr {s t : Session} (hreading : s.reading = t.reading) (hstate : s.state = t.state)
    (hevents : s.events = t.events) (raw : Bytes) :
    (srv.onLine s raw).reading = (srv.onLine t raw).reading ∧
      (srv.onLine s raw).state = (srv.onLine t raw).state ∧
      (srv.onLine s raw).events = (srv.onLine t raw).events := by
  unfold onLine
  cases utf8? raw with
  | none => exact ⟨rfl, hstate, hevents⟩
  | some text =>
    rw [hreading]
    cases hread : t.reading with
    | closed => exact ⟨by simp [hreading, hread], hstate, hevents⟩
    | command => simp [hstate, hevents]
    | data buf => simp [hstate, hevents]

theorem onLine_ended (s : Session) (raw : Bytes) : (srv.onLine s raw).ended = s.ended := by
  unfold onLine
  cases utf8? raw with
  | none => rfl
  | some text => cases hread : s.reading <;> simp

/-- An input that completes a line. -/
theorem step_line {s : Session} {input : Option UInt8} {raw : Bytes} (hopen : s.reading ≠ .closed)
    (hraw : completedLine s input = some raw) :
    (srv.step s input).reading = (srv.onLine s raw).reading ∧
      (srv.step s input).state = (srv.onLine s raw).state ∧
      (srv.step s input).events = (srv.onLine s raw).events ∧
      ((srv.step s input).ended = false → raw = s.line ++ [10]) ∧
      (s.ended = false ∧ raw = s.line ++ [10] ∨ raw = s.line ∧ s.line ≠ []) := by
  cases input with
  | none =>
    have hline : s.line ≠ [] ∧ raw = s.line := by
      change (if s.line = [] then none else some s.line) = some raw at hraw
      split at hraw
      · cases hraw
      · rename_i hline
        exact ⟨hline, (Option.some.inj hraw).symm⟩
    have hstep : srv.step s none = srv.onLine { s with ended := true } raw := by
      rw [step, if_neg hopen, if_neg hline.1, hline.2]
    obtain ⟨hreading, hstate, hevents⟩ := srv.onLine_congr
      (show ({ s with ended := true } : Session).reading = s.reading from rfl) rfl rfl raw
    rw [hstep]
    refine ⟨hreading, hstate, hevents, ?_, .inr ⟨hline.2, hline.1⟩⟩
    rw [onLine_ended]
    intro hended
    cases hended
  | some octet =>
    have hlf : (s.ended = false ∧ octet = 10) ∧ raw = s.line ++ [10] := by
      change (if s.ended = false ∧ octet = 10 then some (s.line ++ [10]) else none) = some raw at hraw
      split at hraw
      · rename_i hlf
        exact ⟨hlf, (Option.some.inj hraw).symm⟩
      · cases hraw
    obtain ⟨⟨hended, rfl⟩, rfl⟩ := hlf
    have hstep : srv.step s (some 10) =
        srv.onLine { s with message := followMessage s.message 10 } (s.line ++ [10]) := by
      rw [step, if_neg (by simp [hopen, hended])]
      rfl
    obtain ⟨hreading, hstate, hevents⟩ := srv.onLine_congr
      (show ({ s with message := followMessage s.message 10 } : Session).reading = s.reading from rfl)
      rfl rfl (s.line ++ [10])
    rw [hstep]
    exact ⟨hreading, hstate, hevents, fun _ => rfl, .inl ⟨hended, rfl⟩⟩

/-- And one that completes none. -/
theorem step_still {s : Session} {input : Option UInt8}
    (h : s.reading = .closed ∨ completedLine s input = none) :
    (srv.step s input).state = s.state ∧ (srv.step s input).events = s.events ∧
      ((srv.step s input).reading = .closed ∨
        (srv.step s input).reading = s.reading ∧ (srv.step s input).ended = s.ended) := by
  by_cases hclosed : s.reading = .closed
  · have hstep : srv.step s input = s := by cases input <;> simp [step, hclosed]
    rw [hstep]
    exact ⟨rfl, rfl, .inl hclosed⟩
  · have hnone := h.resolve_left hclosed
    cases input with
    | none =>
      have hline : s.line = [] := by
        by_contra hline
        simp [completedLine, hline] at hnone
      rw [step, if_neg hclosed, if_pos hline]
      exact ⟨rfl, rfl, .inl rfl⟩
    | some octet =>
      have hlf : ¬ (s.ended = false ∧ octet = 10) := by
        intro hlf
        simp [completedLine, hlf] at hnone
      rw [step]
      split
      · exact ⟨rfl, rfl, .inr ⟨rfl, rfl⟩⟩
      · rename_i hstill
        rw [not_or, Bool.not_eq_true] at hstill
        dsimp only
        rw [if_neg fun heq => hlf ⟨hstill.2, heq⟩]
        exact ⟨rfl, rfl, .inr ⟨rfl, rfl⟩⟩

/-! ## The invariant -/

/-- What the relay was given, read off the lines before. -/
def HandedOver (past : List Exchange) (x : Exchange) (envelope_from : String)
    (recipients : List String) (body : Bytes) : Prop :=
  ∃ before m mid d lines, past = before ++ m :: (mid ++ d :: lines) ∧
    m.effect = .mail envelope_from ∧ (∀ y ∈ mid ++ d :: lines, y.effect.Within) ∧
    recipients = mid.filterMap (·.effect.recipient) ∧
    1 ≤ recipients.length ∧ recipients.length ≤ srv.max_recipients_per_request ∧
    (∀ r ∈ recipients, isValidMailbox r = true) ∧
    d.effect = .data ∧ (∀ y ∈ lines, y.inData = true) ∧
    readData srv.max_message_size_bytes ((lines ++ [x]).flatMap (·.raw)) = (.ok body, [])

/-- The lines behind the 354 reply are those the reader holds. -/
def Receiving (record : List Exchange) (s : Session) (buf : Bytes) : Prop :=
  ∃ before d lines, record = before ++ d :: lines ∧ d.effect = .data ∧
    envelopeOf before = s.state.envelope ∧ s.state.envelope_from ≠ none ∧ s.state.recipients ≠ [] ∧
    (∀ y ∈ lines, y.inData = true ∧ y.effect = .nothing) ∧
    (s.ended = false → ∀ y ∈ lines, Lines.Ended isLf y.raw) ∧
    Passed srv.max_message_size_bytes 0 (lines.map (·.raw)) ∧ buf = bodyOf (lines.map (·.raw))

structure Disciplined (record : List Exchange) (s : Session) : Prop where
  envelope : envelopeOf record = s.state.envelope
  few : s.state.recipients.length ≤ srv.max_recipients_per_request
  valid : ∀ r ∈ s.state.recipients, isValidMailbox r = true
  receiving : ∀ buf, s.reading = .data buf → srv.Receiving record s buf
  handed : ∀ past x future, record = past ++ x :: future → ∀ f rs b, .relayed f rs b ∈ x.events →
    srv.HandedOver past x f rs b

variable {srv}

theorem Receiving.congr {record : List Exchange} {s t : Session} {buf : Bytes}
    (h : srv.Receiving record s buf) (hstate : t.state = s.state) (hended : t.ended = s.ended) :
    srv.Receiving record t buf := by
  unfold Receiving at h ⊢
  rw [hstate, hended]
  exact h

/-- A record one exchange longer. -/
theorem handed_snoc {record : List Exchange} {x : Exchange}
    (h : ∀ past y future, record = past ++ y :: future → ∀ f rs b, .relayed f rs b ∈ y.events →
      srv.HandedOver past y f rs b)
    (hx : ∀ f rs b, .relayed f rs b ∈ x.events → srv.HandedOver record x f rs b) :
    ∀ past y future, record ++ [x] = past ++ y :: future → ∀ f rs b, .relayed f rs b ∈ y.events →
      srv.HandedOver past y f rs b := by
  intro past y future hsplit
  cases future using List.reverseRecOn with
  | nil =>
    obtain ⟨rfl, hlast⟩ := List.append_inj' hsplit rfl
    cases hlast
    exact hx
  | append_singleton future last =>
    rw [← List.cons_append, ← List.append_assoc] at hsplit
    obtain ⟨rfl, -⟩ := List.append_inj' hsplit rfl
    exact h past y future rfl

theorem Disciplined.still {record : List Exchange} {s : Session} {input : Option UInt8}
    (h : srv.Disciplined record s) (hstill : s.reading = .closed ∨ completedLine s input = none) :
    srv.Disciplined record (srv.step s input) := by
  obtain ⟨hstate, -, hreading⟩ := srv.step_still hstill
  refine ⟨?_, ?_, ?_, ?_, h.handed⟩
  · rw [hstate]
    exact h.envelope
  · rw [hstate]
    exact h.few
  · rw [hstate]
    exact h.valid
  · intro buf hdata
    rcases hreading with hclosed | ⟨hsame, hended⟩
    · rw [hclosed] at hdata
      cases hdata
    · exact (h.receiving buf (hsame ▸ hdata)).congr hstate hended

/-- A command line. -/
theorem Disciplined.command {record : List Exchange} {s t : Session} {raw : Bytes} {text : String}
    (h : srv.Disciplined record s) (hutf8 : utf8? raw = some text)
    (hreading : t.reading = (srv.onCommand s.events s.state text).reading)
    (hstate : t.state = (srv.onCommand s.events s.state text).state) :
    srv.Disciplined
      (record ++ [⟨false, raw, (srv.onCommand s.events s.state text).events⟩]) t := by
  have hmoves := srv.onCommand_moves s.events s.state hutf8
  generalize hx : (⟨false, raw, (srv.onCommand s.events s.state text).events⟩ : Exchange) = x
    at hmoves ⊢
  have hevents : x.events = (srv.onCommand s.events s.state text).events := by rw [← hx]
  have henvelope : t.state.envelope = x.effect.apply (envelopeOf record) := by
    rw [hstate, hmoves.envelope, h.envelope]
  have hrecipients : t.state.recipients = (x.effect.apply (envelopeOf record)).recipients := by
    rw [← henvelope]
    rfl
  rw [h.envelope] at hrecipients
  refine ⟨?_, ?_, ?_, ?_, handed_snoc h.handed ?_⟩
  · rw [envelopeOf_snoc, henvelope]
  · rw [hrecipients]
    cases heffect : x.effect with
    | rcpt addr =>
      have hroom := (hmoves.rcpt addr heffect).1
      simp only [Effect.apply, SessionState.envelope, List.length_append, List.length_singleton]
      omega
    | mail addr => exact Nat.zero_le _
    | reset => exact Nat.zero_le _
    | data => exact h.few
    | nothing => exact h.few
  · rw [hrecipients]
    cases heffect : x.effect with
    | rcpt addr =>
      intro r hr
      rcases List.mem_append.mp hr with hr | hr
      · exact h.valid r hr
      · rw [List.mem_singleton.mp hr]
        exact (hmoves.rcpt addr heffect).2
    | mail addr => simp [Effect.apply]
    | reset => simp [Effect.apply]
    | data => exact h.valid
    | nothing => exact h.valid
  · intro buf hdata
    obtain ⟨heffect, rfl, hsender, hrcpts⟩ := hmoves.reading buf (hreading ▸ hdata)
    have hkept : t.state.envelope = s.state.envelope := by
      rw [hstate, hmoves.envelope, heffect]
      rfl
    have hfrom : t.state.envelope_from = s.state.envelope_from := congrArg Envelope.sender hkept
    have hto : t.state.recipients = s.state.recipients := congrArg Envelope.recipients hkept
    refine ⟨record, x, [], rfl, heffect, ?_, ?_, ?_, by simp, by simp, ?_, rfl⟩
    · rw [hkept, h.envelope]
    · rw [hfrom]
      exact hsender
    · rw [hto]
      exact hrcpts
    · exact ⟨by simp, by simp, Nat.zero_le _⟩
  · intro f rs b hrelayed
    rw [hevents] at hrelayed
    exact absurd hrelayed (hmoves.quiet f rs b)

/-- A line that is not UTF-8 ends the session and nothing else. -/
theorem Disciplined.undecoded {record : List Exchange} {s t : Session} {raw : Bytes} {inData : Bool}
    (h : srv.Disciplined record s) (hutf8 : utf8? raw = none) (hreading : t.reading = .closed)
    (hstate : t.state = s.state) : srv.Disciplined (record ++ [⟨inData, raw, []⟩]) t := by
  have heffect : Exchange.effect ⟨inData, raw, []⟩ = .nothing := by
    cases inData <;> simp [Exchange.effect, hutf8]
  refine ⟨?_, ?_, ?_, ?_, handed_snoc h.handed (by simp)⟩
  · rw [envelopeOf_snoc, heffect, hstate]
    exact h.envelope
  · rw [hstate]
    exact h.few
  · rw [hstate]
    exact h.valid
  · intro buf hdata
    rw [hreading] at hdata
    cases hdata

/-- The transaction is over. -/
theorem Disciplined.over {record : List Exchange} {s t : Session} {x : Exchange}
    (h : srv.Disciplined record s) (heffect : x.effect = .reset)
    (hstate : t.state.envelope = ⟨none, []⟩) (hreading : t.reading = .command)
    (hx : ∀ f rs b, .relayed f rs b ∈ x.events → srv.HandedOver record x f rs b) :
    srv.Disciplined (record ++ [x]) t := by
  have hto : t.state.recipients = [] := congrArg Envelope.recipients hstate
  refine ⟨?_, ?_, ?_, ?_, handed_snoc h.handed hx⟩
  · rw [envelopeOf_snoc, heffect, hstate]
    rfl
  · rw [hto]
    exact Nat.zero_le _
  · rw [hto]
    simp
  · intro buf hdata
    rw [hreading] at hdata
    cases hdata

/-- The dot line gives the relay what the lines before it amount to. -/
theorem Receiving.handedOver {record : List Exchange} {s : Session} {buf : Bytes} {x : Exchange}
    (h : srv.Receiving record s buf) (hs : srv.Disciplined record s) (hended : s.ended = false)
    (hdot : trimEol x.raw = [46]) (hline : Lines.Ended isLf x.raw ∨ Lines.Open isLf x.raw) :
    srv.HandedOver record x (s.state.envelope_from.getD "") s.state.recipients buf := by
  obtain ⟨before, d, lines, rfl, hd, henvelope, hsender, hrcpts, hlines, hlf, hpassed, rfl⟩ := h
  obtain ⟨addr, haddr⟩ := Option.ne_none_iff_exists'.mp hsender
  have hfrom : (envelopeOf before).sender = some addr := by
    rw [henvelope]
    exact haddr
  obtain ⟨front, m, mid, rfl, hm, hmid, hto⟩ := envelopeOf_sender hfrom
  rw [henvelope] at hto
  refine ⟨front, m, mid, d, lines, by simp, ?_, ?_, hto, ?_, hs.few, hs.valid, hd,
    fun y hy => (hlines y hy).1, ?_⟩
  · rw [haddr]
    exact hm
  · intro y hy
    rcases List.mem_append.mp hy with hy | hy
    · exact hmid y hy
    · rcases List.mem_cons.mp hy with rfl | hy
      · rw [hd]
        exact ⟨by simp, by simp⟩
      · rw [(hlines y hy).2]
        exact ⟨by simp, by simp⟩
  · exact List.length_pos_iff.mpr hrcpts
  · have hraws : ∀ raw ∈ lines.map (·.raw), Lines.Ended isLf raw := by
      rw [List.forall_mem_map]
      exact hlf hended
    have hsplit := Lines.splitLines_flatten (Lines.AreLines.concat hraws hline)
    have hflat : (lines ++ [x]).flatMap (·.raw) = (lines.map (·.raw) ++ [x.raw]).flatten := by
      simp [List.flatMap]
    rw [hflat, readData_ok_iff, hsplit]
    exact ⟨_, x.raw, [], rfl, hpassed, hdot, rfl, rfl⟩

/-- A line that is not the dot line is one more of those. -/
theorem Receiving.line {record : List Exchange} {s t : Session} {buf raw : Bytes}
    (h : srv.Receiving record s buf) (hstate : t.state = s.state) (hvalid : Utf8.Valid raw)
    (hdot : trimEol raw ≠ [46])
    (hfits : (buf ++ payload raw ++ CRLF).length ≤ srv.max_message_size_bytes)
    (hopen : s.ended = false) (hended : t.ended = false → Lines.Ended isLf raw) :
    srv.Receiving (record ++ [⟨true, raw, []⟩]) t (buf ++ payload raw ++ CRLF) := by
  obtain ⟨before, d, lines, rfl, hd, henvelope, hsender, hrcpts, hlines, hlf, hpassed, rfl⟩ := h
  unfold Receiving
  rw [hstate]
  have hraws : (lines ++ [Exchange.mk true raw []]).map (·.raw) = lines.map (·.raw) ++ [raw] :=
    List.map_append
  refine ⟨before, d, lines ++ [⟨true, raw, []⟩], by simp, hd, henvelope, hsender, hrcpts, ?_, ?_,
    ?_, ?_⟩
  · intro y hy
    rcases List.mem_append.mp hy with hy | hy
    · exact hlines y hy
    · rw [List.mem_singleton.mp hy]
      exact ⟨rfl, rfl⟩
  · intro hstill y hy
    rcases List.mem_append.mp hy with hy | hy
    · exact hlf hopen y hy
    · rw [List.mem_singleton.mp hy]
      exact hended hstill
  · rw [hraws]
    refine hpassed.snoc hvalid hdot ?_
    rw [bodyOf_snoc, Nat.zero_add]
    exact hfits
  · rw [hraws, bodyOf_snoc]

/-- A line inside `read_data`. -/
theorem Disciplined.body {record : List Exchange} {s t : Session} {buf raw : Bytes}
    (h : srv.Disciplined record s) (hdata : s.reading = .data buf) (hvalid : Utf8.Valid raw)
    (hopen : s.ended = false) (hline : Lines.Ended isLf raw ∨ Lines.Open isLf raw)
    (hreading : t.reading = (srv.onData s.events s.state buf raw).reading)
    (hstate : t.state = (srv.onData s.events s.state buf raw).state)
    (hended : t.ended = false → Lines.Ended isLf raw) :
    srv.Disciplined (record ++ [⟨true, raw, (srv.onData s.events s.state buf raw).events⟩]) t := by
  have hreceiving := h.receiving buf hdata
  obtain ⟨hdot, line, hout⟩ | ⟨line, hout⟩ | ⟨hdot, hfits, hout⟩ :=
    srv.onData_cases s.events s.state buf raw
  · rw [hout] at hreading hstate ⊢
    refine h.over rfl (by rw [hstate]; rfl) hreading ?_
    intro f rs b hrelayed
    simp only [List.mem_cons, SessionEvent.relayed.injEq, reduceCtorEq, List.not_mem_nil,
      or_false] at hrelayed
    obtain ⟨rfl, rfl, rfl⟩ := hrelayed
    exact hreceiving.handedOver h hopen hdot hline
  · rw [hout] at hreading hstate ⊢
    refine h.over rfl (by rw [hstate]; rfl) hreading ?_
    simp [say]
  · rw [hout] at hreading hstate ⊢
    have hsame : t.state = s.state := hstate
    refine ⟨?_, ?_, ?_, ?_, handed_snoc h.handed (by simp)⟩
    · rw [envelopeOf_snoc, hsame]
      exact h.envelope
    · rw [hsame]
      exact h.few
    · rw [hsame]
      exact h.valid
    · intro buf' hmore
      obtain rfl : buf ++ payload raw ++ CRLF = buf' :=
        Reading.data.inj (hreading.symm.trans hmore)
      refine hreceiving.line hsame hvalid hdot ?_ hopen hended
      rw [List.length_append, List.length_append]
      exact hfits

/-- One step keeps the discipline, and the record tells what the session did. -/
theorem disciplined_step {record : List Exchange} {s : Session} (input : Option UInt8)
    (h : srv.Disciplined record s) (hfollow : Following s) :
    srv.Disciplined (record ++ srv.exchanged s input) (srv.step s input) ∧
      (srv.step s input).events = s.events ++ (srv.exchanged s input).flatMap (·.events) := by
  by_cases hclosed : s.reading = .closed
  · rw [exchanged, if_pos hclosed, List.append_nil]
    exact ⟨h.still (.inl hclosed), by simp [(srv.step_still (.inl hclosed)).2.1]⟩
  cases hraw : completedLine s input with
  | none =>
    simp only [exchanged, if_neg hclosed, hraw, List.append_nil]
    exact ⟨h.still (.inr hraw), by simp [(srv.step_still (.inr hraw)).2.1]⟩
  | some raw =>
    obtain ⟨hreading, hstate, hevents, hended, hline⟩ := srv.step_line hclosed hraw
    simp only [exchanged, if_neg hclosed, hraw, List.flatMap_singleton]
    cases hutf8 : utf8? raw with
    | none =>
      simp only [onLine, hutf8] at hreading hstate hevents
      rw [hevents, List.drop_length, List.append_nil]
      exact ⟨h.undecoded hutf8 hreading hstate, rfl⟩
    | some text =>
      cases hread : s.reading with
      | closed => exact absurd hread hclosed
      | command =>
        simp only [onLine, hutf8, hread] at hreading hstate hevents
        rw [hevents, List.drop_left]
        exact ⟨h.command hutf8 hreading hstate, rfl⟩
      | data buf =>
        simp only [onLine, hutf8, hread] at hreading hstate hevents
        rw [hevents, List.drop_left]
        obtain ⟨content, -, hnolf, -, hlast⟩ := hfollow buf hread
        have hlf : Lines.Ended isLf (s.line ++ [10]) := MailData.ended_iff.mpr ⟨s.line, rfl, hnolf⟩
        have hopen : s.ended = false ∧ (Lines.Ended isLf raw ∨ Lines.Open isLf raw) := by
          rcases hline with ⟨hstill, rfl⟩ | ⟨rfl, hne⟩
          · exact ⟨hstill, .inl hlf⟩
          · refine ⟨?_, .inr ⟨hne, MailData.isLf_eq_false.mpr hnolf⟩⟩
            by_contra hstill
            exact hne (hlast (by simpa using hstill))
        have hvalid : Utf8.Valid raw := (utf8?_ne_none raw).mp (by simp [hutf8])
        exact ⟨h.body hread hvalid hopen.1 hopen.2 hreading hstate fun hs => hended hs ▸ hlf, rfl⟩

theorem disciplined_run (inputs : List (Option UInt8)) :
    srv.Disciplined (srv.record inputs) (srv.handleSession.run inputs) ∧
      (srv.handleSession.run inputs).events =
        srv.start.events ++ (srv.record inputs).flatMap (·.events) := by
  induction inputs using List.reverseRecOn with
  | nil =>
    refine ⟨⟨?_, ?_, ?_, ?_, ?_⟩, ?_⟩
    · change (⟨none, []⟩ : Envelope) = srv.start.state.envelope
      unfold start
      split <;> rfl
    · change srv.start.state.recipients.length ≤ _
      unfold start
      split <;> exact Nat.zero_le _
    · change ∀ r ∈ srv.start.state.recipients, _
      unfold start
      split <;> exact nofun
    · change ∀ buf, srv.start.reading = _ → _
      unfold start
      split <;> exact nofun
    · intro past x future hsplit
      have hlength := congrArg List.length hsplit
      change 0 = _ at hlength
      simp at hlength
    · change srv.start.events = _
      simp [record, recorded, Machine.run]
  | append_singleton pre input ih =>
    have hrecord : srv.record (pre ++ [input]) =
        srv.record pre ++ srv.exchanged (srv.handleSession.run pre) input := by
      rw [← recorded_session, record, Machine.run_snoc]
      rfl
    have hfollow := srv.following_run pre pre (List.prefix_refl pre)
    obtain ⟨hstep, hevents⟩ := disciplined_step input ih.1 hfollow
    rw [Machine.run_snoc, hrecord]
    refine ⟨hstep, ?_⟩
    rw [List.flatMap_append, ← List.append_assoc, ← ih.2]
    exact hevents

/-- In every session the record accounts for all that was said and handed over; each
hand-over to the relay carries the sender of the last MAIL accepted before it, the
recipients accepted since, with no reset in between, and the body read since its DATA; and
what the session holds is what was accepted since the last reset. -/
theorem relayed_discipline (srv : Server) (inputs : List (Option UInt8)) :
    (srv.handleSession.run inputs).events =
      srv.start.events ++ (srv.record inputs).flatMap (·.events) ∧
    (∀ past x future, srv.record inputs = past ++ x :: future → ∀ f rs b,
      .relayed f rs b ∈ x.events → srv.HandedOver past x f rs b) ∧
    (srv.handleSession.run inputs).state.envelope = envelopeOf (srv.record inputs) := by
  obtain ⟨h, hevents⟩ := srv.disciplined_run inputs
  exact ⟨hevents, h.handed, h.envelope.symm⟩

end Server

end MailCue.Tunnel.Sidecar
