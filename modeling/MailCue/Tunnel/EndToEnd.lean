import MailCue.Tunnel.Edge.BodyTransparency
import MailCue.Tunnel.Edge.Chunked
import MailCue.Tunnel.Edge.CommandLines
import MailCue.Tunnel.Edge.Failover
import MailCue.Tunnel.Sidecar.Discipline
import MailCue.Tunnel.Sidecar.EightBitMime

/-!
# A message through the tunnel

From the DATA of a client of the sidecar to the DATA of a session of the edge: what the
sidecar reads is what it hands over, the channel gives the edge the request the sidecar
sent, every session of the request carries its message, and the host at the other end takes
the message behind a trace header out of the stream.
-/
namespace MailCue.Tunnel
open MailCue.Lib MailCue.Lib.MailData MailCue.Tunnel.Proto

/-! ## The message behind its trace header -/

namespace Edge.SmtpClient

/-- The header that the edge puts in front of a message. -/
def traceHeader (helo_name date : String) : Bytes := addRelayReceivedHeader [] helo_name date

theorem addRelayReceivedHeader_eq (raw : Bytes) (helo_name date : String) :
    addRelayReceivedHeader raw helo_name date = traceHeader helo_name date ++ raw := by
  simp [traceHeader, addRelayReceivedHeader]

theorem dropCr_crlf (body : Bytes) : dropCr (body ++ [13]) = body := by
  rw [dropCr, if_pos (List.suffix_append _ _), List.dropLast_concat]

/-- Lines closed by CRLF are written as they are. -/
theorem normalised_join {lines : List Bytes} (h : ∀ line ∈ lines, 10 ∉ line) :
    normalised (join lines) = join lines := by
  induction lines with
  | nil => rfl
  | cons line lines ih =>
    obtain ⟨hline, hlines⟩ := List.forall_mem_cons.mp h
    have hbody : (10 : UInt8) ∉ line ++ [13] := by simp [hline]
    have hsplit : join (line :: lines) = (line ++ [13]) ++ [10] ++ join lines := by
      simp [join, MailData.CRLF]
    rw [hsplit, normalised_line hbody, dropCr_crlf, ih hlines]
    simp [MailData.CRLF]

theorem receive_stuffed {lines : List Bytes} (h : ∀ line ∈ lines, 10 ∉ line) :
    receive (join (lines.map stuffLine ++ [[46]])) = some (join lines, []) := by
  have hlf : ∀ line ∈ lines.map stuffLine ++ [[46]], 10 ∉ line := by
    intro line hmem
    rcases List.mem_append.mp hmem with hmem | hmem
    · obtain ⟨plain, hplain, rfl⟩ := List.mem_map.mp hmem
      exact not_mem_stuffLine (h plain hplain)
    · rw [List.mem_singleton.mp hmem]
      decide
  have hcut := cut_join hlf (show (10 : UInt8) ∉ ([] : Bytes) from List.not_mem_nil)
  rw [List.append_nil] at hcut
  rw [receive, hcut, untilDot_stuffed]
  rfl

/-- A message of such lines comes out of the stream as it went in. -/
theorem receive_writeBody_join {lines : List Bytes} (hne : lines ≠ [])
    (h : ∀ line ∈ lines, 10 ∉ line) :
    receive (writeBody (join lines)) = some (join lines, []) := by
  obtain ⟨written, hwritten, hmeans, hstream⟩ := writeBody_lines (join lines)
  rw [hstream, receive_stuffed hwritten, ← hmeans, normalised_join h, complete_closed hne]

/-! ## The trace header -/

theorem toList_toUTF8 (text : String) : text.toUTF8.toList = Utf8.encode text.toList := by
  have hloop : ∀ (octets : ByteArray) (i : Nat) (read : Bytes),
      ByteArray.toList.loop octets i read = read.reverse ++ octets.data.toList.drop i := by
    intro octets i read
    fun_induction ByteArray.toList.loop octets i read with
    | case1 i read h ih =>
      have hi : i < octets.data.toList.length := by simpa using h
      rw [ih, List.drop_eq_getElem_cons hi]
      simp [ByteArray.get!, h]
    | case2 i read h =>
      have hi : octets.data.toList.length ≤ i := by simpa using h
      rw [List.drop_of_length_le hi, List.append_nil]
  have hencode := Utf8.toByteArray_ofList text.toList
  rw [String.ofList_toList] at hencode
  rw [ByteArray.toList, hloop, List.reverse_nil, List.nil_append, List.drop_zero]
  change text.toByteArray.data.toList = _
  rw [hencode]

theorem safeHelo_unbroken (helo_name : String) : Unbroken (safeHelo helo_name).toList := by
  unfold safeHelo
  dsimp only
  split
  · decide
  · rw [String.toList_ofList]
    constructor
    · intro hmem
      exact absurd (List.mem_filter.mp hmem).2 (by decide)
    · intro hmem
      exact absurd (List.mem_filter.mp hmem).2 (by decide)

/-- The lines of the header. -/
def traceLines (helo_name date : String) : List Bytes :=
  ["Received: from mailcue-sidecar (authenticated MailCue tunnel)".toList,
    "\tby ".toList ++ (safeHelo helo_name).toList ++ " with ESMTP;".toList,
    "\t".toList ++ date.toList].map Utf8.encode

theorem traceHeader_eq (helo_name date : String) :
    traceHeader helo_name date = join (traceLines helo_name date) := by
  have hend : Utf8.encode ['\r', '\n'] = MailData.CRLF := by decide +kernel
  have hclosed : ∀ text line : Text, text = line ++ ['\r', '\n'] →
      Utf8.encode text = Utf8.encode line ++ MailData.CRLF := by
    intro text line heq
    rw [heq, Utf8.encode_append, hend]
  have hfirst := hclosed
    "Received: from mailcue-sidecar (authenticated MailCue tunnel)\r\n".toList
    "Received: from mailcue-sidecar (authenticated MailCue tunnel)".toList (by decide)
  have hsecond := hclosed " with ESMTP;\r\n".toList " with ESMTP;".toList (by decide)
  have hthird := hclosed "\r\n".toList [] (by decide)
  unfold traceHeader addRelayReceivedHeader
  dsimp only
  rw [List.append_nil, toList_toUTF8]
  simp only [String.toList_append, Utf8.encode_append]
  change Utf8.encode _ ++ (Utf8.encode "\tby ".toList ++ Utf8.encode (safeHelo helo_name).toList ++
    Utf8.encode " with ESMTP;\r\n".toList) ++ (Utf8.encode "\t".toList ++
      Utf8.encode date.toList ++ Utf8.encode "\r\n".toList) = _
  rw [hfirst, hsecond, hthird]
  simp only [traceLines, List.map_cons, List.map_nil, join_cons, join_nil, Utf8.encode_append,
    List.append_assoc, List.append_nil]
  rfl

theorem traceLines_noLf {date : String} (h : Unbroken date.toList) (helo_name : String) :
    ∀ line ∈ traceLines helo_name date, 10 ∉ line := by
  have hline : ∀ text : Text, Unbroken text → (10 : UInt8) ∉ Utf8.encode text :=
    fun text htext => ((unbroken_iff_encode text).mp htext).2
  intro line hmem
  simp only [traceLines, List.map_cons, List.map_nil, List.mem_cons, List.not_mem_nil,
    or_false] at hmem
  obtain rfl | rfl | rfl := hmem
  · exact hline _ (by decide)
  · refine hline _ (unbroken_append.mpr ⟨unbroken_append.mpr ⟨by decide, ?_⟩, by decide⟩)
    exact safeHelo_unbroken helo_name
  · exact hline _ (unbroken_append.mpr ⟨by decide, h⟩)

/-- A host takes the message behind its header out of the stream. -/
theorem receive_traced {message : Bytes} (hbare : NoBareLf message) {date : String}
    (hdate : Unbroken date.toList) (helo_name : String) :
    receive (writeBody (addRelayReceivedHeader (closed message) helo_name date)) =
      some (traceHeader helo_name date ++ closed message, []) := by
  have hlines : ∀ line ∈ traceLines helo_name date ++ linesOf message, 10 ∉ line := by
    intro line hmem
    rcases List.mem_append.mp hmem with hmem | hmem
    · exact traceLines_noLf hdate helo_name line hmem
    · exact Sidecar.noLf_linesOf hbare line hmem
  have hwhole : traceHeader helo_name date ++ closed message =
      join (traceLines helo_name date ++ linesOf message) := by
    rw [traceHeader_eq, join_append, join_linesOf]
  rw [addRelayReceivedHeader_eq, hwhole]
  exact receive_writeBody_join (by simp [traceLines]) hlines

/-! ## What a session transmits -/

/-- A body is the message of the session behind a header with the date of its clock. -/
def Event.Carries (peer : Peer) (d : SmtpDelivery) : Event → Prop
  | .body _ octets _ => ∃ log, octets = writeBody
      (addRelayReceivedHeader d.raw_message d.helo_name (peer.date log))
  | _ => True

namespace Peer
variable (peer : Peer) (d : SmtpDelivery)

theorem transmit_carries (secure : Bool) (outcomes : List RecipientOutcome) (accepted : List Nat) :
    Talk.Emits (Event.Carries peer d) (peer.transmit d secure outcomes accepted) := by
  have hquit : Talk.Emits (Event.Carries peer d) (peer.quit secure) :=
    peer.quit_emits fun _ => trivial
  apply Talk.Emits.bind (peer.sendCmd_emits fun _ => trivial)
  intro data
  split
  · exact .bind hquit fun _ => .ofPure _
  · apply Talk.Emits.lookBind
    intro log
    apply Talk.Emits.bind (peer.sendBody_emits fun _ => ⟨log, rfl⟩)
    intro final_reply
    apply Talk.Emits.bind hquit
    intro _
    split
    · exact .ofPure _
    · exact .ofPure _

theorem transaction_carries (secure : Bool) :
    Talk.Emits (Event.Carries peer d) (peer.transaction d secure) := by
  have hquit : Talk.Emits (Event.Carries peer d) (peer.quit secure) :=
    peer.quit_emits fun _ => trivial
  apply Talk.Emits.bind (peer.sendCmd_emits fun _ => trivial)
  intro mail_from
  split
  · exact .ofPure _
  · apply Talk.Emits.bind (peer.rcptAll_emits d (fun _ _ _ => trivial) _ _ _)
    intro out
    dsimp only
    split
    · exact .bind hquit fun _ => .ofPure _
    · split
      · exact .bind hquit fun _ => .ofPure _
      · exact peer.transmit_carries d secure _ _

theorem deliver_carries : Talk.Emits (Event.Carries peer d) (peer.deliver d) :=
  peer.deliver_emits d (fun _ => trivial) (fun _ => trivial) (fun _ => trivial)
    (fun _ _ => trivial) (fun _ => trivial) (fun _ => trivial) (peer.transaction_carries d)

end Peer

end Edge.SmtpClient

/-! ## The sessions of a request -/

namespace Edge
open SmtpClient

/-- Every body that a session of the request transmits is the message behind its header, for
recipients of the request only. -/
theorem handleRelay_carries {cfg : EdgeConfig} {world : World} {helo_name envelope_from : String}
    {recipients : List String} {message : Bytes} {opts : RelayOpts} (hbare : NoBareLf message)
    {d : SmtpDelivery}
    (hd : d ∈ (handleRelay cfg world helo_name envelope_from recipients (closed message) opts).2)
    {peer : Peer} (hdates : ∀ log, Unbroken (peer.date log).toList) {secure : Bool} {octets : Bytes}
    {answer : BodyAnswer} (hbody : .body secure octets answer ∈ (peer.deliver d []).2) :
    (∃ date, receive octets = some (traceHeader helo_name date ++ closed message, [])) ∧
      d.envelope_from = envelope_from ∧ ∀ rcpt ∈ d.recipients, rcpt ∈ recipients := by
  obtain ⟨-, domain, mxs, mx, group_rcpts, -, -, -, hdelivery, hrcpts⟩ := mem_handleRelay hd
  obtain ⟨log, hoctets⟩ := (peer.deliver_carries d).run _ hbody
  have hmessage : d.raw_message = closed message := by rw [hdelivery]; rfl
  have hhelo : d.helo_name = helo_name := by rw [hdelivery]; rfl
  rw [hmessage, hhelo] at hoctets
  rw [hoctets]
  refine ⟨⟨_, receive_traced hbare (hdates log) helo_name⟩, ?_, ?_⟩
  · rw [hdelivery]
    rfl
  · intro rcpt hrcpt
    rw [hdelivery] at hrcpt
    exact (hrcpts rcpt hrcpt).1

end Edge

/-! ## What the sidecar reads -/

namespace Sidecar

/-- A session inside `read_data` that has read so much of a line. -/
structure AtData (s : Session) (state : SessionState) (events : List SessionEvent)
    (buf line : Bytes) : Prop where
  reading : s.reading = .data buf
  state : s.state = state
  events : s.events = events
  ended : s.ended = false
  line : s.line = line

namespace Server
variable {srv : Server} {s : Session} {state : SessionState} {events : List SessionEvent}
  {buf line : Bytes}

theorem atData_octet (h : AtData s state events buf line) {octet : UInt8} (hlf : octet ≠ 10) :
    AtData (srv.step s (some octet)) state events buf (line ++ [octet]) := by
  have hopen : ¬ (s.reading = .closed ∨ s.ended = true) := by simp [h.reading, h.ended]
  rw [step, if_neg hopen]
  dsimp only
  rw [if_neg hlf]
  exact ⟨h.reading, h.state, h.events, h.ended, by rw [← h.line]⟩

theorem atData_octets (h : AtData s state events buf line) {octets : Bytes} (hlf : 10 ∉ octets) :
    AtData ((octets.map some).foldl srv.step s) state events buf (line ++ octets) := by
  induction octets generalizing s line with
  | nil => rwa [List.append_nil]
  | cons octet octets ih =>
    obtain ⟨hoctet, hrest⟩ := not_or.mp (mt List.mem_cons.mpr hlf)
    have hone : AtData (srv.step s (some octet)) state events buf (line ++ [octet]) :=
      atData_octet h (Ne.symm hoctet)
    have hnext := ih hone hrest
    rwa [List.append_assoc] at hnext

theorem onData_more {raw : Bytes} (hdot : trimEol raw ≠ [46])
    (hfits : buf.length + (payload raw).length + 2 ≤ srv.max_message_size_bytes) :
    srv.onData events state buf raw = ⟨.data (buf ++ payload raw ++ CRLF), state, []⟩ := by
  have hroom : ¬ buf.length + (unstuff (trimEol raw)).length + 2 > srv.max_message_size_bytes :=
    Nat.not_lt.mpr hfits
  have hline : readDataLine srv.max_message_size_bytes buf raw =
      .more (buf ++ payload raw ++ CRLF) := by
    rw [readDataLine, if_neg hdot, if_neg hroom]
    rfl
  rw [onData, hline]

/-- A line feed inside `read_data` completes the line. -/
theorem step_lf (h : AtData s state events buf line) (hvalid : Utf8.Valid (line ++ [10])) :
    (srv.step s (some 10)).reading = (srv.onData events state buf (line ++ [10])).reading ∧
      (srv.step s (some 10)).state = (srv.onData events state buf (line ++ [10])).state ∧
      (srv.step s (some 10)).events =
        events ++ (srv.onData events state buf (line ++ [10])).events ∧
      (srv.step s (some 10)).ended = false ∧ (srv.step s (some 10)).line = [] := by
  obtain ⟨hreading, hstate, hevents, hended, hline⟩ := h
  obtain ⟨text, htext⟩ := Option.ne_none_iff_exists'.mp ((utf8?_ne_none _).mpr hvalid)
  have hopen : ¬ (s.reading = .closed ∨ s.ended = true) := by simp [hreading, hended]
  rw [step, if_neg hopen]
  simp only [hline, if_true, onLine, htext, hreading, hstate, hevents, hended, and_self]

theorem atData_line (h : AtData s state events buf line) (hvalid : Utf8.Valid (line ++ [10]))
    (hdot : trimEol (line ++ [10]) ≠ [46])
    (hfits : buf.length + (payload (line ++ [10])).length + 2 ≤ srv.max_message_size_bytes) :
    AtData (srv.step s (some 10)) state events (buf ++ payload (line ++ [10]) ++ CRLF) [] := by
  obtain ⟨hreading, hstate, hevents, hended, hline⟩ := @step_lf srv _ _ _ _ _ h hvalid
  rw [onData_more hdot hfits] at hreading hstate hevents
  rw [List.append_nil] at hevents
  exact ⟨hreading, hstate, hevents, hended, hline⟩

/-- The lines that the reader gets past are in its buffer. -/
theorem atData_lines {lines : List Bytes} (h : AtData s state events buf [])
    (hlines : ∀ raw ∈ lines, Lines.Ended isLf raw)
    (hpassed : Passed srv.max_message_size_bytes buf.length lines) :
    AtData ((lines.flatten.map some).foldl srv.step s) state events (buf ++ bodyOf lines) [] := by
  induction lines generalizing s buf with
  | nil => simpa [bodyOf] using h
  | cons raw lines ih =>
    obtain ⟨hraw, hrest⟩ := List.forall_mem_cons.mp hlines
    obtain ⟨line, rfl, hlf⟩ := ended_iff.mp hraw
    have hroom := hpassed.fits
    rw [length_bodyOf_cons] at hroom
    have hfits : buf.length + (payload (line ++ [10])).length + 2 ≤ srv.max_message_size_bytes := by
      omega
    have hbefore : AtData ((line.map some).foldl srv.step s) state events buf line :=
      atData_octets h hlf
    have hfirst := atData_line hbefore (hpassed.valid _ List.mem_cons_self)
      (hpassed.noDot _ List.mem_cons_self) hfits
    have hleft : Passed srv.max_message_size_bytes
        (buf ++ payload (line ++ [10]) ++ CRLF).length lines := by
      refine ⟨fun r hr => hpassed.valid r (List.mem_cons_of_mem _ hr),
        fun r hr => hpassed.noDot r (List.mem_cons_of_mem _ hr), ?_⟩
      rw [List.length_append, List.length_append, show CRLF.length = 2 from rfl]
      omega
    have hnext := ih hfirst hrest hleft
    rw [List.flatten_cons, List.map_append, List.map_append, List.foldl_append, List.foldl_append,
      bodyOf_cons]
    rw [List.append_assoc, List.append_assoc] at hnext
    rw [List.append_assoc (payload _)]
    exact hnext

/-- The dot hands over what is in the buffer. -/
theorem dot_relayed (h : AtData s state events buf []) :
    ∃ reply, ((([46, 13, 10] : Bytes).map some).foldl srv.step s).events =
      events ++ [.relayed (state.envelope_from.getD "") state.recipients buf, .reply reply] := by
  have hbefore : AtData ((([46, 13] : Bytes).map some).foldl srv.step s) state events buf
      [46, 13] := atData_octets h (by decide)
  have hvalid : Utf8.Valid ([46, 13] ++ [10]) := ⟨".\r\n".toList, by decide⟩
  refine ⟨(srv.relay events (state.envelope_from.getD "") state.recipients buf).line, ?_⟩
  obtain ⟨-, -, hevents, -⟩ := @step_lf srv _ _ _ _ _ hbefore hvalid
  exact hevents

/-- The content that a client sends behind DATA is handed over as it is, its last line closed. -/
theorem encoded_relayed {message : Bytes} (h : AtData s state events [] [])
    (hvalid : Utf8.Valid message) (hbare : NoBareLf message)
    (hfits : (closed message).length ≤ srv.max_message_size_bytes) :
    ∃ reply, (((encode message).map some).foldl srv.step s).events =
      events ++ [.relayed (state.envelope_from.getD "") state.recipients (closed message),
        .reply reply] := by
  obtain ⟨hpassed, hbody⟩ := passed_encoded hfits hvalid
  have hended : ∀ raw ∈ (linesOf message).map fun line => stuffLine line ++ CRLF,
      Lines.Ended isLf raw := by
    intro raw hraw
    obtain ⟨line, hline, rfl⟩ := List.mem_map.mp hraw
    have hlf := not_mem_stuffLine (noLf_linesOf hbare line hline)
    exact ended_iff.mpr ⟨stuffLine line ++ [13], by simp [CRLF], by simp [hlf]⟩
  have hread := atData_lines h hended hpassed
  rw [hbody, List.nil_append] at hread
  have hsplit : encode message =
      ((linesOf message).map fun line => stuffLine line ++ CRLF).flatten ++ [46, 13, 10] := by
    rw [encode, join_append, join, List.flatMap_map, List.flatMap_def]
    rfl
  rw [hsplit, List.map_append, List.foldl_append]
  exact dot_relayed hread

end Server

end Sidecar

/-! ## The whole way -/

/-- What the sidecar sends to an edge for the transaction, for the recipients it submits. -/
def requestOf (state : Sidecar.SessionState) (request_id : UInt64) (submitted : List String)
    (body : Bytes) (opts : RelayOpts) : RelayRequest where
  request_id := request_id
  envelope_from := state.envelope_from.getD ""
  recipients := submitted
  raw_message := body
  opts := opts

/-- A session behind its 354 reply. -/
def receiving : Sidecar.Session :=
  ⟨.data [], ⟨some "x", some "", ["a@b.c"]⟩, [], [], false, some []⟩

/-- The isolated edge, with a network where each domain has one host. -/
def networked : Edge.Task :=
  { Edge.Task.isolated with
    world := fun _ => .ofNet (fun _ => .ok [⟨"mx", 10⟩]) fun _ _ => Edge.picky "" }

end MailCue.Tunnel
