import Mathlib
import MailCue.Backend.Events.Delivery
import MailCue.Sdk.Events

/-!
# Events from the bus to the client

`_event_generator` of backend/app/events/router.py, which sends what it takes from a queue,
and the Node SDK at the other end of the connection. Of the server's library it is given
how it writes an event down.
-/
namespace MailCue.Sdk.LiveEvents
open MailCue.Lib
open MailCue.Sdk.Events
open MailCue.Backend.Events (Message Op eventBus delivery Removes exists_served)

/-! ## The server -/

/-- What is written to the response. -/
inductive Sent
  /-- A message that the queue gave. -/
  | message (message : Message)
  /-- The queue gave none in the heartbeat interval. -/
  | heartbeat
  /-- A comment with which the library keeps the connection open. -/
  | ping (comment : Text)

/-- The message that was taken for it. -/
def Sent.taken : Sent → Option Message
  | .message m => some m
  | .heartbeat => none
  | .ping _ => none

def crlf : Text := ['\r', '\n']

def eventLine (event : Text) : Text := "event: ".toList ++ event

def dataLine (data : Text) : Text := "data: ".toList ++ data

/-- `json.dumps`, the response of the library, and `JSON.parse` at the other end. -/
structure Wire where
  dumps : Json.Fields → Text
  parse : Text → Option Json
  /-- `EventSourceResponse` writes an event and its data. -/
  encode : Text → Text → Text
  encode_eq : ∀ event data, Unbroken event → Unbroken data →
    encode event data = eventLine event ++ crlf ++ (dataLine data ++ (crlf ++ crlf))

/-- What is written of an object is one line, and is read back. -/
structure Wire.Carries (wire : Wire) (data : Json.Fields) : Prop where
  unbroken : Unbroken (wire.dumps data)
  ne_nil : wire.dumps data ≠ []
  parse : wire.parse (wire.dumps data) = some (.obj data)

section
variable (wire : Wire)

/-- The text of the response, with the dictionaries that `_event_generator` yields. -/
def Sent.text : Sent → Text
  | .message m => wire.encode m.event.toList (wire.dumps m.data)
  | .heartbeat => wire.encode "heartbeat".toList []
  | .ping comment => ": ".toList ++ comment ++ (crlf ++ crlf)

/-- Nothing in it that a line of the response could not hold. -/
def Sent.Plain : Sent → Prop
  | .message m => Unbroken m.event.toList ∧ wire.Carries m.data
  | .heartbeat => True
  | .ping comment => Unbroken comment

end

/-! ## The client -/

section
variable {ν : Type}

def ofMessage (message : Message) : MailcueEvent ν where
  type := message.event.toList
  data := Case.camelize (.obj message.data)

def heartbeatEvent : MailcueEvent ν where
  type := "heartbeat".toList
  data := .str []

def isHeartbeat (event : MailcueEvent ν) : Bool := event.type == "heartbeat".toList

def Sent.event : Sent → Option (MailcueEvent ν)
  | .message m => some (ofMessage m)
  | .heartbeat => some heartbeatEvent
  | .ping _ => none

end

/-! ## One frame -/

theorem no_boundary_of_unbroken {front : Text} (h : Unbroken front) :
    ∀ c ∈ front, ∀ s ∈ boundaries, s ≠ [] ∧ s.head? ≠ some c := by
  intro c hc s hs
  have hr : c ≠ '\r' := fun heq => h.1 (heq ▸ hc)
  have hn : c ≠ '\n' := fun heq => h.2 (heq ▸ hc)
  simp only [boundaries, List.mem_cons, List.not_mem_nil, or_false] at hs
  obtain rfl | rfl := hs
  · exact ⟨by decide, fun heq => hn (Option.some.inj heq).symm⟩
  · exact ⟨by decide, fun heq => hr (Option.some.inj heq).symm⟩

theorem no_lineEnd_of_unbroken {front : Text} (h : Unbroken front) :
    ∀ c ∈ front, ∀ s ∈ lineEnds, s ≠ [] ∧ s.head? ≠ some c := by
  intro c hc s hs
  have hr : c ≠ '\r' := fun heq => h.1 (heq ▸ hc)
  have hn : c ≠ '\n' := fun heq => h.2 (heq ▸ hc)
  simp only [lineEnds, List.mem_cons, List.not_mem_nil, or_false] at hs
  obtain rfl | rfl := hs
  · exact ⟨by decide, fun heq => hr (Option.some.inj heq).symm⟩
  · exact ⟨by decide, fun heq => hn (Option.some.inj heq).symm⟩

/-- The end of a line inside a block is no boundary. -/
theorem cut_crlf {c : Char} (hr : c ≠ '\r') (hn : c ≠ '\n') (text : Text) :
    Cutting.cut boundaries (crlf ++ c :: text) =
      (Cutting.cut boundaries (c :: text)).map fun found =>
        (⟨crlf ++ found.1.block, found.1.separator⟩, found.2) := by
  have hfirst : Cutting.separatorAt boundaries ('\r' :: '\n' :: c :: text) = none := by
    simp [Cutting.separatorAt, boundaries, hr.symm]
  have hsecond : Cutting.separatorAt boundaries ('\n' :: c :: text) = none := by
    simp [Cutting.separatorAt, boundaries, hn.symm]
  change Cutting.cut boundaries ('\r' :: '\n' :: c :: text) = _
  rw [Cutting.cut, hfirst, Cutting.cut, hsecond, Option.map_map]
  rfl

theorem cut_end : Cutting.cut boundaries (crlf ++ crlf) = some (⟨[], crlf ++ crlf⟩, []) :=
  rfl

theorem cut_line {line : Text} (h : Unbroken line) :
    Cutting.cut boundaries (line ++ (crlf ++ crlf)) = some (⟨line, crlf ++ crlf⟩, []) := by
  rw [Cutting.cut_append_left (no_boundary_of_unbroken h), cut_end, Option.map_some,
    List.append_nil]

theorem unbroken_eventLine {event : Text} (h : Unbroken event) : Unbroken (eventLine event) :=
  unbroken_append.mpr ⟨by decide, h⟩

theorem unbroken_dataLine {data : Text} (h : Unbroken data) : Unbroken (dataLine data) :=
  unbroken_append.mpr ⟨by decide, h⟩

/-- The block of an event. -/
def eventBlock (event data : Text) : Text := eventLine event ++ crlf ++ dataLine data

theorem cut_encode (wire : Wire) {event data : Text} (hevent : Unbroken event)
    (hdata : Unbroken data) :
    Cutting.cut boundaries (wire.encode event data) =
      some (⟨eventBlock event data, crlf ++ crlf⟩, []) := by
  have hsecond : Cutting.cut boundaries (crlf ++ (dataLine data ++ (crlf ++ crlf))) =
      some (⟨crlf ++ dataLine data, crlf ++ crlf⟩, []) := by
    change Cutting.cut boundaries (crlf ++ 'd' :: ("ata: ".toList ++ data ++ (crlf ++ crlf))) = _
    rw [cut_crlf (by decide) (by decide)]
    change (Cutting.cut boundaries (dataLine data ++ (crlf ++ crlf))).map _ = _
    rw [cut_line (unbroken_dataLine hdata), Option.map_some]
  rw [wire.encode_eq event data hevent hdata, List.append_assoc,
    Cutting.cut_append_left (no_boundary_of_unbroken (unbroken_eventLine hevent)), hsecond,
    Option.map_some, eventBlock, List.append_assoc]

/-! ## One block -/

section
variable {ν : Type} (number : Text → Option ν)

theorem split_line {line : Text} (h : Unbroken line) : Cutting.split lineEnds line = [line] := by
  have hcut : Cutting.cut lineEnds line = none := by
    have happend := Cutting.cut_append_left (no_lineEnd_of_unbroken h) []
    rwa [List.append_nil] at happend
  rw [Cutting.split, Cutting.drain_of_none hcut]
  rfl

theorem split_eventBlock {event data : Text} (hevent : Unbroken event) (hdata : Unbroken data) :
    Cutting.split lineEnds (eventBlock event data) = [eventLine event, dataLine data] := by
  have hend : Cutting.cut lineEnds crlf = some (⟨[], crlf⟩, []) := rfl
  have hcut : Cutting.cut lineEnds (eventLine event ++ crlf) =
      some (⟨eventLine event, crlf⟩, []) := by
    rw [Cutting.cut_append_left (no_lineEnd_of_unbroken (unbroken_eventLine hevent)), hend,
      Option.map_some, List.append_nil]
  have hlast := split_line (unbroken_dataLine hdata)
  rw [Cutting.split] at hlast
  rw [Cutting.split, eventBlock,
    Cutting.drain_of_some apart_lineEnds (Cutting.cut_append apart_lineEnds hcut (dataLine data)),
    List.map_cons, List.nil_append, List.cons_append, hlast]

theorem fieldOf_eventLine (event : Text) : fieldOf (eventLine event) = ("event".toList, event) :=
  rfl

theorem fieldOf_dataLine (data : Text) : fieldOf (dataLine data) = ("data".toList, data) := rfl

theorem onLine_eventLine (block : Block ν) (event : Text) :
    onLine number block (eventLine event) = { block with eventName := event } := by
  rfl

theorem onLine_dataLine (block : Block ν) (data : Text) :
    onLine number block (dataLine data) =
      { block with dataLines := block.dataLines ++ [data], hasData := true } := by
  rfl

theorem parseSseBlock_eventBlock {event data : Text} (hevent : Unbroken event)
    (hdata : Unbroken data) :
    parseSseBlock number (eventBlock event data) = some ⟨event, data, none, none⟩ := by
  unfold parseSseBlock
  rw [split_eventBlock hevent hdata, List.foldl_cons, List.foldl_cons, List.foldl_nil,
    onLine_eventLine, onLine_dataLine]
  simp

/-- A comment is no event. -/
theorem parseSseBlock_comment {comment : Text} (h : Unbroken comment) :
    parseSseBlock number (": ".toList ++ comment) = none := by
  have hline : Unbroken (": ".toList ++ comment) := unbroken_append.mpr ⟨by decide, h⟩
  unfold parseSseBlock
  rw [split_line hline]
  rfl

end

/-! ## The whole response -/

section
variable {ν : Type} (number : Text → Option ν) (wire : Wire)

/-- The block that the client finds of it. -/
def Sent.block : Sent → Text
  | .message m => eventBlock m.event.toList (wire.dumps m.data)
  | .heartbeat => eventBlock "heartbeat".toList []
  | .ping comment => ": ".toList ++ comment

theorem cut_sent {sent : Sent} (h : sent.Plain wire) :
    Cutting.cut boundaries (sent.text wire) = some (⟨sent.block wire, crlf ++ crlf⟩, []) := by
  cases sent with
  | message m => exact cut_encode wire h.1 h.2.unbroken
  | heartbeat => exact cut_encode wire (by decide) (by decide)
  | ping comment => exact cut_line (unbroken_append.mpr ⟨by decide, h⟩)

theorem blockEvent_sent {sent : Sent} (h : sent.Plain wire) :
    blockEvent number wire.parse (sent.block wire) = sent.event := by
  unfold blockEvent
  cases sent with
  | message m =>
    have hne : (wire.dumps m.data).isEmpty = false := by
      cases hdumps : wire.dumps m.data with
      | nil => exact absurd hdumps h.2.ne_nil
      | cons c rest => rfl
    change (parseSseBlock number (eventBlock m.event.toList (wire.dumps m.data))).map _ = _
    rw [parseSseBlock_eventBlock number h.1 h.2.unbroken, Option.map_some]
    simp [toMailcueEvent, hne, h.2.parse, Sent.event, ofMessage]
  | heartbeat =>
    change (parseSseBlock number (eventBlock "heartbeat".toList [])).map _ = _
    rw [parseSseBlock_eventBlock number (by decide) (by decide)]
    rfl
  | ping comment =>
    change (parseSseBlock number (": ".toList ++ comment)).map _ = _
    rw [parseSseBlock_comment number h]
    rfl

/-- A response does not begin with a byte order mark. -/
theorem afterMark_sent {sents : List Sent} (h : ∀ sent ∈ sents, sent.Plain wire) :
    afterMark (sents.flatMap (Sent.text wire)) = sents.flatMap (Sent.text wire) := by
  cases sents with
  | nil => rfl
  | cons sent sents =>
    have hplain := h sent List.mem_cons_self
    have hfirst : ∃ c rest, sent.text wire = c :: rest ∧ c ≠ byteOrderMark := by
      cases sent with
      | message m =>
        change ∃ c rest, wire.encode m.event.toList (wire.dumps m.data) = c :: rest ∧ _
        rw [wire.encode_eq _ _ hplain.1 hplain.2.unbroken]
        exact ⟨'e', _, rfl, by decide⟩
      | heartbeat =>
        change ∃ c rest, wire.encode "heartbeat".toList [] = c :: rest ∧ _
        rw [wire.encode_eq _ _ (by decide) (by decide)]
        exact ⟨'e', _, rfl, by decide⟩
      | ping comment => exact ⟨':', _, rfl, by decide⟩
    obtain ⟨c, rest, htext, hc⟩ := hfirst
    rw [List.flatMap_cons, htext, List.cons_append, afterMark, if_neg hc]

/-- The client has the events of a response, however it arrives. -/
theorem events_of_sent {sents : List Sent} (h : ∀ sent ∈ sents, sent.Plain wire) {chunks : List Bytes}
    (hchunks : chunks.flatten = Utf8.encode (sents.flatMap (Sent.text wire))) :
    iterateSseResponse number wire.parse chunks = sents.filterMap Sent.event := by
  have hdrain := Cutting.drain_flatMap apart_boundaries (Sent.text wire)
    (fun sent => ⟨sent.block wire, crlf ++ crlf⟩) fun sent hsent => cut_sent wire (h sent hsent)
  have hlast : blockEvent number wire.parse [] = none := by
    rw [blockEvent, parseSseBlock_of_blank number rfl, Option.map_none]
  rw [iterateSseResponse_eq, hchunks, Utf8.Decoder.run_encode, afterMark_sent wire h, Cutting.split,
    hdrain, List.filterMap_append, List.filterMap_cons_none hlast, List.filterMap_nil,
    List.append_nil, List.map_map, List.filterMap_map]
  apply List.filterMap_congr
  intro sent hsent
  exact blockEvent_sent number wire (h sent hsent)

end

/-! ## From the bus to the client -/

theorem filterMap_taken {ν : Type} {sents : List Sent}
    (h : ∀ message ∈ sents.filterMap Sent.taken, message.event ≠ "heartbeat") :
    (sents.filterMap Sent.event : List (MailcueEvent ν)).filter (!isHeartbeat ·) =
      (sents.filterMap Sent.taken).map ofMessage := by
  induction sents with
  | nil => rfl
  | cons sent sents ih =>
    cases sent with
    | message m =>
      obtain ⟨hm, hrest⟩ := List.forall_mem_cons.mp h
      have htype : m.event.toList ≠ "heartbeat".toList := fun heq => hm (String.toList_injective heq)
      have hkept : isHeartbeat (ofMessage m : MailcueEvent ν) = false := beq_eq_false_iff_ne.mpr htype
      change ((ofMessage m :: sents.filterMap Sent.event).filter _) = _
      rw [List.filter_cons_of_pos (by rw [hkept]; rfl), ih hrest]
      rfl
    | heartbeat => exact ih h
    | ping comment => exact ih h

theorem of_mem_delivery {lower : Text → Text} {allowed_mailboxes : List Text} {ops : List Op}
    {message : Message} (h : message ∈ ops.filterMap (delivery lower allowed_mailboxes)) :
    .publish message.event message.data ∈ ops := by
  obtain ⟨op, hop, hdelivery⟩ := List.mem_filterMap.mp h
  cases op with
  | publish event_type data =>
    simp only [delivery] at hdelivery
    split at hdelivery
    · cases hdelivery
      exact hop
    · cases hdelivery
  | subscribe client_id others => cases hdelivery
  | unsubscribe client_id => cases hdelivery
  | take n => cases hdelivery

def annsMail : Json.Fields := [("mailbox", .str "ann@x".toList)]

def plainWire : Wire where
  dumps _ := "\x7b\"mailbox\": \"ann@x\"\x7d".toList
  parse _ := some (.obj annsMail)
  encode event data := eventLine event ++ crlf ++ (dataLine data ++ (crlf ++ crlf))
  encode_eq _ _ _ _ := rfl

/-- A heartbeat, a message and a comment, of which the octets arrive in two parts. -/
def annsStream : List Sent := [.heartbeat, .message ⟨"email.received", annsMail⟩, .ping "ping".toList]

end MailCue.Sdk.LiveEvents
