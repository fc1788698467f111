import Mathlib
import MailCue.Lib.Cutting
import MailCue.Lib.Utf8
import MailCue.Sdk.CaseConversion

/-!
# The event streams of the Node SDK

sdks/node/src/events.ts: `parseSseChunks`, which reads a text that is there, and
`iterateSseResponse`, which reads the body of an answer as it arrives. Of JavaScript's
`Number` and `JSON.parse` it is given what they make of a text, if anything; a failing
connection and the connections after it are left out.
-/
namespace MailCue.Sdk.Events
open MailCue.Lib

/-! ## Blocks -/

/-- White space and line ends, as `trim` takes them. -/
def isTrimmed (c : Char) : Bool :=
  ['\t', '\n', '\u000B', '\u000C', '\r', ' ', '\u00A0', '\u1680', '\u2028', '\u2029', '\u202F',
    '\u205F', '\u3000', '\uFEFF'].contains c || ('\u2000' ≤ c && c ≤ '\u200A')

/-- `!text.trim()` -/
def isBlank (text : Text) : Bool := text.all isTrimmed

/-- `/\r?\n/` -/
def lineEnds : List Text := ["\r\n".toList, "\n".toList]

/-- `/\r?\n\r?\n/` -/
def blankLines : List Text :=
  ["\r\n\r\n".toList, "\r\n\n".toList, "\n\r\n".toList, "\n\n".toList]

structure RawSseEvent (ν : Type) where
  event : Text
  data : Text
  id : Option Text := none
  retry : Option ν := none

/-- The variables of `parseSseBlock`. -/
structure Block (ν : Type) where
  eventName : Text := "message".toList
  dataLines : List Text := []
  id : Option Text := none
  retry : Option ν := none
  hasData : Bool := false

/-- The field of a line, and its value. -/
def fieldOf (rawLine : Text) : Text × Text :=
  match rawLine.dropWhile (· != ':') with
  | [] => (rawLine, [])
  | _ :: value =>
    (rawLine.takeWhile (· != ':'), if value.head? = some ' ' then value.tail else value)

section
variable {ν : Type} (number : Text → Option ν)

/-- One turn of the loop over the lines. -/
def onLine (block : Block ν) (rawLine : Text) : Block ν :=
  if rawLine.isEmpty || rawLine.head? == some ':' then block
  else
    let (field, value) := fieldOf rawLine
    if field = "event".toList then { block with eventName := value }
    else if field = "data".toList then
      { block with dataLines := block.dataLines ++ [value], hasData := true }
    else if field = "id".toList then { block with id := some value }
    else if field = "retry".toList then { block with retry := (number value).or block.retry }
    else block

def parseSseBlock (block : Text) : Option (RawSseEvent ν) :=
  let read := (Cutting.split lineEnds block).foldl (onLine number) {}
  if !read.hasData && read.eventName = "message".toList then none
  else
    some ⟨read.eventName, List.intercalate ['\n'] read.dataLines, read.id, read.retry⟩

def parseSseChunks (text : Text) : List (RawSseEvent ν) :=
  ((Cutting.split blankLines text).filter (!isBlank ·)).filterMap (parseSseBlock number)

end

/-! ## Events -/

structure MailcueEvent (ν : Type) where
  type : Text
  data : Json
  id : Option Text := none
  retry : Option ν := none

/-- It is never null. -/
def toMailcueEvent {ν : Type} (parse : Text → Option Json) (ev : RawSseEvent ν) :
    MailcueEvent ν where
  type := ev.event
  data :=
    if ev.data.isEmpty then .str ev.data
    else ((parse ev.data).map Case.camelize).getD (.str ev.data)
  id := ev.id
  retry := ev.retry

/-! ## Streams -/

def byteOrderMark : Char := '\uFEFF'

/-- A `TextDecoder`: the byte order mark is left out of the front of what it decodes. -/
structure TextDecoder where
  decoder : Utf8.Decoder := .start
  bomSeen : Bool := false

/-- `decode(value, { stream: true })` -/
def TextDecoder.decode (decoder : TextDecoder) (value : Bytes) : TextDecoder × Text :=
  let (next, text) := decoder.decoder.run value
  if decoder.bomSeen then (⟨next, true⟩, text)
  else
    match text with
    | [] => (⟨next, false⟩, [])
    | c :: rest => (⟨next, true⟩, if c = byteOrderMark then rest else c :: rest)

/-- Where a marker begins; nothing for -1. -/
def indexOf (marker : Text) : Text → Option Nat
  | [] => none
  | c :: text =>
    if marker.isPrefixOf (c :: text) then some 0 else (indexOf marker text).map (· + 1)

def findBoundary (buffer : Text) : Option Nat :=
  match indexOf "\n\n".toList buffer, indexOf "\r\n\r\n".toList buffer with
  | none, b => b
  | a, none => a
  | some a, some b => some (min a b)

def boundaryLength (buffer : Text) (idx : Nat) : Nat :=
  if "\r\n\r\n".toList.isPrefixOf (buffer.drop idx) then 4 else 2

/-- The loop over the boundaries: the blocks it takes off the buffer, and what is left. -/
def takeBlocks : Nat → Text → List Text × Text
  | 0, buffer => ([], buffer)
  | n + 1, buffer =>
    match findBoundary buffer with
    | none => ([], buffer)
    | some idx =>
      let block := buffer.take idx
      let (blocks, last) := takeBlocks n (buffer.drop (idx + boundaryLength buffer idx))
      (block :: blocks, last)

section
variable {ν : Type} (number : Text → Option ν) (parse : Text → Option Json)

/-- The event of a block, if it has one. -/
def blockEvent (block : Text) : Option (MailcueEvent ν) :=
  (parseSseBlock number block).map (toMailcueEvent parse)

/-- The loop of the reader. A boundary is at least two characters long, so that there are no
more of them than the buffer is long. -/
def readLoop (decoder : TextDecoder) (buffer : Text) : List Bytes → List (MailcueEvent ν)
  | [] => if isBlank buffer then [] else (blockEvent number parse buffer).toList
  | value :: values =>
    let (decoder, text) := decoder.decode value
    let buffer := buffer ++ text
    let (blocks, buffer) := takeBlocks buffer.length buffer
    blocks.filterMap (blockEvent number parse) ++ readLoop decoder buffer values

/-- The events of a body that arrives in these chunks. -/
def iterateSseResponse (chunks : List Bytes) : List (MailcueEvent ν) :=
  readLoop number parse {} [] chunks

end

/-! ## The boundaries of a stream -/

def boundaries : List Text := ["\n\n".toList, "\r\n\r\n".toList]

theorem apart_lineEnds : Cutting.Apart lineEnds := ⟨by decide, by decide, by decide⟩

theorem apart_blankLines : Cutting.Apart blankLines := ⟨by decide, by decide, by decide⟩

theorem apart_boundaries : Cutting.Apart boundaries := ⟨by decide, by decide, by decide⟩

/-- The boundary at an index where there is one. -/
def boundaryAt (buffer : Text) (idx : Nat) : Text :=
  if "\r\n\r\n".toList.isPrefixOf (buffer.drop idx) then "\r\n\r\n".toList else "\n\n".toList

theorem boundaryLength_eq (buffer : Text) (idx : Nat) :
    boundaryLength buffer idx = (boundaryAt buffer idx).length := by
  unfold boundaryLength boundaryAt
  split <;> rfl

theorem findBoundary_cons_of_none {c : Char} {text : Text}
    (h : Cutting.separatorAt boundaries (c :: text) = none) :
    findBoundary (c :: text) = (findBoundary text).map (· + 1) := by
  have hnot := Cutting.separatorAt_eq_none.mp h
  have hlf : ¬ "\n\n".toList.isPrefixOf (c :: text) = true := fun hp =>
    hnot _ (by decide) (List.isPrefixOf_iff_prefix.mp hp)
  have hcrlf : ¬ "\r\n\r\n".toList.isPrefixOf (c :: text) = true := fun hp =>
    hnot _ (by decide) (List.isPrefixOf_iff_prefix.mp hp)
  unfold findBoundary
  rw [indexOf, if_neg hlf, indexOf, if_neg hcrlf]
  cases indexOf "\n\n".toList text with
  | none => cases indexOf "\r\n\r\n".toList text <;> rfl
  | some a =>
    cases indexOf "\r\n\r\n".toList text with
    | none => rfl
    | some b => simp [Nat.succ_min_succ]

theorem findBoundary_cons_of_some {c : Char} {text sep : Text}
    (h : Cutting.separatorAt boundaries (c :: text) = some sep) :
    findBoundary (c :: text) = some 0 ∧ boundaryAt (c :: text) 0 = sep := by
  obtain ⟨hmem, hprefix⟩ := Cutting.separatorAt_some h
  have hprefix := List.isPrefixOf_iff_prefix.mpr hprefix
  unfold findBoundary boundaryAt
  rw [indexOf, indexOf, List.drop_zero]
  cases List.mem_cons.mp hmem with
  | inl heq =>
    have hother : ¬ "\r\n\r\n".toList.isPrefixOf (c :: text) = true := by
      intro hboth
      have hlf : c = '\n' := by
        rw [heq] at hprefix
        simp [List.isPrefixOf] at hprefix
        exact hprefix.1.symm
      simp [List.isPrefixOf, hlf] at hboth
    rw [heq] at hprefix ⊢
    rw [if_pos hprefix, if_neg hother, if_neg hother]
    refine ⟨?_, rfl⟩
    cases indexOf "\r\n\r\n".toList text <;> simp
  | inr hlast =>
    obtain rfl := List.mem_singleton.mp hlast
    rw [if_pos hprefix, if_pos hprefix]
    refine ⟨?_, rfl⟩
    cases (if "\n\n".toList.isPrefixOf (c :: text) then some 0
      else (indexOf "\n\n".toList text).map (· + 1)) <;> simp

/-- The boundary that is found is the first separator. -/
theorem cut_boundaries (buffer : Text) :
    Cutting.cut boundaries buffer =
      (findBoundary buffer).map fun idx =>
        (⟨buffer.take idx, boundaryAt buffer idx⟩,
          buffer.drop (idx + boundaryLength buffer idx)) := by
  induction buffer with
  | nil => rfl
  | cons c text ih =>
    rw [Cutting.cut]
    cases hat : Cutting.separatorAt boundaries (c :: text) with
    | some sep =>
      obtain ⟨hfound, hboundary⟩ := findBoundary_cons_of_some hat
      rw [hfound, Option.map_some, boundaryLength_eq, hboundary, List.take_zero, Nat.zero_add]
    | none =>
      rw [findBoundary_cons_of_none hat, ih]
      cases findBoundary text with
      | none => rfl
      | some idx =>
        have hsame : boundaryAt (c :: text) (idx + 1) = boundaryAt text idx := rfl
        have hlength : idx + 1 + boundaryLength (c :: text) (idx + 1) =
            idx + boundaryLength text idx + 1 := by
          rw [boundaryLength_eq, boundaryLength_eq, hsame]
          omega
        simp only [Option.map_some, hsame, hlength, List.take_succ_cons, List.drop_succ_cons]

theorem takeBlocks_eq (n : Nat) (buffer : Text) :
    takeBlocks n buffer =
      ((Cutting.drainFrom boundaries n buffer).1.map Cutting.Piece.block,
        (Cutting.drainFrom boundaries n buffer).2) := by
  induction n generalizing buffer with
  | zero => rfl
  | succ n ih =>
    rw [takeBlocks, Cutting.drainFrom, cut_boundaries]
    cases findBoundary buffer with
    | none => rfl
    | some idx =>
      rw [Option.map_some]
      simp only [ih, List.map_cons]

/-! ## Decoding in chunks -/

def afterMark : Text → Text
  | [] => []
  | c :: rest => if c = byteOrderMark then rest else c :: rest

/-- What the decoder makes of each chunk. -/
def TextDecoder.texts (decoder : TextDecoder) : List Bytes → List Text
  | [] => []
  | value :: values => (decoder.decode value).2 :: (decoder.decode value).1.texts values

theorem TextDecoder.decode_seen (decoder : Utf8.Decoder) (value : Bytes) :
    TextDecoder.decode ⟨decoder, true⟩ value =
      (⟨(decoder.run value).1, true⟩, (decoder.run value).2) := rfl

theorem TextDecoder.flatten_texts_seen (decoder : Utf8.Decoder) (chunks : List Bytes) :
    (TextDecoder.texts ⟨decoder, true⟩ chunks).flatten = (decoder.run chunks.flatten).2 := by
  induction chunks generalizing decoder with
  | nil => rfl
  | cons value values ih =>
    rw [texts, decode_seen, List.flatten_cons, List.flatten_cons, ih, Utf8.Decoder.run_append]

theorem TextDecoder.flatten_texts (decoder : Utf8.Decoder) (chunks : List Bytes) :
    (TextDecoder.texts ⟨decoder, false⟩ chunks).flatten =
      afterMark (decoder.run chunks.flatten).2 := by
  induction chunks generalizing decoder with
  | nil => rfl
  | cons value values ih =>
    rw [texts, List.flatten_cons, List.flatten_cons, Utf8.Decoder.run_append]
    cases hrun : (decoder.run value).2 with
    | nil =>
      have hdecode : TextDecoder.decode ⟨decoder, false⟩ value =
          (⟨(decoder.run value).1, false⟩, []) := by
        simp [decode, hrun]
      rw [hdecode, ih, List.nil_append, List.nil_append]
    | cons c rest =>
      have hdecode : TextDecoder.decode ⟨decoder, false⟩ value =
          (⟨(decoder.run value).1, true⟩, afterMark (c :: rest)) := by
        simp [decode, hrun, afterMark]
      rw [hdecode, flatten_texts_seen]
      rw [List.cons_append, afterMark, afterMark]
      split
      · rfl
      · rw [List.cons_append]

/-! ## Blank blocks -/

section
variable {ν : Type} (number : Text → Option ν) (parse : Text → Option Json)

theorem onLine_of_blank (block : Block ν) {rawLine : Text} (h : isBlank rawLine = true) :
    onLine number block rawLine = block := by
  have hall : ∀ c ∈ rawLine, isTrimmed c = true := List.all_eq_true.mp h
  have hnot : ∀ name : Text, (∃ c ∈ name, isTrimmed c = false) → rawLine ≠ name := by
    intro name hname heq
    obtain ⟨c, hc, hfalse⟩ := hname
    rw [hall c (heq ▸ hc)] at hfalse
    cases hfalse
  have hcolon : ∀ c ∈ rawLine, (c != ':') = true := by
    intro c hc
    apply bne_iff_ne.mpr
    intro heq
    have := hall c hc
    rw [heq] at this
    exact absurd this (by decide)
  have hfield : fieldOf rawLine = (rawLine, []) := by
    rw [fieldOf, List.dropWhile_eq_nil_iff.mpr hcolon]
  unfold onLine
  rw [hfield]
  split
  · rfl
  · simp only
    rw [if_neg (hnot _ ⟨'e', by decide, by decide⟩), if_neg (hnot _ ⟨'d', by decide, by decide⟩),
      if_neg (hnot _ ⟨'i', by decide, by decide⟩), if_neg (hnot _ ⟨'r', by decide, by decide⟩)]

/-- A blank block has no event. -/
theorem parseSseBlock_of_blank {block : Text} (h : isBlank block = true) :
    parseSseBlock number block = none := by
  have hlines : ∀ line ∈ Cutting.split lineEnds block, isBlank line = true := by
    intro line hline
    apply List.all_eq_true.mpr
    intro c hc
    exact List.all_eq_true.mp h c (Cutting.mem_of_mem_split apart_lineEnds hline hc)
  have hfold : ∀ lines : List Text, (∀ line ∈ lines, isBlank line = true) →
      lines.foldl (onLine number) {} = {} := by
    intro lines hlines
    induction lines with
    | nil => rfl
    | cons line lines ih =>
      obtain ⟨hline, hrest⟩ := List.forall_mem_cons.mp hlines
      rw [List.foldl_cons, onLine_of_blank number {} hline, ih hrest]
  unfold parseSseBlock
  rw [hfold _ hlines]
  rfl

/-! ## Reading a stream and reading a text -/

theorem parseSseChunks_eq (text : Text) :
    (parseSseChunks number text).map (toMailcueEvent parse) =
      (Cutting.split blankLines text).filterMap (blockEvent number parse) := by
  unfold parseSseChunks
  rw [List.filterMap_filter, List.map_filterMap]
  congr 1
  funext block
  unfold blockEvent
  cases hblank : isBlank block with
  | true => simp [parseSseBlock_of_blank number hblank]
  | false => simp

theorem readLoop_eq (decoder : TextDecoder) (chunks : List Bytes) {buffer : Text}
    (hbuffer : Cutting.cut boundaries buffer = none) :
    readLoop number parse decoder buffer chunks =
      (Cutting.split boundaries (buffer ++ (decoder.texts chunks).flatten)).filterMap
        (blockEvent number parse) := by
  unfold Cutting.split
  rw [← Cutting.feedAll_eq apart_boundaries (decoder.texts chunks) hbuffer, List.filterMap_append]
  clear hbuffer
  induction chunks generalizing decoder buffer with
  | nil =>
    have hlast : [buffer].filterMap (blockEvent number parse) =
        (blockEvent number parse buffer).toList := by
      cases hevent : blockEvent number parse buffer <;> simp [hevent]
    rw [readLoop, TextDecoder.texts, Cutting.feedAll, List.map_nil, List.filterMap_nil,
      List.nil_append, hlast]
    split
    · rename_i hblank
      rw [blockEvent, parseSseBlock_of_blank number hblank]
      rfl
    · rfl
  | cons value values ih =>
    rw [readLoop, TextDecoder.texts, Cutting.feedAll]
    simp only [takeBlocks_eq, ih, List.map_append, List.filterMap_append, List.append_assoc]
    rfl

/-- How the body arrives makes no difference, whatever octets it is of. -/
theorem iterateSseResponse_eq (chunks : List Bytes) :
    iterateSseResponse number parse chunks =
      (Cutting.split boundaries (afterMark (Utf8.Decoder.start.run chunks.flatten).2)).filterMap
        (blockEvent number parse) := by
  rw [iterateSseResponse, readLoop_eq number parse {} chunks rfl, List.nil_append]
  exact congrArg (fun text => (Cutting.split boundaries text).filterMap _)
    (TextDecoder.flatten_texts .start chunks)

/-- The separators that `parseSseChunks` cuts a text at. -/
def separatorsOf (text : Text) : List Text :=
  (Cutting.drain blankLines text).1.map Cutting.Piece.separator

/-- Cut at the same places, a body and its text have the same events. -/
theorem iterateSseResponse_of_uniform {text : Text} {chunks : List Bytes}
    (hchunks : chunks.flatten = Utf8.encode text) (hmark : text.head? ≠ some byteOrderMark)
    (hseparators : ∀ sep ∈ separatorsOf text,
      sep = "\n\n".toList ∨ sep = "\r\n\r\n".toList) :
    iterateSseResponse number parse chunks =
      (parseSseChunks number text).map (toMailcueEvent parse) := by
  have hafter : afterMark text = text := by
    cases text with
    | nil => rfl
    | cons c rest =>
      have hc : c ≠ byteOrderMark := fun heq => hmark (congrArg some heq)
      rw [afterMark, if_neg hc]
  have hmem : ∀ piece ∈ (Cutting.drain blankLines text).1, piece.separator ∈ boundaries := by
    intro piece hpiece
    have hsep := hseparators piece.separator (List.mem_map_of_mem hpiece)
    simpa [boundaries] using hsep
  have hsame : Cutting.drain boundaries text = Cutting.drain blankLines text :=
    Cutting.drain_of_subset apart_blankLines apart_boundaries (by decide) hmem
  rw [iterateSseResponse_eq, hchunks, Utf8.Decoder.run_encode, hafter, parseSseChunks_eq,
    Cutting.split, hsame, Cutting.split]

end

def twoEvents : Text := "data: \u00E9\r\n\r\ndata: b\n\n".toList

/-- A chunk ends in the middle of a character, and another in the middle of a separator. -/
theorem iterateSseResponse_twoEvents :
    iterateSseResponse (fun _ => (none : Option Nat)) (fun _ => none)
        [(Utf8.encode twoEvents).take 7, ((Utf8.encode twoEvents).drop 7).take 3,
          (Utf8.encode twoEvents).drop 10] =
      (parseSseChunks (fun _ => none) twoEvents).map (toMailcueEvent fun _ => none) :=
  iterateSseResponse_of_uniform _ _ (by decide) (by decide) (by decide)

def mixedEnds : Text := "data: a\n\r\ndata: b\n\n".toList

/-- Two events of a text whose line ends are mixed are one where it is streamed. -/
theorem mixedEnds_merged :
    ¬ ∀ (text : Text) (chunks : List Bytes), chunks.flatten = Utf8.encode text →
      iterateSseResponse (fun _ => (none : Option Nat)) (fun _ => none) chunks =
        (parseSseChunks (fun _ => none) text).map (toMailcueEvent fun _ => none) := by
  intro h
  have hlength := congrArg List.length (h mixedEnds [Utf8.encode mixedEnds] (by decide))
  have hstream : (iterateSseResponse (fun _ => (none : Option Nat)) (fun _ => none)
      [Utf8.encode mixedEnds]).length = 1 := by decide
  have hbatch : ((parseSseChunks (fun _ => (none : Option Nat)) mixedEnds).map
      (toMailcueEvent fun _ => none)).length = 2 := by decide
  rw [hstream, hbatch] at hlength
  cases hlength

end MailCue.Sdk.Events
