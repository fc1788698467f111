import Mathlib.Data.List.GetD
import MailCue.Lib.Lines
import MailCue.Lib.Text
import MailCue.Lib.Utf8
import MailCue.Tunnel.Edge.SmtpClient

/-!
# Reading a reply

`read_reply_inner` of tunnel/crates/edge/src/smtp_client.rs on the octets a host sends,
line by line as `read_line` gives them. A slice of a line that begins or ends inside a
character panics. `debugStr` is the `Debug` form of a string.
-/
namespace MailCue.Tunnel.Edge.SmtpClient
open MailCue.Lib

/-! ## The stream -/

/-- What becomes of a read behind the last octet. -/
inductive Ending where
  | closed
  | stalled
  | failed (e : String)

structure Stream where
  octets : Bytes
  ending : Ending

def isLf (octet : UInt8) : Bool := octet = 10

def endsInLf (line : Bytes) : Bool := line.getLast?.any isLf

/-- `read_line` decodes a whole line. -/
def decodeLine (line : Bytes) : Except String Text :=
  match Utf8.decode? line with
  | some text => .ok text
  | none => .error "stream did not contain valid UTF-8"

/-- What `read_line` returns, call by call; a stream that is closed ends in a line without
LF, if there is one, and gives nothing more. -/
def Stream.reads (s : Stream) : List (Except String Text) :=
  let lines := Lines.splitLines isLf s.octets
  match s.ending with
  | .closed => lines.map decodeLine
  | .stalled => (lines.takeWhile endsInLf).map decodeLine ++ [.error "smtp read timeout"]
  | .failed e => (lines.takeWhile endsInLf).map decodeLine ++ [.error e]

/-! ## The reader -/

def digitsValue (digits : Text) : Nat := digits.foldl (fun n c => 10 * n + (c.toNat - 48)) 0

def stripPlus : Text → Text
  | '+' :: rest => rest
  | s => s

/-- `str::parse::<u16>`, which takes a sign. -/
def parseU16 (s : Text) : Option UInt16 :=
  let digits := stripPlus s
  if digits = [] || !digits.all Char.isDigit then none
  else if digitsValue digits < 65536 then some (.ofNat (digitsValue digits))
  else none

/-- `trim_end_matches(['\r', '\n'])`. -/
def trimLineEnd (text : Text) : Text := text.rdropWhile fun c => c = '\r' || c = '\n'

inductive LineOutcome where
  | failed (e : String)
  | panic
  | more (code : UInt16) (rest : Text)
  | last (code : UInt16) (rest : Text)

/-- The body of the loop. -/
def readReplyLine (debugStr : String → String) (code : Option UInt16) (line : Text) :
    LineOutcome :=
  if Utf8.size line < 4 then .failed s!"malformed smtp reply: {debugStr (String.ofList line)}"
  else
    match Utf8.splitAt? 3 line with
    | none => .panic
    | some (field, _) =>
      match parseU16 field with
      | none => .failed "smtp reply code"
      | some this_code =>
        match code.filter (· ≠ this_code) with
        | some prev => .failed s!"inconsistent multiline reply codes: {prev} vs {this_code}"
        | none =>
          let sep := (Utf8.encode line).getD 3 0
          match Utf8.splitAt? 4 line with
          | none => .panic
          | some (_, tail) =>
            let rest := trimLineEnd tail
            if sep = 32 then .last this_code rest
            else if sep ≠ 45 then .failed s!"malformed smtp reply separator: {sep}"
            else .more this_code rest

/-- The text gets a line feed only where there is a text already. -/
def pushLine (text rest : Text) : Text := (if text = [] then [] else text ++ ['\n']) ++ rest

inductive ReadOutcome where
  | ok (reply : Reply)
  | error (e : String)
  | panic
  deriving DecidableEq

def readReplyLoop (debugStr : String → String) :
    Option UInt16 → Text → List (Except String Text) → ReadOutcome
  | _, _, [] => .error "smtp peer closed before final reply"
  | _, _, .error e :: _ => .error e
  | code, text, .ok line :: reads =>
    match readReplyLine debugStr code line with
    | .failed e => .error e
    | .panic => .panic
    | .more this_code rest => readReplyLoop debugStr (some this_code) (pushLine text rest) reads
    | .last this_code rest => .ok ⟨this_code, String.ofList (pushLine text rest)⟩

def readReplyInner (debugStr : String → String) (s : Stream) : ReadOutcome :=
  readReplyLoop debugStr none [] s.reads

/-! ## Replies -/

def CRLF : Text := ['\r', '\n']

/-- The three digits of a reply code. -/
def ThreeDigits (digits : Text) : Prop := digits.length = 3 ∧ ∀ c ∈ digits, c.isDigit = true

/-- A line of a reply that is not the last, and the last, which has the code alone or a
space behind it. -/
def midLine (digits text : Text) : Text := digits ++ '-' :: text ++ CRLF

def lastLine (digits : Text) (text : Option Text) : Text :=
  digits ++ text.elim [] (' ' :: ·) ++ CRLF

def replyLines (digits : Text) (texts : List Text) (last : Option Text) : List Text :=
  texts.map (midLine digits) ++ [lastLine digits last]

def IsReply (reply : Reply) (lines : List Text) : Prop :=
  ∃ (digits : Text) (texts : List Text) (last : Option Text), ThreeDigits digits ∧
    (∀ text ∈ texts, Unbroken text) ∧ (∀ text ∈ last, Unbroken text) ∧
    reply.code.toNat = digitsValue digits ∧
    reply.text.toList = List.intercalate ['\n'] (texts ++ [last.getD []]) ∧
    lines = replyLines digits texts last

def Stream.StartsWith (s : Stream) (reply : Reply) : Prop :=
  ∃ lines, IsReply reply lines ∧ Utf8.encode lines.flatten <+: s.octets

/-- The reader returns, and it returns a reply exactly where the stream starts with it. -/
def Exact (debugStr : String → String) (s : Stream) : Prop :=
  readReplyInner debugStr s ≠ .panic ∧
    ∀ reply, readReplyInner debugStr s = .ok reply ↔ s.StartsWith reply

/-! ## Lines of the stream -/

/-- A line with its LF and no other. -/
def Terminated (line : Text) : Prop := ∃ body, line = body ++ ['\n'] ∧ '\n' ∉ body

theorem Terminated.ended {line : Text} (h : Terminated line) :
    Lines.Ended isLf (Utf8.encode line) := by
  obtain ⟨body, rfl, hbody⟩ := h
  refine ⟨Utf8.encode body, 10, Utf8.encode_append body ['\n'], rfl, fun d hd => ?_⟩
  rw [isLf, decide_eq_false_iff_not]
  rintro rfl
  exact hbody ((@Utf8.mem_encode_iff '\n' 10 rfl (by decide) body).mp hd)

theorem Terminated.endsInLf {line : Text} (h : Terminated line) :
    endsInLf (Utf8.encode line) = true := by
  obtain ⟨body, c, hline, hc, -⟩ := h.ended
  rw [SmtpClient.endsInLf, hline, List.getLast?_concat]
  exact hc

theorem decodeLine_eq_ok_iff {line : Bytes} {text : Text} :
    decodeLine line = .ok text ↔ line = Utf8.encode text := by
  rw [← Utf8.decode?_eq_some_iff, decodeLine]
  cases Utf8.decode? line with
  | none => simp
  | some text' => simp

theorem splitLines_encode {lines : List Text} (h : ∀ line ∈ lines, Terminated line)
    (rest : Bytes) : Lines.splitLines isLf (Utf8.encode lines.flatten ++ rest) =
      lines.map Utf8.encode ++ Lines.splitLines isLf rest := by
  induction lines with
  | nil => rfl
  | cons line lines ih =>
    obtain ⟨hline, hlines⟩ := List.forall_mem_cons.mp h
    rw [List.flatten_cons, Utf8.encode_append, List.append_assoc,
      Lines.splitLines_ended hline.ended, ih hlines]
    rfl

theorem map_decodeLine (lines : List Text) :
    (lines.map Utf8.encode).map decodeLine = lines.map .ok := by
  rw [List.map_map]
  exact List.map_congr_left fun line _ => decodeLine_eq_ok_iff.mpr rfl

theorem eq_map_encode {front : List Bytes} {lines : List Text}
    (h : front.map decodeLine = lines.map .ok) : front = lines.map Utf8.encode := by
  induction front generalizing lines with
  | nil =>
    rw [List.map_nil] at h
    rw [List.map_eq_nil_iff.mp h.symm]
    rfl
  | cons octets front ih =>
    cases lines with
    | nil => cases h
    | cons line lines =>
      obtain ⟨hline, hrest⟩ := List.cons.inj h
      rw [decodeLine_eq_ok_iff.mp hline, ih hrest]
      rfl

/-- Lines at the front of the stream are what is read first. -/
theorem Stream.reads_of_prefix (s : Stream) {lines : List Text}
    (hlines : ∀ line ∈ lines, Terminated line) (h : Utf8.encode lines.flatten <+: s.octets) :
    lines.map .ok <+: s.reads := by
  obtain ⟨rest, hrest⟩ := h
  have hsplit := splitLines_encode hlines rest
  rw [hrest] at hsplit
  have hfront : lines.map Except.ok <+: (Lines.splitLines isLf s.octets).map decodeLine := by
    rw [hsplit, List.map_append, map_decodeLine]
    exact List.prefix_append _ _
  have hended : lines.map Except.ok <+:
      ((Lines.splitLines isLf s.octets).takeWhile endsInLf).map decodeLine := by
    have hall : ∀ octets ∈ lines.map Utf8.encode, endsInLf octets = true := by
      intro octets hoctets
      obtain ⟨line, hline, rfl⟩ := List.mem_map.mp hoctets
      exact (hlines line hline).endsInLf
    rw [hsplit, List.takeWhile_append_of_pos hall, List.map_append, map_decodeLine]
    exact List.prefix_append _ _
  unfold Stream.reads
  cases s.ending with
  | closed => exact hfront
  | stalled => exact hended.trans (List.prefix_append _ _)
  | failed e => exact hended.trans (List.prefix_append _ _)

/-- Lines that are read stand at the front of the stream. -/
theorem Stream.prefix_of_reads (s : Stream) {lines : List Text} (h : lines.map .ok <+: s.reads) :
    Utf8.encode lines.flatten <+: s.octets := by
  have hlines : lines.map Except.ok <+: (Lines.splitLines isLf s.octets).map decodeLine := by
    have hstop : ∀ e : String, lines.map Except.ok <+:
        ((Lines.splitLines isLf s.octets).takeWhile endsInLf).map decodeLine ++ [.error e] →
        lines.map Except.ok <+: (Lines.splitLines isLf s.octets).map decodeLine := by
      intro e hprefix
      rcases List.prefix_concat_iff.mp hprefix with heq | hprefix
      · have herror : (Except.error e : Except String Text) ∈ lines.map Except.ok := by
          rw [heq]
          exact List.mem_append_right _ (List.mem_singleton_self _)
        obtain ⟨line, -, hline⟩ := List.mem_map.mp herror
        cases hline
      · exact hprefix.trans ((List.takeWhile_prefix _).map _)
    unfold Stream.reads at h
    revert h
    cases s.ending with
    | closed => exact fun h => h
    | stalled => exact hstop _
    | failed e => exact hstop e
  obtain ⟨more, hmore⟩ := hlines
  obtain ⟨front, back, hsplit, hfront, -⟩ := List.map_eq_append_iff.mp hmore.symm
  refine ⟨back.flatten, ?_⟩
  have hflatten := @Lines.flatten_splitLines _ isLf s.octets
  rwa [hsplit, List.flatten_append, eq_map_encode hfront, ← Utf8.encode_flatten] at hflatten

/-! ## One line -/

/-- Three characters that are read as the code, a separator, and the rest. -/
def Coded (code : UInt16) (sep : Char) (tail line : Text) : Prop :=
  ∃ field, field.length = 3 ∧ parseU16 field = some code ∧ line = field ++ sep :: tail

/-- The code is that of the lines before. -/
def Agrees (prev : Option UInt16) (code : UInt16) : Prop := prev.filter (· ≠ code) = none

/-- Octet 3 or 4 of the line lies inside a character, and the reader gets to slice there. -/
def Panics (prev : Option UInt16) (line : Text) : Prop :=
  4 ≤ Utf8.size line ∧ (Utf8.splitAt? 3 line = none ∨
    ∃ code sep tail, Coded code sep tail line ∧ Agrees prev code ∧ sep.utf8Size ≠ 1)

theorem digit_bounds {c : Char} (h : c.isDigit = true) : 48 ≤ c.toNat ∧ c.toNat ≤ 57 := by
  rw [Char.isDigit, Bool.and_eq_true, decide_eq_true_iff, decide_eq_true_iff] at h
  exact ⟨h.1, h.2⟩

theorem size_of_parseU16 {field : Text} {code : UInt16} (h : parseU16 field = some code) :
    Utf8.size field = field.length := by
  have hdigit : ∀ c : Char, c.isDigit = true → c.utf8Size = 1 := by
    intro c hc
    have hle : c.val.toNat ≤ 127 := Nat.le_trans (digit_bounds hc).2 (by decide)
    exact Char.utf8Size_eq_one_iff.mpr (UInt32.le_iff_toNat_le.mpr hle)
  have hsign : ∀ c ∈ field, c = '+' ∨ c ∈ stripPlus field := by
    intro c hc
    unfold stripPlus
    split
    · exact List.mem_cons.mp hc
    · exact .inr hc
  unfold parseU16 at h
  dsimp only at h
  split at h
  · cases h
  · rename_i hdigits
    simp only [Bool.or_eq_true, decide_eq_true_eq, Bool.not_eq_true', not_or,
      Bool.not_eq_false, List.all_eq_true] at hdigits
    refine Utf8.size_of_single fun c hc => ?_
    rcases hsign c hc with rfl | hmem
    · decide
    · exact hdigit c (hdigits.2 c hmem)

theorem coded_unique {field field' tail tail' : Text} {sep sep' : Char}
    (hlength : field.length = field'.length) (h : field ++ sep :: tail = field' ++ sep' :: tail') :
    field = field' ∧ sep = sep' ∧ tail = tail' := by
  obtain ⟨hfield, hrest⟩ := List.append_inj h hlength
  exact ⟨hfield, List.cons.inj hrest⟩

/-- The octet of a one-octet character is that of a blank for the blank only. -/
theorem encode_head {c c' : Char} {octet : UInt8} (hc' : String.utf8EncodeChar c' = [octet])
    (hc : c.utf8Size = 1) (tail : Text) : (Utf8.encode (c :: tail)).getD 0 0 = octet ↔ c = c' := by
  obtain ⟨o, ho⟩ := List.length_eq_one_iff.mp ((String.length_utf8EncodeChar c).trans hc)
  have hhead : (Utf8.encode (c :: tail)).getD 0 0 = o := by
    rw [Utf8.encode, List.flatMap_cons, ho]
    rfl
  rw [hhead]
  constructor
  · rintro rfl
    have hsame : Utf8.encode [c] = Utf8.encode [c'] := by
      rw [Utf8.encode, Utf8.encode, List.flatMap_singleton, List.flatMap_singleton, ho, hc']
    exact List.singleton_inj.mp (Utf8.encode_injective hsame)
  · rintro rfl
    exact List.singleton_inj.mp (ho.symm.trans hc')

/-- A slice at octet 4 is possible behind a separator of one octet. -/
theorem splitAt?_four {field tail : Text} {sep : Char} (hfield : Utf8.size field = 3) :
    Utf8.splitAt? 4 (field ++ sep :: tail) =
      if sep.utf8Size = 1 then some (field ++ [sep], tail) else none := by
  split
  · rename_i hsep
    refine Utf8.splitAt?_eq_some_iff.mpr ⟨by simp, ?_⟩
    rw [Utf8.size_append, Utf8.size_cons, Utf8.size_nil, hfield, hsep]
  · rename_i hsep
    by_contra hsome
    obtain ⟨⟨front, back⟩, hsplit⟩ := Option.ne_none_iff_exists'.mp hsome
    obtain ⟨happend, hsize⟩ := Utf8.splitAt?_eq_some_iff.mp hsplit
    rcases List.append_eq_append_iff.mp happend with ⟨inner, hfront, hrest⟩ | ⟨inner, hinner, -⟩
    · subst hfront
      rw [Utf8.size_append, hfield] at hsize
      cases inner with
      | nil => simp at hsize
      | cons c inner =>
        obtain ⟨rfl, -⟩ := List.cons.inj hrest
        have hpos := sep.utf8Size_pos
        rw [Utf8.size_cons] at hsize
        omega
    · rw [hinner, Utf8.size_append] at hfield
      omega

section
variable {debugStr : String → String} {prev : Option UInt16}

theorem readReplyLine_coded {field tail : Text} {sep : Char} {code : UInt16}
    (hlength : field.length = 3) (hparse : parseU16 field = some code) :
    readReplyLine debugStr prev (field ++ sep :: tail) =
      match prev.filter (· ≠ code) with
      | some prev => .failed s!"inconsistent multiline reply codes: {prev} vs {code}"
      | none =>
        if sep.utf8Size ≠ 1 then .panic
        else if sep = ' ' then .last code (trimLineEnd tail)
        else if sep = '-' then .more code (trimLineEnd tail)
        else .failed
          s!"malformed smtp reply separator: {(Utf8.encode (field ++ sep :: tail)).getD 3 0}" := by
  have hfield : Utf8.size field = 3 := (size_of_parseU16 hparse).trans hlength
  have hlong : ¬ Utf8.size (field ++ sep :: tail) < 4 := by
    have hpos := sep.utf8Size_pos
    rw [Utf8.size_append, Utf8.size_cons]
    omega
  have hthree : Utf8.splitAt? 3 (field ++ sep :: tail) = some (field, sep :: tail) :=
    Utf8.splitAt?_eq_some_iff.mpr ⟨rfl, hfield⟩
  have hsep : (Utf8.encode (field ++ sep :: tail)).getD 3 0 =
      (Utf8.encode (sep :: tail)).getD 0 0 := by
    have hoctets : (Utf8.encode field).length = 3 := hfield
    rw [Utf8.encode_append, List.getD_append_right _ _ _ _ (Nat.le_of_eq hoctets), hoctets]
  unfold readReplyLine
  rw [if_neg hlong, hthree]
  dsimp only
  rw [hparse]
  dsimp only
  cases prev.filter (· ≠ code) with
  | some p => rfl
  | none =>
    dsimp only
    rw [splitAt?_four hfield]
    by_cases hone : sep.utf8Size = 1
    · have hspace := @encode_head sep ' ' 32 rfl hone tail
      have hdash := @encode_head sep '-' 45 rfl hone tail
      rw [← hsep] at hspace hdash
      simp only [hone, if_true, ne_eq, not_true_eq_false, if_false, hspace, hdash]
      by_cases hd : sep = '-'
      · subst hd
        simp
      · simp [hd]
    · simp only [hone, if_false, ne_eq, not_false_eq_true, if_true]

/-- A line without a code fails, or cannot be sliced. -/
theorem readReplyLine_uncoded {line : Text} (h : ∀ code sep tail, ¬ Coded code sep tail line) :
    (∃ e, readReplyLine debugStr prev line = .failed e) ∧
        ¬ (4 ≤ Utf8.size line ∧ Utf8.splitAt? 3 line = none) ∨
      (4 ≤ Utf8.size line ∧ Utf8.splitAt? 3 line = none) ∧
        readReplyLine debugStr prev line = .panic := by
  unfold readReplyLine
  split
  · exact .inl ⟨⟨_, rfl⟩, fun hpanic => by omega⟩
  · rename_i hlong
    cases hthree : Utf8.splitAt? 3 line with
    | none => exact .inr ⟨⟨by omega, rfl⟩, rfl⟩
    | some parts =>
      obtain ⟨field, back⟩ := parts
      obtain ⟨rfl, hsize⟩ := Utf8.splitAt?_eq_some_iff.mp hthree
      cases hparse : parseU16 field with
      | none => exact .inl ⟨⟨_, by dsimp only; rw [hparse]⟩, fun hpanic => nomatch hpanic.2⟩
      | some code =>
        cases back with
        | nil =>
          rw [List.append_nil] at hlong
          omega
        | cons sep tail =>
          exact absurd ⟨field, (size_of_parseU16 hparse).symm.trans hsize, hparse, rfl⟩
            (h code sep tail)

/-- The reader neither goes on behind a line without a code nor returns at it. -/
theorem readReplyLine_uncoded_ne {line : Text} (h : ∀ code sep tail, ¬ Coded code sep tail line)
    (code : UInt16) (rest : Text) : readReplyLine debugStr prev line ≠ .more code rest ∧
      readReplyLine debugStr prev line ≠ .last code rest := by
  rcases @readReplyLine_uncoded debugStr prev line h with ⟨⟨e, hfailed⟩, -⟩ | ⟨-, hpanic⟩
  · rw [hfailed]
    exact ⟨nofun, nofun⟩
  · rw [hpanic]
    exact ⟨nofun, nofun⟩

theorem coded_iff {field tail tail' : Text} {sep sep' : Char} {code code' : UInt16}
    (hlength : field.length = 3) (hparse : parseU16 field = some code) :
    Coded code' sep' tail' (field ++ sep :: tail) ↔ code' = code ∧ sep' = sep ∧ tail' = tail := by
  constructor
  · rintro ⟨field', hlength', hparse', heq⟩
    obtain ⟨rfl, rfl, rfl⟩ := coded_unique (hlength.trans hlength'.symm) heq
    exact ⟨Option.some.inj (hparse'.symm.trans hparse), rfl, rfl⟩
  · rintro ⟨rfl, rfl, rfl⟩
    exact ⟨field, hlength, hparse, rfl⟩

theorem readReplyLine_more_iff {line rest : Text} {code : UInt16} :
    readReplyLine debugStr prev line = .more code rest ↔
      Agrees prev code ∧ ∃ tail, Coded code '-' tail line ∧ rest = trimLineEnd tail := by
  by_cases hcoded : ∃ code sep tail, Coded code sep tail line
  · obtain ⟨code', sep, tail, field, hlength, hparse, rfl⟩ := hcoded
    simp only [coded_iff hlength hparse, readReplyLine_coded hlength hparse]
    constructor
    · intro h
      split at h
      · cases h
      · rename_i hagrees
        split at h
        · cases h
        · split at h
          · cases h
          · split at h
            · rename_i hsep
              cases h
              exact ⟨hagrees, tail, ⟨rfl, hsep.symm, rfl⟩, rfl⟩
            · cases h
    · rintro ⟨hagrees, tail', ⟨rfl, rfl, rfl⟩, rfl⟩
      rw [show prev.filter (· ≠ code) = none from hagrees]
      rfl
  · have hnone : ∀ code sep tail, ¬ Coded code sep tail line := by simpa using hcoded
    refine iff_of_false (readReplyLine_uncoded_ne hnone code rest).1 ?_
    exact fun ⟨_, tail, hline, _⟩ => hnone code '-' tail hline

theorem readReplyLine_last_iff {line rest : Text} {code : UInt16} :
    readReplyLine debugStr prev line = .last code rest ↔
      Agrees prev code ∧ ∃ tail, Coded code ' ' tail line ∧ rest = trimLineEnd tail := by
  by_cases hcoded : ∃ code sep tail, Coded code sep tail line
  · obtain ⟨code', sep, tail, field, hlength, hparse, rfl⟩ := hcoded
    simp only [coded_iff hlength hparse, readReplyLine_coded hlength hparse]
    constructor
    · intro h
      split at h
      · cases h
      · rename_i hagrees
        split at h
        · cases h
        · split at h
          · rename_i hsep
            cases h
            exact ⟨hagrees, tail, ⟨rfl, hsep.symm, rfl⟩, rfl⟩
          · split at h <;> cases h
    · rintro ⟨hagrees, tail', ⟨rfl, rfl, rfl⟩, rfl⟩
      rw [show prev.filter (· ≠ code) = none from hagrees]
      rfl
  · have hnone : ∀ code sep tail, ¬ Coded code sep tail line := by simpa using hcoded
    refine iff_of_false (readReplyLine_uncoded_ne hnone code rest).2 ?_
    exact fun ⟨_, tail, hline, _⟩ => hnone code ' ' tail hline

theorem readReplyLine_panic_iff {line : Text} :
    readReplyLine debugStr prev line = .panic ↔ Panics prev line := by
  by_cases hcoded : ∃ code sep tail, Coded code sep tail line
  · obtain ⟨code', sep, tail, field, hlength, hparse, rfl⟩ := hcoded
    have hfield : Utf8.size field = 3 := (size_of_parseU16 hparse).trans hlength
    have hthree : Utf8.splitAt? 3 (field ++ sep :: tail) = some (field, sep :: tail) :=
      Utf8.splitAt?_eq_some_iff.mpr ⟨rfl, hfield⟩
    have hlong : 4 ≤ Utf8.size (field ++ sep :: tail) := by
      have hpos := sep.utf8Size_pos
      rw [Utf8.size_append, Utf8.size_cons]
      omega
    simp only [Panics, coded_iff hlength hparse, readReplyLine_coded hlength hparse, hthree, hlong,
      true_and, reduceCtorEq, false_or]
    constructor
    · intro h
      split at h
      · cases h
      · rename_i hagrees
        split at h
        · rename_i hsep
          exact ⟨_, _, _, ⟨rfl, rfl, rfl⟩, hagrees, hsep⟩
        · split at h
          · cases h
          · split at h <;> cases h
    · rintro ⟨code, sep', tail', ⟨rfl, rfl, rfl⟩, hagrees, hsep⟩
      rw [show prev.filter (· ≠ code) = none from hagrees]
      exact if_pos hsep
  · have hnone : ∀ code sep tail, ¬ Coded code sep tail line := by simpa using hcoded
    rw [Panics]
    rcases @readReplyLine_uncoded debugStr prev line hnone with
      ⟨⟨e, hfailed⟩, hslices⟩ | ⟨hslices, hpanic⟩
    · rw [hfailed]
      refine iff_of_false nofun ?_
      rintro ⟨hlong, hthree | ⟨code, sep, tail, hline, -⟩⟩
      · exact hslices ⟨hlong, hthree⟩
      · exact hnone code sep tail hline
    · exact iff_of_true hpanic ⟨hslices.1, .inl hslices.2⟩

end

end MailCue.Tunnel.Edge.SmtpClient
