import MailCue.Lib.MailData
import MailCue.Tunnel.Edge.SmtpClient

/-!
# Transparency of the body

What a receiver that takes its lines at CRLF gets from the stream of `write_body`. The
stream is followed from one LF of the message to the next: whatever stands in front of an
LF comes out as one line of the stream, its dot doubled and its own CR taken for the one
the stream needs.
-/
namespace MailCue.Tunnel.Edge.SmtpClient
open MailCue.Lib MailCue.Lib.MailData

/-! ## What the message means -/

/-- The CR in front of an LF belongs to the line ending. -/
def dropCr (body : Bytes) : Bytes := if [13] <:+ body then body.dropLast else body

def normaliseLine (line : Bytes) : Bytes :=
  if [10] <:+ line then dropCr line.dropLast ++ CRLF else line

/-- The message with each LF and each CRLF written CRLF. -/
def normalised (raw : Bytes) : Bytes := (Lines.splitLines isLf raw).flatMap normaliseLine

/-- A final CRLF is added where there is none. -/
def complete (content : Bytes) : Bytes := if CRLF <:+ content then content else content ++ CRLF

theorem not_mem_dropCr {body : Bytes} (h : 10 ∉ body) : 10 ∉ dropCr body := by
  unfold dropCr
  split
  · exact fun hmem => h ((List.dropLast_sublist _).subset hmem)
  · exact h

theorem normaliseLine_lf (body : Bytes) : normaliseLine (body ++ [10]) = dropCr body ++ CRLF := by
  rw [normaliseLine, if_pos (List.suffix_append _ _), List.dropLast_concat]

theorem normaliseLine_open {line : Bytes} (h : 10 ∉ line) : normaliseLine line = line := by
  rw [normaliseLine, if_neg fun hlf => h (hlf.subset List.mem_cons_self)]

theorem normalised_line {body : Bytes} (h : 10 ∉ body) (rest : Bytes) :
    normalised (body ++ [10] ++ rest) = dropCr body ++ CRLF ++ normalised rest := by
  rw [normalised, Lines.splitLines_ended (ended_iff.mpr ⟨body, rfl, h⟩), List.flatMap_cons,
    normaliseLine_lf]
  rfl

theorem normalised_tail {tail : Bytes} (h : 10 ∉ tail) : normalised tail = tail := by
  cases tail with
  | nil => rfl
  | cons c tail =>
    have hopen : Lines.Open isLf (c :: tail) := ⟨by simp, isLf_eq_false.mpr h⟩
    rw [normalised, Lines.splitLines_open hopen, List.flatMap_singleton, normaliseLine_open h]

/-! ## The two passes over one line -/

theorem dotStuffFrom_within (body rest : Bytes) (h : 10 ∉ body) :
    dotStuffFrom false (body ++ 10 :: rest) = body ++ 10 :: dotStuffFrom true rest := by
  induction body with
  | nil => simp [dotStuffFrom]
  | cons b body ih =>
    obtain ⟨hb, hbody⟩ := not_or.mp (mt List.mem_cons.mpr h)
    simp only [List.cons_append, dotStuffFrom, Bool.false_eq_true, false_and, if_false,
      decide_eq_false (Ne.symm hb), ih hbody]

theorem dotStuffFrom_line {body : Bytes} (rest : Bytes) (h : 10 ∉ body) :
    dotStuffFrom true (body ++ 10 :: rest) = stuffLine body ++ 10 :: dotStuffFrom true rest := by
  cases body with
  | nil => simp [dotStuffFrom, stuffLine]
  | cons b body =>
    obtain ⟨hb, hbody⟩ := not_or.mp (mt List.mem_cons.mpr h)
    by_cases hdot : b = 46
    · subst hdot
      simp [dotStuffFrom, stuffLine, dotStuffFrom_within body rest hbody]
    · rw [List.cons_append, dotStuffFrom, if_neg fun hc => hdot hc.2,
        decide_eq_false (Ne.symm hb), dotStuffFrom_within body rest hbody]
      unfold stuffLine
      split
      · rename_i heq
        exact absurd (List.cons.inj heq).1 hdot
      · rfl

theorem dotStuffFrom_tail_within (tail : Bytes) (h : 10 ∉ tail) : dotStuffFrom false tail = tail := by
  induction tail with
  | nil => rfl
  | cons b tail ih =>
    obtain ⟨hb, htail⟩ := not_or.mp (mt List.mem_cons.mpr h)
    simp only [dotStuffFrom, Bool.false_eq_true, false_and, if_false,
      decide_eq_false (Ne.symm hb), ih htail]

theorem dotStuffFrom_tail {tail : Bytes} (h : 10 ∉ tail) :
    dotStuffFrom true tail = stuffLine tail := by
  cases tail with
  | nil => rfl
  | cons b tail =>
    obtain ⟨hb, htail⟩ := not_or.mp (mt List.mem_cons.mpr h)
    by_cases hdot : b = 46
    · subst hdot
      simp [dotStuffFrom, stuffLine, dotStuffFrom_tail_within tail htail]
    · rw [dotStuffFrom, if_neg fun hc => hdot hc.2, decide_eq_false (Ne.symm hb),
        dotStuffFrom_tail_within tail htail]
      unfold stuffLine
      split
      · rename_i heq
        exact absurd (List.cons.inj heq).1 hdot
      · rfl

/-- The CR of the line ending is written once, the line's own or a new one. -/
theorem crlfNormaliseFrom_line (prev : Option UInt8) (body rest : Bytes) (h : 10 ∉ body)
    (hprev : body = [] → prev ≠ some 13) :
    crlfNormaliseFrom prev (body ++ 10 :: rest) =
      dropCr body ++ CRLF ++ crlfNormaliseFrom (some 10) rest := by
  induction body generalizing prev with
  | nil => simp [crlfNormaliseFrom, hprev rfl, dropCr, CRLF]
  | cons b body ih =>
    obtain ⟨hb, hbody⟩ := not_or.mp (mt List.mem_cons.mpr h)
    rw [List.cons_append, crlfNormaliseFrom, if_neg fun hc => hb hc.1.symm]
    by_cases hcr : b = 13 ∧ body = []
    · obtain ⟨rfl, rfl⟩ := hcr
      simp [crlfNormaliseFrom, dropCr, CRLF]
    · have hdrop : dropCr (b :: body) = b :: dropCr body := by
        cases body with
        | nil =>
          have hb13 : (13 : UInt8) ≠ b := fun heq => hcr ⟨heq.symm, rfl⟩
          simp [dropCr, List.suffix_cons_iff, hb13]
        | cons c body =>
          have hsuffix : [13] <:+ b :: c :: body ↔ [13] <:+ c :: body := by
            simp [List.suffix_cons_iff]
          simp only [dropCr, hsuffix, List.dropLast_cons_cons]
          split <;> rfl
      rw [hdrop, ih (some b) hbody fun hnil heq => hcr ⟨Option.some.inj heq, hnil⟩]
      rfl

theorem crlfNormaliseFrom_tail (prev : Option UInt8) {tail : Bytes} (h : 10 ∉ tail) :
    crlfNormaliseFrom prev tail = tail := by
  induction tail generalizing prev with
  | nil => rfl
  | cons b tail ih =>
    obtain ⟨hb, htail⟩ := not_or.mp (mt List.mem_cons.mpr h)
    rw [crlfNormaliseFrom, if_neg fun hc => hb hc.1.symm, ih _ htail]

theorem dropCr_stuffLine (body : Bytes) : dropCr (stuffLine body) = stuffLine (dropCr body) := by
  cases body with
  | nil => rfl
  | cons b body =>
    by_cases hdot : b = 46
    · subst hdot
      have hsuffix : [13] <:+ 46 :: 46 :: body ↔ [13] <:+ 46 :: body := by
        simp [List.suffix_cons_iff]
      simp only [stuffLine, dropCr, hsuffix]
      split
      · rename_i hcr
        cases body with
        | nil => simp [List.suffix_cons_iff] at hcr
        | cons c body => rfl
      · rfl
    · have hkeep : ∀ rest, stuffLine (b :: rest) = b :: rest := by
        intro rest
        unfold stuffLine
        split
        · rename_i heq
          exact absurd (List.cons.inj heq).1 hdot
        · rfl
      rw [hkeep, dropCr]
      split
      · cases body with
        | nil => rfl
        | cons c body => rw [List.dropLast_cons_cons, hkeep]
      · rw [hkeep]

/-! ## The stream -/

/-- The stuffed message is the stuffed lines of the normalised one. -/
theorem dotStuff_pieces (raw : Bytes) (prev : Option UInt8) (hprev : prev ≠ some 13) :
    ∃ lines tail, (∀ line ∈ lines, 10 ∉ line) ∧ 10 ∉ tail ∧
      normalised raw = join lines ++ tail ∧
      crlfNormaliseFrom prev (dotStuffFrom true raw) =
        join (lines.map stuffLine) ++ stuffLine tail := by
  induction raw using (@Lines.lines_induction _ isLf) generalizing prev with
  | tail tail htail =>
    have hlf := isLf_eq_false.mp htail
    refine ⟨[], tail, fun _ hl => (by cases hl), hlf, normalised_tail hlf, ?_⟩
    rw [dotStuffFrom_tail hlf, crlfNormaliseFrom_tail _ (not_mem_stuffLine hlf)]
    rfl
  | line line rest hended ih =>
    obtain ⟨body, rfl, hbody⟩ := ended_iff.mp hended
    obtain ⟨lines, tail, hlines, htail, hmeans, hstuffed⟩ := ih (some 10) (by simp)
    refine ⟨dropCr body :: lines, tail, ?_, htail, ?_, ?_⟩
    · rw [List.forall_mem_cons]
      exact ⟨not_mem_dropCr hbody, hlines⟩
    · rw [normalised_line hbody, hmeans, join_cons]
      simp only [List.append_assoc]
    · have hfirst := crlfNormaliseFrom_line prev (stuffLine body) (dotStuffFrom true rest)
        (not_mem_stuffLine hbody) fun _ => hprev
      rw [List.append_assoc, List.singleton_append, dotStuffFrom_line rest hbody, hfirst, hstuffed,
        dropCr_stuffLine]
      simp only [List.map_cons, join_cons, List.append_assoc]

theorem crlf_suffix_join (lines : List Bytes) : CRLF <:+ join lines ↔ lines ≠ [] := by
  constructor
  · rintro h rfl
    exact absurd h (by decide)
  · intro h
    rw [← List.dropLast_append_getLast h, join_append, join_cons, join_nil, List.append_nil]
    exact List.suffix_append_of_suffix (List.suffix_append _ _)

theorem not_crlf_suffix {tail : Bytes} (hne : tail ≠ []) (h : 10 ∉ tail) (front : Bytes) :
    ¬ CRLF <:+ front ++ tail := by
  intro hcrlf
  have hlast : (front ++ tail).getLast? = some 10 := by
    obtain ⟨before, hbefore⟩ := hcrlf
    rw [← hbefore]
    simp [CRLF]
  rw [List.getLast?_append_of_ne_nil _ hne] at hlast
  exact h (List.mem_of_getLast? hlast)

theorem stuffLine_eq_nil {line : Bytes} : stuffLine line = [] ↔ line = [] := by
  unfold stuffLine
  split <;> simp

theorem writeBody_eq (raw : Bytes) :
    writeBody raw = complete (dotStuff raw) ++ join [[46]] := by
  simp only [writeBody, complete, List.isSuffixOf_iff_suffix]
  rw [show [13, 10] = CRLF from rfl]
  by_cases hsuffix : CRLF <:+ dotStuff raw
  · rw [if_pos hsuffix, if_pos hsuffix, List.append_nil]
    rfl
  · rw [if_neg hsuffix, if_neg hsuffix]
    rfl

theorem complete_closed {lines : List Bytes} (h : lines ≠ []) : complete (join lines) = join lines := by
  rw [complete, if_pos ((crlf_suffix_join lines).mpr h)]

/-- An open last line, or no line at all, is closed. -/
theorem complete_open {lines : List Bytes} {tail : Bytes} (hnil : tail = [] → lines = [])
    (h : 10 ∉ tail) : complete (join lines ++ tail) = join (lines ++ [tail]) := by
  have hnot : ¬ CRLF <:+ join lines ++ tail := by
    by_cases htail : tail = []
    · rw [htail, hnil htail]
      decide
    · exact not_crlf_suffix htail h _
  rw [complete, if_neg hnot, join_append, join_cons, join_nil, List.append_nil, List.append_assoc]

/-- The lines of the completed message are those of the stream, up to their dots. -/
theorem writeBody_lines (raw : Bytes) :
    ∃ lines, (∀ line ∈ lines, 10 ∉ line) ∧ complete (normalised raw) = join lines ∧
      writeBody raw = join (lines.map stuffLine ++ [[46]]) := by
  obtain ⟨lines, tail, hlines, htail, hmeans, hstuffed⟩ := dotStuff_pieces raw none (by simp)
  have hwhole : dotStuff raw = join (lines.map stuffLine) ++ stuffLine tail := hstuffed
  by_cases hclosed : tail = [] ∧ lines ≠ []
  · obtain ⟨rfl, hne⟩ := hclosed
    rw [show stuffLine [] = [] from rfl, List.append_nil] at hwhole
    rw [List.append_nil] at hmeans
    refine ⟨lines, hlines, ?_, ?_⟩
    · rw [hmeans, complete_closed hne]
    · have hmap : lines.map stuffLine ≠ [] := by simpa using hne
      rw [writeBody_eq, hwhole, complete_closed hmap, join_append]
  · have hnil : tail = [] → lines = [] := fun ht => by
      by_contra hne
      exact hclosed ⟨ht, hne⟩
    have hstuffedNil : stuffLine tail = [] → lines.map stuffLine = [] := by
      intro ht
      rw [hnil (stuffLine_eq_nil.mp ht)]
      rfl
    refine ⟨lines ++ [tail], ?_, ?_, ?_⟩
    · intro line hmem
      rcases List.mem_append.mp hmem with hmem | hmem
      · exact hlines line hmem
      · rwa [List.mem_singleton.mp hmem]
    · rw [hmeans, complete_open hnil htail]
    · rw [writeBody_eq, hwhole, complete_open hstuffedNil (not_mem_stuffLine htail), ← join_append,
        List.map_append]
      rfl

/-- The stream ends with its only line that is a dot, and gives the message back with its
line endings normalised and the last line closed. -/
theorem writeBody_transparent (raw : Bytes) :
    (∃ lines, cut (writeBody raw) = (lines ++ [[46]], []) ∧
      ∀ line ∈ lines, line ≠ [46] ∧ 10 ∉ line) ∧
    receive (writeBody raw) = some (complete (normalised raw), []) := by
  obtain ⟨lines, hlines, hmeans, hstream⟩ := writeBody_lines raw
  have hstuffed : ∀ line ∈ lines.map stuffLine, line ≠ [46] ∧ 10 ∉ line := by
    rw [List.forall_mem_map]
    intro line hl
    exact ⟨stuffLine_ne_dot line, not_mem_stuffLine (hlines line hl)⟩
  have hcut : cut (writeBody raw) = (lines.map stuffLine ++ [[46]], []) := by
    have hlf : ∀ line ∈ lines.map stuffLine ++ [[46]], 10 ∉ line := by
      intro line hl
      rcases List.mem_append.mp hl with hl | hl
      · exact (hstuffed line hl).2
      · rw [List.mem_singleton.mp hl]
        decide
    have hjoin := cut_join hlf (show (10 : UInt8) ∉ ([] : Bytes) from List.not_mem_nil)
    rwa [List.append_nil, ← hstream] at hjoin
  refine ⟨⟨lines.map stuffLine, hcut, hstuffed⟩, ?_⟩
  rw [receive, hcut, untilDot_stuffed, hmeans]
  rfl

end MailCue.Tunnel.Edge.SmtpClient
