import MailCue.Lib.MailData
import MailCue.Lib.Utf8
import MailCue.Tunnel.Sidecar.DataSeparation

/-!
# The body reader on a whole stream

`read_data` as a function of all the octets behind the 354 reply: what it returns, and
what it leaves to be read. The reader takes its lines at LF; which of them it takes for
the end of the data is compared with CRLF, dot, CRLF.
-/
namespace MailCue.Tunnel.Sidecar
open MailCue.Lib
open MailCue.Lib.MailData (isLf)

inductive ReadDataError where
  | tooLarge
  | io (e : String)
  deriving DecidableEq, Repr

/-- The loop over the lines still to come. -/
def readDataLines (max : Nat) (buf : Bytes) : List Bytes → Except ReadDataError Bytes × Bytes
  | [] => (.error (.io "client closed during DATA"), [])
  | raw :: lines =>
    match utf8? raw with
    | none => (.error (.io "stream did not contain valid UTF-8"), lines.flatten)
    | some _ =>
      match readDataLine max buf raw with
      | .done => (.ok buf, lines.flatten)
      | .tooLarge => (.error .tooLarge, lines.flatten)
      | .more buf => readDataLines max buf lines

def readData (max : Nat) (stream : Bytes) : Except ReadDataError Bytes × Bytes :=
  readDataLines max [] (Lines.splitLines isLf stream)

theorem utf8?_ne_none (raw : Bytes) : utf8? raw ≠ none ↔ Utf8.Valid raw := by
  rw [← Utf8.isValidUTF8_iff, utf8?, String.fromUTF8?]
  split <;> simp_all

/-! ## Lines of the body -/

def payload (raw : Bytes) : Bytes := unstuff (trimEol raw)

def bodyOf (lines : List Bytes) : Bytes := lines.flatMap fun raw => payload raw ++ CRLF

/-- The reader gets past these lines where it holds `used` octets already. -/
structure Passed (max used : Nat) (lines : List Bytes) : Prop where
  valid : ∀ raw ∈ lines, Utf8.Valid raw
  noDot : ∀ raw ∈ lines, trimEol raw ≠ [46]
  fits : used + (bodyOf lines).length ≤ max

theorem bodyOf_cons (raw : Bytes) (lines : List Bytes) :
    bodyOf (raw :: lines) = payload raw ++ CRLF ++ bodyOf lines := by
  simp [bodyOf]

theorem length_bodyOf_cons (raw : Bytes) (lines : List Bytes) :
    (bodyOf (raw :: lines)).length = (payload raw).length + 2 + (bodyOf lines).length := by
  rw [bodyOf_cons, List.length_append, List.length_append]
  rfl

theorem bodyOf_snoc (lines : List Bytes) (raw : Bytes) :
    bodyOf (lines ++ [raw]) = bodyOf lines ++ payload raw ++ CRLF := by
  simp [bodyOf]

theorem Passed.snoc {max used : Nat} {lines : List Bytes} {raw : Bytes} (h : Passed max used lines)
    (hvalid : Utf8.Valid raw) (hdot : trimEol raw ≠ [46])
    (hfits : used + (bodyOf (lines ++ [raw])).length ≤ max) : Passed max used (lines ++ [raw]) where
  valid := List.forall_mem_append.mpr ⟨h.valid, by simpa using hvalid⟩
  noDot := List.forall_mem_append.mpr ⟨h.noDot, by simpa using hdot⟩
  fits := hfits

theorem trimEol_crlf (line : Bytes) : trimEol (line ++ CRLF) = line := by
  have hsuffix : [13, 10].isSuffixOf (line ++ CRLF) = true :=
    List.isSuffixOf_iff_suffix.mpr (List.suffix_append _ _)
  rw [trimEol, if_pos hsuffix, List.length_append]
  exact List.take_left

/-- A line is what its trimming leaves and one of three ends. -/
theorem trimEol_cases (raw : Bytes) :
    (raw = trimEol raw ∧ ¬ [10] <:+ raw) ∨ raw = trimEol raw ++ [10] ∨
      raw = trimEol raw ++ CRLF := by
  unfold trimEol
  split
  · rename_i hcrlf
    obtain ⟨line, rfl⟩ := List.isSuffixOf_iff_suffix.mp hcrlf
    refine .inr (.inr ?_)
    rw [List.length_append]
    exact congrArg (· ++ CRLF) List.take_left.symm
  · split
    · rename_i hlf
      obtain ⟨line, rfl⟩ := List.isSuffixOf_iff_suffix.mp hlf
      refine .inr (.inl ?_)
      rw [List.length_append]
      exact congrArg (· ++ [10]) List.take_left.symm
    · rename_i hlf
      exact .inl ⟨rfl, mt List.isSuffixOf_iff_suffix.mpr hlf⟩

theorem dotLine_cases {raw : Bytes} (h : trimEol raw = [46]) :
    raw = [46] ∨ raw = [46, 10] ∨ raw = [46, 13, 10] := by
  have hcases := trimEol_cases raw
  rw [h] at hcases
  exact hcases.imp_left And.left

theorem trimEol_dotLine {raw : Bytes} (h : raw = [46] ∨ raw = [46, 10] ∨ raw = [46, 13, 10]) :
    trimEol raw = [46] := by
  rcases h with rfl | rfl | rfl <;> rfl

/-! ## The loop -/

section
variable (max : Nat)

theorem readDataLines_dot {dot : Bytes} (h : trimEol dot = [46]) (buf : Bytes)
    (after : List Bytes) : readDataLines max buf (dot :: after) = (.ok buf, after.flatten) := by
  have hvalid : ∃ text, utf8? dot = some text := by
    rw [← Option.ne_none_iff_exists', utf8?_ne_none]
    rcases dotLine_cases h with rfl | rfl | rfl
    · exact Utf8.valid_ascii (by decide)
    · exact ⟨".\n".toList, by decide⟩
    · exact ⟨".\r\n".toList, by decide⟩
  obtain ⟨text, htext⟩ := hvalid
  simp [readDataLines, htext, readDataLine, h]

theorem readDataLines_passed {buf : Bytes} {before : List Bytes}
    (h : Passed max buf.length before) (rest : List Bytes) :
    readDataLines max buf (before ++ rest) = readDataLines max (buf ++ bodyOf before) rest := by
  induction before generalizing buf with
  | nil => simp [bodyOf]
  | cons raw before ih =>
    obtain ⟨hvalid, hnoDot, hfits⟩ := h
    rw [List.forall_mem_cons] at hvalid hnoDot
    rw [length_bodyOf_cons] at hfits
    have hnext : Passed max (buf ++ payload raw ++ CRLF).length before := by
      refine ⟨hvalid.2, hnoDot.2, ?_⟩
      rw [List.length_append, List.length_append, show CRLF.length = 2 from rfl]
      omega
    obtain ⟨text, htext⟩ := Option.ne_none_iff_exists'.mp ((utf8?_ne_none raw).mpr hvalid.1)
    have hmore : readDataLine max buf raw = .more (buf ++ payload raw ++ CRLF) := by
      have hroom : ¬ buf.length + (unstuff (trimEol raw)).length + 2 > max := by
        change ¬ buf.length + (payload raw).length + 2 > max
        omega
      rw [readDataLine, if_neg hnoDot.1, if_neg hroom]
      rfl
    rw [List.cons_append, readDataLines, htext, hmore, bodyOf_cons]
    simpa only [List.append_assoc] using ih hnext

/-- A body is returned at the first dot line, behind lines the reader gets past. -/
theorem readDataLines_ok {buf : Bytes} {lines : List Bytes} {body rest : Bytes}
    (hbuf : buf.length ≤ max) (h : readDataLines max buf lines = (.ok body, rest)) :
    ∃ before dot after, lines = before ++ dot :: after ∧ Passed max buf.length before ∧
      trimEol dot = [46] ∧ body = buf ++ bodyOf before ∧ rest = after.flatten := by
  induction lines generalizing buf with
  | nil => cases h
  | cons raw lines ih =>
    rw [readDataLines] at h
    cases hutf8 : utf8? raw with
    | none =>
      rw [hutf8] at h
      cases h
    | some text =>
      rw [hutf8] at h
      have hvalid : Utf8.Valid raw := (utf8?_ne_none raw).mp (by simp [hutf8])
      obtain ⟨hdot, heq⟩ | ⟨hdot, hover, heq⟩ | ⟨hdot, hfits, buf', heq⟩ :=
        Server.readDataLine_cases max buf raw
      · rw [heq] at h
        obtain ⟨hbody, rfl⟩ := Prod.mk.inj h
        cases hbody
        exact ⟨[], raw, lines, rfl, ⟨nofun, nofun, by simpa [bodyOf] using hbuf⟩, hdot,
          by simp [bodyOf], rfl⟩
      · rw [heq] at h
        cases h
      · have hbuf' : buf' = buf ++ payload raw ++ CRLF := by
          rw [readDataLine, if_neg hdot, if_neg (Nat.not_lt.mpr hfits)] at heq
          exact (DataStep.more.inj heq).symm
        have hlength : buf'.length = buf.length + (payload raw).length + 2 := by
          rw [hbuf', List.length_append, List.length_append]
          rfl
        rw [heq] at h
        obtain ⟨before, dot, after, rfl, hpassed, hdotLine, rfl, rfl⟩ := ih (hlength ▸ hfits) h
        refine ⟨raw :: before, dot, after, rfl, ?_, hdotLine, ?_, rfl⟩
        · have hroom := hpassed.fits
          refine ⟨?_, ?_, ?_⟩
          · exact List.forall_mem_cons.mpr ⟨hvalid, hpassed.valid⟩
          · exact List.forall_mem_cons.mpr ⟨hdot, hpassed.noDot⟩
          · rw [length_bodyOf_cons]
            omega
        · rw [hbuf', bodyOf_cons]
          simp only [List.append_assoc]

/-- The whole reader. -/
theorem readData_ok_iff (stream body rest : Bytes) :
    readData max stream = (.ok body, rest) ↔
      ∃ before dot after, Lines.splitLines isLf stream = before ++ dot :: after ∧
        Passed max 0 before ∧ trimEol dot = [46] ∧ body = bodyOf before ∧ rest = after.flatten := by
  constructor
  · intro h
    obtain ⟨before, dot, after, hlines, hpassed, hdot, hbody, hrest⟩ :=
      readDataLines_ok max (show ([] : Bytes).length ≤ max from Nat.zero_le max) h
    exact ⟨before, dot, after, hlines, hpassed, hdot, hbody, hrest⟩
  · rintro ⟨before, dot, after, hlines, hpassed, hdot, rfl, rfl⟩
    have hempty : Passed max ([] : Bytes).length before := hpassed
    rw [readData, hlines, readDataLines_passed max hempty, readDataLines_dot max hdot]
    rfl

end

/-! ## Where the message ends -/

theorem endOfData_suffix_iff (text : Bytes) : END_OF_DATA <:+ text ++ [46, 13, 10] ↔ CRLF <:+ text := by
  have hsplit : END_OF_DATA = CRLF ++ [46, 13, 10] := rfl
  rw [hsplit]
  constructor
  · rintro ⟨front, hfront⟩
    rw [← List.append_assoc] at hfront
    exact ⟨front, List.append_cancel_right hfront⟩
  · rintro ⟨front, rfl⟩
    exact ⟨front, by rw [List.append_assoc]⟩

/-- A dot line the reader comes to where the stream ends, or where its own line end or the
one in front of it has no carriage return. -/
def StrayDot (max : Nat) (stream : Bytes) : Prop :=
  ∃ before dot after, Lines.splitLines isLf stream = before ++ dot :: after ∧
    Passed max 0 before ∧
    (dot = [46] ∨ dot = [46, 10] ∨ dot = [46, 13, 10] ∧ ¬ CRLF <:+ CRLF ++ before.flatten)

/-- A body ends only behind CRLF, dot, CRLF, exactly where no stray dot line is come to. -/
theorem ends_at_endOfData_iff (max : Nat) (stream : Bytes) :
    (∀ body rest, readData max stream = (.ok body, rest) →
      ∃ content, CRLF ++ stream = content ++ END_OF_DATA ++ rest) ↔ ¬ StrayDot max stream := by
  -- where the reader stops, the sequence is the end of what it has taken
  have htaken : ∀ before dot after, Lines.splitLines isLf stream = before ++ dot :: after →
      ((∃ content, CRLF ++ stream = content ++ END_OF_DATA ++ after.flatten) ↔
        END_OF_DATA <:+ CRLF ++ before.flatten ++ dot) := by
    intro before dot after hlines
    have hstream : CRLF ++ stream = CRLF ++ before.flatten ++ dot ++ after.flatten := by
      rw [← @Lines.flatten_splitLines _ isLf stream, hlines]
      simp
    rw [hstream]
    constructor
    · rintro ⟨content, h⟩
      exact ⟨content, (List.append_cancel_right h).symm⟩
    · rintro ⟨content, h⟩
      exact ⟨content, by rw [h]⟩
  constructor
  · rintro h ⟨before, dot, after, hlines, hpassed, hstray⟩
    have hdot : trimEol dot = [46] :=
      trimEol_dotLine (hstray.imp_right (Or.imp_right And.left))
    have hends := (htaken before dot after hlines).mp <| h _ _ <|
      (readData_ok_iff max stream _ _).mpr ⟨before, dot, after, hlines, hpassed, hdot, rfl, rfl⟩
    rcases hstray with rfl | rfl | ⟨rfl, hcr⟩
    · rw [← List.reverse_prefix] at hends
      simp [END_OF_DATA, List.cons_prefix_cons] at hends
    · rw [← List.reverse_prefix] at hends
      simp [END_OF_DATA, List.cons_prefix_cons] at hends
    · exact hcr ((endOfData_suffix_iff _).mp hends)
  · intro h body rest hok
    obtain ⟨before, dot, after, hlines, hpassed, hdot, rfl, rfl⟩ :=
      (readData_ok_iff max stream _ _).mp hok
    rw [htaken before dot after hlines]
    rcases dotLine_cases hdot with rfl | rfl | rfl
    · exact absurd ⟨before, _, after, hlines, hpassed, .inl rfl⟩ h
    · exact absurd ⟨before, _, after, hlines, hpassed, .inr (.inl rfl)⟩ h
    · rw [endOfData_suffix_iff]
      by_contra hcr
      exact h ⟨before, _, after, hlines, hpassed, .inr (.inr ⟨rfl, hcr⟩)⟩

/-- A dot line with bare line feeds in the middle of a body ends it; what follows is left
to be read as commands. -/
theorem bareLf_dot_ends :
    let stream := "a\n.\nRSET\r\n.\r\n".toUTF8.data.toList
    readData 100 stream = (.ok "a\r\n".toUTF8.data.toList, "RSET\r\n.\r\n".toUTF8.data.toList) ∧
      ¬ ∃ content, CRLF ++ stream = content ++ END_OF_DATA ++ "RSET\r\n.\r\n".toUTF8.data.toList := by
  refine ⟨by decide +kernel, ?_⟩
  rintro ⟨content, h⟩
  have hends : END_OF_DATA <:+ CRLF ++ "a\n.\n".toUTF8.data.toList :=
    ⟨content, (List.append_cancel_right h).symm⟩
  exact absurd hends (by decide +kernel)

end MailCue.Tunnel.Sidecar
