import MailCue.Tunnel.Sidecar.ReadData

/-!
# 8BITMIME

What the body reader makes of a message that a client has dot-stuffed and closed with its
end of data. The reader decodes each line as text and writes CRLF behind it whatever its
line end was, so a body comes through as it was sent where it is text and has no line feed
of its own.
-/
namespace MailCue.Tunnel.Sidecar
open MailCue.Lib
open MailCue.Lib.MailData (cut join linesOf closed encode stuffLine NoBareLf isLf)

/-! ## Validity by lines -/

theorem valid_crlf (line : Bytes) : Utf8.Valid (line ++ CRLF) ↔ Utf8.Valid line := by
  have hlf := Utf8.valid_cut (show (10 : UInt8).toNat < 128 by decide) (line ++ [13]) []
  have hcr := Utf8.valid_cut (show (13 : UInt8).toNat < 128 by decide) line []
  rw [List.append_assoc] at hlf
  rw [show line ++ CRLF = line ++ ([13] ++ [10]) from rfl, hlf, hcr]
  simp [Utf8.valid_nil]

theorem valid_join_iff (lines : List Bytes) :
    Utf8.Valid (join lines) ↔ ∀ line ∈ lines, Utf8.Valid line := by
  induction lines with
  | nil => simp [Utf8.valid_nil]
  | cons line lines ih =>
    rw [MailData.join_cons, List.forall_mem_cons, ← ih, ← valid_crlf line]
    constructor
    · intro h
      have hcut := Utf8.valid_cut (show (10 : UInt8).toNat < 128 by decide) (line ++ [13]) (join lines)
      have hsplit : line ++ [13] ++ 10 :: join lines = line ++ MailData.CRLF ++ join lines := by
        simp [MailData.CRLF]
      rw [hsplit] at hcut
      obtain ⟨hline, hrest⟩ := hcut.mp h
      have hclosed := hline.append (Utf8.valid_ascii (show (10 : UInt8).toNat < 128 by decide))
      rw [List.append_assoc] at hclosed
      exact ⟨hclosed, hrest⟩
    · rintro ⟨hline, hrest⟩
      exact hline.append hrest

theorem valid_closed_iff (message : Bytes) : Utf8.Valid (closed message) ↔ Utf8.Valid message := by
  unfold closed
  split
  · exact Iff.rfl
  · exact valid_crlf message

theorem valid_dot (line : Bytes) : Utf8.Valid (46 :: line) ↔ Utf8.Valid line := by
  have hcut := Utf8.valid_cut (show (46 : UInt8).toNat < 128 by decide) [] line
  rw [List.nil_append] at hcut
  rw [hcut]
  exact and_iff_right Utf8.valid_nil

theorem valid_stuffLine {line : Bytes} (h : Utf8.Valid line) : Utf8.Valid (stuffLine line) := by
  unfold stuffLine
  split
  · exact (valid_dot _).mpr h
  · exact h

theorem unstuff_eq (line : Bytes) : unstuff line = MailData.unstuffLine line := by
  unfold unstuff MailData.unstuffLine
  rfl

theorem valid_payload {raw : Bytes} (h : Utf8.Valid raw) : Utf8.Valid (payload raw) := by
  have htrimmed : Utf8.Valid (trimEol raw) := by
    rcases trimEol_cases raw with ⟨heq, -⟩ | heq | heq
    · exact heq ▸ h
    · rw [heq] at h
      exact ((Utf8.valid_cut (by decide) _ []).mp h).1
    · rw [heq] at h
      exact (valid_crlf _).mp h
  unfold payload unstuff
  split
  · rename_i hdot
    rw [hdot] at htrimmed
    exact (valid_dot _).mp htrimmed
  · exact htrimmed

/-! ## What the reader returns -/

theorem bodyOf_eq_join (lines : List Bytes) : bodyOf lines = join (lines.map payload) := by
  simp [bodyOf, join, List.flatMap_map, CRLF, MailData.CRLF]

/-- A body that is returned is text. -/
theorem valid_bodyOf {max used : Nat} {lines : List Bytes} (h : Passed max used lines) :
    Utf8.Valid (bodyOf lines) := by
  rw [bodyOf_eq_join, valid_join_iff, List.forall_mem_map]
  exact fun raw hraw => valid_payload (h.valid raw hraw)

theorem not_mem_unstuff {line : Bytes} (h : 10 ∉ line) : 10 ∉ unstuff line := by
  unfold unstuff
  split
  · exact fun hmem => h (List.mem_cons_of_mem _ hmem)
  · exact h

theorem not_mem_payload {raw : Bytes} (h : Lines.Ended isLf raw ∨ Lines.Open isLf raw) :
    10 ∉ payload raw := by
  apply not_mem_unstuff
  rcases h with hended | ⟨-, hopen⟩
  · obtain ⟨body, rfl, hbody⟩ := MailData.ended_iff.mp hended
    rcases trimEol_cases (body ++ [10]) with ⟨-, hnot⟩ | heq | heq
    · exact absurd (List.suffix_append _ _) hnot
    · rwa [← List.append_cancel_right heq]
    · have hcr : body = trimEol (body ++ [10]) ++ [13] := by
        have hlong : body ++ [10] = trimEol (body ++ [10]) ++ [13] ++ [10] := by
          rw [List.append_assoc]
          exact heq
        exact List.append_cancel_right hlong
      rw [hcr] at hbody
      exact fun hmem => hbody (List.mem_append_left _ hmem)
  · have hlf := MailData.isLf_eq_false.mp hopen
    rcases trimEol_cases raw with ⟨heq, -⟩ | heq | heq
    · rwa [← heq]
    · exact absurd (by rw [heq]; simp) hlf
    · exact absurd (by rw [heq]; simp [CRLF]) hlf

/-- And every line feed in it has its carriage return. -/
theorem noBareLf_bodyOf {lines : List Bytes}
    (h : ∀ raw ∈ lines, Lines.Ended isLf raw ∨ Lines.Open isLf raw) : NoBareLf (bodyOf lines) := by
  have hlf : ∀ line ∈ lines.map payload, 10 ∉ line := by
    rw [List.forall_mem_map]
    exact fun raw hraw => not_mem_payload (h raw hraw)
  have hcut := MailData.cut_join hlf (show (10 : UInt8) ∉ ([] : Bytes) from List.not_mem_nil)
  rw [List.append_nil, ← bodyOf_eq_join] at hcut
  rw [MailData.noBareLf_iff, hcut]
  exact ⟨hlf, List.not_mem_nil⟩

theorem noBareLf_of_closed {message : Bytes} (h : NoBareLf (closed message)) : NoBareLf message := by
  unfold closed at h
  split at h
  · exact h
  · rintro pre post rfl
    exact h pre (post ++ MailData.CRLF) (by simp)

/-! ## A message on the wire -/

theorem splitLines_join {lines : List Bytes} (h : ∀ line ∈ lines, 10 ∉ line) (rest : Bytes) :
    Lines.splitLines isLf (join lines ++ rest) =
      lines.map (· ++ CRLF) ++ Lines.splitLines isLf rest := by
  induction lines with
  | nil => rfl
  | cons line lines ih =>
    rw [List.forall_mem_cons] at h
    have hended : Lines.Ended isLf (line ++ CRLF) :=
      MailData.ended_iff.mpr ⟨line ++ [13], by simp [CRLF], by simp [h.1]⟩
    have hsplit := Lines.splitLines_ended hended (join lines ++ rest)
    rw [MailData.join_cons, List.append_assoc, List.map_cons, List.cons_append, ← ih h.2]
    exact hsplit

theorem payload_stuffLine (line : Bytes) : payload (stuffLine line ++ CRLF) = line := by
  rw [payload, trimEol_crlf, unstuff_eq, MailData.unstuffLine_stuffLine]

theorem noLf_linesOf {message : Bytes} (h : NoBareLf message) : ∀ line ∈ linesOf message, 10 ∉ line := by
  obtain ⟨hlines, htail⟩ := (MailData.noBareLf_iff message).mp h
  intro line hmem
  unfold linesOf at hmem
  rcases List.mem_append.mp hmem with hmem | hmem
  · exact hlines line hmem
  · split at hmem
    · cases hmem
    · rwa [List.mem_singleton.mp hmem]

/-- The stuffed lines of a text are lines the reader gets past, and its body. -/
theorem passed_encoded {max : Nat} {message : Bytes} (hfits : (closed message).length ≤ max)
    (hvalid : Utf8.Valid message) :
    Passed max 0 ((linesOf message).map fun line => stuffLine line ++ CRLF) ∧
      bodyOf ((linesOf message).map fun line => stuffLine line ++ CRLF) = closed message := by
  have hbody : bodyOf ((linesOf message).map fun line => stuffLine line ++ CRLF) =
      closed message := by
    rw [bodyOf_eq_join, List.map_map, ← MailData.join_linesOf]
    congr 1
    conv_rhs => rw [← List.map_id (linesOf message)]
    exact List.map_congr_left fun line _ => payload_stuffLine line
  refine ⟨⟨?_, ?_, ?_⟩, hbody⟩
  · have hjoin : Utf8.Valid (join (linesOf message)) := by
      rw [MailData.join_linesOf]
      exact (valid_closed_iff message).mpr hvalid
    rw [List.forall_mem_map]
    intro line hmem
    exact (valid_crlf _).mpr (valid_stuffLine ((valid_join_iff _).mp hjoin line hmem))
  · rw [List.forall_mem_map]
    intro line _
    rw [trimEol_crlf]
    exact MailData.stuffLine_ne_dot line
  · rw [hbody, Nat.zero_add]
    exact hfits

/-- A message within the limit comes through as it was sent, its last line closed, exactly
where it is UTF-8 text without bare line feeds. -/
theorem readData_encode_iff (max : Nat) (message rest : Bytes)
    (hfits : (closed message).length ≤ max) :
    readData max (encode message ++ rest) = (.ok (closed message), rest) ↔
      Utf8.Valid message ∧ NoBareLf message := by
  rw [readData_ok_iff]
  constructor
  · rintro ⟨before, dot, after, hlines, hpassed, -, hbody, -⟩
    have hare := @Lines.areLines_splitLines _ isLf (encode message ++ rest)
    rw [hlines] at hare
    have hbare := noBareLf_bodyOf fun raw hraw =>
      hare.each raw (List.mem_append_left _ hraw)
    rw [← hbody] at hbare
    have hvalid := valid_bodyOf hpassed
    rw [← hbody] at hvalid
    exact ⟨(valid_closed_iff message).mp hvalid, noBareLf_of_closed hbare⟩
  · rintro ⟨hvalid, hbare⟩
    obtain ⟨hpassed, hbody⟩ := passed_encoded hfits hvalid
    have hstuffed : ∀ line ∈ (linesOf message).map stuffLine ++ [[46]], 10 ∉ line := by
      intro line hmem
      rcases List.mem_append.mp hmem with hmem | hmem
      · obtain ⟨plain, hplain, rfl⟩ := List.mem_map.mp hmem
        exact MailData.not_mem_stuffLine (noLf_linesOf hbare plain hplain)
      · rw [List.mem_singleton.mp hmem]
        decide
    refine ⟨_, [46, 13, 10], Lines.splitLines isLf rest, ?_, hpassed, rfl, hbody.symm, ?_⟩
    · rw [encode, splitLines_join hstuffed, List.map_append, List.map_map, List.append_assoc]
      rfl
    · rw [Lines.flatten_splitLines]

/-- A line with a dot in front and one that is open. -/
theorem readData_encode_dot :
    readData 100 (encode [46, 97, 13, 10, 195, 169] ++ [81]) =
      (.ok [46, 97, 13, 10, 195, 169, 13, 10], [81]) := by
  refine (readData_encode_iff 100 [46, 97, 13, 10, 195, 169] [81] (by decide)).mpr ⟨?_, ?_⟩
  · exact ⟨".a\r\né".toList, by decide⟩
  · rw [MailData.noBareLf_iff]
    decide

/-- One octet of another encoding ends the session, within the limit. -/
theorem latin1_drops_session :
    (closed [233]).length ≤ tiny.max_message_size_bytes ∧
    readData tiny.max_message_size_bytes (encode [233] ++ []) =
      (.error (.io "stream did not contain valid UTF-8"), [46, 13, 10]) ∧
    (tiny.handleSession.run (octets "EHLO x\r\nMAIL FROM:<>\r\nRCPT TO:<a@b.c>\r\nDATA\r\n" ++
      (encode [233]).map some)).reading = .closed := by
  refine ⟨by decide, by decide +kernel, by decide +kernel⟩

end MailCue.Tunnel.Sidecar
