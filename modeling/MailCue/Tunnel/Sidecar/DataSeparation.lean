import MailCue.Tunnel.Sidecar.SmtpServer

/-!
# Commands and message content

When the octets after a 354 reply are kept apart from commands. The session's
own idea of where a message ends is compared with the octets themselves, which
`message` follows: while it is open the session must not parse commands. While
`read_data` runs the message is always open (`following_run`), so a step can
break the separation only by leaving `read_data`; the two ways to leave it too
early are a line that overflows the limit and a dot line that is not the end of
data.
-/
namespace MailCue.Tunnel.Sidecar
open MailCue.Lib

/-- No command is parsed inside a message. -/
def Separated (s : Session) : Prop := s.reading = .command → s.message = none

/-! ## The end of data, line by line -/

theorem endOfData_iff (content line : Bytes) (hline : 10 ∉ line)
    (hcontent : [10] <:+ CRLF ++ content) :
    END_OF_DATA <:+ CRLF ++ (content ++ line) ++ [10] ↔
      line = [46, 13] ∧ CRLF <:+ CRLF ++ content := by
  have hrev : END_OF_DATA <:+ CRLF ++ (content ++ line) ++ [10] ↔
      [13, 46, 10, 13] <+: line.reverse ++ (CRLF ++ content).reverse := by
    rw [← List.reverse_prefix]
    simp [END_OF_DATA, List.cons_prefix_cons]
  have hrev' : CRLF <:+ CRLF ++ content ↔ [10, 13] <+: (CRLF ++ content).reverse := by
    rw [← List.reverse_prefix]
    rfl
  rw [← List.reverse_prefix] at hcontent
  rw [hrev, hrev']
  obtain ⟨before, hbefore⟩ := hcontent
  rw [← hbefore]
  have hmem : 10 ∉ line.reverse := by simpa using hline
  have hline' : line = [46, 13] ↔ line.reverse = [13, 46] := by
    rw [List.reverse_eq_iff]
    rfl
  rw [hline']
  generalize line.reverse = r at hmem
  match r with
  | [] => simp
  | [a] => simp
  | [a, b] => simp [List.cons_prefix_cons]; grind
  | a :: b :: d :: rest =>
    simp only [List.mem_cons, not_or] at hmem
    simp [List.cons_prefix_cons]
    grind

theorem not_endOfData (content : Bytes) (octet : UInt8) (h : octet ≠ 10) :
    ¬ END_OF_DATA <:+ CRLF ++ content ++ [octet] := by
  rw [← List.reverse_prefix]
  simp [END_OF_DATA, List.cons_prefix_cons, Ne.symm h]

theorem followMessage_octet (content : Bytes) (octet : UInt8) (h : octet ≠ 10) :
    followMessage (some content) octet = some (content ++ [octet]) := by
  have hnot := not_endOfData content octet h
  rw [← List.isSuffixOf_iff_suffix] at hnot
  simp only [followMessage, Option.bind_some, if_neg hnot]

theorem followMessage_lf (content line : Bytes) (hline : 10 ∉ line)
    (hcontent : [10] <:+ CRLF ++ content) :
    followMessage (some (content ++ line)) 10 =
      if line = [46, 13] ∧ CRLF <:+ CRLF ++ content then none
      else some (content ++ line ++ [10]) := by
  have hiff := endOfData_iff content line hline hcontent
  simp only [followMessage, Option.bind_some, List.isSuffixOf_iff_suffix, hiff]

@[simp] theorem followMessage_none (octet : UInt8) : followMessage none octet = none := rfl

theorem trimEol_lf (line : Bytes) (h : trimEol (line ++ [10]) ≠ [46]) : line ≠ [46, 13] := by
  rintro rfl
  exact h rfl

/-! ## What a line can lead to -/

namespace Server

variable (srv : Server)

@[simp] theorem say_reading (st : SessionState) (line : String) :
    (say st line).reading = .command := rfl

theorem onMail_reading (st : SessionState) (trimmed : List Char) :
    (onMail st trimmed).reading = .command := by
  unfold onMail
  split
  · rfl
  · split
    · rfl
    · split <;> rfl

theorem onRcpt_reading (st : SessionState) (trimmed : List Char) :
    (srv.onRcpt st trimmed).reading = .command := by
  unfold onRcpt
  split
  · rfl
  · split
    · rfl
    · split
      · rfl
      · split <;> rfl

theorem onProbe_reading (history : List SessionEvent) (st : SessionState) (trimmed : List Char) :
    (srv.onProbe history st trimmed).reading = .command := by
  unfold onProbe
  split
  · rfl
  · dsimp only
    split
    · rfl
    · split
      · rfl
      · split <;> rfl

/-- After a command the session reads another, a message from its first line,
or nothing. -/
theorem onCommand_reading (history : List SessionEvent) (st : SessionState) (line : String) :
    (srv.onCommand history st line).reading = .command ∨
      (srv.onCommand history st line).reading = .data [] ∨
      (srv.onCommand history st line).reading = .closed := by
  -- one branch of the command chain after another
  have branch : ∀ (c : Prop) [Decidable c] (a b : Outcome),
      (a.reading = .command ∨ a.reading = .data [] ∨ a.reading = .closed) →
      (b.reading = .command ∨ b.reading = .data [] ∨ b.reading = .closed) →
      ((if c then a else b).reading = .command ∨ (if c then a else b).reading = .data [] ∨
        (if c then a else b).reading = .closed) := by
    intro c _ a b ha hb
    split
    · exact ha
    · exact hb
  unfold onCommand
  dsimp only
  refine branch _ _ _ (.inl rfl) (branch _ _ _ (.inl rfl) ?_)
  apply branch _ _ _ (.inl (onMail_reading st _))
  apply branch _ _ _ (.inl (srv.onRcpt_reading st _))
  apply branch _ _ _ (branch _ _ _ (.inl rfl) (.inr (.inl rfl)))
  refine branch _ _ _ (.inl rfl) (branch _ _ _ (.inl rfl) ?_)
  apply branch _ _ _ (.inl (srv.onProbe_reading history st _))
  exact branch _ _ _ (.inl rfl) (branch _ _ _ (.inr (.inr rfl)) (.inl rfl))

/-- `read_data` goes on, or the session is back at its commands. -/
theorem onData_reading (history : List SessionEvent) (st : SessionState) (buf raw : Bytes) :
    (srv.onData history st buf raw).reading =
      match readDataLine srv.max_message_size_bytes buf raw with
      | .more buf' => .data buf'
      | _ => .command := by
  cases h : readDataLine srv.max_message_size_bytes buf raw <;> simp [onData, h]

theorem onLine_invalid (s : Session) (raw : Bytes) (h : utf8? raw = none) :
    (srv.onLine s raw).reading = .closed := by
  simp [onLine, h]

theorem onLine_data (s : Session) (raw buf : Bytes) (text : String) (hutf8 : utf8? raw = some text)
    (hreading : s.reading = .data buf) :
    (srv.onLine s raw).reading =
        (match readDataLine srv.max_message_size_bytes buf raw with
          | .more buf' => .data buf'
          | _ => .command) ∧
      (srv.onLine s raw).message = s.message ∧ (srv.onLine s raw).line = [] ∧
      (srv.onLine s raw).ended = s.ended := by
  simp only [onLine, hutf8, hreading, and_self, and_true]
  exact srv.onData_reading _ _ _ _

/-- A command leaves the message as it was, or opens one at its first line. -/
theorem onLine_command (s : Session) (raw : Bytes) (text : String) (hutf8 : utf8? raw = some text)
    (hreading : s.reading = .command) :
    (srv.onLine s raw).line = [] ∧
      (((srv.onLine s raw).reading = .data [] ∧ (srv.onLine s raw).message = some []) ∨
        ((∀ buf, (srv.onLine s raw).reading ≠ .data buf) ∧
          (srv.onLine s raw).message = s.message)) := by
  simp only [onLine, hutf8, hreading, true_and]
  obtain hcmd | hdata | hclosed := srv.onCommand_reading s.events s.state text
  · exact .inr ⟨by simp [hcmd], by simp [hcmd]⟩
  · exact .inl ⟨hdata, by simp [hdata]⟩
  · exact .inr ⟨by simp [hclosed], by simp [hclosed]⟩

end Server

/-! ## While `read_data` runs -/

/-- The message is open, and the line so far is its tail. -/
def Following (s : Session) : Prop :=
  ∀ buf, s.reading = .data buf → ∃ content, s.message = some (content ++ s.line) ∧ 10 ∉ s.line ∧
    (s.ended = false → [10] <:+ CRLF ++ content) ∧ (s.ended = true → s.line = [])

namespace Server

variable (srv : Server)

/-- A line read inside `read_data` that is not the dot line keeps the message
open, whatever it ends with. -/
theorem following_line (s : Session) (raw content : Bytes)
    (hmessage : ∀ buf, s.reading = .data buf →
      (∀ buf', readDataLine srv.max_message_size_bytes buf raw = .more buf' →
        s.message = some content) ∧ (s.ended = false → [10] <:+ CRLF ++ content)) :
    Following (srv.onLine s raw) := by
  intro buf' hreading'
  cases hutf8 : utf8? raw with
  | none =>
    rw [srv.onLine_invalid s raw hutf8] at hreading'
    cases hreading'
  | some text =>
    cases hreading : s.reading with
    | closed =>
      simp only [onLine, hutf8, hreading] at hreading'
      cases hreading'
    | command =>
      obtain ⟨hline, ⟨_, hopen⟩ | ⟨hnot, _⟩⟩ := srv.onLine_command s raw text hutf8 hreading
      · refine ⟨[], by rw [hopen, hline]; rfl, by simp [hline], fun _ => ?_, fun _ => hline⟩
        decide
      · exact absurd hreading' (hnot buf')
    | data buf =>
      obtain ⟨hnext, hkept, hline, hended⟩ := srv.onLine_data s raw buf text hutf8 hreading
      rw [hnext] at hreading'
      split at hreading'
      · rename_i more hmore
        obtain ⟨hopen, hlf⟩ := hmessage buf hreading
        refine ⟨content, ?_, by simp [hline], ?_, fun _ => hline⟩
        · rw [hkept, hline, hopen more hmore, List.append_nil]
        · rw [hended]
          exact hlf
      · cases hreading'

theorem following_step (s : Session) (input : Option UInt8) (h : Following s) :
    Following (srv.step s input) := by
  cases input with
  | none =>
    rw [step]
    split
    · exact h
    · split
      · intro buf hreading
        cases hreading
      · rename_i hline
        cases hreading : s.reading with
        | data buf =>
          obtain ⟨content, hmessage, _, _, _⟩ := h buf hreading
          apply srv.following_line _ _ (content ++ s.line)
          intro _ _
          exact ⟨fun _ _ => hmessage, nofun⟩
        | command =>
          apply srv.following_line _ _ []
          intro buf hbuf
          simp at hbuf
        | closed =>
          apply srv.following_line _ _ []
          intro buf hbuf
          simp at hbuf
  | some octet =>
    rw [step]
    split
    · exact h
    · rename_i hstill
      rw [not_or, Bool.not_eq_true] at hstill
      dsimp only
      split
      · rename_i hlf
        subst hlf
        cases hreading : s.reading with
        | data buf =>
          obtain ⟨content, hmessage, hnolf, hend, _⟩ := h buf hreading
          apply srv.following_line _ _ (content ++ s.line ++ [10])
          intro buf' hbuf'
          refine ⟨?_, fun _ => List.suffix_append_of_suffix (List.suffix_append _ _)⟩
          intro more hmore
          have hnotdot : s.line ≠ [46, 13] := by
            apply trimEol_lf
            intro hdot
            simp [readDataLine, hdot] at hmore
          change followMessage s.message 10 = _
          rw [hmessage, followMessage_lf content s.line hnolf (hend hstill.2),
            if_neg (fun hc => hnotdot hc.1)]
        | command =>
          apply srv.following_line _ _ []
          intro buf hbuf
          simp at hbuf
        | closed => exact absurd hreading hstill.1
      · rename_i hlf
        intro buf hreading
        obtain ⟨content, hmessage, hnolf, hend, _⟩ := h buf hreading
        refine ⟨content, ?_, ?_, hend, ?_⟩
        · change followMessage s.message octet = _
          rw [hmessage, followMessage_octet _ octet hlf, List.append_assoc]
        · simp [hnolf, Ne.symm hlf]
        · intro hended
          rw [hstill.2] at hended
          cases hended

theorem following_run (inputs : List (Option UInt8)) :
    srv.handleSession.Always (fun _ s => Following s) inputs := by
  refine Machine.always_of_preserved inputs ?_ ?_
  · intro buf hreading
    change srv.start.reading = _ at hreading
    unfold start at hreading
    split at hreading <;> cases hreading
  · intro pre input h
    rw [Machine.run_snoc]
    exact srv.following_step _ input h

/-! ## The condition -/

/-- The line an input completes. -/
def completedLine (s : Session) : Option UInt8 → Option Bytes
  | some octet => if s.ended = false ∧ octet = 10 then some (s.line ++ [10]) else none
  | none => if s.line = [] then none else some s.line

/-- A line completed inside `read_data`: if it is taken for the dot line it is
a dot and CRLF after a CRLF, and if not it leaves the body within its limit. -/
def LineKeepsApart (s : Session) (input : Option UInt8) : Prop :=
  ∀ buf raw, s.reading = .data buf → completedLine s input = some raw → utf8? raw ≠ none →
    (trimEol raw = [46] → raw = [46, 13, 10] ∧ ∃ content,
      s.message = some (content ++ [46, 13]) ∧ CRLF <:+ CRLF ++ content) ∧
    (trimEol raw ≠ [46] →
      buf.length + (unstuff (trimEol raw)).length + 2 ≤ srv.max_message_size_bytes)

theorem readDataLine_cases (max : Nat) (buf raw : Bytes) :
    (trimEol raw = [46] ∧ readDataLine max buf raw = .done) ∨
    (trimEol raw ≠ [46] ∧ max < buf.length + (unstuff (trimEol raw)).length + 2 ∧
      readDataLine max buf raw = .tooLarge) ∨
    (trimEol raw ≠ [46] ∧ buf.length + (unstuff (trimEol raw)).length + 2 ≤ max ∧
      ∃ buf', readDataLine max buf raw = .more buf') := by
  unfold readDataLine
  dsimp only
  split
  · rename_i hdot
    exact .inl ⟨hdot, rfl⟩
  · rename_i hdot
    split
    · rename_i hover
      exact .inr (.inl ⟨hdot, hover, rfl⟩)
    · rename_i hfits
      exact .inr (.inr ⟨hdot, Nat.not_lt.mp hfits, _, rfl⟩)

/-- A line read inside `read_data` keeps the session separated unless it leaves
the loop with the message open. -/
theorem separated_onLine (s : Session) (raw buf : Bytes) (hreading : s.reading = .data buf) :
    Separated (srv.onLine s raw) ↔
      (utf8? raw ≠ none → (trimEol raw = [46] ∨
        srv.max_message_size_bytes < buf.length + (unstuff (trimEol raw)).length + 2) →
        s.message = none) := by
  cases hutf8 : utf8? raw with
  | none =>
    have hclosed := srv.onLine_invalid s raw hutf8
    constructor
    · intro _ hvalid
      exact absurd rfl hvalid
    · intro _ hcommand
      rw [hclosed] at hcommand
      cases hcommand
  | some text =>
    obtain ⟨hnext, hkept, _, _⟩ := srv.onLine_data s raw buf text hutf8 hreading
    unfold Separated
    rw [hnext, hkept]
    obtain ⟨hdot, heq⟩ | ⟨hdot, hover, heq⟩ | ⟨hdot, hfits, buf', heq⟩ :=
      readDataLine_cases srv.max_message_size_bytes buf raw
    · rw [heq]
      exact ⟨fun hsep _ _ => hsep rfl, fun hcond _ => hcond (by simp) (.inl hdot)⟩
    · rw [heq]
      exact ⟨fun hsep _ _ => hsep rfl, fun hcond _ => hcond (by simp) (.inr hover)⟩
    · rw [heq]
      constructor
      · rintro _ _ (hd | hover)
        · exact absurd hd hdot
        · exact absurd hfits (Nat.not_le.mpr hover)
      · intro _ hcommand
        cases hcommand

theorem lineKeepsApart_iff (s : Session) (input : Option UInt8) (buf raw : Bytes)
    (hreading : s.reading = .data buf) (hcomplete : completedLine s input = some raw) :
    srv.LineKeepsApart s input ↔ (utf8? raw ≠ none →
      (trimEol raw = [46] → raw = [46, 13, 10] ∧ ∃ content,
        s.message = some (content ++ [46, 13]) ∧ CRLF <:+ CRLF ++ content) ∧
      (trimEol raw ≠ [46] →
        buf.length + (unstuff (trimEol raw)).length + 2 ≤ srv.max_message_size_bytes)) := by
  constructor
  · exact fun h => h buf raw hreading hcomplete
  · intro h buf' raw' hreading' hcomplete'
    rw [hreading] at hreading'
    cases hreading'
    rw [hcomplete, Option.some.injEq] at hcomplete'
    exact hcomplete' ▸ h

/-- The line that ends in LF: the session leaves `read_data` where the message
ends exactly under the condition. -/
theorem separated_lf (s : Session) (buf : Bytes) (h : Following s) (hended : s.ended = false)
    (hreading : s.reading = .data buf) :
    Separated (srv.step s (some 10)) ↔ srv.LineKeepsApart s (some 10) := by
  obtain ⟨content, hmessage, hnolf, hend, _⟩ := h buf hreading
  have hstep : srv.step s (some 10) =
      srv.onLine { s with message := followMessage s.message 10 } (s.line ++ [10]) := by
    rw [step, if_neg (by simp [hreading, hended])]
    rfl
  have hcomplete : completedLine s (some 10) = some (s.line ++ [10]) := by
    simp [completedLine, hended]
  have hfollow := followMessage_lf content s.line hnolf (hend hended)
  rw [← hmessage] at hfollow
  have hline := srv.separated_onLine { s with message := followMessage s.message 10 }
    (s.line ++ [10]) buf hreading
  rw [hstep, hline, srv.lineKeepsApart_iff s _ buf _ hreading hcomplete]
  apply imp_congr_right
  intro _
  change (_ → followMessage s.message 10 = none) ↔ _
  rw [hfollow]
  constructor
  · intro hends
    constructor
    · intro hdot
      have hclosed := hends (.inl hdot)
      split at hclosed
      · rename_i hcrlf
        exact ⟨by rw [hcrlf.1]; rfl, content, by rw [hmessage, hcrlf.1], hcrlf.2⟩
      · cases hclosed
    · intro hdot
      by_contra hfits
      have hclosed := hends (.inr (Nat.not_le.mp hfits))
      rw [if_neg (fun hc => trimEol_lf s.line hdot hc.1)] at hclosed
      cases hclosed
  · rintro ⟨hstrict, hfits⟩ hleaves
    by_cases hdot : trimEol (s.line ++ [10]) = [46]
    · obtain ⟨hraw, content', hmessage', hcrlf⟩ := hstrict hdot
      have hline : s.line = [46, 13] :=
        List.append_cancel_right (show s.line ++ [10] = [46, 13] ++ [10] from hraw)
      rw [hmessage, hline, Option.some.injEq] at hmessage'
      rw [if_pos ⟨hline, by rw [List.append_cancel_right hmessage']; exact hcrlf⟩]
    · have hover := hleaves.resolve_left hdot
      exact absurd (hfits hdot) (Nat.not_le.mpr hover)

/-- A last line without its line end never ends a message. -/
theorem separated_eof (s : Session) (buf : Bytes) (h : Following s) (hline : s.line ≠ [])
    (hreading : s.reading = .data buf) :
    Separated (srv.step s none) ↔ srv.LineKeepsApart s none := by
  obtain ⟨content, hmessage, hnolf, _, _⟩ := h buf hreading
  have hstep : srv.step s none = srv.onLine { s with ended := true } s.line := by
    rw [step, if_neg (by simp [hreading]), if_neg hline]
  have hcomplete : completedLine s none = some s.line := by simp [completedLine, hline]
  have hlast := srv.separated_onLine { s with ended := true } s.line buf hreading
  rw [hstep, hlast, srv.lineKeepsApart_iff s _ buf _ hreading hcomplete]
  apply imp_congr_right
  intro _
  have hopen : s.message ≠ none := by simp [hmessage]
  constructor
  · intro hends
    constructor
    · exact fun hdot => absurd (hends (.inl hdot)) hopen
    · intro _
      by_contra hfits
      exact hopen (hends (.inr (Nat.not_le.mp hfits)))
  · rintro ⟨hstrict, hfits⟩ hleaves
    by_cases hdot : trimEol s.line = [46]
    · have hraw := (hstrict hdot).1
      rw [hraw] at hnolf
      exact absurd (by decide) hnolf
    · have hover := hleaves.resolve_left hdot
      exact absurd (hfits hdot) (Nat.not_le.mpr hover)

/-- Outside `read_data` a step never needs the condition, and never breaks the
separation. -/
theorem separated_command (s : Session) (input : Option UInt8) (hreading : s.reading = .command)
    (hsep : Separated s) : Separated (srv.step s input) := by
  have hnone := hsep hreading
  have hline : ∀ (s' : Session) (raw : Bytes), s'.reading = .command → s'.message = none →
      Separated (srv.onLine s' raw) := by
    intro s' raw hcmd hmsg hcommand
    cases hutf8 : utf8? raw with
    | none =>
      rw [srv.onLine_invalid s' raw hutf8] at hcommand
      cases hcommand
    | some text =>
      obtain ⟨_, ⟨hdata, _⟩ | ⟨_, hkept⟩⟩ := srv.onLine_command s' raw text hutf8 hcmd
      · rw [hdata] at hcommand
        cases hcommand
      · rw [hkept, hmsg]
  cases input with
  | none =>
    rw [step]
    split
    · exact hsep
    · split
      · intro hcommand
        cases hcommand
      · exact hline _ _ hreading hnone
  | some octet =>
    rw [step]
    split
    · exact hsep
    · dsimp only
      split
      · exact hline _ _ hreading (by simp [hnone])
      · intro _
        simp [hnone]

/-- Where no line is completed `read_data` runs on. -/
theorem separated_within (s : Session) (input : Option UInt8) (buf : Bytes)
    (hreading : s.reading = .data buf) (hnone : completedLine s input = none) :
    (srv.step s input).reading ≠ .command := by
  cases input with
  | none =>
    have hline : s.line = [] := by
      by_contra hline
      simp [completedLine, hline] at hnone
    rw [step, if_neg (by simp [hreading]), if_pos hline]
    exact fun h => by cases h
  | some octet =>
    rw [step]
    split
    · rw [hreading]
      exact fun h => by cases h
    · rename_i hstill
      rw [not_or, Bool.not_eq_true] at hstill
      dsimp only
      split
      · rename_i hlf
        simp [completedLine, hstill.2, hlf] at hnone
      · change s.reading ≠ _
        rw [hreading]
        exact fun h => by cases h

theorem separated_data_iff (s : Session) (input : Option UInt8) (buf : Bytes) (h : Following s)
    (hreading : s.reading = .data buf) :
    Separated (srv.step s input) ↔ srv.LineKeepsApart s input := by
  cases hcomplete : completedLine s input with
  | none =>
    have hwithin := srv.separated_within s input buf hreading hcomplete
    constructor
    · intro _ buf' raw _ hraw
      rw [hcomplete] at hraw
      cases hraw
    · exact fun _ hcommand => absurd hcommand hwithin
  | some raw =>
    cases input with
    | none =>
      have hline : s.line ≠ [] := by
        intro hline
        simp [completedLine, hline] at hcomplete
      exact srv.separated_eof s buf h hline hreading
    | some octet =>
      have hlf : s.ended = false ∧ octet = 10 := by
        by_contra hnot
        simp [completedLine, hnot] at hcomplete
      obtain ⟨hended, rfl⟩ := hlf
      exact srv.separated_lf s buf h hended hreading

/-- Over a whole session, no command is parsed inside a message exactly when
every line read inside `read_data` keeps them apart. -/
theorem command_data_separation_iff (inputs : List (Option UInt8)) :
    srv.handleSession.Always (fun _ s => Separated s) inputs ↔
      srv.handleSession.EveryStep (fun _ s input => srv.LineKeepsApart s input) inputs := by
  refine Machine.always_iff_everyStep (srv.following_run inputs) ?_ ?_ ?_
  · intro _
    change srv.start.message = none
    unfold start
    split <;> rfl
  · intro pre input hfollow hsep hcond
    rw [Machine.run_snoc]
    cases hreading : (srv.handleSession.run pre).reading with
    | data buf => exact (srv.separated_data_iff _ input buf hfollow hreading).mpr hcond
    | command => exact srv.separated_command _ input hreading hsep
    | closed =>
      have hsame : srv.step (srv.handleSession.run pre) input = srv.handleSession.run pre := by
        cases input <;> simp [step, hreading]
      change Separated (srv.step (srv.handleSession.run pre) input)
      rw [hsame]
      exact hsep
  · intro pre input hfollow hsep
    rw [Machine.run_snoc] at hsep
    intro buf raw hreading
    exact (srv.separated_data_iff _ input buf hfollow hreading).mp hsep buf raw hreading

end Server

/-- A server that takes messages of three octets. -/
def tiny : Server where
  max_message_size_bytes := 3
  max_recipients_per_request := 1
  helo_self := "sidecar"
  trusted := true
  relay _ _ _ _ := ⟨250, "250 2.6.0 queued"⟩
  probe _ _ _ _ := ⟨451, "451 4.4.1 validation inconclusive across all tunnels"⟩
  controlRecipients _ _ _ _ := []

def octets (text : String) : List (Option UInt8) := text.toUTF8.data.toList.map some

/-- The line that overflows ends `read_data`; the next line of the message is
taken for a command, and answered. -/
theorem overflow_runs_content :
    .reply "250 2.0.0 ok" ∈ (tiny.handleSession.run (octets
      "HELO x\r\nMAIL FROM:<>\r\nRCPT TO:<a@b.c>\r\nDATA\r\nlong\r\nNOOP\r\n.\r\n")).events ∧
    ¬ tiny.handleSession.Always (fun _ s => Separated s) (octets
      "HELO x\r\nMAIL FROM:<>\r\nRCPT TO:<a@b.c>\r\nDATA\r\nlong\r\nNOOP\r\n.\r\n") := by
  refine ⟨by decide +kernel, ?_⟩
  intro h
  have hsep := h (octets "HELO x\r\nMAIL FROM:<>\r\nRCPT TO:<a@b.c>\r\nDATA\r\nlong\r\n")
    (by decide +kernel)
  exact absurd (hsep (by decide +kernel)) (by decide +kernel)

end MailCue.Tunnel.Sidecar
