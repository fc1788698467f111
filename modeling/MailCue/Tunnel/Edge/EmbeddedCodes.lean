import MailCue.Backend.Emails.RcptParity
import MailCue.Tunnel.Edge.SmtpClient

/-!
# Status codes inside other tokens

tunnel/crates/edge/src/relay.rs, `definitive_recipient_rejection`: a status code
is looked for anywhere in the reply, and found in an address or a version number
as well as in a status of its own. The backend's reading of the same reply asks
for a token, `ENHANCED_STATUS_REGEX` having a word boundary on both sides.
-/
namespace MailCue.Tunnel.Edge
open MailCue.Lib MailCue.Tunnel.Proto MailCue.Tunnel.Edge.SmtpClient

/-- The codes that prove an absent mailbox at this host. -/
def definitiveCodes (mx : String) : List String :=
  UNIVERSAL_CODES ++ if isMicrosoftMx mx then ["5.4.1"] else []

/-! ## Tokens -/

section Tokens
variable (alnum : Char → Bool)

def delimits (c : Char) : Bool := !alnum c && c != '.'

/-- The code stands in the text as a token of its own. -/
def WholeToken (code text : Text) : Prop :=
  ∃ before after, text = before ++ code ++ after ∧
    before.getLast?.all (delimits alnum) = true ∧ after.head?.all (delimits alnum) = true

theorem wholeToken_iff_at (code text : Text) :
    WholeToken alnum code text ↔ ∃ i < text.length + 1, code <+: text.drop i ∧
      (text.take i).getLast?.all (delimits alnum) = true ∧
      ((text.drop i).drop code.length).head?.all (delimits alnum) = true := by
  constructor
  · rintro ⟨before, after, rfl, hbefore, hafter⟩
    have hdrop : (before ++ code ++ after).drop before.length = code ++ after := by
      rw [List.append_assoc, List.drop_left]
    have htake : (before ++ code ++ after).take before.length = before := by
      rw [List.append_assoc, List.take_left]
    have hlt : before.length < (before ++ code ++ after).length + 1 := by
      rw [List.length_append, List.length_append]
      omega
    refine ⟨before.length, hlt, ?_, ?_, ?_⟩
    · rw [hdrop]
      exact List.prefix_append code after
    · rw [htake]
      exact hbefore
    · rw [hdrop, List.drop_left]
      exact hafter
  · rintro ⟨i, -, ⟨after, hfound⟩, hbefore, hafter⟩
    rw [← hfound, List.drop_left] at hafter
    refine ⟨text.take i, after, ?_, hbefore, hafter⟩
    rw [List.append_assoc, hfound, List.take_append_drop]

instance (code text : Text) : Decidable (WholeToken alnum code text) :=
  decidable_of_iff _ (wholeToken_iff_at alnum code text).symm

/-- Nothing in the text says that the mailbox is absent: no phrase in any case,
and none of the codes as a token. -/
structure Unexplained (mx : String) (text : Text) : Prop where
  phrases : ∀ phrase ∈ STRONG_MARKERS ++ WEAK_MARKERS, ¬ phrase.toList <:+: Text.asciiLower text
  codes : ∀ code ∈ definitiveCodes mx, ¬ WholeToken alnum code.toList text

end Tokens

/-! ## What the edge reads -/

theorem mem_definitiveCodes {mx code : String} (h : code ∈ definitiveCodes mx) :
    code ∈ UNIVERSAL_CODES ++ ["5.4.1"] := by
  unfold definitiveCodes at h
  split at h
  · exact h
  · exact List.mem_append_left _ (by simpa using h)

theorem definitiveCodes_plain (mx : String) :
    ∀ code ∈ definitiveCodes mx, ∀ c ∈ code.toList, c.isAlpha = false := by
  have hall : ∀ code ∈ UNIVERSAL_CODES ++ ["5.4.1"], code.toList.all (fun c => !c.isAlpha) = true := by
    decide
  intro code hcode c hc
  simpa using List.all_eq_true.mp (hall code (mem_definitiveCodes hcode)) c hc

open MailCue.Backend.Emails in
theorem edgeCode_iff (message mx : String) :
    edgeCode message mx = true ↔ ∃ code ∈ definitiveCodes mx, code.toList <:+: message.toList := by
  have hplain : (∃ code ∈ definitiveCodes mx, code.toList <:+: Text.asciiLower message.toList) ↔
      ∃ code ∈ definitiveCodes mx, code.toList <:+: message.toList := by
    refine exists_congr fun code => and_congr_right fun hcode => ?_
    exact Text.infix_asciiLower_iff (definitiveCodes_plain mx code hcode)
  rw [← hplain]
  unfold edgeCode definitiveCodes
  rw [Bool.or_eq_true, Bool.and_eq_true, edgeSees_iff, edgeSees_iff]
  split
  · next hmicrosoft =>
    simp only [hmicrosoft, true_and, List.mem_append, or_and_right, exists_or]
  · next hother =>
    simp only [hother, false_and, or_false, List.append_nil, Bool.false_eq_true]

theorem firstLine_within (text : String) : (firstLine text).toList <:+: text.toList := by
  have hstrip : (firstLine text).toList =
      Text.strip isWhitespace (text.toList.takeWhile (· ≠ '\n')) := by
    simp [firstLine, trimChars, Text.strip, List.rdropWhile]
  rw [hstrip]
  exact (Text.strip_infix _ _).trans (List.takeWhile_prefix _).isInfix

/-- The text behind which a refused recipient's reply is recorded. -/
theorem rcptPrefix_apart : ∀ marker ∈ STRONG_MARKERS ++ WEAK_MARKERS,
    ∀ tail ∈ ("rcpt to: ".toList).tails, tail ≠ [] →
      ¬ tail <+: marker.toList ∧ ¬ marker.toList <+: tail := by
  decide +kernel

theorem rcptPrefix_apart_codes (mx : String) : ∀ code ∈ definitiveCodes mx,
    ∀ tail ∈ ("RCPT TO: ".toList).tails, tail ≠ [] →
      ¬ tail <+: code.toList ∧ ¬ code.toList <+: tail := by
  have hall : ∀ code ∈ UNIVERSAL_CODES ++ ["5.4.1"],
      ∀ tail ∈ ("RCPT TO: ".toList).tails, tail ≠ [] →
        ¬ tail <+: code.toList ∧ ¬ code.toList <+: tail := by
    decide +kernel
  exact fun code hcode => hall code (mem_definitiveCodes hcode)

/-! ## The verdict -/

/-- What a probe makes of the reply to RCPT. -/
def rcptVerdict (mx recipient : String) (latency_ms : UInt32) (reply : Reply) : ProbeStatus :=
  let o := Peer.rcptOutcome mx recipient latency_ms reply
  (probeOutcome mx o.status o.latency_ms).status

theorem rcptVerdict_rejected_iff (mx recipient : String) (latency_ms : UInt32) (reply : Reply)
    (h5 : 500 ≤ reply.code) :
    rcptVerdict mx recipient latency_ms reply = .rejected ↔
      definitiveRecipientRejection ("RCPT TO: " ++ firstLine reply.text) mx = true := by
  have hcode : 500 ≤ reply.code.toNat := h5
  have h2 : reply.is2xx = false := by
    simp only [Reply.is2xx, Bool.and_eq_false_iff, decide_eq_false_iff_not, UInt16.not_lt,
      UInt16.le_iff_toNat_le]
    exact .inr (Nat.le_trans (by decide) hcode)
  have h4 : reply.is4xx = false := by
    simp only [Reply.is4xx, Bool.and_eq_false_iff, decide_eq_false_iff_not, UInt16.not_lt,
      UInt16.le_iff_toNat_le]
    exact .inr hcode
  have houtcome : (Peer.rcptOutcome mx recipient latency_ms reply).status =
      .permFail ("RCPT TO: " ++ firstLine reply.text) (some reply.code) := by
    simp only [Peer.rcptOutcome, h2, h4, Bool.false_eq_true, if_false]
    rfl
  simp only [rcptVerdict, houtcome, probeOutcome]
  cases definitiveRecipientRejection ("RCPT TO: " ++ firstLine reply.text) mx <;> simp

open MailCue.Backend.Emails in
/-- Without a phrase in the text, the codes decide, wherever they stand. -/
theorem definitive_of_codes {mx : String} {text : String}
    (h : ∀ phrase ∈ STRONG_MARKERS ++ WEAK_MARKERS,
      ¬ phrase.toList <:+: Text.asciiLower text.toList) :
    definitiveRecipientRejection ("RCPT TO: " ++ firstLine text) mx = true ↔
      ∃ code ∈ definitiveCodes mx, code.toList <:+: (firstLine text).toList := by
  have hnone : ∀ markers ⊆ STRONG_MARKERS ++ WEAK_MARKERS,
      ¬ edgeSees ("RCPT TO: " ++ firstLine text) markers = true := by
    intro markers hsub hsees
    obtain ⟨marker, hmarker, hfound⟩ := (edgeSees_iff _ _).mp hsees
    have hlower : Text.asciiLower ("RCPT TO: " ++ firstLine text).toList =
        "rcpt to: ".toList ++ Text.asciiLower (firstLine text).toList := by
      rw [String.toList_append, Text.asciiLower, List.map_append]
      rfl
    rw [hlower, Text.infix_append_of_apart (rcptPrefix_apart marker (hsub hmarker))] at hfound
    exact h marker (hsub hmarker) (hfound.trans ((firstLine_within text).map _))
  rw [definitiveRecipientRejection_iff, edgeCode_iff]
  have hstrong := hnone STRONG_MARKERS (List.subset_append_left _ _)
  have hweak := hnone WEAK_MARKERS (List.subset_append_right _ _)
  simp only [hstrong, hweak, Bool.false_eq_true, and_false, or_false]
  refine exists_congr fun code => and_congr_right fun hcode => ?_
  rw [String.toList_append, Text.infix_append_of_apart (rcptPrefix_apart_codes mx code hcode)]

/-- A refusal that says nothing about the mailbox is taken for a definitive
rejection exactly when its first line has one of the codes inside a longer
token, whatever characters are counted as alphanumeric. -/
theorem unexplained_refusal_inconclusive_iff (alnum : Char → Bool) (mx recipient : String)
    (latency_ms : UInt32) (reply : Reply) (h5 : 500 ≤ reply.code ∧ reply.code < 600) :
    (Unexplained alnum mx reply.text.toList →
        rcptVerdict mx recipient latency_ms reply ≠ .rejected) ↔
      ¬ (Unexplained alnum mx reply.text.toList ∧
        ∃ code ∈ definitiveCodes mx, code.toList <:+: (firstLine reply.text).toList) := by
  rw [not_and]
  refine forall_congr' fun hunexplained => not_congr ?_
  rw [rcptVerdict_rejected_iff mx recipient latency_ms reply h5.1,
    definitive_of_codes hunexplained.phrases]

/-- A policy refusal, with a status of its own. -/
theorem unexplained_refusal_inconclusive_policy :
    (Unexplained Char.isAlphanum "mx1.example.net" "5.7.1 refused".toList →
        rcptVerdict "mx1.example.net" "x@b.org" 3 ⟨550, "5.7.1 refused"⟩ ≠ .rejected) ↔
      ¬ (Unexplained Char.isAlphanum "mx1.example.net" "5.7.1 refused".toList ∧
        ∃ code ∈ definitiveCodes "mx1.example.net",
          code.toList <:+: (firstLine "5.7.1 refused").toList) :=
  unexplained_refusal_inconclusive_iff Char.isAlphanum "mx1.example.net" "x@b.org" 3
    ⟨550, "5.7.1 refused"⟩ (by decide)

/-- The sending host's address has `5.1.1` in it, and the recipient is declared
absent. -/
theorem address_taken_for_status :
    Unexplained Char.isAlphanum "mx1.example.net"
      "5.7.1 connection from 75.1.1.20 refused".toList ∧
    rcptVerdict "mx1.example.net" "x@b.org" 3
      ⟨550, "5.7.1 connection from 75.1.1.20 refused"⟩ = .rejected := by
  refine ⟨⟨by decide +kernel, by decide +kernel⟩, by decide +kernel⟩

end MailCue.Tunnel.Edge
