import MailCue.Backend.Emails.MailboxProbe
import MailCue.Backend.Emails.StatusParity

/-!
# The diagnostics of a probe reply

The sidecar prints what a probe found as `key=value` words behind its verdict
(tunnel/crates/sidecar/src/relay.rs, `probe_smtp_reply`), and the backend reads
them back (backend/app/emails/validation.py, `_parse_probe_fields` and
`validate_mailbox_via_tunnel`). A value that is absent is printed as a zero or a
dash, and nothing turns these back on the other side.
-/
namespace MailCue.Backend.Emails
open MailCue.Lib MailCue.Lib.Text MailCue.Tunnel.Proto MailCue.Tunnel.Sidecar

/-! ## Words -/

section Words
variable (py : PyText)

theorem parse_append (front back : Text) {c : Char} (hc : isSpace c = true) :
    parseProbeFields py (front ++ c :: back) =
      parseProbeFields py front ++ parseProbeFields py back := by
  rw [parseProbeFields, List.splitOnP_append_cons _ _ hc, List.filterMap_append]
  rfl

theorem parse_word {word : Text} (h : ∀ c ∈ word, isSpace c = false) :
    parseProbeFields py word = (py.fieldIn none word).toList := by
  rw [parseProbeFields, List.splitOnP_eq_singleton h]
  cases hfield : py.fieldIn none word <;> simp [hfield]

theorem fieldIn_plain : ∀ (word : Text) (before : Option Char), '=' ∉ word →
    py.fieldIn before word = none
  | [], _, _ => rfl
  | c :: rest, before, h => by
    have hrest := fieldIn_plain rest (some c) fun hmem => h (List.mem_cons_of_mem c hmem)
    rw [PyText.fieldIn]
    split
    · next value hvalue =>
      have hmem : '=' ∈ (c :: rest).dropWhile isFieldKeyChar := by
        rw [hvalue]
        exact List.mem_cons_self
      exact absurd ((List.dropWhile_sublist _).subset hmem) h
    · exact hrest

/-- A word without `=` holds no field. -/
theorem parse_plain {text : Text} (h : '=' ∉ text) : parseProbeFields py text = [] := by
  rw [parseProbeFields, List.filterMap_eq_nil_iff]
  intro word hword
  exact fieldIn_plain py word none fun hmem => h (of_mem_splitOnP hword '=' hmem).2

/-- A field's value is not empty and stands behind an `=`, to the end of its word. -/
theorem fieldIn_suffix : ∀ (word : Text) (before : Option Char) (key : String) (value : Text),
    py.fieldIn before word = some (key, value) → '=' :: value <:+ word ∧ value ≠ []
  | [], _, _, _, h => by cases h
  | c :: rest, before, key, value, h => by
    have hrest (h : py.fieldIn (some c) rest = some (key, value)) :
        '=' :: value <:+ c :: rest ∧ value ≠ [] :=
      (fieldIn_suffix rest (some c) key value h).imp_left (·.trans (List.suffix_cons c rest))
    rw [PyText.fieldIn] at h
    split at h
    · next found hfound =>
      split at h
      · next hguard =>
        cases h
        refine ⟨?_, hguard.2.1⟩
        rw [← hfound]
        exact List.dropWhile_suffix _
      · exact hrest h
    · exact hrest h

/-- A value read from a text has no white space. -/
theorem parse_unspaced {text : Text} {key : String} {value : Text}
    (h : (key, value) ∈ parseProbeFields py text) : ∀ c ∈ value, isSpace c = false := by
  obtain ⟨word, hword, hfield⟩ := List.mem_filterMap.mp h
  intro c hc
  have hsuffix := (fieldIn_suffix py word none key value hfield).1
  exact (of_mem_splitOnP hword c (hsuffix.subset (List.mem_cons_of_mem _ hc))).1

theorem fieldKeyChar_bounds {c : Char} (h : isFieldKeyChar c = true) :
    95 ≤ c.toNat ∧ c.toNat ≤ 122 := by
  simp only [isFieldKeyChar, Bool.or_eq_true, Bool.and_eq_true, decide_eq_true_eq,
    beq_iff_eq] at h
  rcases h with ⟨hge, hle⟩ | rfl
  · have ha : 97 ≤ c.toNat := hge
    have hz : c.toNat ≤ 122 := hle
    omega
  · decide

theorem fieldKeyChar_unspaced {c : Char} (h : isFieldKeyChar c = true) : isSpace c = false := by
  have hbounds := fieldKeyChar_bounds h
  simp [isSpace]
  omega

theorem fieldKeyChar_plain {key : Text} (h : ∀ c ∈ key, isFieldKeyChar c = true) : '=' ∉ key := by
  intro hmem
  exact absurd (h '=' hmem) (by decide)

/-- A field as it is printed. -/
def fieldWord (key : String) (value : Text) : Text := key.toList ++ '=' :: value

theorem fieldIn_fieldWord {key : String} {value : Text} (hkey : key.toList ≠ [])
    (hletters : ∀ c ∈ key.toList, isFieldKeyChar c = true) (hvalue : value ≠ []) :
    py.fieldIn none (fieldWord key value) = some (key, value) := by
  obtain ⟨c, rest, hcons⟩ := List.exists_cons_of_ne_nil hkey
  have hstop : isFieldKeyChar '=' = false := by decide
  have hword : py.isWord c = true := by
    have hc : isFieldKeyChar c = true := hletters c (by simp [hcons])
    have hascii : c.toNat < 128 := Nat.lt_of_le_of_lt (fieldKeyChar_bounds hc).2 (by decide)
    have hall : ∀ n < 128, isFieldKeyChar (Char.ofNat n) = true →
        ((Char.ofNat n).isAlphanum || Char.ofNat n == '_') = true := by decide
    have hone := hall c.toNat hascii
    rw [Char.ofNat_toNat] at hone
    rw [py.ascii_word c (by simpa [ascii] using hascii)]
    exact hone hc
  have htake : (fieldWord key value).takeWhile isFieldKeyChar = key.toList :=
    takeWhile_run hletters (by simp [hstop])
  have hdrop : (fieldWord key value).dropWhile isFieldKeyChar = '=' :: value := by
    rw [fieldWord, List.dropWhile_append_of_pos hletters,
      List.dropWhile_cons_of_neg (by simp [hstop])]
  have hshape : fieldWord key value = c :: (rest ++ '=' :: value) := by simp [fieldWord, hcons]
  rw [hshape] at htake hdrop ⊢
  simp only [PyText.fieldIn, htake, hdrop]
  rw [if_pos ⟨hkey, hvalue, by simp [PyText.boundary, hword]⟩, String.ofList_toList]

/-- A field without a value is not found. -/
theorem fieldIn_empty {key : String} (hplain : '=' ∉ key.toList) :
    py.fieldIn none (fieldWord key []) = none := by
  cases hfield : py.fieldIn none (fieldWord key []) with
  | none => rfl
  | some found =>
    obtain ⟨⟨pre, hpre⟩, hvalue⟩ := fieldIn_suffix py _ none found.1 found.2 hfield
    obtain ⟨value, last, hlast⟩ := List.eq_nil_or_concat found.2 |>.resolve_left hvalue
    have hkey : key.toList = pre ++ '=' :: value := by
      rw [hlast, fieldWord] at hpre
      have hcut : (pre ++ '=' :: value) ++ [last] = key.toList ++ ['='] := by simpa using hpre
      exact (List.append_inj_left' hcut rfl).symm
    exact absurd (by simp [hkey]) hplain

theorem parse_field {key : String} {value : Text} (hkey : key.toList ≠ [])
    (hletters : ∀ c ∈ key.toList, isFieldKeyChar c = true)
    (hvalue : ∀ c ∈ value, isSpace c = false) :
    parseProbeFields py (fieldWord key value) = if value = [] then [] else [(key, value)] := by
  have hword : ∀ c ∈ fieldWord key value, isSpace c = false := by
    intro c hc
    rcases List.mem_append.mp hc with hc | hc
    · exact fieldKeyChar_unspaced (hletters c hc)
    · rcases List.mem_cons.mp hc with rfl | hc
      · decide
      · exact hvalue c hc
  rw [parse_word py hword]
  split
  · next hnil =>
    subst hnil
    rw [fieldIn_empty py (fieldKeyChar_plain hletters)]
    rfl
  · next hsome =>
    rw [fieldIn_fieldWord py hkey hletters hsome]
    rfl

theorem parse_words : ∀ (words : List Text), words ≠ [] →
    parseProbeFields py ([' '].intercalate words) = words.flatMap (parseProbeFields py)
  | [], h => absurd rfl h
  | [word], _ => by simp
  | word :: next :: rest, _ => by
    rw [List.intercalate_cons_cons, List.append_assoc, List.singleton_append,
      parse_append py _ _ (by decide), parse_words (next :: rest) (List.cons_ne_nil _ _)]
    rfl

end Words

/-! ## What is printed -/

/-- The fields with their values, in the order they are printed. -/
def printedFields (target : ProbeOutcome) (controls : List ProbeOutcome) : List (String × String) :=
  let summary := summariseControls controls
  [("upstream_code", toString (target.smtp_code.getD 0)),
    ("mx", smtpSafe target.mx),
    ("controls_total", toString summary.total),
    ("controls_accepted", toString summary.accepted),
    ("controls_rejected", toString summary.rejected),
    ("target_ms", toString target.latency_ms),
    ("control_ms", toString summary.median_latency_ms),
    ("degraded", toString summary.degraded.toNat),
    ("reputation", toString (reputationSignal target controls).toNat),
    ("enhanced", (enhancedStatus target.smtp_msg).getD "-")]

theorem diagnostics_words (upstream_code mx total accepted rejected target_ms control_ms degraded
    reputation enhanced : String) :
    (s!"upstream_code={upstream_code} mx={mx} controls_total={total} " ++
      s!"controls_accepted={accepted} controls_rejected={rejected} " ++
      s!"target_ms={target_ms} control_ms={control_ms} " ++
      s!"degraded={degraded} reputation={reputation} enhanced={enhanced}").toList =
    [' '].intercalate ([("upstream_code", upstream_code), ("mx", mx), ("controls_total", total),
      ("controls_accepted", accepted), ("controls_rejected", rejected), ("target_ms", target_ms),
      ("control_ms", control_ms), ("degraded", degraded), ("reputation", reputation),
      ("enhanced", enhanced)].map fun f => fieldWord f.1 f.2.toList) := by
  simp [fieldWord, List.intercalate, toString]

theorem probeDiagnostics_words (target : ProbeOutcome) (controls : List ProbeOutcome) :
    (probeDiagnostics target controls).toList =
      [' '].intercalate ((printedFields target controls).map fun f => fieldWord f.1 f.2.toList) :=
  diagnostics_words _ _ _ _ _ _ _ _ _ _

/-- The reply behind its code: a verdict without fields, then the diagnostics. -/
theorem probeSmtpReply_text {target : ProbeOutcome} {controls : List ProbeOutcome}
    {reply : SmtpReply} (h : probeSmtpReply target controls = some reply) :
    ∃ verdict : Text, '=' ∉ verdict ∧
      reply.line.toList.drop 4 = verdict ++ ' ' :: (probeDiagnostics target controls).toList := by
  unfold probeSmtpReply at h
  cases hstatus : target.status with
  | rejected =>
    simp only [hstatus, Option.some.injEq] at h
    subst h
    exact ⟨"5.1.1 recipient rejected".toList, by decide, by simp⟩
  | unknown => simp [hstatus] at h
  | accepted =>
    simp only [hstatus] at h
    split at h
    · cases h
    · split at h
      · cases h
        exact ⟨"2.1.5 accept-all".toList, by decide, by simp⟩
      · split at h
        · cases h
          exact ⟨"2.1.5 recipient accepted".toList, by decide, by simp⟩
        · cases h

theorem parse_reply (py : PyText) {target : ProbeOutcome} {controls : List ProbeOutcome}
    {reply : SmtpReply} (h : probeSmtpReply target controls = some reply) :
    parseProbeFields py (reply.line.toList.drop 4) =
      (printedFields target controls).flatMap fun f =>
        parseProbeFields py (fieldWord f.1 f.2.toList) := by
  obtain ⟨verdict, hplain, htext⟩ := probeSmtpReply_text h
  rw [htext, parse_append py _ _ (by decide), parse_plain py hplain, List.nil_append,
    probeDiagnostics_words, parse_words py _ (by simp [printedFields]), List.flatMap_map]

/-! ## The values -/

theorem digit_plain {c : Char} (h : c.isDigit = true) : isSpace c = false := by
  simp only [Char.isDigit, Bool.and_eq_true, decide_eq_true_eq] at h
  have h0 : 48 ≤ c.toNat := h.1
  have h9 : c.toNat ≤ 57 := h.2
  simp [isSpace]
  omega

theorem number_plain (n : Nat) :
    (toString n).toList ≠ [] ∧ ∀ c ∈ (toString n).toList, isSpace c = false := by
  have hdigits : (toString n).toList = Nat.toDigits 10 n := by simp [toString, Nat.repr]
  rw [hdigits]
  refine ⟨Nat.toDigits_ne_nil, fun c hc => ?_⟩
  exact digit_plain (Nat.isDigit_of_mem_toDigits (by decide) (by decide) hc)

theorem enhanced_plain (message : String) :
    ((enhancedStatus message).getD "-").toList ≠ [] ∧
      ∀ c ∈ ((enhancedStatus message).getD "-").toList, isSpace c = false := by
  cases hstatus : enhancedStatus message with
  | none =>
    have hdash : ((none : Option String).getD "-").toList = ['-'] := rfl
    rw [hdash]
    refine ⟨List.cons_ne_nil _ _, fun c hc => ?_⟩
    rw [List.mem_singleton.mp hc]
    rfl
  | some status =>
    rw [enhancedStatus_eq, Option.map_eq_some_iff] at hstatus
    obtain ⟨found, hfound, rfl⟩ := hstatus
    obtain ⟨pre, post, -, htriple, -⟩ := exists_of_firstAt scanner_finds hfound
    rw [Option.getD_some, String.toList_ofList]
    refine ⟨htriple.nonempty, fun c hc => ?_⟩
    obtain ⟨cls, subject, detail, rfl, hclass, hs, hd⟩ := htriple
    simp only [List.mem_cons, List.mem_append] at hc
    rcases hc with rfl | rfl | hc | rfl | hc
    · rcases hclass with rfl | rfl | rfl <;> decide
    · decide
    · exact digit_plain (hs.2.2 c hc)
    · decide
    · exact digit_plain (hd.2.2 c hc)

/-! ## Both ends -/

/-- What a probe reports. Latencies are hundredths of a millisecond. -/
structure ProbeDiagnostics where
  upstream_code : Option Int
  mx : Option String
  controls_total : Int
  controls_accepted : Int
  controls_rejected : Int
  target_ms : Option Nat
  control_ms : Option Nat
  degraded : Bool
  reputation : Bool
  enhanced : Option String
  deriving DecidableEq, Repr

namespace ProbeDiagnostics

/-- The values on the side of the sidecar: no host has the empty name, and no
control has no latency. -/
def ofProbe (target : ProbeOutcome) (controls : List ProbeOutcome) : ProbeDiagnostics :=
  let summary := summariseControls controls
  { upstream_code := target.smtp_code.map fun code => (code.toNat : Int)
    mx := if target.mx = "" then none else some target.mx
    controls_total := summary.total
    controls_accepted := summary.accepted
    controls_rejected := summary.rejected
    target_ms := some (100 * target.latency_ms.toNat)
    control_ms := if controls = [] then none else some (100 * summary.median_latency_ms.toNat)
    degraded := summary.degraded
    reputation := reputationSignal target controls
    enhanced := enhancedStatus target.smtp_msg }

/-- The values as `validate_mailbox_via_tunnel` takes them from the reply's text. -/
def read (py : PyText) (int : Text → Option Int) (float : Text → Option Nat) (text : Text) :
    ProbeDiagnostics :=
  let fields := parseProbeFields py text
  let count (key : String) : Int := ((probeField fields key).bind int).getD 0
  { upstream_code := (probeField fields "upstream_code").bind int
    mx := (probeField fields "mx").map String.ofList
    controls_total := count "controls_total"
    controls_accepted := count "controls_accepted"
    controls_rejected := count "controls_rejected"
    target_ms := (probeField fields "target_ms").bind float
    control_ms := (probeField fields "control_ms").bind float
    degraded := probeField fields "degraded" = some ['1']
    reputation := probeField fields "reputation" = some ['1']
    enhanced := (probeField fields "enhanced").map String.ofList }

end ProbeDiagnostics

theorem validateMailboxViaTunnel_reads (py : PyText) (int : Text → Option Int)
    (float : Text → Option Nat) (reply : SmtpReply) :
    let m := validateMailboxViaTunnel py int float reply
    let d := ProbeDiagnostics.read py int float (reply.line.toList.drop 4)
    m.smtp_code = d.upstream_code ∧ m.mx_host = d.mx ∧ m.enhanced_status = d.enhanced ∧
      m.target_latency_ms = d.target_ms ∧ m.control_median_latency_ms = d.control_ms ∧
      m.controls_accepted = d.controls_accepted ∧ m.controls_rejected = d.controls_rejected ∧
      m.controls_inconclusive =
        max (d.controls_total - d.controls_accepted - d.controls_rejected) 0 ∧
      m.order_degraded = d.degraded ∧ m.sender_reputation_signal = d.reputation := by
  simp only [validateMailboxViaTunnel]
  split
  · simp [ProbeDiagnostics.read]
  · split
    · simp [ProbeDiagnostics.read]
    · split <;> simp [ProbeDiagnostics.read]

section Reading
variable (py : PyText) (int : Text → Option Int) (float : Text → Option Nat)

theorem printed_keys (target : ProbeOutcome) (controls : List ProbeOutcome) :
    ∀ f ∈ printedFields target controls,
      f.1.toList ≠ [] ∧ f.1.toList.all isFieldKeyChar = true := by
  have hall : ∀ key ∈ ["upstream_code", "mx", "controls_total", "controls_accepted",
      "controls_rejected", "target_ms", "control_ms", "degraded", "reputation", "enhanced"],
      key.toList ≠ [] ∧ key.toList.all isFieldKeyChar = true := by
    decide
  intro f hf
  exact hall f.1 (List.mem_map_of_mem (f := fun f : String × String => f.1) hf)

theorem printed_values {target : ProbeOutcome} {controls : List ProbeOutcome}
    (hmx : ∀ c ∈ (smtpSafe target.mx).toList, isSpace c = false) :
    ∀ f ∈ printedFields target controls, ∀ c ∈ f.2.toList, isSpace c = false := by
  intro f hf
  have hnumber : ∀ n : Nat, ∀ c ∈ (toString n).toList, isSpace c = false :=
    fun n => (number_plain n).2
  simp only [printedFields, List.mem_cons, List.not_mem_nil, or_false] at hf
  rcases hf with rfl | rfl | rfl | rfl | rfl | rfl | rfl | rfl | rfl | rfl
  · exact hnumber (target.smtp_code.getD 0).toNat
  · exact hmx
  · exact hnumber _
  · exact hnumber _
  · exact hnumber _
  · exact hnumber target.latency_ms.toNat
  · exact hnumber (summariseControls controls).median_latency_ms.toNat
  · exact hnumber _
  · exact hnumber _
  · exact (enhanced_plain target.smtp_msg).2

theorem parsed_fields {target : ProbeOutcome} {controls : List ProbeOutcome} {reply : SmtpReply}
    (h : probeSmtpReply target controls = some reply)
    (hmx : ∀ c ∈ (smtpSafe target.mx).toList, isSpace c = false) :
    parseProbeFields py (reply.line.toList.drop 4) =
      (printedFields target controls).flatMap fun f =>
        if f.2.toList = [] then [] else [(f.1, f.2.toList)] := by
  rw [parse_reply py h]
  refine List.flatMap_congr fun f hf => ?_
  obtain ⟨hkey, hletters⟩ := printed_keys target controls f hf
  exact parse_field py hkey (fun c hc => List.all_eq_true.mp hletters c hc)
    (printed_values hmx f hf)

/-- A host's name without white space is read as it was cut to be printed, and
everything else with the sentinels in the place of what was absent. -/
theorem read_reply (hint : ∀ n : Nat, int (toString n).toList = some (n : Int))
    (hfloat : ∀ n : Nat, float (toString n).toList = some (100 * n))
    {target : ProbeOutcome} {controls : List ProbeOutcome} {reply : SmtpReply}
    (h : probeSmtpReply target controls = some reply)
    (hmx : ∀ c ∈ (smtpSafe target.mx).toList, isSpace c = false) :
    ProbeDiagnostics.read py int float (reply.line.toList.drop 4) =
      { ProbeDiagnostics.ofProbe target controls with
        upstream_code := some ((target.smtp_code.getD 0).toNat : Int)
        mx := if smtpSafe target.mx = "" then none else some (smtpSafe target.mx)
        control_ms := some (100 * (summariseControls controls).median_latency_ms.toNat)
        enhanced := some ((enhancedStatus target.smtp_msg).getD "-") } := by
  have hfields := parsed_fields py h hmx
  have hint : ∀ n : Nat, int (Nat.toDigits 10 n) = some (n : Int) := by simpa using hint
  have hfloat : ∀ n : Nat, float (Nat.toDigits 10 n) = some (100 * n) := by simpa using hfloat
  have hflag : ∀ b : Bool, Nat.toDigits 10 b.toNat = ['1'] ↔ b = true := by decide
  have hnonempty : ∀ n : Nat, (toString n).toList ≠ [] := fun n => (number_plain n).1
  have hcode : (toString (target.smtp_code.getD 0)).toList =
      (toString (target.smtp_code.getD 0).toNat).toList := rfl
  have hlatency : ∀ n : UInt32, (toString n).toList = (toString n.toNat).toList := fun _ => rfl
  have henhanced := (enhanced_plain target.smtp_msg).1
  simp only [printedFields, hcode, hlatency, List.flatMap_cons, List.flatMap_nil, hnonempty,
    henhanced, if_false, List.append_nil] at hfields
  by_cases hempty : smtpSafe target.mx = ""
  · simp [ProbeDiagnostics.read, ProbeDiagnostics.ofProbe, hfields, hempty, probeField, hint,
      hfloat, hflag]
  · simp [ProbeDiagnostics.read, ProbeDiagnostics.ofProbe, hfields, hempty, probeField, hint,
      hfloat, hflag]

theorem read_mx_unspaced {text : Text} {mx : String}
    (h : (ProbeDiagnostics.read py int float text).mx = some mx) :
    ∀ c ∈ mx.toList, isSpace c = false := by
  obtain ⟨value, hvalue, rfl⟩ := Option.map_eq_some_iff.mp h
  obtain ⟨⟨key, found⟩, hfound, rfl⟩ := Option.map_eq_some_iff.mp hvalue
  have hmem := List.mem_reverse.mp (List.mem_of_find?_eq_some hfound)
  rw [String.toList_ofList]
  exact parse_unspaced py hmem

theorem smtpSafe_unspaced {mx : String} (h : ∀ c ∈ mx.toList, isSpace c = false) :
    smtpSafe mx = String.ofList (mx.toList.take 200) := by
  have hkept : (mx.toList.filter fun c => c ≠ '\r' ∧ c ≠ '\n' ∧ c ≠ ' ') = mx.toList := by
    rw [List.filter_eq_self]
    intro c hc
    have hspace := h c hc
    have hne : ∀ d, isSpace d = true → c ≠ d := by
      rintro d hd rfl
      rw [hd] at hspace
      cases hspace
    simpa using ⟨hne '\r' (by decide), hne '\n' (by decide), hne ' ' (by decide)⟩
  rw [smtpSafe, hkept]

/-- The backend reads back what a probe found exactly when nothing of it was
absent and the host's name has no white space and at most 200 characters. -/
theorem probe_round_trip_iff (hint : ∀ n : Nat, int (toString n).toList = some (n : Int))
    (hfloat : ∀ n : Nat, float (toString n).toList = some (100 * n))
    (target : ProbeOutcome) (controls : List ProbeOutcome) (reply : SmtpReply)
    (h : probeSmtpReply target controls = some reply) :
    ProbeDiagnostics.read py int float (reply.line.toList.drop 4) =
        ProbeDiagnostics.ofProbe target controls ↔
      target.smtp_code ≠ none ∧ enhancedStatus target.smtp_msg ≠ none ∧ controls ≠ [] ∧
        target.mx.length ≤ 200 ∧ ∀ c ∈ target.mx.toList, isSpace c = false := by
  constructor
  · intro heq
    have hmx : ∀ c ∈ target.mx.toList, isSpace c = false := by
      by_cases hempty : target.mx = ""
      · simp [hempty]
      · refine @read_mx_unspaced py int float (reply.line.toList.drop 4) _ ?_
        rw [heq]
        simp [ProbeDiagnostics.ofProbe, hempty]
    have hsafe := smtpSafe_unspaced hmx
    have hread := read_reply py int float hint hfloat h (by
      rw [hsafe, String.toList_ofList]
      exact fun c hc => hmx c (List.mem_of_mem_take hc))
    rw [heq] at hread
    have hcode := congrArg ProbeDiagnostics.upstream_code hread
    have henhanced := congrArg ProbeDiagnostics.enhanced hread
    have hcontrol := congrArg ProbeDiagnostics.control_ms hread
    have hname := congrArg ProbeDiagnostics.mx hread
    simp only [ProbeDiagnostics.ofProbe] at hcode henhanced hcontrol hname
    refine ⟨?_, ?_, ?_, ?_, hmx⟩
    · intro hnone
      simp [hnone] at hcode
    · rw [henhanced]
      exact Option.some_ne_none _
    · intro hnil
      simp [hnil] at hcontrol
    · by_cases hempty : target.mx = ""
      · simp [hempty]
      · rw [if_neg hempty] at hname
        split at hname
        · cases hname
        · have hcut := congrArg String.length (Option.some.inj hname)
          rw [hsafe, String.length_ofList, List.length_take, String.length_toList] at hcut
          omega
  · rintro ⟨hcode, henhanced, hcontrols, hlength, hmx⟩
    have hsafe : smtpSafe target.mx = target.mx := by
      rw [smtpSafe_unspaced hmx, List.take_of_length_le (by rwa [String.length_toList]),
        String.ofList_toList]
    rw [read_reply py int float hint hfloat h (by rwa [hsafe])]
    obtain ⟨code, hcode⟩ := Option.ne_none_iff_exists'.mp hcode
    obtain ⟨status, hstatus⟩ := Option.ne_none_iff_exists'.mp henhanced
    simp [ProbeDiagnostics.ofProbe, hcode, hstatus, hcontrols, hsafe]

end Reading

/-- `int` of a text of digits. -/
def digitsInt (text : Text) : Option Int :=
  if text ≠ [] ∧ text.all Char.isDigit = true then some (Nat.ofDigitChars 10 text 0 : Nat) else none

/-- `float` of a text of digits, in hundredths. -/
def digitsFloat (text : Text) : Option Nat := (digitsInt text).map fun n => 100 * n.toNat

theorem digitsInt_toString (n : Nat) : digitsInt (toString n).toList = some (n : Int) := by
  have hdigits : (toString n).toList = Nat.toDigits 10 n := by simp [toString, Nat.repr]
  have hall : (Nat.toDigits 10 n).all Char.isDigit = true :=
    List.all_eq_true.mpr fun c hc => Nat.isDigit_of_mem_toDigits (by decide) (by decide) hc
  rw [hdigits, digitsInt, if_pos ⟨Nat.toDigits_ne_nil, hall⟩, Nat.ofDigitChars_ten_toDigits]

theorem digitsFloat_toString (n : Nat) : digitsFloat (toString n).toList = some (100 * n) := by
  simp only [digitsFloat, digitsInt_toString, Option.map_some, Int.toNat_natCast]

/-- An unknown recipient, told with and without a status code. -/
def rejectedTarget (smtp_msg : String) : ProbeOutcome :=
  ⟨"mx.b.org", some 550, smtp_msg, .rejected, 12⟩

def rejectedControl : ProbeOutcome := ⟨"mx.b.org", some 550, "no such user", .rejected, 11⟩

theorem probe_round_trip_status :
    ProbeDiagnostics.read .asciiOnly digitsInt digitsFloat
        ((probeReply (rejectedTarget "5.1.1 no such user") [rejectedControl]).line.toList.drop 4) =
        ProbeDiagnostics.ofProbe (rejectedTarget "5.1.1 no such user") [rejectedControl] ↔
      (rejectedTarget "5.1.1 no such user").smtp_code ≠ none ∧
        enhancedStatus (rejectedTarget "5.1.1 no such user").smtp_msg ≠ none ∧
        [rejectedControl] ≠ [] ∧
        (rejectedTarget "5.1.1 no such user").mx.length ≤ 200 ∧
        ∀ c ∈ (rejectedTarget "5.1.1 no such user").mx.toList, isSpace c = false :=
  probe_round_trip_iff .asciiOnly digitsInt digitsFloat digitsInt_toString digitsFloat_toString
    (rejectedTarget "5.1.1 no such user") [rejectedControl]
    (probeReply (rejectedTarget "5.1.1 no such user") [rejectedControl]) rfl

/-- Without a status code the backend reads a dash for one. -/
theorem absent_status_read_as_dash :
    (probeSmtpReply (rejectedTarget "no such user") [rejectedControl]).map
        (fun reply => (ProbeDiagnostics.read .asciiOnly digitsInt digitsFloat
          (reply.line.toList.drop 4)).enhanced) = some (some "-") ∧
      (ProbeDiagnostics.ofProbe (rejectedTarget "no such user") [rejectedControl]).enhanced =
        none := by
  have hreply : probeSmtpReply (rejectedTarget "no such user") [rejectedControl] =
      some (probeReply (rejectedTarget "no such user") [rejectedControl]) := rfl
  have hnone : enhancedStatus (rejectedTarget "no such user").smtp_msg = none := by decide +kernel
  have hall : (smtpSafe "mx.b.org").toList.all (fun c => !isSpace c) = true := by decide +kernel
  have hmx : ∀ c ∈ (smtpSafe "mx.b.org").toList, isSpace c = false := by
    simpa using hall
  rw [hreply, Option.map_some, read_reply .asciiOnly digitsInt digitsFloat digitsInt_toString
    digitsFloat_toString hreply hmx, hnone]
  exact ⟨rfl, hnone⟩

end MailCue.Backend.Emails
