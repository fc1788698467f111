import MailCue.Backend.Emails.SmtpReply
import MailCue.Tunnel.Edge.Relay

/-!
# The edge and the backend on one RCPT reply

The edge's test of a permanent rejection and the backend's classification both
look for status codes and phrases in the reply. What the edge knows, the backend
knows too; they part where one of them sees evidence in the text that the other
has no rule for.
-/
namespace MailCue.Backend.Emails
open MailCue.Lib

/-! ## The edge's searches -/

theorem containsChars_iff (sub text : Text) :
    Tunnel.Edge.containsChars sub text = true ↔ sub <:+: text := by
  induction text with
  | nil => simp [Tunnel.Edge.containsChars]
  | cons c rest ih =>
    rw [Tunnel.Edge.containsChars, Bool.or_eq_true, List.isPrefixOf_iff_prefix, ih,
      List.infix_cons_iff]

/-- One of the edge's lists, searched in the lower-cased message. -/
def edgeSees (message : String) (markers : List String) : Bool :=
  markers.any (Tunnel.Edge.containsStr (Tunnel.Edge.toAsciiLowercase message))

theorem edgeSees_eq (message : String) (markers : List String) :
    edgeSees message markers = Text.containsAny (Text.asciiLower message.toList) markers := by
  have hlower : (Tunnel.Edge.toAsciiLowercase message).toList = Text.asciiLower message.toList := by
    simp [Tunnel.Edge.toAsciiLowercase, Text.asciiLower]
  rw [Bool.eq_iff_iff, Text.containsAny_iff]
  simp [edgeSees, Tunnel.Edge.containsStr, containsChars_iff, hlower]

theorem edgeSees_iff (message : String) (markers : List String) :
    edgeSees message markers = true ↔
      ∃ marker ∈ markers, marker.toList <:+: Text.asciiLower message.toList := by
  rw [edgeSees_eq, Text.containsAny_iff]

/-- A code the edge takes for proof, anywhere in the message. -/
def edgeCode (message mx : String) : Bool :=
  edgeSees message Tunnel.Edge.UNIVERSAL_CODES ||
    (Tunnel.Edge.isMicrosoftMx mx && edgeSees message ["5.4.1"])

theorem definitiveRecipientRejection_iff (message mx : String) :
    Tunnel.Edge.definitiveRecipientRejection message mx = true ↔
      edgeCode message mx = true ∨ edgeSees message Tunnel.Edge.STRONG_MARKERS = true ∨
        (edgeSees message Tunnel.Edge.POLICY_MARKERS = false ∧
          edgeSees message Tunnel.Edge.WEAK_MARKERS = true) := by
  unfold Tunnel.Edge.definitiveRecipientRejection edgeCode edgeSees
  simp only [List.any_cons, List.any_nil, Bool.or_false]
  grind

/-! ## What both know -/

/-- A phrase that trimming and lower-casing leave where it is. -/
def plainMarker (marker : String) : Bool :=
  match marker.toList with
  | [] => false
  | first :: rest =>
    (first :: rest).all Text.ascii && !Text.isSpace first && !Text.isSpace (rest.getLastD first)

theorem PyText.infix_lowered (py : PyText) {marker : String} {message : Text}
    (hplain : plainMarker marker = true) (h : marker.toList <:+: Text.asciiLower message) :
    marker.toList <:+: py.lowered message := by
  unfold plainMarker at hplain
  split at hplain
  · cases hplain
  · next first rest hcons =>
    rw [hcons] at h ⊢
    simp only [Bool.and_eq_true, List.all_eq_true, Bool.not_eq_true'] at hplain
    obtain ⟨⟨hascii, hhead⟩, hlast⟩ := hplain
    exact py.lowering.infix_strip Text.toLower_of_isSpace hascii (List.cons_ne_nil first rest)
      hhead (by simpa [List.getLast_eq_getLastD] using hlast) h

/-- A list of the edge's that the backend's list covers. -/
theorem backend_sees (py : PyText) {markers markers' : List String} {message : String}
    (hplain : ∀ marker ∈ markers, plainMarker marker = true) (hsub : markers ⊆ markers')
    (h : edgeSees message markers = true) :
    Text.containsAny (py.lowered message.toList) markers' = true := by
  obtain ⟨marker, hmarker, hfound⟩ := (edgeSees_iff message markers).mp h
  refine (Text.containsAny_iff _ _).mpr ⟨marker, hsub hmarker, ?_⟩
  exact py.infix_lowered (hplain marker hmarker) hfound

theorem strong_of_edge (py : PyText) {message : String}
    (h : edgeSees message Tunnel.Edge.STRONG_MARKERS = true) :
    Text.containsAny (py.lowered message.toList) STRONG_ABSENT_MARKERS = true :=
  backend_sees py (by decide) (by decide) h

theorem weak_of_edge (py : PyText) {message : String}
    (h : edgeSees message Tunnel.Edge.WEAK_MARKERS = true) :
    Text.containsAny (py.lowered message.toList) WEAK_ABSENT_MARKERS = true :=
  backend_sees py (by decide) (by decide) h

theorem policy_of_edge (py : PyText) {message : String}
    (h : edgeSees message Tunnel.Edge.POLICY_MARKERS = true) :
    Text.containsAny (py.lowered message.toList) POLICY_MARKERS = true :=
  backend_sees py (by decide) (by decide) h

/-- A digit or a dot is the same in lower case. -/
def uncased (code : String) : Bool := code.toList.all fun c => c.toLower == c

theorem asciiLower_uncased {code : String} (h : uncased code = true) :
    Text.asciiLower code.toList = code.toList := by
  simp only [uncased, List.all_eq_true, beq_iff_eq] at h
  exact (List.map_congr_left h).trans (List.map_id _)

/-- A status the backend takes for proof is one of the edge's, or Microsoft's. -/
theorem edgeSees_status {py : PyText} {message mx : String}
    (h : statusProves py (providerForHost py.lowering mx.toList) message.toList = true) :
    edgeSees message Tunnel.Edge.UNIVERSAL_CODES = true ∨ edgeSees message ["5.4.1"] = true := by
  obtain ⟨code, hcode, hfound⟩ := statusProves_infix h
  have hknown : code ∈ Tunnel.Edge.UNIVERSAL_CODES ∨ code = "5.4.1" := by
    rcases List.mem_append.mp hcode with huniversal | hprovider
    · exact .inl huniversal
    · cases hp : providerForHost py.lowering mx.toList with
      | none => simp [hp] at hprovider
      | some p =>
        rw [hp] at hprovider
        rcases providerForHost_code hp hprovider with rfl | rfl
        · exact .inr rfl
        · exact .inl (by decide)
  have huncased : uncased code = true := by
    have hall : ∀ code ∈ Tunnel.Edge.UNIVERSAL_CODES, uncased code = true := by decide
    rcases hknown with hmem | rfl
    · exact hall code hmem
    · decide
  have hlower : code.toList <:+: Text.asciiLower message.toList := by
    rw [← asciiLower_uncased huncased]
    exact List.IsInfix.map _ hfound
  rcases hknown with hmem | rfl
  · exact .inl ((edgeSees_iff _ _).mpr ⟨code, hmem, hlower⟩)
  · exact .inr ((edgeSees_iff _ _).mpr ⟨"5.4.1", by simp, hlower⟩)

/-! ## Where they part -/

/-- A code the edge finds somewhere in the text, where the first status the backend
reads there is another, no phrase is conclusive and the rest does not tell. -/
def CodeOutOfPlace (py : PyText) (message mx : String) : Prop :=
  edgeCode message mx = true ∧
    statusProves py (providerForHost py.lowering mx.toList) message.toList = false ∧
    Text.containsAny (py.lowered message.toList) STRONG_ABSENT_MARKERS = false ∧
    (Text.containsAny (py.lowered message.toList) POLICY_MARKERS = true ∨
      Text.containsAny (py.lowered message.toList) WEAK_ABSENT_MARKERS = false)

/-- An ambiguous phrase beside a refusal that only the backend recognises, and
nothing conclusive. -/
def RefusalUnknownToEdge (py : PyText) (message mx : String) : Prop :=
  edgeSees message Tunnel.Edge.WEAK_MARKERS = true ∧
    edgeSees message Tunnel.Edge.POLICY_MARKERS = false ∧
    Text.containsAny (py.lowered message.toList) POLICY_MARKERS = true ∧
    statusProves py (providerForHost py.lowering mx.toList) message.toList = false ∧
    Text.containsAny (py.lowered message.toList) STRONG_ABSENT_MARKERS = false

/-- Nothing in the text decides for the edge, and it holds Microsoft's code, from a
host only the backend takes for Microsoft's, or a phrase only the backend has. -/
def ProofUnknownToEdge (py : PyText) (message mx : String) : Prop :=
  edgeCode message mx = false ∧ edgeSees message Tunnel.Edge.STRONG_MARKERS = false ∧
    (edgeSees message Tunnel.Edge.WEAK_MARKERS = false ∨
      edgeSees message Tunnel.Edge.POLICY_MARKERS = true) ∧
    ((statusProves py (providerForHost py.lowering mx.toList) message.toList = true ∧
        Tunnel.Edge.isMicrosoftMx mx = false) ∨
      Text.containsAny (py.lowered message.toList) STRONG_ABSENT_MARKERS = true ∨
      (Text.containsAny (py.lowered message.toList) WEAK_ABSENT_MARKERS = true ∧
        Text.containsAny (py.lowered message.toList) POLICY_MARKERS = false))

/-- The two tests of a permanent reply agree exactly on the texts in which neither
sees evidence the other has no rule for. -/
theorem rejection_parity_iff (py : PyText) (code : Int) (message mx : String)
    (hcode : 500 ≤ code ∧ code < 600) :
    (Tunnel.Edge.definitiveRecipientRejection message mx = true ↔
      (classifyRcptResponse py (some code) (some message.toList)
        (providerForHost py.lowering mx.toList)).verdict = .mailbox_absent) ↔
    ¬ (CodeOutOfPlace py message mx ∨ RefusalUnknownToEdge py message mx ∨
      ProofUnknownToEdge py message mx) := by
  have hstrong := @strong_of_edge py message
  have hweak := @weak_of_edge py message
  have hpolicy := @policy_of_edge py message
  have hstatus : statusProves py (providerForHost py.lowering mx.toList) message.toList = true →
      edgeCode message mx = true ∨ Tunnel.Edge.isMicrosoftMx mx = false := by
    intro h
    unfold edgeCode
    rcases edgeSees_status h with hs | hs
    · simp [hs]
    · cases Tunnel.Edge.isMicrosoftMx mx <;> simp [hs]
  rw [definitiveRecipientRejection_iff, classifyRcptResponse_absent_iff]
  simp only [hcode, and_self, true_and]
  unfold CodeOutOfPlace RefusalUnknownToEdge ProofUnknownToEdge
  revert hstrong hweak hpolicy hstatus
  generalize edgeCode message mx = code
  generalize edgeSees message Tunnel.Edge.STRONG_MARKERS = strong
  generalize edgeSees message Tunnel.Edge.WEAK_MARKERS = weak
  generalize edgeSees message Tunnel.Edge.POLICY_MARKERS = policy
  generalize statusProves py (providerForHost py.lowering mx.toList) message.toList = status
  generalize Text.containsAny (py.lowered message.toList) STRONG_ABSENT_MARKERS = strong'
  generalize Text.containsAny (py.lowered message.toList) WEAK_ABSENT_MARKERS = weak'
  generalize Text.containsAny (py.lowered message.toList) POLICY_MARKERS = policy'
  generalize Tunnel.Edge.isMicrosoftMx mx = microsoft
  grind

theorem rejection_parity_user_unknown :
    Tunnel.Edge.definitiveRecipientRejection "5.1.1 User unknown" "mx.example.com" = true ↔
      (classifyRcptResponse .asciiOnly (some 550) (some "5.1.1 User unknown".toList)
        (providerForHost PyText.asciiOnly.lowering "mx.example.com".toList)).verdict =
          .mailbox_absent := by
  refine (rejection_parity_iff .asciiOnly 550 "5.1.1 User unknown" "mx.example.com"
    (by decide)).mpr ?_
  have hcode : edgeCode "5.1.1 User unknown" "mx.example.com" = true := by
    rw [edgeCode, edgeSees_eq, edgeSees_eq]
    decide +kernel
  have hstrong : Text.containsAny (PyText.asciiOnly.lowered "5.1.1 User unknown".toList)
      STRONG_ABSENT_MARKERS = true := by
    decide +kernel
  rintro (⟨-, -, hnone, -⟩ | ⟨-, -, -, -, hnone⟩ | ⟨hnone, -⟩)
  · exact Bool.noConfusion (hstrong.symm.trans hnone)
  · exact Bool.noConfusion (hstrong.symm.trans hnone)
  · exact Bool.noConfusion (hcode.symm.trans hnone)

/-- A phrase only the backend has, and a refusal only the backend recognises. -/
theorem classifiers_part :
    (¬ (Tunnel.Edge.definitiveRecipientRejection "No such address" "mx.example.com" = true ↔
      (classifyRcptResponse .asciiOnly (some 550) (some "No such address".toList)
        (providerForHost PyText.asciiOnly.lowering "mx.example.com".toList)).verdict =
          .mailbox_absent)) ∧
    ¬ (Tunnel.Edge.definitiveRecipientRejection "Address rejected: spam"
        "mx.example.com" = true ↔
      (classifyRcptResponse .asciiOnly (some 550)
        (some "Address rejected: spam".toList)
        (providerForHost PyText.asciiOnly.lowering "mx.example.com".toList)).verdict =
          .mailbox_absent) := by
  -- neither text holds Microsoft's code, whoever runs the host
  have hcode : edgeCode "No such address" "mx.example.com" = false := by
    rw [edgeCode, Bool.and_comm, edgeSees_eq, edgeSees_eq]
    decide
  have hcode' : edgeCode "Address rejected: spam" "mx.example.com" = false := by
    rw [edgeCode, Bool.and_comm, edgeSees_eq, edgeSees_eq]
    decide
  simp only [definitiveRecipientRejection_iff, classifyRcptResponse_absent_iff, hcode, hcode',
    edgeSees_eq]
  decide +kernel

end MailCue.Backend.Emails
