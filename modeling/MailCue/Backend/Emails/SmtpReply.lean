import MailCue.Backend.Emails.MxProviders

/-!
# Interpretation of a RCPT TO reply

backend/app/emails/smtp_reply.py. The case mapping and the character classes of
the regular expression run over all of Unicode and are parameters.
-/
namespace MailCue.Backend.Emails
open MailCue.Lib

/-- What `str.lower`, `\d` and `\w` are of a character. -/
structure PyText where
  lowering : Text.Lowering
  isDigit : Char → Bool
  isWord : Char → Bool
  ascii_digit : ∀ c, Text.ascii c = true → isDigit c = c.isDigit
  ascii_word : ∀ c, Text.ascii c = true → isWord c = (c.isAlphanum || c == '_')

/-- The character classes and the case mapping of a text that is all ASCII. -/
def PyText.asciiOnly : PyText where
  lowering := .asciiOnly
  isDigit := Char.isDigit
  isWord c := c.isAlphanum || c == '_'
  ascii_digit _ _ := rfl
  ascii_word _ _ := rfl

inductive RcptVerdict where
  | mailbox_absent | mailbox_present | temporary | policy | unknown
  deriving DecidableEq, Repr

/-! ## The enhanced status -/

/-- `\b` between two characters, either of which may be missing. -/
def PyText.boundary (py : PyText) (before after : Option Char) : Bool :=
  before.any py.isWord != after.any py.isWord

/-- `\d{1,3}`: how it can match at the start of a text, in the order it is tried. -/
def PyText.digits (py : PyText) (text : Text) : List (Text × Text) :=
  [3, 2, 1].filterMap fun n =>
    let run := text.take n
    if run.length = n ∧ run.all py.isDigit then some (run, text.drop n) else none

/-- `\.(\d{1,3})\b` after what has been read so far. -/
def PyText.dotDigits (py : PyText) (read rest : Text) : Option Text :=
  match rest with
  | '.' :: rest =>
    (py.digits rest).findSome? fun (run, tail) =>
      if py.boundary run.getLast? tail.head? then some (read ++ '.' :: run) else none
  | _ => none

/-- `ENHANCED_STATUS_REGEX` at one place of the text. -/
def PyText.statusAt (py : PyText) (before : Option Char) (text : Text) : Option Text :=
  match text with
  | c :: '.' :: rest =>
    if py.boundary before (some c) ∧ (c = '2' ∨ c = '4' ∨ c = '5') then
      (py.digits rest).findSome? fun (run, tail) => py.dotDigits (c :: '.' :: run) tail
    else none
  | _ => none

/-- `re.search`: the first place the expression matches at. -/
def PyText.searchStatus (py : PyText) (before : Option Char) : Text → Option Text
  | [] => none
  | c :: rest =>
    match py.statusAt before (c :: rest) with
    | some status => some status
    | none => py.searchStatus (some c) rest

def extractEnhancedStatus (py : PyText) (message : Text) : Option String :=
  (py.searchStatus none message).map String.ofList

theorem PyText.digits_append {py : PyText} {text run tail : Text}
    (h : (run, tail) ∈ py.digits text) : run ++ tail = text := by
  simp only [PyText.digits, List.mem_filterMap] at h
  obtain ⟨n, -, hn⟩ := h
  split at hn
  · cases hn
    exact List.take_append_drop n text
  · cases hn

theorem PyText.dotDigits_prefix {py : PyText} {read rest status : Text}
    (h : py.dotDigits read rest = some status) : status <+: read ++ rest := by
  unfold PyText.dotDigits at h
  split at h
  · next rest =>
    obtain ⟨⟨run, tail⟩, hmem, hstatus⟩ := List.exists_of_findSome?_eq_some h
    obtain ⟨-, hread⟩ := Option.ite_none_right_eq_some.mp hstatus
    cases hread
    exact ⟨tail, by simp [← PyText.digits_append hmem]⟩
  · cases h

theorem PyText.statusAt_prefix {py : PyText} {before : Option Char} {text status : Text}
    (h : py.statusAt before text = some status) : status <+: text := by
  unfold PyText.statusAt at h
  split at h
  · next c rest =>
    split at h
    · obtain ⟨⟨run, tail⟩, hmem, hstatus⟩ := List.exists_of_findSome?_eq_some h
      have hleads := PyText.dotDigits_prefix hstatus
      simpa [PyText.digits_append hmem] using hleads
    · cases h
  · cases h

/-- The status stands in the text as it is. -/
theorem PyText.searchStatus_infix {py : PyText} {status : Text} (text : Text) :
    ∀ before, py.searchStatus before text = some status → status <:+: text := by
  induction text with
  | nil =>
    intro before h
    cases h
  | cons c rest ih =>
    intro before h
    rw [PyText.searchStatus] at h
    cases hat : py.statusAt before (c :: rest) with
    | some found =>
      rw [hat] at h
      cases h
      exact (PyText.statusAt_prefix hat).isInfix
    | none =>
      rw [hat] at h
      exact (ih _ h).trans (List.suffix_cons c rest).isInfix

theorem extractEnhancedStatus_infix {py : PyText} {message : Text} {status : String}
    (h : extractEnhancedStatus py message = some status) : status.toList <:+: message := by
  obtain ⟨found, hfound, rfl⟩ := Option.map_eq_some_iff.mp h
  rw [String.toList_ofList]
  exact PyText.searchStatus_infix message none hfound

/-! ## The phrases -/

def UNIVERSAL_ABSENT_CODES : List String :=
  ["5.1.0", "5.1.1", "5.1.2", "5.1.3", "5.1.6", "5.1.10", "5.2.1"]

def STRONG_ABSENT_MARKERS : List String :=
  ["no such user", "no such recipient", "no such mailbox", "no such address", "user unknown",
    "unknown user", "unknown recipient", "unknown mailbox", "unknown address",
    "unknown email address", "recipient not found", "recipient unknown", "user not found",
    "mailbox not found", "mailbox does not exist", "address does not exist",
    "account does not exist", "does not exist", "invalid recipient", "invalid mailbox",
    "recipientnotfound", "unrouteable address", "unroutable address", "not a valid mailbox",
    "no mailbox here by that name", "mailbox is disabled", "account has been disabled",
    "account is disabled", "empfänger existiert nicht", "unbekannter empfänger",
    "benutzer unbekannt", "postfach existiert nicht", "destinataire inconnu",
    "destinataire n\x27existe pas", "utilisateur inconnu", "adresse inexistante", "n\x27existe pas",
    "usuario desconocido", "destinatario desconocido", "no existe", "utente sconosciuto",
    "destinatario sconosciuto", "non esiste", "onbekende gebruiker", "gebruiker onbekend",
    "bestaat niet", "usuário desconhecido", "utilizador desconhecido", "não existe",
    "nieznany użytkownik", "пользователь не найден", "адрес не существует",
    "получатель не найден", "用户不存在", "邮箱不存在", "地址不存在", "存在しません"]

def WEAK_ABSENT_MARKERS : List String :=
  ["recipient rejected", "address rejected", "invalid address", "unknown or illegal alias",
    "account not available", "mailbox unavailable"]

def POLICY_MARKERS : List String :=
  ["blocked", "blacklist", "blocklist", "denylist", "spamhaus", "spam", "reputation", "policy",
    "rate limit", "too many", "not authorized", "unauthorized", "authentication required",
    "relay access denied", "relaying denied", "access denied", "client host rejected",
    "sender rejected", "sender verify failed", "greylist", "try again", "temporarily deferred"]

def REPUTATION_MARKERS : List String :=
  ["blocked", "blacklist", "blocklist", "denylist", "spamhaus", "spam", "reputation",
    "client host rejected", "bad reputation", "poor reputation"]

/-! ## The classification -/

structure RcptClassification where
  verdict : RcptVerdict
  reason_code : String
  enhanced_status : Option String := none
  sender_reputation_signal : Bool := false
  deriving DecidableEq, Repr

def RcptClassification.isAbsent (c : RcptClassification) : Bool := c.verdict = .mailbox_absent

def RcptClassification.isPresent (c : RcptClassification) : Bool := c.verdict = .mailbox_present

/-- `message.strip().lower()`. -/
def PyText.lowered (py : PyText) (message : Text) : Text :=
  py.lowering.lower (Text.strip Text.isSpace message)

def definitiveCodes (provider : Option MxProvider) : List String :=
  UNIVERSAL_ABSENT_CODES ++ (provider.map (·.definitive_rejection_codes)).getD []

def classifyRcptResponse (py : PyText) (code : Option Int) (message : Option Text)
    (provider : Option MxProvider) : RcptClassification :=
  let text := Text.strip Text.isSpace (message.getD [])
  let lowered := py.lowered (message.getD [])
  let enhanced := extractEnhancedStatus py text
  let reputation := Text.containsAny lowered REPUTATION_MARKERS
  match code with
  | none => ⟨.unknown, "no_smtp_response", enhanced, false⟩
  | some code =>
    if 200 ≤ code ∧ code < 300 then ⟨.mailbox_present, "mailbox_accepted", enhanced, false⟩
    else if 400 ≤ code ∧ code < 500 then
      ⟨.temporary, "smtp_temporary_failure", enhanced, reputation⟩
    else if ¬ (500 ≤ code ∧ code < 600) then ⟨.unknown, "smtp_unexpected_code", enhanced, false⟩
    else if enhanced.any (definitiveCodes provider).contains then
      ⟨.mailbox_absent, "mailbox_rejected", enhanced, false⟩
    else if Text.containsAny lowered STRONG_ABSENT_MARKERS then
      ⟨.mailbox_absent, "mailbox_rejected", enhanced, false⟩
    else if Text.containsAny lowered POLICY_MARKERS then
      ⟨.policy, if reputation then "sender_blocked" else "smtp_policy_rejection", enhanced,
        reputation⟩
    else if Text.containsAny lowered WEAK_ABSENT_MARKERS then
      ⟨.mailbox_absent, "mailbox_rejected", enhanced, false⟩
    else ⟨.policy, "smtp_policy_rejection", enhanced, reputation⟩

/-- A status that proves the mailbox absent at this provider. -/
def statusProves (py : PyText) (provider : Option MxProvider) (message : Text) : Bool :=
  (extractEnhancedStatus py (Text.strip Text.isSpace message)).any
    (definitiveCodes provider).contains

theorem statusProves_infix {py : PyText} {provider : Option MxProvider} {message : Text}
    (h : statusProves py provider message = true) :
    ∃ code ∈ definitiveCodes provider, code.toList <:+: message := by
  unfold statusProves at h
  obtain ⟨code, hcode, hmem⟩ := (Option.any_eq_true _ _).mp h
  have hfound := extractEnhancedStatus_infix hcode
  exact ⟨code, by simpa using hmem, hfound.trans (Text.strip_infix _ _)⟩

/-- Only a permanent reply proves a mailbox absent, and this is what in it does. -/
theorem classifyRcptResponse_absent_iff (py : PyText) (code : Int) (message : Text)
    (provider : Option MxProvider) :
    (classifyRcptResponse py (some code) (some message) provider).verdict = .mailbox_absent ↔
      (500 ≤ code ∧ code < 600) ∧
        (statusProves py provider message = true ∨
          Text.containsAny (py.lowered message) STRONG_ABSENT_MARKERS = true ∨
          (Text.containsAny (py.lowered message) POLICY_MARKERS = false ∧
            Text.containsAny (py.lowered message) WEAK_ABSENT_MARKERS = true)) := by
  by_cases h2 : 200 ≤ code ∧ code < 300
  · simp only [classifyRcptResponse, if_pos h2]
    simp
    omega
  · by_cases h4 : 400 ≤ code ∧ code < 500
    · simp only [classifyRcptResponse, if_neg h2, if_pos h4]
      simp
      omega
    · by_cases h5 : 500 ≤ code ∧ code < 600
      · simp only [classifyRcptResponse, if_neg h2, if_neg h4, Option.getD_some, statusProves,
          if_neg (not_not_intro h5)]
        simp only [h5, and_self, true_and]
        grind
      · simp [classifyRcptResponse, h2, h4, h5]

end MailCue.Backend.Emails
