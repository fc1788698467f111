import MailCue.Backend.Forwarding.Service
import MailCue.Backend.Mailboxes.Service
import MailCue.Lib.Imap

/-!
# Rules for an incoming message

backend/app/forwarding/service.py `process_incoming_email` with the matching and the actions,
and the part of emails/service.py `get_email` that runs without a session. What the IMAP
server and the parser make of the message is given, with the folder that the FETCH changes:
`RFC822` sets `\Seen` as `BODY[]` does. The date, the ids and the mailer of what is sent are
left out.
-/
namespace MailCue.Backend.Forwarding
open MailCue.Lib

structure IncomingEmail where
  from_address : Text
  to_address : Text
  subject : Text
  mailbox : Text
  uid : Text

structure EmailDetail where
  to_addresses : List Text
  cc_addresses : List Text
  date : Text
  message_id : Text
  text_body : Option Text
  html_body : Option Text
  has_attachments : Bool
  is_read : Bool
  raw_headers : List (String × Text)

/-- `email_data`: what the event says, and the content if it could be fetched. -/
structure EmailData extends IncomingEmail where
  detail : Option EmailDetail := none

/-- A multipart/alternative message with its text parts, each with its subtype. -/
structure ForwardedMessage where
  from_header : Text
  to_header : Text
  subject : Text
  x_forwarded_for : Text
  parts : List (String × Text)

/-- What an action hands to the relay or to the HTTP client. -/
inductive Sent
  | smtp (recipients : List Text) (msg : ForwardedMessage)
  | webhook (config : WebhookConfig) (email_data : EmailData)

structure Execution where
  rule : ForwardingRule
  /-- Nothing where the configuration is refused. -/
  sent : Option Sent
  succeeded : Bool

inductive SearchFailure
  | error
  | timeout

/-- The outcome of connecting, fetching and parsing. -/
inductive Fetch
  /-- `get_email` raises, and the server has carried out the FETCH or not. -/
  | failed (executed : Bool)
  /-- With whether `\Seen` stands in what was fetched. -/
  | parsed (already_read : Bool) (detail : EmailDetail)

/-- What a run finds outside of the database. -/
structure Surroundings where
  lower : Text → Text
  search : Text → Text → Except SearchFailure Bool
  fetch : Fetch
  /-- Whether the STORE after an unread message fails, which is suppressed. -/
  store_fails : Bool := false
  /-- Whether an action raises, of what has been executed before and what it sends. -/
  raises : List Execution → Sent → Bool

section
variable (lib : Library) (w : Surroundings)

/-! ## Matching -/

/-- `_matches_pattern` -/
def matchesPattern (pattern : Option Text) (value : Text) : Bool :=
  match pattern with
  | none => true
  | some [] => true
  | some pattern =>
    match w.search pattern value with
    | .ok found => found
    | .error _ => false

def evaluateRule (rule : ForwardingRule) (email : IncomingEmail) : List (String × Bool) :=
  [("match_from", matchesPattern w rule.match_from email.from_address),
    ("match_to", matchesPattern w rule.match_to email.to_address),
    ("match_subject", matchesPattern w rule.match_subject email.subject),
    ("match_mailbox", if rule.match_mailbox.getD [] = [] then true
      else matchesPattern w rule.match_mailbox email.mailbox)]

def ruleMatches (rule : ForwardingRule) (email : IncomingEmail) : Bool :=
  (evaluateRule w rule email).all (·.2)

/-! ## Actions -/

/-- `_execute_smtp_forward` up to the sending: the subject is all of the body. -/
def smtpForward (config : SmtpForwardConfig) (email_data : EmailData) : Sent :=
  .smtp [config.to_address]
    { from_header := email_data.from_address
      to_header := config.to_address
      subject := "[Fwd] ".toList ++ email_data.subject
      x_forwarded_for := email_data.to_address
      parts := [("plain", email_data.subject)] }

/-- `execute_rule_action` up to the sending; a configuration is validated again. -/
def actionOf (rule : ForwardingRule) (email_data : EmailData) : Option Sent :=
  match rule.action_type with
  | .smtp_forward =>
    (SmtpForwardConfig.read rule.action_config).map fun config => smtpForward config email_data
  | .webhook =>
    (WebhookConfig.read lib rule.action_config).map fun config => .webhook config email_data

/-- One pass of the loop, with what its `except` leaves. -/
def executeRuleAction (email_data : EmailData) (executed : List Execution) (rule : ForwardingRule) :
    List Execution :=
  let sent := actionOf lib rule email_data
  executed ++ [⟨rule, sent, sent.any fun sent => !w.raises executed sent⟩]

/-! ## The content -/

/-- `get_email` on the folder: the FETCH marks as read, and so does the STORE after it. -/
def getEmail (uid : Text) (inbox : Imap.Folder) : Option EmailDetail × Imap.Folder :=
  match w.fetch with
  | .failed executed =>
    (none, if executed then inbox.change uid fun m => { m with seen := true } else inbox)
  | .parsed already_read detail =>
    let fetched := inbox.change uid fun m => { m with seen := true }
    let stored := if already_read || w.store_fails then fetched
      else fetched.change uid fun m => { m with seen := true }
    (some { detail with is_read := true }, stored)

/-! ## The run -/

def ownerOf (mailboxes : Mailboxes.Table) (mailbox : Text) : Option String :=
  match mailboxes.lookup (w.lower mailbox) with
  | none => none
  | some row => if row.is_active then row.user_id else none

/-- The enabled rules of the owner that match. -/
def matchingRules (mailboxes : Mailboxes.Table) (rules : Rules) (email : IncomingEmail) :
    List ForwardingRule :=
  match ownerOf w mailboxes email.mailbox with
  | none => []
  | some owner_id =>
    (rules.rows.filter fun rule => rule.enabled && rule.user_id == owner_id).filter
      fun rule => ruleMatches w rule email

/-- `process_incoming_email`: what has been executed, and the folder after it. -/
def processIncomingEmail (mailboxes : Mailboxes.Table) (rules : Rules) (email : IncomingEmail)
    (inbox : Imap.Folder) : List Execution × Imap.Folder :=
  let matching_rules := matchingRules w mailboxes rules email
  if matching_rules = [] then ([], inbox)
  else
    let (detail, inbox) := getEmail w email.uid inbox
    (matching_rules.foldl (executeRuleAction lib w { email with detail }) [], inbox)

/-- The number that is returned. -/
def fired (executed : List Execution) : Nat := executed.countP (·.succeeded)

/-! ## What a run promises -/

/-- The patterns that are not empty all match. -/
def Matches (rule : ForwardingRule) (email : IncomingEmail) : Prop :=
  ∀ field ∈ [(rule.match_from, email.from_address), (rule.match_to, email.to_address),
      (rule.match_subject, email.subject), (rule.match_mailbox, email.mailbox)],
    ∀ pattern, field.1 = some pattern → pattern ≠ [] → w.search pattern field.2 = .ok true

/-- An enabled rule of the owner of the active mailbox that matches. -/
def Due (mailboxes : Mailboxes.Table) (rules : Rules) (email : IncomingEmail)
    (rule : ForwardingRule) : Prop :=
  rule ∈ rules.rows ∧ rule.enabled = true ∧
    (∃ row, mailboxes.lookup (w.lower email.mailbox) = some row ∧ row.is_active = true ∧
      row.user_id = some rule.user_id) ∧
    Matches w rule email

def EmailDetail.Bodiless (detail : EmailDetail) : Prop :=
  detail.text_body.getD [] = [] ∧ detail.html_body.getD [] = []

/-- The subject is in the subject, and the text or the HTML in a part of its kind, if the
message has any. -/
def ForwardedMessage.Carries (msg : ForwardedMessage) (subject : Text) (detail : EmailDetail) :
    Prop :=
  subject <:+: msg.subject ∧
    (detail.Bodiless ∨
      (∃ text part, detail.text_body = some text ∧ text ≠ [] ∧ ("plain", part) ∈ msg.parts ∧
        text <:+: part) ∨
      ∃ html part, detail.html_body = some html ∧ html ≠ [] ∧ ("html", part) ∈ msg.parts ∧
        html <:+: part)

structure RunsFaithfully (mailboxes : Mailboxes.Table) (rules : Rules) (email : IncomingEmail)
    (inbox : Imap.Folder) : Prop where
  exactly : ∀ rule, rule ∈ (processIncomingEmail lib w mailboxes rules email inbox).1.map (·.rule) ↔
    Due w mailboxes rules email rule
  once : ((processIncomingEmail lib w mailboxes rules email inbox).1.map (·.rule)).Nodup
  carried : ∀ already_read detail, w.fetch = .parsed already_read detail →
    ∀ execution ∈ (processIncomingEmail lib w mailboxes rules email inbox).1,
      ∀ recipients msg, execution.sent = some (.smtp recipients msg) →
        msg.Carries email.subject detail
  kept : (processIncomingEmail lib w mailboxes rules email inbox).2 = inbox

/-- What the set names has been read. -/
def Read (uid : Text) (inbox : Imap.Folder) : Prop :=
  ∀ m ∈ inbox.mails, inbox.named uid m = true → m.seen = true

/-- Nothing matches; or the message is read before the server fetches it, and where it is
forwarded it has no body or a text that its subject contains. -/
def NothingToLose (mailboxes : Mailboxes.Table) (rules : Rules) (email : IncomingEmail)
    (inbox : Imap.Folder) : Prop :=
  matchingRules w mailboxes rules email = [] ∨
    match w.fetch with
    | .failed executed => executed = true → Read email.uid inbox
    | .parsed _ detail =>
      Read email.uid inbox ∧
        ∀ rule ∈ matchingRules w mailboxes rules email, rule.action_type = .smtp_forward →
          (SmtpForwardConfig.read rule.action_config).isSome →
            detail.Bodiless ∨
              ∃ text, detail.text_body = some text ∧ text ≠ [] ∧ text <:+: email.subject

end

/-! ## Which rules match -/

section
variable {lib : Library} {w : Surroundings}

theorem matchesPattern_iff {pattern : Option Text} {value : Text} :
    matchesPattern w pattern value = true ↔
      ∀ text, pattern = some text → text ≠ [] → w.search text value = .ok true := by
  unfold matchesPattern
  split
  · simp
  · simp
  · rename_i text hne
    constructor
    · intro h found hfound _
      obtain rfl := Option.some.inj hfound
      split at h
      · rename_i hsearch
        rw [hsearch, h]
      · cases h
    · intro h
      rw [h text rfl (by rintro rfl; exact hne rfl)]

theorem ruleMatches_iff {rule : ForwardingRule} {email : IncomingEmail} :
    ruleMatches w rule email = true ↔ Matches w rule email := by
  have hmailbox : (if rule.match_mailbox.getD [] = [] then true
      else matchesPattern w rule.match_mailbox email.mailbox) =
        matchesPattern w rule.match_mailbox email.mailbox := by
    split
    · rename_i hempty
      refine (matchesPattern_iff.mpr fun text htext hne => ?_).symm
      rw [htext] at hempty
      exact absurd hempty hne
    · rfl
  unfold ruleMatches evaluateRule Matches
  rw [hmailbox]
  simp [matchesPattern_iff]

variable {mailboxes : Mailboxes.Table} {rules : Rules} {email : IncomingEmail} {inbox : Imap.Folder}

theorem ownerOf_eq_some_iff {mailbox : Text} {owner_id : String} :
    ownerOf w mailboxes mailbox = some owner_id ↔
      ∃ row, mailboxes.lookup (w.lower mailbox) = some row ∧ row.is_active = true ∧
        row.user_id = some owner_id := by
  unfold ownerOf
  cases mailboxes.lookup (w.lower mailbox) with
  | none => simp
  | some row => simp

theorem mem_matchingRules {rule : ForwardingRule} :
    rule ∈ matchingRules w mailboxes rules email ↔ Due w mailboxes rules email rule := by
  unfold matchingRules Due
  cases howner : ownerOf w mailboxes email.mailbox with
  | none =>
    have hnone : ¬ ∃ row, mailboxes.lookup (w.lower email.mailbox) = some row ∧
        row.is_active = true ∧ row.user_id = some rule.user_id := by
      rw [← ownerOf_eq_some_iff, howner]
      nofun
    simp [hnone]
  | some owner_id =>
    rw [← ownerOf_eq_some_iff, howner]
    simp only [List.mem_filter, Bool.and_eq_true, beq_iff_eq, ruleMatches_iff, Option.some.injEq]
    constructor
    · rintro ⟨⟨hmem, henabled, rfl⟩, hmatches⟩
      exact ⟨hmem, henabled, rfl, hmatches⟩
    · rintro ⟨hmem, henabled, rfl, hmatches⟩
      exact ⟨⟨hmem, henabled, rfl⟩, hmatches⟩

theorem nodup_matchingRules : (matchingRules w mailboxes rules email).Nodup := by
  unfold matchingRules
  split
  · exact List.nodup_nil
  · exact ((List.Nodup.of_map _ rules.nodup).filter _).filter _

/-! ## What is executed -/

/-- Whatever raises, the loop goes on to every rule and gives each its own action. -/
theorem foldl_executeRuleAction (email_data : EmailData) (matching : List ForwardingRule)
    (executed : List Execution) :
    (matching.foldl (executeRuleAction lib w email_data) executed).map
        (fun execution => (execution.rule, execution.sent)) =
      executed.map (fun execution => (execution.rule, execution.sent)) ++
        matching.map fun rule => (rule, actionOf lib rule email_data) := by
  induction matching generalizing executed with
  | nil => simp
  | cons rule matching ih =>
    rw [List.foldl_cons, ih]
    simp [executeRuleAction]

/-- The rules of a run are those that match, each with its action. -/
theorem executions_eq (lib : Library) (w : Surroundings) (mailboxes : Mailboxes.Table)
    (rules : Rules) (email : IncomingEmail) (inbox : Imap.Folder) :
    (processIncomingEmail lib w mailboxes rules email inbox).1.map
        (fun execution => (execution.rule, execution.sent)) =
      (matchingRules w mailboxes rules email).map fun rule =>
        (rule, actionOf lib rule { email with detail := (getEmail w email.uid inbox).1 }) := by
  by_cases hnone : matchingRules w mailboxes rules email = []
  · simp [processIncomingEmail, hnone]
  · simp only [processIncomingEmail, if_neg hnone]
    exact foldl_executeRuleAction _ _ []

theorem executed_rules :
    (processIncomingEmail lib w mailboxes rules email inbox).1.map (·.rule) =
      matchingRules w mailboxes rules email := by
  have hfirst := congrArg (List.map Prod.fst) (executions_eq lib w mailboxes rules email inbox)
  simpa [Function.comp_def] using hfirst

/-- The mails of a run are those of the rules that forward. -/
theorem sent_smtp_iff {recipients : List Text} {msg : ForwardedMessage} :
    (∃ execution ∈ (processIncomingEmail lib w mailboxes rules email inbox).1,
      execution.sent = some (.smtp recipients msg)) ↔
    ∃ rule ∈ matchingRules w mailboxes rules email, rule.action_type = .smtp_forward ∧
      ∃ config, SmtpForwardConfig.read rule.action_config = some config ∧
        smtpForward config { email with detail := (getEmail w email.uid inbox).1 } =
          .smtp recipients msg := by
  have hexecutions := executions_eq lib w mailboxes rules email inbox
  constructor
  · rintro ⟨execution, hmem, hsent⟩
    have hpair := List.mem_map_of_mem (f := fun execution : Execution =>
      (execution.rule, execution.sent)) hmem
    rw [hexecutions] at hpair
    obtain ⟨rule, hrule, heq⟩ := List.mem_map.mp hpair
    have haction := (congrArg Prod.snd heq).trans hsent
    refine ⟨rule, hrule, ?_⟩
    simp only [actionOf] at haction
    split at haction
    · rename_i htype
      obtain ⟨config, hconfig, hmsg⟩ := Option.map_eq_some_iff.mp haction
      exact ⟨htype, config, hconfig, hmsg⟩
    · obtain ⟨config, -, hmsg⟩ := Option.map_eq_some_iff.mp haction
      cases hmsg
  · rintro ⟨rule, hrule, htype, config, hconfig, hmsg⟩
    have hpair := List.mem_map_of_mem (f := fun rule => (rule, actionOf lib rule
      { email with detail := (getEmail w email.uid inbox).1 })) hrule
    rw [← hexecutions] at hpair
    obtain ⟨execution, hmem, heq⟩ := List.mem_map.mp hpair
    refine ⟨execution, hmem, (congrArg Prod.snd heq).trans ?_⟩
    simp only [actionOf, htype, hconfig, Option.map_some, hmsg]

/-- The body of what is forwarded is the subject, so it carries no other text. -/
theorem smtpForward_carries_iff {config : SmtpForwardConfig} {email_data : EmailData}
    {recipients : List Text} {msg : ForwardedMessage} {detail : EmailDetail}
    (h : smtpForward config email_data = .smtp recipients msg) :
    msg.Carries email_data.subject detail ↔
      detail.Bodiless ∨
        ∃ text, detail.text_body = some text ∧ text ≠ [] ∧ text <:+: email_data.subject := by
  cases h
  unfold ForwardedMessage.Carries
  constructor
  · rintro ⟨-, hnone | ⟨text, part, htext, hne, hpart, hinfix⟩ | ⟨html, part, -, -, hpart, -⟩⟩
    · exact .inl hnone
    · obtain rfl : part = email_data.subject := by simpa using hpart
      exact .inr ⟨text, htext, hne, hinfix⟩
    · simp at hpart
  · intro h
    refine ⟨(List.suffix_append _ _).isInfix, ?_⟩
    rcases h with hnone | ⟨text, htext, hne, hinfix⟩
    · exact .inl hnone
    · exact .inr (.inl ⟨text, email_data.subject, htext, hne, List.mem_cons_self, hinfix⟩)

/-! ## What becomes of the folder -/

theorem change_seen_eq_iff {uid : Text} :
    (inbox.change uid fun m => { m with seen := true }) = inbox ↔ Read uid inbox := by
  have hmails : (inbox.change uid fun m => { m with seen := true }) = inbox ↔
      inbox.mails.map (fun m => if inbox.named uid m then { m with seen := true } else m) =
        inbox.mails.map id := by
    rw [List.map_id]
    constructor
    · intro h
      exact congrArg Imap.Folder.mails h
    · intro h
      simp only [Imap.Folder.change, h]
  rw [hmails, List.map_inj_left]
  refine forall₂_congr fun m _ => ?_
  constructor
  · intro h hnamed
    rw [if_pos hnamed] at h
    exact congrArg Imap.Mail.seen h.symm
  · intro h
    by_cases hnamed : inbox.named uid m = true
    · rw [if_pos hnamed, id, ← h hnamed]
    · rw [if_neg hnamed, id]

theorem named_change_seen {uid : Text} (m : Imap.Mail) :
    (inbox.change uid fun m => { m with seen := true }).named uid m = inbox.named uid m := by
  have huids : (inbox.change uid fun m => { m with seen := true }).mails.map (·.uid) =
      inbox.mails.map (·.uid) := by
    simp only [Imap.Folder.change, List.map_map]
    refine List.map_congr_left fun m _ => ?_
    simp only [Function.comp]
    split
    · rfl
    · rfl
  rw [Imap.Folder.named, Imap.Folder.named, huids]

/-- The STORE finds everything read already. -/
theorem change_seen_twice {uid : Text} :
    ((inbox.change uid fun m => { m with seen := true }).change uid
      fun m => { m with seen := true }) = inbox.change uid fun m => { m with seen := true } := by
  rw [change_seen_eq_iff]
  intro m hm hnamed
  rw [named_change_seen] at hnamed
  obtain ⟨before, hbefore, rfl⟩ := List.mem_map.mp hm
  split
  · rfl
  · rename_i hother
    rw [if_neg hother] at hnamed
    exact absurd hnamed hother

theorem getEmail_folder (w : Surroundings) (uid : Text) (inbox : Imap.Folder) :
    (getEmail w uid inbox).2 = inbox ↔
      match w.fetch with
      | .failed executed => executed = true → Read uid inbox
      | .parsed _ _ => Read uid inbox := by
  unfold getEmail
  cases w.fetch with
  | failed executed =>
    cases executed with
    | false => simp
    | true => simpa using change_seen_eq_iff
  | parsed already_read detail =>
    simp only
    split
    · exact change_seen_eq_iff
    · rw [change_seen_twice]
      exact change_seen_eq_iff

/-! ## Every run -/

/-- **A run keeps its promises** exactly where there is nothing to lose: the rules are always
those that are due, but the body is the subject and the FETCH marks the message as read. -/
theorem runsFaithfully_iff (lib : Library) (w : Surroundings) (mailboxes : Mailboxes.Table)
    (rules : Rules) (email : IncomingEmail) (inbox : Imap.Folder) :
    RunsFaithfully lib w mailboxes rules email inbox ↔
      NothingToLose w mailboxes rules email inbox := by
  have hexactly : ∀ rule, rule ∈ (processIncomingEmail lib w mailboxes rules email inbox).1.map
      (·.rule) ↔ Due w mailboxes rules email rule := by
    intro rule
    rw [executed_rules]
    exact mem_matchingRules
  have honce : ((processIncomingEmail lib w mailboxes rules email inbox).1.map (·.rule)).Nodup := by
    rw [executed_rules]
    exact nodup_matchingRules
  by_cases hnone : matchingRules w mailboxes rules email = []
  · refine iff_of_true ⟨hexactly, honce, ?_, ?_⟩ (.inl hnone)
    · simp [processIncomingEmail, hnone]
    · simp [processIncomingEmail, hnone]
  · have hfolder : (processIncomingEmail lib w mailboxes rules email inbox).2 =
        (getEmail w email.uid inbox).2 := by
      simp [processIncomingEmail, hnone]
    have hkept := hfolder ▸ getEmail_folder w email.uid inbox
    rw [NothingToLose, or_iff_right hnone]
    cases hfetch : w.fetch with
    | failed executed =>
      simp only [hfetch] at hkept ⊢
      rw [← hkept]
      refine ⟨fun h => h.kept, fun h => ⟨hexactly, honce, fun _ _ hparsed => ?_, h⟩⟩
      cases hfetch.symm.trans hparsed
    | parsed already_read detail =>
      simp only [hfetch] at hkept ⊢
      rw [← hkept]
      constructor
      · intro h
        refine ⟨h.kept, fun rule hrule htype hvalid => ?_⟩
        obtain ⟨config, hconfig⟩ := Option.isSome_iff_exists.mp hvalid
        obtain ⟨execution, hmem, hsent⟩ :=
          sent_smtp_iff.mpr ⟨rule, hrule, htype, config, hconfig, rfl⟩
        exact (smtpForward_carries_iff rfl).mp
          (h.carried already_read detail hfetch execution hmem _ _ hsent)
      · rintro ⟨hsame, hbodies⟩
        refine ⟨hexactly, honce, fun _ detail' hparsed execution hmem recipients msg hsent => ?_,
          hsame⟩
        obtain ⟨rfl, rfl⟩ := Fetch.parsed.inj (hfetch.symm.trans hparsed)
        obtain ⟨rule, hrule, htype, config, hconfig, hmsg⟩ :=
          sent_smtp_iff.mp ⟨execution, hmem, hsent⟩
        exact (smtpForward_carries_iff hmsg).mpr
          (hbodies rule hrule htype (by rw [hconfig]; rfl))

end

/-! ## One rule and an unread message -/

def carolMailboxes : Mailboxes.Table :=
  AList.insert "carol@x.test".toList
    { display_name := [], domain := "x.test".toList, user_id := some "carol" } ∅

def forwardAll : ForwardingRule where
  id := "r1"
  user_id := "carol"
  name := "all".toList
  action_type := .smtp_forward
  action_config := [("to_address", .str "dave@y.test".toList)]

/-- A message with a text is fetched, and nothing fails. -/
def quietSurroundings : Surroundings where
  lower := id
  search _ _ := .ok true
  fetch := .parsed false
    { to_addresses := [], cc_addresses := [], date := [], message_id := []
      text_body := some "Meet at nine.".toList, html_body := none, has_attachments := false
      is_read := false, raw_headers := [] }
  raises _ _ := false

theorem unread_message_marked :
    ¬ ∀ lib w mailboxes rules email inbox, RunsFaithfully lib w mailboxes rules email inbox := by
  intro h
  have hkept := (h ⟨some, fun _ => .ok ()⟩ quietSurroundings carolMailboxes
    ⟨[forwardAll], by decide⟩ ⟨[], [], "Hi".toList, "carol@x.test".toList, "7".toList⟩
    ⟨[⟨1, 7, false, false⟩], 8⟩).kept
  exact absurd hkept (by decide)

end MailCue.Backend.Forwarding
