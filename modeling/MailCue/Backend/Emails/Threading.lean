import MailCue.Lib.Text

/-!
# Conversations

backend/app/emails/parser.py `_parse_message_id_list` and `compute_thread_id`, as
`parse_email` and `parse_email_summary` call them, over trees of replies. The values of
headers are as the email package gives them; folding leaves white space in them.
-/
namespace MailCue.Backend.Emails.Threading
open MailCue.Lib

/-! ## Thread identifiers -/

/-- `[^<>\s]` -/
def idChar (c : Char) : Bool := c != '<' && c != '>' && !Text.isSpace c

/-- `<[^<>\s]+>` at the start of a text. -/
def msgIdAt : Text → Option Text
  | '<' :: rest =>
    let id := rest.takeWhile idChar
    if id ≠ [] ∧ (rest.dropWhile idChar).head? = some '>' then some ('<' :: id ++ ['>']) else none
  | _ => none

/-- No two matches overlap, so each place of the text is tried by itself. -/
def parse_message_id_list (raw : Text) : List Text := raw.tails.filterMap msgIdAt

def compute_thread_id (message_id : Text) (in_reply_to : Option Text) (references : List Text) :
    Text :=
  match in_reply_to with
  | some (c :: id) =>
    match references with
    | first :: _ => first
    | [] => c :: id
  | _ => message_id

/-- The values of the three headers, empty where there is none. -/
structure Headers where
  message_id : Text
  in_reply_to : Text := []
  references : Text := []

def Headers.thread_id (headers : Headers) : Text :=
  compute_thread_id headers.message_id (parse_message_id_list headers.in_reply_to).head?
    (parse_message_id_list headers.references)

/-! ## Trees of replies -/

/-- A character of a comment that stands for itself. -/
def commentChar (c : Char) : Bool := c != '(' && c != ')' && c != '\\'

/-- What stands between the parentheses of a comment. -/
inductive IsComment : Text → Prop
  | nil : IsComment []
  | char {c : Char} {text : Text} : commentChar c = true → IsComment text → IsComment (c :: text)
  | quoted {c : Char} {text : Text} : IsComment text → IsComment ('\\' :: c :: text)
  | nested {inner text : Text} : IsComment inner → IsComment text →
      IsComment ('(' :: inner ++ ')' :: text)

/-- Comments and white space. -/
inductive IsCfws : Text → Prop
  | nil : IsCfws []
  | blank {c : Char} {text : Text} : c ∈ [' ', '\t', '\r', '\n'] → IsCfws text →
      IsCfws (c :: text)
  | comment {inner text : Text} : IsComment inner → IsCfws text →
      IsCfws ('(' :: inner ++ ')' :: text)

abbrev Cfws := { text : Text // IsCfws text }

/-- An identifier, without its angle brackets. -/
abbrev MsgId := { id : Text // id ≠ [] ∧ ∀ c ∈ id, idChar c = true }

def MsgId.token (id : MsgId) : Text := '<' :: id.val ++ ['>']

/-- What stands around the identifiers in a message's headers. -/
structure Spacing where
  before_id : Cfws
  after_id : Cfws
  before_parent : Cfws
  after_parent : Cfws
  /-- In front of each reference, and behind the last one. -/
  between : Nat → Cfws

inductive ReplyTree
  | node (id : MsgId) (spacing : Spacing) (replies : List ReplyTree)

/-- A message of a tree, with the References it has. -/
structure Sent where
  id : MsgId
  spacing : Spacing
  references : List MsgId

mutual

/-- A reply has its parent's References followed by its parent's identifier. -/
def sent (references : List MsgId) : ReplyTree → List Sent
  | .node id spacing replies => ⟨id, spacing, references⟩ :: sentAll (references ++ [id]) replies

def sentAll (references : List MsgId) : List ReplyTree → List Sent
  | [] => []
  | tree :: rest => sent references tree ++ sentAll references rest

end

namespace Sent

def referencesFrom (between : Nat → Cfws) (n : Nat) : List MsgId → Text
  | [] => (between n).val
  | id :: rest => (between n).val ++ id.token ++ referencesFrom between (n + 1) rest

/-- The parent is the last of the references. -/
def headers (m : Sent) : Headers where
  message_id := m.spacing.before_id.val ++ m.id.token ++ m.spacing.after_id.val
  in_reply_to :=
    match m.references.getLast? with
    | none => []
    | some parent => m.spacing.before_parent.val ++ parent.token ++ m.spacing.after_parent.val
  references := if m.references = [] then [] else referencesFrom m.spacing.between 0 m.references

end Sent

namespace ReplyTree

def rootId : ReplyTree → MsgId
  | node id _ _ => id

def rootSpacing : ReplyTree → Spacing
  | node _ spacing _ => spacing

/-- The messages other than the root. -/
def replies : ReplyTree → List Sent
  | node id _ replies => sentAll [id] replies

def messages (t : ReplyTree) : List Sent := sent [] t

end ReplyTree

/-- Every message has its root's identifier, and different roots keep the trees apart. -/
structure Threaded (t t' : ReplyTree) : Prop where
  first : ∀ m ∈ t.messages, m.headers.thread_id = t.rootId.token
  second : ∀ m ∈ t'.messages, m.headers.thread_id = t'.rootId.token
  apart : t.rootId ≠ t'.rootId → ∀ m ∈ t.messages, ∀ m' ∈ t'.messages,
    m.headers.thread_id ≠ m'.headers.thread_id

/-! ## What the headers are read as -/

theorem parse_cons (c : Char) (text : Text) :
    parse_message_id_list (c :: text) =
      (msgIdAt (c :: text)).toList ++ parse_message_id_list text := by
  rw [parse_message_id_list, List.tails_cons, List.filterMap_cons]
  cases msgIdAt (c :: text) <;> rfl

theorem takeWhile_idChar (text rest : Text) :
    (text ++ '<' :: rest).takeWhile idChar = text.takeWhile idChar := by
  have hstop : ('<' :: rest).takeWhile idChar = [] := List.takeWhile_cons_of_neg (by decide)
  rw [List.takeWhile_append, hstop, List.append_nil]
  split
  · next hwhole => exact ((List.takeWhile_prefix idChar).eq_of_length hwhole).symm
  · rfl

theorem head?_dropWhile_idChar (text rest : Text) :
    ((text ++ '<' :: rest).dropWhile idChar).head? = some '>' ↔
      (text.dropWhile idChar).head? = some '>' := by
  rw [List.dropWhile_append]
  cases hdrop : text.dropWhile idChar with
  | nil => simp [idChar]
  | cons c tail => simp

/-- What begins in front of an opening bracket and ends behind it is no identifier. -/
theorem msgIdAt_append {text : Text} (h : text ≠ []) (rest : Text) :
    msgIdAt (text ++ '<' :: rest) = msgIdAt text := by
  obtain ⟨c, text, rfl⟩ := List.exists_cons_of_ne_nil h
  by_cases hc : c = '<'
  · subst hc
    simp only [List.cons_append, msgIdAt, takeWhile_idChar, head?_dropWhile_idChar]
  · have hnone : ∀ more : Text, msgIdAt (c :: more) = none := by
      intro more
      unfold msgIdAt
      split
      · next heq => exact absurd (List.cons.inj heq).1 hc
      · rfl
    rw [List.cons_append, hnone, hnone]

theorem parse_append (text rest : Text) :
    parse_message_id_list (text ++ '<' :: rest) =
      parse_message_id_list text ++ parse_message_id_list ('<' :: rest) := by
  induction text with
  | nil => rfl
  | cons c text ih =>
    rw [List.cons_append, parse_cons, ih, parse_cons c text, ← List.cons_append,
      msgIdAt_append (List.cons_ne_nil c text), List.append_assoc]

theorem parse_token (id : MsgId) (rest : Text) :
    (parse_message_id_list (id.token ++ rest)).head? = some id.token := by
  have htoken : id.token ++ rest = '<' :: (id.val ++ '>' :: rest) := by simp [MsgId.token]
  have htake : (id.val ++ '>' :: rest).takeWhile idChar = id.val := by
    have hstop : ('>' :: rest).takeWhile idChar = [] := List.takeWhile_cons_of_neg (by decide)
    rw [List.takeWhile_append_of_pos id.property.2, hstop, List.append_nil]
  have hdrop : ((id.val ++ '>' :: rest).dropWhile idChar).head? = some '>' := by
    rw [List.dropWhile_append_of_pos id.property.2, List.dropWhile_cons_of_neg (by decide)]
    rfl
  have hhere : msgIdAt ('<' :: (id.val ++ '>' :: rest)) = some id.token := by
    simp only [msgIdAt, htake, hdrop]
    rw [if_pos ⟨id.property.1, trivial⟩]
    rfl
  rw [htoken, parse_cons, hhere]
  rfl

/-- The first identifier read is one of a comment in front, or the one that is there. -/
theorem head?_parse (front : Text) (id : MsgId) (rest : Text) :
    (parse_message_id_list (front ++ id.token ++ rest)).head? =
      ((parse_message_id_list front).head?).or (some id.token) := by
  have htoken := parse_token id rest
  have hcons : id.token ++ rest = '<' :: (id.val ++ ['>'] ++ rest) := rfl
  rw [List.append_assoc, hcons, parse_append, ← hcons, List.head?_append, htoken]

theorem head?_parse_ne_nil {text id : Text} (h : (parse_message_id_list text).head? = some id) :
    id ≠ [] := by
  obtain ⟨tail, -, hat⟩ := List.mem_filterMap.mp (List.mem_of_mem_head? h)
  unfold msgIdAt at hat
  split at hat
  · simp only at hat
    split at hat
    · rintro rfl
      simp at hat
    · cases hat
  · cases hat

/-- With an identifier in In-Reply-To, the first reference decides. -/
theorem compute_thread_id_of_reply {parent first message_id : Text} {references : List Text}
    (hparent : parent ≠ []) (hfirst : references.head? = some first) :
    compute_thread_id message_id (some parent) references = first := by
  obtain ⟨c, id, rfl⟩ := List.exists_cons_of_ne_nil hparent
  obtain ⟨rest, rfl⟩ : ∃ rest, references = first :: rest := List.head?_eq_some_iff.mp hfirst
  rfl

/-- A reply gets the first identifier of a comment in front of its references, or else the
first of these. -/
theorem reply_thread_id {m : Sent} {root : MsgId} {rest : List MsgId}
    (hreferences : m.references = root :: rest) :
    m.headers.thread_id =
      ((parse_message_id_list (m.spacing.between 0).val).head?).getD root.token := by
  obtain ⟨parent, hparent⟩ : ∃ parent, m.references.getLast? = some parent :=
    ⟨_, List.getLast?_eq_some_getLast (by rw [hreferences]; exact List.cons_ne_nil root rest)⟩
  have hreply : m.headers.in_reply_to =
      m.spacing.before_parent.val ++ parent.token ++ m.spacing.after_parent.val := by
    simp only [Sent.headers, hparent]
  have hlist : m.headers.references = (m.spacing.between 0).val ++ root.token ++
      Sent.referencesFrom m.spacing.between 1 rest := by
    simp [Sent.headers, hreferences, Sent.referencesFrom]
  obtain ⟨named, hnamed⟩ : ∃ named, (parse_message_id_list m.headers.in_reply_to).head? =
      some named := by
    rw [hreply, head?_parse]
    cases (parse_message_id_list m.spacing.before_parent.val).head? with
    | none => exact ⟨_, rfl⟩
    | some named => exact ⟨_, rfl⟩
  have hfirst : (parse_message_id_list m.headers.references).head? =
      some (((parse_message_id_list (m.spacing.between 0).val).head?).getD root.token) := by
    rw [hlist, head?_parse]
    cases (parse_message_id_list (m.spacing.between 0).val).head? <;> rfl
  rw [Headers.thread_id, hnamed]
  exact compute_thread_id_of_reply (head?_parse_ne_nil hnamed) hfirst

/-- A message that replies to nothing gets its Message-ID header. -/
theorem root_thread_id {m : Sent} (hreferences : m.references = []) :
    m.headers.thread_id = m.spacing.before_id.val ++ m.id.token ++ m.spacing.after_id.val := by
  simp only [Headers.thread_id, Sent.headers, hreferences, List.getLast?_nil]
  rfl

/-! ## Trees -/

mutual

theorem references_of_sent {references : List MsgId} {t : ReplyTree} {m : Sent}
    (hm : m ∈ sent references t) : references <+: m.references := by
  cases t with
  | node id spacing replies =>
    rw [sent] at hm
    rcases List.mem_cons.mp hm with rfl | hreply
    · exact List.prefix_refl _
    · exact (List.prefix_append references [id]).trans (references_of_sentAll hreply)

theorem references_of_sentAll {references : List MsgId} {trees : List ReplyTree} {m : Sent}
    (hm : m ∈ sentAll references trees) : references <+: m.references := by
  cases trees with
  | nil => cases hm
  | cons tree rest =>
    rw [sentAll] at hm
    rcases List.mem_append.mp hm with hfirst | hlater
    · exact references_of_sent hfirst
    · exact references_of_sentAll hlater

end

theorem references_of_reply {t : ReplyTree} {m : Sent} (hm : m ∈ t.replies) :
    ∃ rest, m.references = t.rootId :: rest := by
  cases t with
  | node id spacing replies =>
    obtain ⟨rest, hrest⟩ := references_of_sentAll hm
    exact ⟨rest, hrest.symm⟩

theorem messages_eq (t : ReplyTree) :
    t.messages = ⟨t.rootId, t.rootSpacing, []⟩ :: t.replies := by
  cases t with
  | node id spacing replies => rfl

/-- The root's Message-ID header is its identifier alone, and no comment in front of a
reply's references has another identifier. -/
structure Plain (t : ReplyTree) : Prop where
  root : t.rootSpacing.before_id.val = [] ∧ t.rootSpacing.after_id.val = []
  replies : ∀ m ∈ t.replies, ∀ id,
    (parse_message_id_list (m.spacing.between 0).val).head? = some id → id = t.rootId.token

theorem threads_iff_plain (t : ReplyTree) :
    (∀ m ∈ t.messages, m.headers.thread_id = t.rootId.token) ↔ Plain t := by
  rw [messages_eq]
  simp only [List.forall_mem_cons]
  have hroot : (⟨t.rootId, t.rootSpacing, []⟩ : Sent).headers.thread_id = t.rootId.token ↔
      t.rootSpacing.before_id.val = [] ∧ t.rootSpacing.after_id.val = [] := by
    rw [root_thread_id rfl]
    constructor
    · intro h
      have hlength := congrArg List.length h
      simp only [List.length_append] at hlength
      exact ⟨List.length_eq_zero_iff.mp (by omega), List.length_eq_zero_iff.mp (by omega)⟩
    · rintro ⟨hbefore, hafter⟩
      rw [hbefore, hafter, List.nil_append, List.append_nil]
  have hreply : ∀ m ∈ t.replies, (m.headers.thread_id = t.rootId.token ↔
      ∀ id, (parse_message_id_list (m.spacing.between 0).val).head? = some id →
        id = t.rootId.token) := by
    intro m hm
    obtain ⟨rest, hreferences⟩ := references_of_reply hm
    rw [reply_thread_id hreferences]
    cases (parse_message_id_list (m.spacing.between 0).val).head? <;> simp
  constructor
  · rintro ⟨hfirst, hrest⟩
    exact ⟨hroot.mp hfirst, fun m hm => (hreply m hm).mp (hrest m hm)⟩
  · rintro ⟨hfirst, hrest⟩
    exact ⟨hroot.mpr hfirst, fun m hm => (hreply m hm).mpr (hrest m hm)⟩

theorem token_injective {id id' : MsgId} (h : id.token = id'.token) : id = id' := by
  have htail := (List.cons.inj h).2
  exact Subtype.ext (List.append_cancel_right htail)

theorem compute_thread_id_threads_iff (t t' : ReplyTree) :
    Threaded t t' ↔ Plain t ∧ Plain t' := by
  constructor
  · intro hthreaded
    exact ⟨(threads_iff_plain t).mp hthreaded.first, (threads_iff_plain t').mp hthreaded.second⟩
  · rintro ⟨hplain, hplain'⟩
    have hfirst := (threads_iff_plain t).mpr hplain
    have hsecond := (threads_iff_plain t').mpr hplain'
    refine ⟨hfirst, hsecond, fun hne m hm m' hm' => ?_⟩
    rw [hfirst m hm, hsecond m' hm']
    exact fun htoken => hne (token_injective htoken)

/-! ## A comment that quotes an identifier -/

theorem isComment_of_plain {text : Text} (h : ∀ c ∈ text, commentChar c = true) :
    IsComment text := by
  induction text with
  | nil => exact .nil
  | cons c text ih =>
    exact .char (h c List.mem_cons_self) (ih fun c hc => h c (List.mem_cons_of_mem _ hc))

def noSpace : Cfws := ⟨[], .nil⟩

def oneSpace : Cfws := ⟨[' '], .blank (by decide) .nil⟩

/-- `(was <old@example.com>)` -/
def quotingComment : Cfws :=
  ⟨"(was <old@example.com>) ".toList,
    @IsCfws.comment "was <old@example.com>".toList [' ']
      (isComment_of_plain (List.all_eq_true.mp (by decide))) (.blank (by decide) .nil)⟩

def rootId : MsgId := ⟨"root@example.com".toList, by decide, List.all_eq_true.mp (by decide)⟩

def replyId : MsgId := ⟨"reply@example.com".toList, by decide, List.all_eq_true.mp (by decide)⟩

def usualSpacing : Spacing := ⟨noSpace, noSpace, noSpace, noSpace, fun _ => oneSpace⟩

def quotingSpacing : Spacing :=
  { usualSpacing with between := fun n => if n = 0 then quotingComment else noSpace }

def renamedReply : ReplyTree := .node rootId usualSpacing [.node replyId quotingSpacing []]

theorem renamed_reply_leaves_the_thread : ¬ ∀ t t' : ReplyTree, Threaded t t' := by
  intro hall
  have hreply := (hall renamedReply renamedReply).first ⟨replyId, quotingSpacing, [rootId]⟩
    (List.mem_cons_of_mem _ List.mem_cons_self)
  exact absurd hreply (by decide +kernel)

end MailCue.Backend.Emails.Threading
