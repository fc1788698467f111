import Mathlib.Data.List.Sort
import Mathlib.Logic.Function.Basic
import MailCue.Lib.Pattern
import MailCue.Lib.Utf8
import MailCue.Backend.Emails.SmtpReply

/-!
# A page of mail

backend/app/emails/service.py `list_emails` behind the search: the UIDs of the page and
what is made of the lines the server answers the FETCH of their headers with. Which line
is whose header block is known to the server only. What the email package makes of a
header block is a parameter.
-/
namespace MailCue.Backend.Emails.FetchPage
open MailCue.Lib

inductive FetchLine
  | octets (line : Bytes)
  | text (line : Text)
  deriving DecidableEq, Inhabited

/-- `parse_email_summary`, and what the page is sorted by. -/
structure SummaryParser (EmailSummary : Type) where
  parse_email_summary : Bytes → (uid mailbox : Text) → (is_read : Bool) → EmailSummary
  thread_id : EmailSummary → Text
  /-- From `datetime.min` in UTC on. -/
  date : EmailSummary → Option Int

structure EmailListResponse (EmailSummary : Type) where
  total : Nat
  page : Nat
  page_size : Nat
  emails : List EmailSummary
  has_more : Bool

/-! ## One line -/

section
variable (py : PyText) (decode : Bytes → Text)

def FetchLine.decoded : FetchLine → Text
  | .octets line => decode line
  | .text line => line

def FetchLine.raw_header : FetchLine → Bytes
  | .octets line => line
  | .text line => Utf8.encode line

/-- `UID\s+(\d+)` -/
def uidPattern : Pattern :=
  .sequence [.word (· == ·) "UID".toList, .atLeastOne Text.isSpace,
    .group 1 (.atLeastOne py.isDigit)]

/-- `FLAGS\s+\(([^)]*)\)` -/
def flagsPattern : Pattern :=
  .sequence [.word (· == ·) "FLAGS".toList, .atLeastOne Text.isSpace, .one (· == '('),
    .group 1 (.run (· != ')')), .one (· == ')')]

def uidIn (decoded : Text) : Option Text :=
  (Pattern.search py.isWord (uidPattern py) decoded).bind (·.group 1)

def flagsIn (decoded : Text) : Option Text :=
  (Pattern.search py.isWord flagsPattern decoded).bind (·.group 1)

/-- Taken for the beginning of a FETCH response. -/
def isResponse (decoded : Text) : Bool :=
  Text.contains decoded "FETCH".toList && Text.contains decoded "UID".toList

structure Reading (EmailSummary : Type) where
  items_by_uid : Text → Option EmailSummary := fun _ => none
  current_uid : Text := []
  current_flags : Text := []

variable {EmailSummary : Type} (parser : SummaryParser EmailSummary) (mailbox : Text)

def readLine (s : Reading EmailSummary) (line : FetchLine) : Reading EmailSummary :=
  let decoded := line.decoded decode
  if isResponse decoded then
    { s with
      current_uid := (uidIn py decoded).getD s.current_uid
      current_flags := (flagsIn py decoded).getD s.current_flags }
  else if 50 < decoded.length then
    let is_read := Text.contains s.current_flags "\\Seen".toList
    let summary := parser.parse_email_summary line.raw_header s.current_uid mailbox is_read
    { s with items_by_uid := Function.update s.items_by_uid s.current_uid (some summary) }
  else s

def readLines (fetch_data : List FetchLine) : Reading EmailSummary :=
  fetch_data.foldl (readLine py decode parser mailbox) {}

/-! ## The page -/

/-- Pages are counted from one. -/
def pageUids (uid_list : List Text) (sort : Text) (page per_page : Nat) : List Text :=
  let uid_list := if "desc".toList.isSuffixOf sort then uid_list.reverse else uid_list
  (uid_list.drop ((page - 1) * per_page)).take per_page

/-- `(e.thread_id, e.date or _epoch)` -/
def threadOrder (a b : EmailSummary) : Prop :=
  parser.thread_id a < parser.thread_id b ∨
    parser.thread_id a = parser.thread_id b ∧ (parser.date a).getD 0 ≤ (parser.date b).getD 0

instance : DecidableRel (threadOrder parser) := fun _ _ => inferInstanceAs (Decidable (_ ∨ _))

def list_emails (uid_list : List Text) (sort : Text) (page per_page : Nat) (thread_view : Bool)
    (fetch : List Text → List FetchLine) : EmailListResponse EmailSummary :=
  let total := uid_list.length
  let page_uids := pageUids uid_list sort page per_page
  let items :=
    if page_uids = [] then []
    else page_uids.filterMap (readLines py decode parser mailbox (fetch page_uids)).items_by_uid
  { total
    page
    page_size := per_page
    emails := if thread_view then items.insertionSort (threadOrder parser) else items
    has_more := decide (page * per_page < total) }

end

/-! ## What the server sends -/

/-- A line, with the UID of the message whose header block it is. -/
structure SentLine where
  line : FetchLine
  header_of : Option Text

/-- A header block for every UID, among lines of any other kind. -/
structure Answers (page_uids : List Text) (response : List SentLine) : Prop where
  distinct : page_uids.Nodup
  blocks : (response.filterMap (·.header_of)).Perm page_uids

def ownBlock (response : List SentLine) (uid : Text) : Bytes :=
  ((response.find? (·.header_of == some uid)).map (·.line.raw_header)).getD []

/-- One summary for every UID, of its own header block, whatever the parser makes of it. -/
def Complete (py : PyText) (decode : Bytes → Text) (mailbox : Text) (uid_list : List Text)
    (sort : Text) (page per_page : Nat) (thread_view : Bool) (response : List SentLine) : Prop :=
  ∃ is_read : Text → Bool, ∀ (EmailSummary : Type) (parser : SummaryParser EmailSummary),
    (list_emails py decode parser mailbox uid_list sort page per_page thread_view
        fun _ => response.map (·.line)).emails.Perm
      ((pageUids uid_list sort page per_page).map fun uid =>
        parser.parse_email_summary (ownBlock response uid) uid mailbox (is_read uid))

/-! ## Which line becomes whose summary -/

section
variable (py : PyText) (decode : Bytes → Text)

/-- The UID a line names when it is taken for the beginning of a response. -/
def namedUid (line : FetchLine) : Option Text :=
  if isResponse (line.decoded decode) then uidIn py (line.decoded decode) else none

def namedFlags (line : FetchLine) : Option Text :=
  if isResponse (line.decoded decode) then flagsIn py (line.decoded decode) else none

/-- What was named last. -/
def lastNamed (named : FetchLine → Option Text) (lines : List FetchLine) : Text :=
  ((lines.filterMap named).getLast?).getD []

def announced (lines : List FetchLine) : Text := lastNamed (namedUid py decode) lines

/-- Taken for a header block. -/
def TakenAsBlock (line : FetchLine) : Prop :=
  isResponse (line.decoded decode) = false ∧ 50 < (line.decoded decode).length

instance : DecidablePred (TakenAsBlock decode) := fun _ => inferInstanceAs (Decidable (_ ∧ _))

/-- The last line taken for a header block while the UID was the one named last. -/
def LastBlock (lines : List FetchLine) (uid : Text) (front : List FetchLine) (line : FetchLine) :
    Prop :=
  ∃ back, lines = front ++ line :: back ∧ TakenAsBlock decode line ∧
    announced py decode front = uid ∧ ∀ mid other rest, back = mid ++ other :: rest →
      TakenAsBlock decode other → announced py decode (front ++ line :: mid) ≠ uid

variable {py decode}

theorem lastNamed_concat (named : FetchLine → Option Text) (lines : List FetchLine)
    (line : FetchLine) :
    lastNamed named (lines ++ [line]) = (named line).getD (lastNamed named lines) := by
  rw [lastNamed, List.filterMap_append]
  cases hnamed : named line with
  | none => simp [hnamed, lastNamed]
  | some uid => simp [hnamed]

theorem lastBlock_concat {lines front : List FetchLine} {line last : FetchLine} {uid : Text} :
    LastBlock py decode (lines ++ [last]) uid front line ↔
      if TakenAsBlock decode last ∧ announced py decode lines = uid then front = lines ∧ line = last
      else LastBlock py decode lines uid front line := by
  constructor
  · rintro ⟨back, hsplit, htaken, huid, hlater⟩
    rcases List.eq_nil_or_concat' back with rfl | ⟨back, final, rfl⟩
    · obtain ⟨rfl, hline⟩ := List.append_inj' hsplit rfl
      obtain rfl : last = line := by simpa using hline
      rw [if_pos ⟨htaken, huid⟩]
      exact ⟨rfl, rfl⟩
    · have hparts : lines ++ [last] = (front ++ line :: back) ++ [final] := by
        rw [hsplit, List.append_assoc, List.cons_append]
      obtain ⟨rfl, hfinal⟩ := List.append_inj' hparts rfl
      obtain rfl : last = final := by simpa using hfinal
      rw [if_neg fun hlast => hlater back last [] rfl hlast.1 hlast.2]
      refine ⟨back, rfl, htaken, huid, fun mid other rest hback => ?_⟩
      refine hlater mid other (rest ++ [last]) ?_
      rw [hback, List.append_assoc, List.cons_append]
  · intro h
    split at h
    · next hlast =>
      obtain ⟨rfl, rfl⟩ := h
      refine ⟨[], rfl, hlast.1, hlast.2, fun mid other rest hnil => ?_⟩
      simp at hnil
    · next hlast =>
      obtain ⟨back, rfl, htaken, huid, hlater⟩ := h
      refine ⟨back ++ [last], by simp, htaken, huid, fun mid other rest hback hother => ?_⟩
      rcases List.eq_nil_or_concat' rest with rfl | ⟨rest, final, rfl⟩
      · obtain ⟨rfl, hlast'⟩ := List.append_inj' hback rfl
        obtain rfl : last = other := by simpa using hlast'
        exact fun hnamed => hlast ⟨hother, hnamed⟩
      · have hparts : back ++ [last] = (mid ++ other :: rest) ++ [final] := by
          rw [hback, List.append_assoc, List.cons_append]
        obtain ⟨rfl, -⟩ := List.append_inj' hparts rfl
        exact hlater mid other rest rfl hother

section
variable {EmailSummary : Type} (parser : SummaryParser EmailSummary) (mailbox : Text)

theorem readLines_concat (lines : List FetchLine) (line : FetchLine) :
    readLines py decode parser mailbox (lines ++ [line]) =
      readLine py decode parser mailbox (readLines py decode parser mailbox lines) line := by
  rw [readLines, List.foldl_append]
  rfl

theorem current_eq (lines : List FetchLine) :
    (readLines py decode parser mailbox lines).current_uid = announced py decode lines ∧
      (readLines py decode parser mailbox lines).current_flags =
        lastNamed (namedFlags py decode) lines := by
  induction lines using List.reverseRecOn with
  | nil => exact ⟨rfl, rfl⟩
  | append_singleton lines line ih =>
    obtain ⟨huid, hflags⟩ := ih
    rw [readLines_concat, announced, lastNamed_concat, lastNamed_concat, readLine, namedUid,
      namedFlags]
    split
    · exact ⟨by rw [huid]; rfl, by rw [hflags]⟩
    · split
      · exact ⟨huid, hflags⟩
      · exact ⟨huid, hflags⟩

/-- A message is read if the flags named last in front of its block say so. -/
def seenBefore (py : PyText) (decode : Bytes → Text) (front : List FetchLine) : Bool :=
  Text.contains (lastNamed (namedFlags py decode) front) "\\Seen".toList

theorem readLine_items (s : Reading EmailSummary) (line : FetchLine) (uid : Text) :
    (readLine py decode parser mailbox s line).items_by_uid uid =
      if TakenAsBlock decode line ∧ s.current_uid = uid then
        some (parser.parse_email_summary line.raw_header uid mailbox
          (Text.contains s.current_flags "\\Seen".toList))
      else s.items_by_uid uid := by
  by_cases hresponse : isResponse (line.decoded decode) = true
  · simp [readLine, TakenAsBlock, hresponse]
  · by_cases hlong : 50 < (line.decoded decode).length
    · by_cases hown : s.current_uid = uid
      · simp [readLine, TakenAsBlock, hresponse, hlong, hown]
      · have hne : uid ≠ s.current_uid := fun heq => hown heq.symm
        simp [readLine, TakenAsBlock, hresponse, hlong, hown, hne]
    · simp [readLine, TakenAsBlock, hresponse, hlong]

theorem items_by_uid_eq (lines : List FetchLine) (uid : Text) (summary : EmailSummary) :
    (readLines py decode parser mailbox lines).items_by_uid uid = some summary ↔
      ∃ front line, LastBlock py decode lines uid front line ∧
        summary = parser.parse_email_summary line.raw_header uid mailbox
          (seenBefore py decode front) := by
  induction lines using List.reverseRecOn with
  | nil =>
    constructor
    · intro h
      cases h
    · rintro ⟨front, line, ⟨back, hsplit, -⟩, -⟩
      simp at hsplit
  | append_singleton lines last ih =>
    obtain ⟨huid, hflags⟩ := @current_eq py decode EmailSummary parser mailbox lines
    rw [readLines_concat, readLine_items, huid, hflags]
    simp only [lastBlock_concat]
    by_cases hlast : TakenAsBlock decode last ∧ announced py decode lines = uid
    · simp only [if_pos hlast, Option.some.injEq]
      constructor
      · rintro rfl
        exact ⟨lines, last, ⟨rfl, rfl⟩, rfl⟩
      · rintro ⟨front, line, ⟨rfl, rfl⟩, rfl⟩
        rfl
    · simp only [if_neg hlast]
      exact ih

end

/-! ## When the page is complete -/

/-- The header block of a UID is found: a line with its octets is the last one taken for
a header block while that UID was the one named last. -/
def Finds (py : PyText) (decode : Bytes → Text) (lines : List FetchLine) (uid : Text)
    (block : Bytes) : Prop :=
  ∃ front line, LastBlock py decode lines uid front line ∧ line.raw_header = block

/-- The parser that keeps what it is given. -/
def keeping : SummaryParser (Bytes × Text × Text × Bool) where
  parse_email_summary raw uid mailbox is_read := (raw, uid, mailbox, is_read)
  thread_id _ := []
  date _ := none

theorem emails_perm {EmailSummary : Type} (parser : SummaryParser EmailSummary)
    (mailbox : Text) (uid_list : List Text) (sort : Text) (page per_page : Nat)
    (thread_view : Bool) (lines : List FetchLine) :
    (list_emails py decode parser mailbox uid_list sort page per_page thread_view
        fun _ => lines).emails.Perm
      ((pageUids uid_list sort page per_page).filterMap
        (readLines py decode parser mailbox lines).items_by_uid) := by
  simp only [list_emails]
  have hitems : (if pageUids uid_list sort page per_page = [] then []
      else (pageUids uid_list sort page per_page).filterMap
        (readLines py decode parser mailbox lines).items_by_uid) =
      (pageUids uid_list sort page per_page).filterMap
        (readLines py decode parser mailbox lines).items_by_uid := by
    split
    · next hnil =>
      rw [hnil]
      rfl
    · rfl
  rw [hitems]
  split
  · exact List.perm_insertionSort _ _
  · exact List.Perm.refl _

theorem complete_of_finds {mailbox : Text} {uid_list : List Text} {sort : Text}
    {page per_page : Nat} {thread_view : Bool} {response : List SentLine}
    (h : ∀ uid ∈ pageUids uid_list sort page per_page,
      Finds py decode (response.map (·.line)) uid (ownBlock response uid)) :
    Complete py decode mailbox uid_list sort page per_page thread_view response := by
  choose! front line hlast hblock using h
  refine ⟨fun uid => seenBefore py decode (front uid), fun EmailSummary parser => ?_⟩
  refine (emails_perm parser mailbox uid_list sort page per_page thread_view _).trans ?_
  have hitems : ∀ uid ∈ pageUids uid_list sort page per_page,
      (readLines py decode parser mailbox (response.map (·.line))).items_by_uid uid =
        some (parser.parse_email_summary (ownBlock response uid) uid mailbox
          (seenBefore py decode (front uid))) := fun uid huid =>
    (items_by_uid_eq ..).mpr ⟨front uid, line uid, hlast uid huid, by rw [hblock uid huid]⟩
  have hsame := List.filterMap_congr hitems
  exact List.Perm.of_eq (hsame.trans (congrFun List.filterMap_eq_map' _))

end

theorem list_emails_complete_iff (py : PyText) (decode : Bytes → Text) (mailbox : Text)
    (uid_list : List Text) (sort : Text) (page per_page : Nat) (thread_view : Bool)
    (response : List SentLine) :
    Complete py decode mailbox uid_list sort page per_page thread_view response ↔
      ∀ uid ∈ pageUids uid_list sort page per_page,
        Finds py decode (response.map (·.line)) uid (ownBlock response uid) := by
  constructor
  · rintro ⟨is_read, hcomplete⟩ uid huid
    have hperm := (emails_perm keeping mailbox uid_list sort page per_page thread_view _).symm.trans
      (hcomplete _ keeping)
    have hmem := hperm.mem_iff.mpr (List.mem_map_of_mem huid)
    obtain ⟨uid', -, hitem⟩ := List.mem_filterMap.mp hmem
    obtain ⟨front, line, hlast, hsummary⟩ := (items_by_uid_eq ..).mp hitem
    obtain ⟨hblock, rfl, -, -⟩ : ownBlock response uid = line.raw_header ∧ uid = uid' ∧
        mailbox = mailbox ∧ is_read uid = seenBefore py decode front := by
      simpa [keeping] using hsummary
    exact ⟨front, line, hlast, hblock.symm⟩
  · exact complete_of_finds

/-! ## Blocks in a frame of their own -/

/-- A message's part of the response: its announcement, its header block and a closing line. -/
structure SentMessage where
  uid : Text
  announcement : FetchLine
  block : FetchLine
  closing : FetchLine

def SentMessage.lines (m : SentMessage) : List SentLine :=
  [⟨m.announcement, none⟩, ⟨m.block, some m.uid⟩, ⟨m.closing, none⟩]

/-- The announcement names the UID, the block is long and not taken for an announcement,
and the closing line is neither long nor taken for one. -/
structure SentMessage.Framed (py : PyText) (decode : Bytes → Text) (m : SentMessage) : Prop where
  announces : namedUid py decode m.announcement = some m.uid
  taken : TakenAsBlock decode m.block
  closes : isResponse (m.closing.decoded decode) = false
  short : (m.closing.decoded decode).length ≤ 50

section
variable {py : PyText} {decode : Bytes → Text}

theorem not_taken_of_named {line : FetchLine} {uid : Text}
    (h : namedUid py decode line = some uid) : ¬ TakenAsBlock decode line := by
  intro htaken
  rw [namedUid, htaken.1] at h
  cases h

theorem lastBlock_framed {m : SentMessage} (hm : m.Framed py decode) {lines front : List FetchLine}
    {line : FetchLine} {uid : Text} :
    LastBlock py decode (lines ++ m.lines.map (·.line)) uid front line ↔
      if m.uid = uid then front = lines ++ [m.announcement] ∧ line = m.block
      else LastBlock py decode lines uid front line := by
  have hsplit : lines ++ m.lines.map (·.line) =
      ((lines ++ [m.announcement]) ++ [m.block]) ++ [m.closing] := by
    simp [SentMessage.lines]
  have hclosing : ¬ TakenAsBlock decode m.closing := fun htaken => by
    have hlong := htaken.2
    have hshort := hm.short
    omega
  have huid : announced py decode (lines ++ [m.announcement]) = m.uid := by
    rw [announced, lastNamed_concat, hm.announces, Option.getD_some]
  rw [hsplit, lastBlock_concat, if_neg fun h => hclosing h.1, lastBlock_concat, huid]
  by_cases hown : m.uid = uid
  · rw [if_pos ⟨hm.taken, hown⟩, if_pos hown]
  · rw [if_neg fun h => hown h.2, if_neg hown, lastBlock_concat,
      if_neg fun h => not_taken_of_named hm.announces h.1]

theorem finds_framed {messages : List SentMessage} (hframed : ∀ m ∈ messages, m.Framed py decode)
    (hdistinct : (messages.map (·.uid)).Nodup) {m : SentMessage} (hm : m ∈ messages) :
    Finds py decode ((messages.flatMap (·.lines)).map (·.line)) m.uid m.block.raw_header := by
  induction messages using List.reverseRecOn with
  | nil => cases hm
  | append_singleton messages last ih =>
    have hlast := hframed last (List.mem_append_right _ (List.mem_singleton_self last))
    rw [List.flatMap_append, List.map_append, List.flatMap_singleton]
    simp only [Finds, lastBlock_framed hlast]
    rcases List.mem_append.mp hm with hfront | hback
    · rw [List.map_append] at hdistinct
      have hne : last.uid ≠ m.uid := fun heq =>
        List.disjoint_of_nodup_append hdistinct (List.mem_map_of_mem hfront) (by simp [heq])
      simp only [if_neg hne]
      exact ih (fun m hm => hframed m (List.mem_append_left _ hm)) hdistinct.of_append_left hfront
    · obtain rfl := List.mem_singleton.mp hback
      simp only [if_true]
      exact ⟨_, _, ⟨rfl, rfl⟩, rfl⟩

theorem ownBlock_framed {messages : List SentMessage} (hdistinct : (messages.map (·.uid)).Nodup)
    {m : SentMessage} (hm : m ∈ messages) :
    ownBlock (messages.flatMap (·.lines)) m.uid = m.block.raw_header := by
  induction messages with
  | nil => cases hm
  | cons first messages ih =>
    rw [List.map_cons, List.nodup_cons] at hdistinct
    rcases List.mem_cons.mp hm with rfl | hlater
    · simp [ownBlock, SentMessage.lines]
    · have hne : first.uid ≠ m.uid := fun heq => hdistinct.1 (heq ▸ List.mem_map_of_mem hlater)
      have hrest := ih hdistinct.2 hlater
      simpa [ownBlock, SentMessage.lines, hne] using hrest

/-- A response of such messages makes a complete page. -/
theorem complete_of_framed {mailbox : Text} {uid_list : List Text} {sort : Text}
    {page per_page : Nat} {thread_view : Bool} {messages : List SentMessage}
    (hframed : ∀ m ∈ messages, m.Framed py decode)
    (huids : (messages.map (·.uid)).Perm (pageUids uid_list sort page per_page))
    (hdistinct : (pageUids uid_list sort page per_page).Nodup) :
    Complete py decode mailbox uid_list sort page per_page thread_view
      (messages.flatMap (·.lines)) := by
  have hdistinct' := huids.nodup_iff.mpr hdistinct
  refine complete_of_finds fun uid huid => ?_
  obtain ⟨m, hm, rfl⟩ := List.mem_map.mp (huids.mem_iff.mpr huid)
  rw [ownBlock_framed hdistinct' hm]
  exact finds_framed hframed hdistinct' hm

end

def asciiDecode (raw : Bytes) : Text := raw.map fun b => Char.ofNat b.toNat

def asciiLine (line : String) : FetchLine := .octets (line.toList.map fun c => UInt8.ofNat c.toNat)

/-- The message has both words in its subject. -/
def wordyResponse : List SentLine :=
  [⟨asciiLine "1 FETCH (UID 5 FLAGS () RFC822.SIZE 300 BODY[HEADER] \x7b63\x7d", none⟩,
    ⟨asciiLine "From: ops@example.com\r\nSubject: FETCH by UID is slow today\r\n\r\n",
      some "5".toList⟩,
    ⟨asciiLine ")", none⟩,
    ⟨asciiLine "Fetch completed (0.001 + 0.000 secs).", none⟩]

theorem words_in_a_header_lose_it :
    ¬ ∀ py decode mailbox uid_list sort page per_page thread_view response,
      Answers (pageUids uid_list sort page per_page) response →
        Complete py decode mailbox uid_list sort page per_page thread_view response := by
  intro hall
  obtain ⟨is_read, hcomplete⟩ := hall .asciiOnly asciiDecode [] ["5".toList] "date_desc".toList 1 50
    false wordyResponse ⟨by decide, List.Perm.of_eq (by decide)⟩
  have hlength := (hcomplete _ keeping).length_eq
  have hempty : (list_emails .asciiOnly asciiDecode keeping [] ["5".toList] "date_desc".toList 1 50
      false fun _ => wordyResponse.map (·.line)).emails.length = 0 := by decide +kernel
  rw [hempty, List.length_map] at hlength
  exact absurd hlength (by decide)

end MailCue.Backend.Emails.FetchPage
