import Mathlib.Data.List.Nodup
import Mathlib.Logic.Function.Basic

/-!
# Moving and deleting mail over IMAP

backend/app/emails/service.py, `delete_email` and `move_email_to_folder`: the
commands on one connection and what they do to the store, given how the server
answers each of them. A command the library has no selected mailbox for raises
before it is sent. The CREATE of the target, whose failure is suppressed and
which moves no mail, the log lines and the published event are left out.
-/
namespace MailCue.Backend.Emails.Imap

/-! ## The store -/

/-- `id` says which mail it is, whichever folder a copy of it lies in. -/
structure Message where
  id : Nat
  uid : Nat
  deleted : Bool
  deriving DecidableEq

structure Folder where
  messages : List Message
  uidnext : Nat
  nodup : (messages.map (·.uid)).Nodup
  fresh : ∀ m ∈ messages, m.uid < uidnext

namespace Folder

variable (f : Folder)

def find (uid : Nat) : Option Message := f.messages.find? (·.uid == uid)

def append (m : Message) : Folder where
  messages := f.messages ++ [{ m with uid := f.uidnext }]
  uidnext := f.uidnext + 1
  nodup := by
    have hnew : ∀ m ∈ f.messages, m.uid ≠ f.uidnext := fun m hm => Nat.ne_of_lt (f.fresh m hm)
    simpa [List.nodup_append, f.nodup] using hnew
  fresh := by
    intro m' hm'
    rcases List.mem_append.mp hm' with h | h
    · exact Nat.lt_succ_of_lt (f.fresh m' h)
    · obtain rfl := List.mem_singleton.mp h
      exact Nat.lt_succ_self _

def flag (uid : Nat) : Folder where
  messages := f.messages.map fun m => if m.uid = uid then { m with deleted := true } else m
  uidnext := f.uidnext
  nodup := by
    have huids : (f.messages.map fun m =>
        if m.uid = uid then { m with deleted := true } else m).map (·.uid) =
        f.messages.map (·.uid) := by
      simp only [List.map_map, List.map_inj_left, Function.comp_apply]
      intro m _
      split <;> rfl
    rw [huids]
    exact f.nodup
  fresh := by
    intro m' hm'
    obtain ⟨m, hm, rfl⟩ := List.mem_map.mp hm'
    have hlt := f.fresh m hm
    split <;> exact hlt

def expunge : Folder where
  messages := f.messages.filter (!·.deleted)
  uidnext := f.uidnext
  nodup := f.nodup.sublist (List.filter_sublist.map _)
  fresh m hm := f.fresh m (List.mem_of_mem_filter hm)

theorem find_of_mem {m : Message} (hm : m ∈ f.messages) : f.find m.uid = some m := by
  have hsome : (f.find m.uid).isSome := by
    simp only [find, List.find?_isSome]
    exact ⟨m, hm, by simp⟩
  obtain ⟨m', hm'⟩ := Option.isSome_iff_exists.mp hsome
  have huid : m'.uid = m.uid := by simpa using List.find?_some hm'
  have hsame := List.inj_on_of_nodup_map f.nodup (List.mem_of_find?_eq_some hm') hm huid
  rw [hm', hsame]

end Folder

abbrev Mailstore := String → Folder

namespace Mailstore

variable (store : Mailstore) (folder : String)

def copy (uid : Nat) (target : String) : Mailstore :=
  match (store folder).find uid with
  | none => store
  | some m => Function.update store target ((store target).append m)

def flag (uid : Nat) : Mailstore := Function.update store folder ((store folder).flag uid)

def expunge : Mailstore := Function.update store folder (store folder).expunge

/-- Some copy of the mail lies in the folder. -/
def Holds (id : Nat) : Prop := ∃ m ∈ (store folder).messages, m.id = id

end Mailstore

/-! ## The connection -/

inductive Answer
  | ok | no | bad
  /-- The call raises; the server may have done its part before. -/
  | raised (performed : Bool)
  deriving DecidableEq

namespace Answer

def performed : Answer → Bool
  | .ok => true
  | .raised performed => performed
  | _ => false

def raises : Answer → Bool
  | .raised _ => true
  | _ => false

end Answer

structure Answers where
  select : Answer
  copy : Answer
  store : Answer
  expunge : Answer

structure Session where
  store : Mailstore
  selected : Option String
  /-- An exception is on its way out of the operation. -/
  raised : Bool

namespace Session

def connect (store : Mailstore) : Session := ⟨store, none, false⟩

def select (s : Session) (folder : String) (answer : Answer) : Session :=
  if s.raised then s
  else
    { s with
      selected := if answer.performed then some folder else none
      raised := answer.raises }

/-- A command on the selected mailbox. Its answer is not looked at. -/
def command (s : Session) (answer : Answer) (effect : Mailstore → String → Mailstore) : Session :=
  if s.raised then s
  else
    match s.selected with
    | none => { s with raised := true }
    | some folder =>
      { s with
        store := if answer.performed then effect s.store folder else s.store
        raised := answer.raises }

def uidCopy (s : Session) (uid : Nat) (target : String) (answer : Answer) : Session :=
  s.command answer fun store folder => store.copy folder uid target

def uidStoreDeleted (s : Session) (uid : Nat) (answer : Answer) : Session :=
  s.command answer fun store folder => store.flag folder uid

def expunge (s : Session) (answer : Answer) : Session :=
  s.command answer fun store folder => store.expunge folder

end Session

/-! ## The operations -/

def validateFolder (folder : String) : Bool :=
  folder ≠ "" && !folder.toList.any fun c => c == '\r' || c == '\n' || c == '\x00'

def moveEmailToFolder (store : Mailstore) (uid : Nat) (source_folder target_folder : String)
    (answers : Answers) : Session :=
  if !validateFolder source_folder || !validateFolder target_folder then ⟨store, none, true⟩
  else
    ((((Session.connect store).select source_folder answers.select).uidCopy uid target_folder
      answers.copy).uidStoreDeleted uid answers.store).expunge answers.expunge

def deleteEmail (store : Mailstore) (uid : Nat) (folder : String) (answers : Answers) : Session :=
  if !validateFolder folder then ⟨store, none, true⟩
  else
    let s := (Session.connect store).select folder answers.select
    if folder.toLower = "trash" then
      (s.uidStoreDeleted uid answers.store).expunge answers.expunge
    else
      ((s.uidCopy uid "Trash" answers.copy).uidStoreDeleted uid answers.store).expunge
        answers.expunge

/-- Outside the trash, deleting is a move there. -/
theorem deleteEmail_eq_move (store : Mailstore) (uid : Nat) (folder : String) (answers : Answers)
    (h : folder.toLower ≠ "trash") :
    deleteEmail store uid folder answers = moveEmailToFolder store uid folder "Trash" answers := by
  have htrash : validateFolder "Trash" = true := by decide
  simp [deleteEmail, moveEmailToFolder, h, htrash]

/-! ## Whether the mail is still there -/

/-- The mail lies in the source alone, once. -/
def Mailstore.Alone (store : Mailstore) (source : String) (m : Message) : Prop :=
  ∀ folder, ∀ m' ∈ (store folder).messages, m'.id = m.id → folder = source ∧ m' = m

/-- One of the two folders still has the mail. -/
def Mailstore.Keeps (store : Mailstore) (source target : String) (id : Nat) : Prop :=
  store.Holds source id ∨ store.Holds target id

/-- One of the two folders keeps a copy whatever the answers, or the answers keep
the operation from removing the one it has. -/
def Kept (answers : Answers) (source target : String) (m : Message) : Prop :=
  validateFolder source = false ∨ validateFolder target = false ∨
  answers.select ≠ .ok ∨ answers.copy.raises = true ∨
  (answers.copy = .ok ∧ (source = target → m.deleted = false)) ∨
  answers.store.raises = true ∨ (answers.store ≠ .ok ∧ m.deleted = false) ∨
  answers.expunge.performed = false

section
variable {store : Mailstore} {source target : String} {m : Message} {uid id : Nat}

@[simp] theorem command_raised (answer : Answer) (effect : Mailstore → String → Mailstore)
    (selected : Option String) :
    (⟨store, selected, true⟩ : Session).command answer effect = ⟨store, selected, true⟩ := rfl

theorem copy_eq (hm : m ∈ (store source).messages) :
    store.copy source m.uid target =
      Function.update store target ((store target).append m) := by
  simp [Mailstore.copy, (store source).find_of_mem hm]

theorem holds_flag {folder : String} (h : store.Holds folder id) :
    (store.flag source uid).Holds folder id := by
  obtain ⟨m, hm, rfl⟩ := h
  by_cases hfolder : folder = source
  · subst hfolder
    refine ⟨if m.uid = uid then { m with deleted := true } else m, ?_, by split <;> rfl⟩
    simp only [Mailstore.flag, Function.update_self, Folder.flag]
    exact List.mem_map_of_mem hm
  · exact ⟨m, by simpa [Mailstore.flag, hfolder] using hm, rfl⟩

/-- A copy that does not lie under the removed marks is there after an expunge. -/
theorem holds_expunge {folder : String} :
    (store.expunge source).Holds folder id ↔
      ∃ m ∈ (store folder).messages, m.id = id ∧ (folder = source → m.deleted = false) := by
  by_cases hfolder : folder = source
  · subst hfolder
    simp only [Mailstore.Holds, Mailstore.expunge, Function.update_self, Folder.expunge,
      List.mem_filter, Bool.not_eq_true', forall_const, and_assoc]
    constructor
    · rintro ⟨m, hm, hdeleted, hid⟩
      exact ⟨m, hm, hid, hdeleted⟩
    · rintro ⟨m, hm, hid, hdeleted⟩
      exact ⟨m, hm, hdeleted, hid⟩
  · simp [Mailstore.Holds, Mailstore.expunge, hfolder]

theorem mem_copied_source (hm : m ∈ (store source).messages) (performed : Bool) :
    m ∈ ((if performed then store.copy source m.uid target else store) source).messages := by
  cases performed with
  | false => exact hm
  | true =>
    rw [if_pos rfl, copy_eq hm]
    by_cases hfolder : source = target
    · subst hfolder
      simp [Folder.append, hm]
    · simp [hfolder, hm]

theorem mem_copied_target (hm : m ∈ (store source).messages) :
    { m with uid := (store target).uidnext } ∈
      ((store.copy source m.uid target) target).messages := by
  simp [copy_eq hm, Folder.append]

/-- The copies of a mail that lay in the source alone, behind the COPY. -/
theorem mem_copied (hm : m ∈ (store source).messages) (halone : store.Alone source m)
    {performed : Bool} {folder : String} {m' : Message}
    (hm' : m' ∈ ((if performed then store.copy source m.uid target else store) folder).messages)
    (hid : m'.id = m.id) :
    (folder = source ∧ m' = m) ∨
      (performed = true ∧ folder = target ∧ m' = { m with uid := (store target).uidnext }) := by
  cases performed with
  | false => exact .inl (halone folder m' hm' hid)
  | true =>
    rw [if_pos rfl, copy_eq hm] at hm'
    by_cases hfolder : folder = target
    · subst hfolder
      rw [Function.update_self] at hm'
      rcases List.mem_append.mp hm' with hold | hnew
      · exact .inl (halone folder m' hold hid)
      · exact .inr ⟨rfl, rfl, List.mem_singleton.mp hnew⟩
    · rw [Function.update_of_ne hfolder] at hm'
      exact .inl (halone folder m' hm' hid)

theorem mem_flagged (performed : Bool) (folder : String) (m' : Message) :
    m' ∈ ((if performed then store.flag source uid else store) folder).messages ↔
      ∃ m ∈ (store folder).messages,
        m' = if performed ∧ folder = source ∧ m.uid = uid then { m with deleted := true } else m := by
  cases performed with
  | false => simp
  | true =>
    by_cases hfolder : folder = source
    · subst hfolder
      simp [Mailstore.flag, Folder.flag, eq_comm]
    · simp [Mailstore.flag, hfolder]

/-- A message that is neither flagged nor was survives STORE and EXPUNGE. -/
theorem holds_flagged_expunged {folder : String} {m' : Message}
    (hm' : m' ∈ (store folder).messages) (flagged : Bool)
    (hstays : folder = source → m'.deleted = false ∧ (flagged = true → m'.uid ≠ uid)) :
    ((if flagged then store.flag source uid else store).expunge source).Holds folder m'.id := by
  rw [holds_expunge]
  refine ⟨_, (mem_flagged flagged folder _).mpr ⟨m', hm', rfl⟩, ?_, fun hsource => ?_⟩
  · split
    · rfl
    · rfl
  · rw [if_neg fun h => (hstays hsource).2 h.1 h.2.2]
    exact (hstays hsource).1

/-- What survives STORE and EXPUNGE was neither flagged nor is. -/
theorem of_holds_flagged_expunged {folder : String} {flagged : Bool}
    (h : ((if flagged then store.flag source uid else store).expunge source).Holds folder id) :
    ∃ m' ∈ (store folder).messages, m'.id = id ∧
      (folder = source → m'.deleted = false ∧ (flagged = true → m'.uid ≠ uid)) := by
  rw [holds_expunge] at h
  obtain ⟨m'', hm'', hid, hdeleted⟩ := h
  obtain ⟨m', hm', rfl⟩ := (mem_flagged flagged folder m'').mp hm''
  refine ⟨m', hm', ?_, fun hsource => ?_⟩
  · rw [← hid]
    split <;> rfl
  · have hunmarked := hdeleted hsource
    split at hunmarked
    · cases hunmarked
    · next hnot => exact ⟨hunmarked, fun hflagged huid => hnot ⟨hflagged, hsource, huid⟩⟩

/-- Behind COPY, STORE and EXPUNGE the target has the copy, or the source what was
not flagged. -/
theorem keeps_expunged (hm : m ∈ (store source).messages) {copied flagged : Bool}
    (h : (copied = true ∧ (source = target → m.deleted = false)) ∨
      (flagged = false ∧ m.deleted = false)) :
    ((if flagged then (if copied then store.copy source m.uid target else store).flag source m.uid
      else (if copied then store.copy source m.uid target else store)).expunge source).Keeps
        source target m.id := by
  rcases h with ⟨rfl, hsame⟩ | ⟨rfl, hdeleted⟩
  · right
    refine holds_flagged_expunged (mem_copied_target hm) flagged fun hsource => ?_
    subst hsource
    exact ⟨hsame rfl, fun _ => (Nat.ne_of_lt ((store target).fresh m hm)).symm⟩
  · left
    refine holds_flagged_expunged (mem_copied_source hm copied) false fun _ => ?_
    exact ⟨hdeleted, fun hflagged => by cases hflagged⟩

theorem of_keeps_expunged (hm : m ∈ (store source).messages) (halone : store.Alone source m)
    {copied flagged : Bool}
    (h : ((if flagged then (if copied then store.copy source m.uid target else store).flag source
      m.uid else (if copied then store.copy source m.uid target else store)).expunge source).Keeps
        source target m.id) :
    (copied = true ∧ (source = target → m.deleted = false)) ∨
      (flagged = false ∧ m.deleted = false) := by
  have hcopy : ∀ folder, ∀ m' ∈
      ((if copied then store.copy source m.uid target else store) folder).messages,
      m'.id = m.id → (folder = source → m'.deleted = false ∧ (flagged = true → m'.uid ≠ m.uid)) →
      (copied = true ∧ (source = target → m.deleted = false)) ∨
        (flagged = false ∧ m.deleted = false) := by
    intro folder m' hm' hid hstays
    rcases mem_copied hm halone hm' hid with ⟨hsource, rfl⟩ | ⟨hcopied, htarget, rfl⟩
    · refine .inr ⟨Bool.eq_false_iff.mpr fun hflagged => ?_, (hstays hsource).1⟩
      exact (hstays hsource).2 hflagged rfl
    · exact .inl ⟨hcopied, fun hsame => (hstays (htarget.trans hsame.symm)).1⟩
  rcases h with h | h
  · obtain ⟨m', hm', hid, hstays⟩ := of_holds_flagged_expunged h
    exact hcopy source m' hm' hid hstays
  · obtain ⟨m', hm', hid, hstays⟩ := of_holds_flagged_expunged h
    exact hcopy target m' hm' hid hstays

/-- Of the answers that do not raise, OK alone performs the command. -/
theorem performed_iff {answer : Answer} (h : answer.raises = false) :
    answer.performed = true ↔ answer = .ok := by
  cases answer with
  | raised performed => cases h
  | _ => simp [Answer.performed]

@[simp] theorem command_selected (answer : Answer) (effect : Mailstore → String → Mailstore) :
    (⟨store, some source, false⟩ : Session).command answer effect =
      ⟨if answer.performed then effect store source else store, some source, answer.raises⟩ := rfl

/-- The store behind the three commands on the selected source. -/
theorem commands_store (store : Mailstore) (source target : String) (uid : Nat)
    (copy flag expunge : Answer) (copied flagged : Mailstore)
    (hcopied : copied = if copy.performed then store.copy source uid target else store)
    (hflagged : flagged = if flag.performed then copied.flag source uid else copied) :
    ((((⟨store, some source, false⟩ : Session).uidCopy uid target copy).uidStoreDeleted uid
        flag).expunge expunge).store =
      if copy.raises then copied
      else if flag.raises ∨ expunge.performed = false then flagged
      else flagged.expunge source := by
  subst hcopied
  subst hflagged
  simp only [Session.uidCopy, Session.uidStoreDeleted, Session.expunge, command_selected]
  cases copy.raises with
  | true => simp only [command_raised, if_true]
  | false =>
    simp only [command_selected, Bool.false_eq_true, if_false]
    cases flag.raises with
    | true => simp only [command_raised, true_or, if_true]
    | false =>
      simp only [command_selected, Bool.false_eq_true, false_or]
      cases expunge.performed with
      | true => simp
      | false => simp

/-- The three commands on the selected source, which has the message. -/
theorem commands_keep (hm : m ∈ (store source).messages) (target : String)
    (copy flag expunge : Answer) (after : Mailstore)
    (hafter : after = ((((⟨store, some source, false⟩ : Session).uidCopy m.uid target
      copy).uidStoreDeleted m.uid flag).expunge expunge).store) :
    ((copy.raises = true ∨ (copy = .ok ∧ (source = target → m.deleted = false)) ∨
        flag.raises = true ∨ (flag ≠ .ok ∧ m.deleted = false) ∨ expunge.performed = false) →
      after.Keeps source target m.id) ∧
    (store.Alone source m → after.Keeps source target m.id →
      copy.raises = true ∨ (copy = .ok ∧ (source = target → m.deleted = false)) ∨
        flag.raises = true ∨ (flag ≠ .ok ∧ m.deleted = false) ∨ expunge.performed = false) := by
  have hcopied : (if copy.performed then store.copy source m.uid target else store).Holds
      source m.id := ⟨m, mem_copied_source hm copy.performed, rfl⟩
  generalize hcopy : (if copy.performed then store.copy source m.uid target else store) = copied
    at hcopied
  have hflagged : (if flag.performed then copied.flag source m.uid else copied).Holds
      source m.id := by
    split
    · exact holds_flag hcopied
    · exact hcopied
  rw [commands_store store source target m.uid copy flag expunge copied _ hcopy.symm rfl] at hafter
  subst hafter
  cases hraises : copy.raises with
  | true =>
    rw [if_pos rfl]
    exact ⟨fun _ => .inl hcopied, fun _ _ => .inl rfl⟩
  | false =>
    rw [if_neg Bool.false_ne_true]
    by_cases hstops : flag.raises = true ∨ expunge.performed = false
    · rw [if_pos hstops]
      refine ⟨fun _ => .inl hflagged, fun _ _ => .inr (.inr ?_)⟩
      rcases hstops with hflag | hexpunge
      · exact .inl hflag
      · exact .inr (.inr hexpunge)
    · rw [if_neg hstops]
      obtain ⟨hflag, hexpunge⟩ := not_or.mp hstops
      have hflag : flag.raises = false := Bool.not_eq_true _ ▸ hflag
      subst hcopy
      constructor
      · intro hkept
        apply keeps_expunged hm
        rw [performed_iff hraises, ← Bool.not_eq_true flag.performed, performed_iff hflag]
        rcases hkept with h | h | h | h | h
        · cases h
        · exact .inl h
        · rw [hflag] at h
          cases h
        · exact .inr h
        · exact absurd h hexpunge
      · intro halone hkeeps
        have hkept := of_keeps_expunged hm halone hkeeps
        rw [performed_iff hraises, ← Bool.not_eq_true flag.performed, performed_iff hflag] at hkept
        rcases hkept with h | h
        · exact .inr (.inl h)
        · exact .inr (.inr (.inr (.inl h)))

/-- Without a selected mailbox the first command raises. -/
theorem unselected_store (store : Mailstore) (source target : String) (uid : Nat)
    (answers : Answers) (h : answers.select ≠ .ok) :
    (((((Session.connect store).select source answers.select).uidCopy uid target
      answers.copy).uidStoreDeleted uid answers.store).expunge answers.expunge).store = store := by
  unfold Session.uidCopy Session.uidStoreDeleted Session.expunge
  cases hselect : answers.select with
  | ok => exact absurd hselect h
  | no => rfl
  | bad => rfl
  | raised performed =>
    have hraised : (Session.connect store).select source (.raised performed) =
        ⟨store, if performed then some source else none, true⟩ := rfl
    simp only [hraised, command_raised]

theorem move_keeps (hm : m ∈ (store source).messages) (target : String) (answers : Answers) :
    (Kept answers source target m →
      (moveEmailToFolder store m.uid source target answers).store.Keeps source target m.id) ∧
    (store.Alone source m →
      (moveEmailToFolder store m.uid source target answers).store.Keeps source target m.id →
      Kept answers source target m) := by
  have hbefore : store.Keeps source target m.id := .inl ⟨m, hm, rfl⟩
  unfold moveEmailToFolder Kept
  cases hsource : validateFolder source with
  | false => simp [hbefore]
  | true =>
    cases htarget : validateFolder target with
    | false => simp [hbefore]
    | true =>
      simp only [Bool.not_true, Bool.or_self, Bool.false_eq_true, if_false, Bool.true_eq_false,
        false_or]
      by_cases hselect : answers.select = .ok
      · simp only [hselect, ne_eq, not_true_eq_false, false_or]
        exact commands_keep hm target answers.copy answers.store answers.expunge _ rfl
      · rw [unselected_store store source target m.uid answers hselect]
        simp [hbefore, hselect]

/-- **Moving keeps the mail**, and so does deleting outside the trash, for the answers
that keep one of the two copies; and for no others, where the mail had no other copy. -/
theorem move_or_delete_keeps_mail (hm : m ∈ (store source).messages) (target : String)
    (answers : Answers) :
    ((Kept answers source target m →
      (moveEmailToFolder store m.uid source target answers).store.Keeps source target m.id) ∧
    (store.Alone source m →
      (moveEmailToFolder store m.uid source target answers).store.Keeps source target m.id →
      Kept answers source target m)) ∧
    (source.toLower ≠ "trash" →
      (Kept answers source "Trash" m →
        (deleteEmail store m.uid source answers).store.Keeps source "Trash" m.id) ∧
      (store.Alone source m →
        (deleteEmail store m.uid source answers).store.Keeps source "Trash" m.id →
        Kept answers source "Trash" m)) := by
  refine ⟨move_keeps hm target answers, fun htrash => ?_⟩
  rw [deleteEmail_eq_move store m.uid source answers htrash]
  exact move_keeps hm "Trash" answers

end

/-- One unread mail in the inbox, nothing elsewhere. -/
def inbox : Mailstore := fun folder =>
  if folder = "INBOX" then
    { messages := [⟨7, 1, false⟩], uidnext := 2, nodup := by decide, fresh := by decide }
  else { messages := [], uidnext := 1, nodup := by decide, fresh := by decide }

theorem inbox_alone : inbox.Alone "INBOX" ⟨7, 1, false⟩ := by
  intro folder m' hm' _
  unfold inbox at hm'
  split at hm'
  · next hfolder => exact ⟨hfolder, List.mem_singleton.mp hm'⟩
  · cases hm'

theorem move_or_delete_keeps_mail_inbox :
    (moveEmailToFolder inbox 1 "INBOX" "Archive" ⟨.ok, .ok, .ok, .ok⟩).store.Keeps "INBOX"
      "Archive" 7 ∧
    (deleteEmail inbox 1 "INBOX" ⟨.ok, .ok, .ok, .ok⟩).store.Keeps "INBOX" "Trash" 7 ∧
    Kept ⟨.ok, .ok, .ok, .ok⟩ "INBOX" "Trash" ⟨7, 1, false⟩ := by
  have hmem : (⟨7, 1, false⟩ : Message) ∈ (inbox "INBOX").messages := by simp [inbox]
  have hkept : ∀ target, Kept ⟨.ok, .ok, .ok, .ok⟩ "INBOX" target ⟨7, 1, false⟩ := fun target => by
    simp [Kept]
  obtain ⟨⟨hmove, -⟩, hdelete⟩ := move_or_delete_keeps_mail hmem "Archive" ⟨.ok, .ok, .ok, .ok⟩
  obtain ⟨hkeeps, hexact⟩ := hdelete (by decide +kernel)
  exact ⟨hmove (hkept "Archive"), hkeeps (hkept "Trash"),
    hexact inbox_alone (hkeeps (hkept "Trash"))⟩

/-- The COPY is refused and the rest goes on. -/
theorem refused_copy_loses_mail :
    ¬ (moveEmailToFolder inbox 1 "INBOX" "Archive" ⟨.ok, .no, .ok, .ok⟩).store.Keeps "INBOX"
      "Archive" 7 ∧
    ¬ (deleteEmail inbox 1 "INBOX" ⟨.ok, .no, .ok, .ok⟩).store.Keeps "INBOX" "Trash" 7 := by
  unfold Mailstore.Keeps Mailstore.Holds
  decide +kernel

end MailCue.Backend.Emails.Imap
