import MailCue.Backend.Emails.ImapMove
import MailCue.Lib.Imap
import MailCue.Lib.Transition

/-!
# UIDs and folders of clients in IMAP commands

backend/app/emails/service.py `get_email`, `get_email_raw`, `set_email_flags`,
`move_email_to_folder`, `delete_email` and `bulk_delete_emails`: the commands they
write, with the strings a client gives put in as they are, and what those do to the
store. The folder is checked for line breaks; the UID is not checked.
-/
namespace MailCue.Backend.Emails.ImapCommands
open MailCue.Lib MailCue.Lib.Imap
open MailCue.Backend.Emails.Imap (Answer)

/-! ## Commands -/

inductive FlagChange
  | addSeen | removeSeen | addDeleted
  deriving DecidableEq, Repr

def FlagChange.text : FlagChange → String
  | addSeen => "+FLAGS (\\Seen)"
  | removeSeen => "-FLAGS (\\Seen)"
  | addDeleted => "+FLAGS (\\Deleted)"

def FlagChange.apply : FlagChange → Mail → Mail
  | addSeen, m => { m with seen := true }
  | removeSeen, m => { m with seen := false }
  | addDeleted, m => { m with deleted := true }

inductive Command
  | select (folder : Text)
  | create (folder : Text)
  | fetch (uid : Text) (items : String)
  | store (uid : Text) (flags : FlagChange)
  | copy (uid target : Text)
  | expunge
  deriving DecidableEq

namespace Command

/-- The arguments stand in the line as they were given. -/
def line : Command → Text
  | select folder => "SELECT ".toList ++ folder
  | create folder => "CREATE ".toList ++ folder
  | fetch uid items => "UID FETCH ".toList ++ uid ++ ' ' :: items.toList
  | store uid flags => "UID STORE ".toList ++ uid ++ ' ' :: flags.text.toList
  | copy uid target => "UID COPY ".toList ++ uid ++ ' ' :: target
  | expunge => "EXPUNGE".toList

def uidArgument : Command → Option Text
  | fetch uid _ => some uid
  | store uid _ => some uid
  | copy uid _ => some uid
  | _ => none

/-- The library writes it with a mailbox selected only. -/
def needsSelected : Command → Bool
  | select _ => false
  | create _ => false
  | _ => true

/-- Fetching the message marks it seen. -/
def effect : Command → Store → Text → Store
  | fetch uid _, st, folder => st.change folder uid fun m => { m with seen := true }
  | store uid flags, st, folder => st.change folder uid flags.apply
  | copy uid target, st, folder => st.copy folder uid target
  | expunge, st, folder => st.expunge folder
  | _, st, _ => st

end Command

/-! ## Sessions -/

structure Session where
  store : Store
  selected : Option Text
  /-- An exception is on its way out of the operation. -/
  raised : Bool
  written : List Command

namespace Session

def connect (store : Store) : Session := ⟨store, none, false, []⟩

/-- A command with its answer, whose exceptions the code may suppress. -/
def exec (answers : Command → Answer) (s : Session) (step : Command × Bool) : Session :=
  let (cmd, suppressed) := step
  if s.raised then s
  else if cmd.needsSelected && s.selected.isNone then { s with raised := !suppressed }
  else
    { store := match s.selected with
        | some folder => if (answers cmd).performed then cmd.effect s.store folder else s.store
        | none => s.store
      selected := match cmd with
        | .select folder => if (answers cmd).performed then some folder else none
        | _ => s.selected
      raised := (answers cmd).raises && !suppressed
      written := s.written ++ [cmd] }

end Session

/-- How the server answers, and what `get_email` makes of the data of its FETCH. -/
structure Replies where
  answers : Command → Answer
  found : Bool
  already_read : Bool

/-! ## The operations -/

inductive Operation
  | getEmail | getEmailRaw
  | setEmailFlags (seen : Bool)
  | moveEmailToFolder (target_folder : Text)
  | deleteEmail

def validateFolder (folder : Text) : Bool := Imap.validateFolder (String.ofList folder)

def trash : Text := "Trash".toList

def moveCommands (uid target_folder : Text) : List (Command × Bool) :=
  [(.create target_folder, true), (.copy uid target_folder, false), (.store uid .addDeleted, false),
    (.expunge, false)]

/-- In the trash a mail is removed, elsewhere it is moved there. -/
def deleteCommands (uid folder : Text) : List (Command × Bool) :=
  if Text.asciiLower folder = "trash".toList then
    [(.store uid .addDeleted, false), (.expunge, false)]
  else moveCommands uid trash

namespace Operation

def validFolders (op : Operation) (folder : Text) : Bool :=
  validateFolder folder &&
    match op with
    | moveEmailToFolder target_folder => validateFolder target_folder
    | _ => true

/-- The commands on the selected folder, with whether an exception of each is
suppressed. -/
def commands (op : Operation) (uid folder : Text) (r : Replies) : List (Command × Bool) :=
  match op with
  | getEmail => (.fetch uid "(RFC822 FLAGS)", false) ::
      if r.found && !r.already_read then [(.store uid .addSeen, true)] else []
  | getEmailRaw => [(.fetch uid "(RFC822)", false)]
  | setEmailFlags seen => [(.store uid (if seen then .addSeen else .removeSeen), false)]
  | moveEmailToFolder target_folder => moveCommands uid target_folder
  | deleteEmail => deleteCommands uid folder

def run (op : Operation) (store : Store) (uid folder : Text) (r : Replies) : Session :=
  if op.validFolders folder then
    ((.select folder, false) :: op.commands uid folder r).foldl (Session.exec r.answers)
      (.connect store)
  else ⟨store, none, true, []⟩

/-- What the operation may leave otherwise than it was: of the message, what is seen of
it, or where it is. -/
def Spares (op : Operation) (store store' : Store) (folder : Text) (n : Nat) : Prop :=
  match op with
  | moveEmailToFolder _ => Imap.Confined store store' folder n
  | deleteEmail => Imap.Confined store store' folder n
  | _ => store'.unseen folder n = store.unseen folder n

/-- Whatever the server answers, each command is one line with one message number, and
the store stays as it was but for the message with it. -/
def Confined (op : Operation) (store : Store) (uid folder : Text) : Prop :=
  ∀ r : Replies,
    (∀ cmd ∈ (op.run store uid folder r).written, SingleLine cmd.line ∧
      ∀ u ∈ cmd.uidArgument, (messageNumber u).isSome = true) ∧
    ∀ n, messageNumber uid = some n → op.Spares store (op.run store uid folder r).store folder n

/-- The operations that expunge. -/
def expunges : Operation → Bool
  | moveEmailToFolder _ => true
  | deleteEmail => true
  | _ => false

def PlainFolders (op : Operation) (folder : Text) : Prop :=
  ¬ AnnouncesLiteral folder ∧
    match op with
    | moveEmailToFolder target_folder => ¬ AnnouncesLiteral target_folder
    | _ => True

/-- No command is sent; or the UID is one number, no folder ends in a literal, and no
other message that an EXPUNGE would take is marked deleted. -/
def Proper (op : Operation) (store : Store) (uid folder : Text) : Prop :=
  op.validFolders folder = false ∨
    (op.PlainFolders folder ∧ (messageNumber uid).isSome = true ∧
      (op.expunges = true → ∀ m ∈ (store folder).mails, m.deleted = true →
        messageNumber uid = some m.uid))

end Operation

/-- `bulk_delete_emails`: one deletion after another, whatever became of the last. -/
def bulkDeleteEmails (store : Store) (folder : Text) : Machine Store (Text × Replies) where
  start := store
  step st call := (Operation.deleteEmail.run st call.1 folder call.2).store

/-! ## Sessions step by step -/

section
variable {answers : Command → Answer} {s : Session} {steps : List (Command × Bool)} {folder : Text}

theorem exec_written (answers : Command → Answer) (s : Session) (step : Command × Bool) :
    (s.exec answers step).written = s.written ∨
      (s.exec answers step).written = s.written ++ [step.1] := by
  unfold Session.exec
  dsimp only
  split
  · exact .inl rfl
  · split
    · exact .inl rfl
    · exact .inr rfl

/-- Only the operation's commands are written. -/
theorem of_written {cmd : Command}
    (h : cmd ∈ (steps.foldl (Session.exec answers) s).written) :
    cmd ∈ s.written ∨ cmd ∈ steps.map (·.1) := by
  induction steps generalizing s with
  | nil => exact .inl h
  | cons step steps ih =>
    rcases ih h with hbefore | hlater
    · rcases exec_written answers s step with heq | heq
      · exact .inl (heq ▸ hbefore)
      · rw [heq] at hbefore
        rcases List.mem_append.mp hbefore with hbefore | hnow
        · exact .inl hbefore
        · exact .inr (List.mem_cons.mpr (.inl (List.mem_singleton.mp hnow)))
    · exact .inr (List.mem_cons_of_mem _ hlater)

/-- What every command keeps, on the one folder that is selected, the session keeps. -/
theorem store_kept (folder : Text) {P : Store → Prop} (hsteps : ∀ step ∈ steps,
      (∀ st, P st → P (step.1.effect st folder)) ∧ ∀ f, step.1 = .select f → f = folder)
    (hselected : ∀ f ∈ s.selected, f = folder) (h : P s.store) :
    P (steps.foldl (Session.exec answers) s).store := by
  induction steps generalizing s with
  | nil => exact h
  | cons step steps ih =>
    obtain ⟨heffect, hselect⟩ := hsteps step List.mem_cons_self
    refine ih (fun x hx => hsteps x (List.mem_cons_of_mem _ hx)) ?_ ?_
    · intro f hf
      unfold Session.exec at hf
      dsimp only at hf
      split at hf
      · exact hselected f hf
      · split at hf
        · exact hselected f hf
        · dsimp only at hf
          split at hf
          · rename_i g hg
            split at hf
            · cases hf
              exact hselect _ hg
            · cases hf
          · exact hselected f hf
    · unfold Session.exec
      dsimp only
      split
      · exact h
      · split
        · exact h
        · dsimp only
          split
          · rename_i f hf
            obtain rfl := hselected f hf
            split
            · exact heffect _ h
            · exact h
          · exact h

/-- Every command is answered OK. -/
theorem exec_ok {cmd : Command} {suppressed : Bool} {store : Store} {written : List Command}
    (hcmd : ∀ f, cmd ≠ .select f) :
    Session.exec (fun _ => .ok) ⟨store, some folder, false, written⟩ (cmd, suppressed) =
      ⟨cmd.effect store folder, some folder, false, written ++ [cmd]⟩ := by
  cases cmd with
  | select f => exact absurd rfl (hcmd f)
  | _ => rfl

theorem foldl_ok {store : Store} {written : List Command}
    (hsteps : ∀ step ∈ steps, ∀ f, step.1 ≠ .select f) :
    steps.foldl (Session.exec fun _ => .ok) ⟨store, some folder, false, written⟩ =
      ⟨steps.foldl (fun st step => step.1.effect st folder) store, some folder, false,
        written ++ steps.map (·.1)⟩ := by
  induction steps generalizing store written with
  | nil => simp
  | cons step steps ih =>
    rw [List.foldl_cons, exec_ok (hsteps step List.mem_cons_self),
      ih fun x hx => hsteps x (List.mem_cons_of_mem _ hx)]
    simp

end

/-! ## Lines -/

section
variable {folder uid target : Text} {n : Nat}

theorem no_break_of_valid (h : validateFolder folder = true) : '\r' ∉ folder ∧ '\n' ∉ folder := by
  simp only [validateFolder, Imap.validateFolder, String.toList_ofList, Bool.and_eq_true,
    Bool.not_eq_true', List.any_eq_false] at h
  constructor
  · intro hmem
    exact absurd (h.2 _ hmem) (by decide)
  · intro hmem
    exact absurd (h.2 _ hmem) (by decide)

theorem singleLine_folder (h : validateFolder folder = true) :
    SingleLine folder ↔ ¬ AnnouncesLiteral folder := by
  simp [SingleLine, no_break_of_valid h]

theorem select_line (h : validateFolder folder = true) :
    SingleLine (Command.select folder).line ↔ ¬ AnnouncesLiteral folder := by
  rw [← singleLine_folder h]
  exact singleLine_append (by decide) (by decide) (by decide)

theorem create_line (h : validateFolder folder = true) :
    SingleLine (Command.create folder).line ↔ ¬ AnnouncesLiteral folder := by
  rw [← singleLine_folder h]
  exact singleLine_append (by decide) (by decide) (by decide)

/-- Behind a number, an argument is a line of its own. -/
theorem uid_line (hn : messageNumber uid = some n) {verb : Text} (hcr : '\r' ∉ verb)
    (hlf : '\n' ∉ verb) (hbrace : '{' ∉ verb) (text : Text) :
    SingleLine (verb ++ uid ++ ' ' :: text) ↔ SingleLine text := by
  have hother : ∀ c ∈ ['\r', '\n', '{'], isDigit c = false ∧ c ≠ ' ' := by
    intro c hc
    simp only [List.mem_cons, List.not_mem_nil, or_false] at hc
    rcases hc with rfl | rfl | rfl <;> decide
  have hfront : ∀ c ∈ ['\r', '\n', '{'], c ∉ verb → c ∉ verb ++ uid ++ [' '] := by
    intro c hc hverb
    obtain ⟨hdigit, hspace⟩ := hother c hc
    simp [hverb, not_mem_of_messageNumber hn hdigit, hspace]
  have hline : verb ++ uid ++ ' ' :: text = (verb ++ uid ++ [' ']) ++ text := by simp
  rw [hline]
  exact singleLine_append (hfront _ (by simp) hcr) (hfront _ (by simp) hlf)
    (hfront _ (by simp) hbrace)

theorem copy_line (hn : messageNumber uid = some n) (h : validateFolder target = true) :
    SingleLine (Command.copy uid target).line ↔ ¬ AnnouncesLiteral target := by
  rw [← singleLine_folder h]
  exact uid_line hn (by decide) (by decide) (by decide) target

theorem fetch_line (hn : messageNumber uid = some n) {items : String}
    (hitems : SingleLine items.toList) : SingleLine (Command.fetch uid items).line :=
  (uid_line hn (by decide) (by decide) (by decide) _).mpr hitems

theorem store_line (hn : messageNumber uid = some n) (flags : FlagChange) :
    SingleLine (Command.store uid flags).line := by
  refine (uid_line hn (by decide) (by decide) (by decide) _).mpr ?_
  cases flags with
  | addSeen => exact singleLine_of_getLast (by decide) (by decide) (by decide)
  | removeSeen => exact singleLine_of_getLast (by decide) (by decide) (by decide)
  | addDeleted => exact singleLine_of_getLast (by decide) (by decide) (by decide)

end

/-! ## The operations -/

section
variable {op : Operation} {store : Store} {uid folder : Text} {n : Nat}

theorem singleLine_items :
    SingleLine "(RFC822 FLAGS)".toList ∧ SingleLine "(RFC822)".toList := by
  constructor
  · exact singleLine_of_getLast (by decide) (by decide) (by decide)
  · exact singleLine_of_getLast (by decide) (by decide) (by decide)

theorem trash_valid : validateFolder trash = true ∧ ¬ AnnouncesLiteral trash := by
  refine ⟨by decide, fun h => ?_⟩
  have hlast := announcesLiteral_getLast h
  exact absurd hlast (by decide)

/-- One line with one number, as an argument of a UID command. -/
def Good (cmd : Command) : Prop :=
  SingleLine cmd.line ∧ ∀ u ∈ cmd.uidArgument, (messageNumber u).isSome = true

theorem moveCommands_good {target : Text} (hn : messageNumber uid = some n)
    (hvalid : validateFolder target = true) (hplain : ¬ AnnouncesLiteral target) :
    ∀ step ∈ moveCommands uid target, Good step.1 := by
  have hsome : (messageNumber uid).isSome = true := by rw [hn]; rfl
  simp only [moveCommands, List.forall_mem_cons, List.not_mem_nil, false_implies, implies_true,
    and_true]
  refine ⟨⟨(create_line hvalid).mpr hplain, by simp [Command.uidArgument]⟩,
    ⟨(copy_line hn hvalid).mpr hplain, by simpa [Command.uidArgument] using hsome⟩,
    ⟨store_line hn _, by simpa [Command.uidArgument] using hsome⟩,
    ⟨singleLine_of_getLast (by decide) (by decide) (by decide), by simp [Command.uidArgument]⟩⟩

theorem commands_good (hn : messageNumber uid = some n) (hvalid : op.validFolders folder = true)
    (hplain : op.PlainFolders folder) (r : Replies) :
    ∀ step ∈ op.commands uid folder r, Good step.1 := by
  have hsome : (messageNumber uid).isSome = true := by rw [hn]; rfl
  have hfetch : ∀ items : String, SingleLine items.toList → Good (.fetch uid items) :=
    fun items hitems => ⟨fetch_line hn hitems, by simpa [Command.uidArgument] using hsome⟩
  have hstore : ∀ flags, Good (.store uid flags) := fun flags =>
    ⟨store_line hn flags, by simpa [Command.uidArgument] using hsome⟩
  have hexpunge : Good .expunge :=
    ⟨singleLine_of_getLast (by decide) (by decide) (by decide), by simp [Command.uidArgument]⟩
  cases op with
  | getEmail =>
    refine List.forall_mem_cons.mpr ⟨hfetch _ singleLine_items.1, ?_⟩
    split
    · exact List.forall_mem_singleton.mpr (hstore _)
    · exact fun _ hstep => absurd hstep List.not_mem_nil
  | getEmailRaw => exact List.forall_mem_singleton.mpr (hfetch _ singleLine_items.2)
  | setEmailFlags seen => exact List.forall_mem_singleton.mpr (hstore _)
  | moveEmailToFolder target =>
    have htarget := (Bool.and_eq_true _ _).mp hvalid
    exact moveCommands_good hn htarget.2 hplain.2
  | deleteEmail =>
    change ∀ step ∈ deleteCommands uid folder, Good step.1
    unfold deleteCommands
    split
    · exact List.forall_mem_cons.mpr ⟨hstore _, List.forall_mem_singleton.mpr hexpunge⟩
    · exact moveCommands_good hn trash_valid.1 trash_valid.2

theorem commands_not_select (r : Replies) :
    ∀ step ∈ op.commands uid folder r, ∀ f, step.1 ≠ .select f := by
  intro step hstep f
  cases op with
  | getEmail =>
    rcases List.mem_cons.mp hstep with rfl | hstep
    · nofun
    · split at hstep
      · rw [List.mem_singleton.mp hstep]
        nofun
      · cases hstep
  | getEmailRaw =>
    rw [List.mem_singleton.mp hstep]
    nofun
  | setEmailFlags seen =>
    rw [List.mem_singleton.mp hstep]
    nofun
  | moveEmailToFolder target =>
    simp only [Operation.commands, moveCommands, List.mem_cons, List.not_mem_nil, or_false] at hstep
    rcases hstep with rfl | rfl | rfl | rfl <;> nofun
  | deleteEmail =>
    simp only [Operation.commands, deleteCommands, moveCommands] at hstep
    split at hstep
    · simp only [List.mem_cons, List.not_mem_nil, or_false] at hstep
      rcases hstep with rfl | rfl <;> nofun
    · simp only [List.mem_cons, List.not_mem_nil, or_false] at hstep
      rcases hstep with rfl | rfl | rfl | rfl <;> nofun

/-- What each command of a move leaves of the others. -/
theorem moveCommands_confined {target : Text} (hn : messageNumber uid = some n)
    (hquiet : ∀ m ∈ (store folder).mails, m.deleted = true → m.uid = n) :
    ∀ step ∈ moveCommands uid target, ∀ st, Imap.Confined store st folder n →
      Imap.Confined store (step.1.effect st folder) folder n := by
  simp only [moveCommands, List.forall_mem_cons, List.not_mem_nil, false_implies, implies_true,
    and_true]
  exact ⟨fun st h => h, fun st h => h.copy hn target, fun st h => h.change hn fun m => rfl,
    fun st h => h.expunge hquiet⟩

theorem seen_unseen (hn : messageNumber uid = some n) (b : Bool) {st : Store}
    (h : st.unseen folder n = store.unseen folder n) :
    (st.change folder uid fun m => { m with seen := b }).unseen folder n =
      store.unseen folder n :=
  (unseen_change hn b).trans h

theorem commands_spare (hn : messageNumber uid = some n)
    (hquiet : op.expunges = true → ∀ m ∈ (store folder).mails, m.deleted = true → m.uid = n)
    (r : Replies) :
    ∀ step ∈ op.commands uid folder r, ∀ st, op.Spares store st folder n →
      op.Spares store (step.1.effect st folder) folder n := by
  cases op with
  | getEmail =>
    refine List.forall_mem_cons.mpr ⟨fun st h => seen_unseen hn true h, ?_⟩
    split
    · exact List.forall_mem_singleton.mpr fun st h => seen_unseen hn true h
    · exact fun _ hstep => absurd hstep List.not_mem_nil
  | getEmailRaw => exact List.forall_mem_singleton.mpr fun st h => seen_unseen hn true h
  | setEmailFlags seen =>
    refine List.forall_mem_singleton.mpr fun st h => ?_
    cases seen with
    | true => exact seen_unseen hn true h
    | false => exact seen_unseen hn false h
  | moveEmailToFolder target => exact moveCommands_confined hn (hquiet rfl)
  | deleteEmail =>
    change ∀ step ∈ deleteCommands uid folder, ∀ st, Imap.Confined store st folder n →
      Imap.Confined store (step.1.effect st folder) folder n
    unfold deleteCommands
    split
    · refine List.forall_mem_cons.mpr ⟨fun st h => h.change hn fun m => rfl, ?_⟩
      exact List.forall_mem_singleton.mpr fun st h => h.expunge (hquiet rfl)
    · exact moveCommands_confined hn (hquiet rfl)

theorem spares_refl (op : Operation) (store : Store) (folder : Text) (n : Nat) :
    op.Spares store store folder n := by
  cases op with
  | moveEmailToFolder target => exact Confined.refl store folder n
  | deleteEmail => exact Confined.refl store folder n
  | _ => rfl

/-- Where every command is answered OK, all are written. -/
theorem run_ok (hvalid : op.validFolders folder = true) :
    op.run store uid folder ⟨fun _ => .ok, true, false⟩ =
      ⟨(op.commands uid folder ⟨fun _ => .ok, true, false⟩).foldl
          (fun st step => step.1.effect st folder) store,
        some folder, false,
        .select folder :: (op.commands uid folder ⟨fun _ => .ok, true, false⟩).map (·.1)⟩ := by
  have hselect : Session.exec (fun _ => .ok) (.connect store) (.select folder, false) =
      ⟨store, some folder, false, [.select folder]⟩ := rfl
  rw [Operation.run, if_pos hvalid, List.foldl_cons]
  dsimp only
  rw [hselect, foldl_ok (commands_not_select _)]
  rfl

theorem exists_uid_command (op : Operation) (uid folder : Text) (r : Replies) :
    ∃ step ∈ op.commands uid folder r, step.1.uidArgument = some uid := by
  cases op with
  | getEmail => exact ⟨_, List.mem_cons_self, rfl⟩
  | getEmailRaw => exact ⟨_, List.mem_cons_self, rfl⟩
  | setEmailFlags seen => exact ⟨_, List.mem_cons_self, rfl⟩
  | moveEmailToFolder target => exact ⟨(.copy uid target, false), by simp [Operation.commands, moveCommands], rfl⟩
  | deleteEmail =>
    refine ⟨(.store uid .addDeleted, false), ?_, rfl⟩
    change _ ∈ deleteCommands uid folder
    unfold deleteCommands
    split
    · simp
    · simp [moveCommands]

/-- An EXPUNGE comes last. -/
theorem commands_expunge (h : op.expunges = true) (uid folder : Text) (r : Replies) :
    ∃ front, op.commands uid folder r = front ++ [(.expunge, false)] := by
  cases op with
  | moveEmailToFolder target => exact ⟨(moveCommands uid target).dropLast, rfl⟩
  | deleteEmail =>
    change ∃ front, deleteCommands uid folder = front ++ [(.expunge, false)]
    unfold deleteCommands
    split
    · exact ⟨[(.store uid .addDeleted, false)], rfl⟩
    · exact ⟨(moveCommands uid trash).dropLast, rfl⟩
  | getEmail => cases h
  | getEmailRaw => cases h
  | setEmailFlags seen => cases h

theorem proper_of_confined (h : op.Confined store uid folder) : op.Proper store uid folder := by
  cases hvalid : op.validFolders folder with
  | false => exact .inl hvalid
  | true =>
    right
    obtain ⟨hlines, hspares⟩ := h ⟨fun _ => .ok, true, false⟩
    rw [run_ok hvalid] at hlines hspares
    have hfolder := (Bool.and_eq_true _ _).mp hvalid
    obtain ⟨step, hstep, hargument⟩ := exists_uid_command op uid folder ⟨fun _ => .ok, true, false⟩
    have hsome := (hlines step.1 (List.mem_cons_of_mem _ (List.mem_map_of_mem hstep))).2 uid hargument
    obtain ⟨n, hn⟩ := Option.isSome_iff_exists.mp hsome
    refine ⟨⟨(select_line hfolder.1).mp (hlines _ List.mem_cons_self).1, ?_⟩, hsome, ?_⟩
    · cases op with
      | moveEmailToFolder target =>
        have hcopy := hlines (.copy uid target) (by simp [Operation.commands, moveCommands])
        exact (copy_line hn hfolder.2).mp hcopy.1
      | _ => trivial
    · intro hexpunges m hm hdeleted
      obtain ⟨front, hfront⟩ := commands_expunge hexpunges uid folder ⟨fun _ => .ok, true, false⟩
      have hkept := hspares n hn
      rw [hfront, List.foldl_append] at hkept
      by_contra hother
      have hconfined : Imap.Confined store ((front.foldl
          (fun st step => step.1.effect st folder) store).expunge folder) folder n := by
        cases op with
        | moveEmailToFolder target => exact hkept
        | deleteEmail => exact hkept
        | getEmail => cases hexpunges
        | getEmailRaw => cases hexpunges
        | setEmailFlags seen => cases hexpunges
      have hmem := hconfined.kept folder m hm fun huid => hother (hn.trans (congrArg some huid.2.symm))
      simp [Store.expunge, Folder.expunge, hdeleted] at hmem

theorem confined_of_proper (h : op.Proper store uid folder) : op.Confined store uid folder := by
  intro r
  unfold Operation.run
  rcases h with hinvalid | ⟨hplain, hsome, hquiet⟩
  · rw [if_neg (by simp [hinvalid])]
    exact ⟨fun cmd hcmd => absurd hcmd List.not_mem_nil, fun n _ => spares_refl op store folder n⟩
  · split
    · rename_i hvalid
      obtain ⟨n, hn⟩ := Option.isSome_iff_exists.mp hsome
      have hfolder := (Bool.and_eq_true _ _).mp hvalid
      constructor
      · intro cmd hcmd
        rcases of_written hcmd with hnone | hmem
        · cases hnone
        · rcases List.mem_cons.mp hmem with rfl | hmem
          · exact ⟨(select_line hfolder.1).mpr hplain.1, by simp [Command.uidArgument]⟩
          · obtain ⟨step, hstep, rfl⟩ := List.mem_map.mp hmem
            exact commands_good hn hvalid hplain r step hstep
      · intro n' hn'
        obtain rfl : n = n' := Option.some.inj (hn.symm.trans hn')
        have hquiet' : op.expunges = true → ∀ m ∈ (store folder).mails, m.deleted = true →
            m.uid = n := fun hexpunges m hm hdeleted =>
          (Option.some.inj (hn.symm.trans (hquiet hexpunges m hm hdeleted))).symm
        refine store_kept folder (P := fun st => op.Spares store st folder n) ?_ nofun
          (spares_refl op store folder n)
        intro step hstep
        rcases List.mem_cons.mp hstep with rfl | hstep
        · exact ⟨fun st h => h, fun f hf => (Command.select.inj hf).symm⟩
        · exact ⟨commands_spare hn hquiet' r step hstep,
            fun f hf => absurd hf (commands_not_select r step hstep f)⟩
    · exact ⟨fun cmd hcmd => absurd hcmd List.not_mem_nil, fun n _ => spares_refl op store folder n⟩

/-- An operation keeps to one line and one message for each command exactly where its
UID is one number and its folders are plain, and the EXPUNGE finds no other message
marked; and so does each deletion of a bulk. -/
theorem commands_confined_iff (op : Operation) (store : Store) (uid folder : Text)
    (calls : List (Text × Replies)) :
    (op.Confined store uid folder ↔ op.Proper store uid folder) ∧
    ((bulkDeleteEmails store folder).EveryStep
        (fun _ st call => Operation.deleteEmail.Confined st call.1 folder) calls ↔
      (bulkDeleteEmails store folder).EveryStep
        (fun _ st call => Operation.deleteEmail.Proper st call.1 folder) calls) := by
  refine ⟨⟨proper_of_confined, confined_of_proper⟩, ?_, ?_⟩
  · exact fun h pre call hpre => proper_of_confined (h pre call hpre)
  · exact fun h pre call hpre => confined_of_proper (h pre call hpre)

end

/-- Two mails in the inbox. -/
def twoMails : Store := fun folder =>
  if folder = "INBOX".toList then ⟨[⟨7, 1, false, false⟩, ⟨8, 2, false, false⟩], 3⟩ else ⟨[], 1⟩

def allOk : Replies := ⟨fun _ => .ok, true, false⟩

/-- Deleting the mails `1:*` empties the inbox, and opening the mail with a second line
in its UID sends that line. -/
theorem range_deletes_all :
    ((Operation.deleteEmail.run twoMails "1:*".toList "INBOX".toList allOk).store
        "INBOX".toList).mails = [] ∧
      ¬ Operation.deleteEmail.Confined twoMails "1:*".toList "INBOX".toList ∧
      ¬ Operation.getEmail.Confined twoMails "1 (FLAGS)\r\nA EXPUNGE\r\nB UID FETCH 1".toList
        "INBOX".toList := by
  refine ⟨by decide +kernel, fun h => ?_, fun h => ?_⟩
  · have hnumber := ((h allOk).1 (.copy "1:*".toList trash) (by decide +kernel)).2 _ rfl
    exact absurd hnumber (by decide)
  · have hline := ((h allOk).1 (.fetch "1 (FLAGS)\r\nA EXPUNGE\r\nB UID FETCH 1".toList
      "(RFC822 FLAGS)") (by decide +kernel)).1
    exact absurd hline.1 (by decide)

end MailCue.Backend.Emails.ImapCommands
