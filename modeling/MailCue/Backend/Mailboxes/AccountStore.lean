import MailCue.Backend.Mailboxes.Access

/-!
# The account store

The table of mailboxes and the users file under it, over all interleavings of
creations, deletions, requests and discoveries. A creation has committed its row
before it writes its line, and a deletion its own before it removes the line; a
request may write a line too. Every line is of an active mailbox with a password its
owner set where the requests find their lines, writes are undisturbed and find the
row they are for, and nothing fails behind a line.
-/
namespace MailCue.Backend.Mailboxes
open MailCue.Lib MailCue.Lib.Percent

/-! ## Tasks -/

/-- What is to be written to the users file: for a creation by a user, whose line has
no place where its path is refused, for a deletion, and for a request. -/
inductive Task
  | provision (claimed : Claimed) (user_id : String) (line : Option Text)
  | remove (address : Text)
  | heal (op : UsersOp)
  deriving DecidableEq

def Task.op : Task → UsersOp
  | .provision claimed _ line => .upsert claimed.address (line.getD [])
  | .remove address => .remove address
  | .heal op => op

/-- It gets as far as the users file. -/
def Task.placed : Task → Bool
  | .provision _ _ line => line.isSome
  | _ => true

abbrev Task.address (task : Task) : Text := task.op.address

/-- A password set through a creation: by whom, for which address, in which line. -/
abbrev Setting := String × Text × Text

structure Accounts where
  table : Table
  file : Cell Text Task
  /-- Behind the commit and before the users file. -/
  waiting : List Task
  /-- The passwords set so far, in order. -/
  settings : List Setting

inductive Act
  | create (user_id : String) (body : MailboxCreateRequest)
  | delete (address : Text)
  | sync (maildirs : List (Text × Text))
  /-- A request that logs in; the Maildirs it may find. -/
  | call (ep : Endpoint) (auth : Auth) (maildirs : List (Text × Text)) (text : Text)
  | begin (task : Task)
  | finish (task : Task) (read : Text)
  /-- An error ends a task before it reads the users file, or before it writes. -/
  | fail (task : Task)
  | abandon (task : Task) (read : Text)

/-- The name a request logs in with, where it does. -/
def logsIn (ep : Endpoint) : Except MailCueError (Text × Text) → Option Text
  | .error _ => none
  | .ok (_, used) => if ep = .sendNewEmail then none else some used

section
variable (s : Server) (d : Decoder) (st : Storage)

/-- The line of `_provision_system_mailbox`. -/
def provisionedLine (body : MailboxCreateRequest) : Option Text :=
  (safeMaildirPath st.root (body.domainOf s) (body.localPart s)).map fun maildir =>
    userLine (body.address s) (st.hash body.password) (pathText maildir)

def rewrite (task : Task) : Text → Text := task.op.rewrite st.casefold

def locks (task : Task) : Bool := task.op.locks

/-- A row its creation could not provision goes back. -/
def failed (t : Table) : Task → Table
  | .provision claimed _ _ => rollBack t claimed
  | _ => t

def Accounts.step (c : Accounts) : Act → Option Accounts
  | .create user_id body =>
    match claimMailbox s c.table body (some user_id) with
    | .error _ => none
    | .ok (claimed, table) =>
      let line := provisionedLine s st body
      some { c with
        table
        waiting := .provision claimed user_id line :: c.waiting
        settings := c.settings ++ line.toList.map fun line => (user_id, claimed.address, line) }
  | .delete address =>
    match c.table.lookup address with
    | none => none
    | some _ =>
      some { c with
        table := deactivate c.table address
        waiting := .remove address :: c.waiting }
  | .sync maildirs => some { c with table := syncFilesystemMailboxes s c.table maildirs }
  | .call ep auth maildirs text =>
    let served := serve s d ep auth c.table maildirs text
    let heals := (logsIn ep served.1).bind (ensureDovecotUser st (some c.file.value))
    some { c with table := served.2, waiting := heals.toList.map .heal ++ c.waiting }
  | .begin task =>
    if task ∈ c.waiting ∧ task.placed = true then
      (c.file.step locks (rewrite st) (.begin task)).map fun file =>
        { c with file, waiting := c.waiting.erase task }
    else none
  | .finish task read =>
    (c.file.step locks (rewrite st) (.finish task read)).map fun file => { c with file }
  | .fail task =>
    if task ∈ c.waiting then
      some { c with table := failed c.table task, waiting := c.waiting.erase task }
    else none

  | .abandon task read =>
    (c.file.step locks (rewrite st) (.abandon task read)).map fun file =>
      { c with file, table := failed c.table task }

/-! ## Consistency -/

/-- The tasks that have not written yet. -/
def Accounts.active (c : Accounts) : List Task := c.waiting ++ c.file.working.map (·.1)

def UnderWay (c : Accounts) (identity : Text) : Prop :=
  ∃ task ∈ c.active, st.casefold task.address = identity

/-- A line of an active row, with a password that its owner set through a creation. -/
def Owned (t : Table) (settings : List Setting) (line : Text) : Prop :=
  ∃ address row owner, st.casefold address = st.casefold (lineName line) ∧
    t.lookup address = some row ∧ row.is_active = true ∧ row.user_id = some owner ∧
    (owner, address, line) ∈ settings

/-- Every line is owned, but for identities something is under way for. -/
def Consistent (c : Accounts) : Prop :=
  ∀ line ∈ usersLines c.file.value,
    Owned st c.table c.settings line ∨ UnderWay st c (st.casefold (lineName line))

/-- The row a write is for: a creation's is active and of its user. -/
def ForRow (t : Table) : Task → Prop
  | .provision claimed user_id _ => (t.lookup claimed.address).any fun row =>
      row.is_active && row.user_id == some user_id
  | _ => True

/-- A request writes no line, a write finds the file as it was read and its row, and
what fails leaves no line behind. -/
def Safe (c : Accounts) : Act → Prop
  | .call ep auth maildirs text =>
      ∀ used ∈ logsIn ep (serve s d ep auth c.table maildirs text).1,
        ensureDovecotUser st (some c.file.value) used = none
  | .finish task read =>
      read = c.file.value ∧ Fits st.casefold task.op c.file.value ∧ ForRow c.table task
  | .fail task => entries st.casefold c.file.value (st.casefold task.address) = []
  | .abandon task _ => entries st.casefold c.file.value (st.casefold task.address) = []
  | _ => True

def accountStore : System Accounts Act where
  init c := c.waiting = [] ∧ c.file.working = [] ∧ Consistent st c
  step c a c' := c.step s d st a = some c'

end

/-! ## The invariant -/

section
variable {s : Server} {d : Decoder} {st : Storage} {c c' : Accounts}

/-- No request has a line to write, and a creation's line is one its user set. -/
def Prepared (settings : List Setting) : Task → Prop
  | .provision claimed user_id line =>
      ∀ l ∈ line, replacement l = l ∧ (user_id, claimed.address, l) ∈ settings
  | .remove _ => True
  | .heal _ => False

structure Orderly (st : Storage) (c : Accounts) : Prop where
  consistent : Consistent st c
  prepared : ∀ task ∈ c.active, Prepared c.settings task
  placed : ∀ job ∈ c.file.working, job.1.placed = true

theorem Prepared.mono {settings more : List Setting} {task : Task} (h : Prepared settings task) :
    Prepared (settings ++ more) task := by
  cases task with
  | provision claimed user_id line =>
    intro l hl
    obtain ⟨hreplace, hmem⟩ := h l hl
    exact ⟨hreplace, List.mem_append_left _ hmem⟩
  | remove _ => trivial
  | heal _ => exact h.elim

/-- What a row change at one address leaves owned. -/
theorem Owned.frame {t t' : Table} {settings : List Setting} {line address : Text}
    (h : Owned st t settings line) (more : List Setting)
    (hframe : ∀ a, a ≠ address → t'.lookup a = t.lookup a) :
    Owned st t' (settings ++ more) line ∨ st.casefold address = st.casefold (lineName line) := by
  obtain ⟨a, row, owner, hname, hlookup, hactive, howner, hset⟩ := h
  by_cases ha : a = address
  · exact .inr (ha ▸ hname)
  · exact .inl ⟨a, row, owner, hname, (hframe a ha).trans hlookup, hactive, howner,
      List.mem_append_left _ hset⟩

theorem UnderWay.mono {identity : Text} (h : UnderWay st c identity)
    (hactive : ∀ task ∈ c.active, task ∈ c'.active) : UnderWay st c' identity := by
  obtain ⟨task, htask, hname⟩ := h
  exact ⟨task, hactive task htask, hname⟩

/-- A row changes at one address and a task for it starts. -/
theorem orderly_start (t : Table) (task : Task) (more : List Setting) (h : Orderly st c)
    (hframe : ∀ a, a ≠ task.address → t.lookup a = c.table.lookup a)
    (hprepared : Prepared (c.settings ++ more) task) :
    Orderly st { c with
      table := t, waiting := task :: c.waiting, settings := c.settings ++ more } where
  consistent line hline := by
    rcases h.consistent line hline with howned | hway
    · rcases howned.frame more hframe with howned | hname
      · exact .inl howned
      · exact .inr ⟨task, List.mem_cons_self, hname⟩
    · exact .inr (hway.mono fun x hx => List.mem_cons_of_mem _ hx)
  prepared x hx := by
    rcases List.mem_cons.mp hx with rfl | hx
    · exact hprepared
    · exact (h.prepared x hx).mono
  placed := h.placed

/-- Rows with an owner stay as they are. -/
theorem orderly_table {t : Table} (h : Orderly st c)
    (hkept : ∀ a row owner, c.table.lookup a = some row → row.user_id = some owner →
      t.lookup a = some row) : Orderly st { c with table := t } where
  consistent line hline := by
    rcases h.consistent line hline with ⟨a, row, owner, hname, hlookup, hactive, howner, hset⟩ | hway
    · exact .inl ⟨a, row, owner, hname, hkept a row owner hlookup howner, hactive, howner, hset⟩
    · exact .inr hway
  prepared := h.prepared
  placed := h.placed

theorem discover_lookup {t : Table} {a : Text} {row : Mailbox} {owner : String}
    (dir : Text × Text) (hrow : t.lookup a = some row) (howner : row.user_id = some owner) :
    (discover s t dir).lookup a = some row := by
  unfold discover
  dsimp only
  split
  · rename_i existing hexisting
    split
    · rename_i horphan
      rw [AList.lookup_insert_ne]
      · exact hrow
      · rintro rfl
        cases hrow.symm.trans hexisting
        simp [howner] at horphan
    · exact hrow
  · rename_i hnone
    rw [AList.lookup_insert_ne]
    · exact hrow
    · rintro rfl
      cases hrow.symm.trans hnone

theorem sync_lookup {t : Table} {a : Text} {row : Mailbox} {owner : String}
    (maildirs : List (Text × Text)) (hrow : t.lookup a = some row)
    (howner : row.user_id = some owner) :
    (syncFilesystemMailboxes s t maildirs).lookup a = some row := by
  unfold syncFilesystemMailboxes
  induction maildirs generalizing t with
  | nil => exact hrow
  | cons dir rest ih => exact ih (discover_lookup dir hrow howner)

theorem verify_table (auth : Auth) (t : Table) (maildirs : List (Text × Text)) (text : Text) :
    (verifyMailboxAccess s d auth t maildirs text).2 = t ∨
      (verifyMailboxAccess s d auth t maildirs text).2 = syncFilesystemMailboxes s t maildirs := by
  have hfind : ∀ address, (findMailbox s t maildirs address).2 = t ∨
      (findMailbox s t maildirs address).2 = syncFilesystemMailboxes s t maildirs := by
    intro address
    unfold findMailbox
    split
    · exact .inl rfl
    · exact .inr rfl
  have hsame : (verifyMailboxAccess s d auth t maildirs text).2 =
      (findMailbox s t maildirs (s.lower (unquote d text))).2 := by
    unfold verifyMailboxAccess
    dsimp only
    split
    · rename_i heq
      rw [heq]
    · rename_i heq
      rw [heq]
      split
      · rfl
      · split
        · rfl
        · split <;> rfl
  rw [hsame]
  exact hfind _

theorem serve_table (ep : Endpoint) (auth : Auth) (t : Table) (maildirs : List (Text × Text))
    (text : Text) :
    (serve s d ep auth t maildirs text).2 = (verifyMailboxAccess s d auth t maildirs text).2 := by
  unfold serve
  split
  · rename_i heq
    rw [heq]
  · rename_i heq
    rw [heq]
    split
    · split <;> rfl
    · rfl

theorem serve_lookup {ep : Endpoint} {auth : Auth} {t : Table} {maildirs : List (Text × Text)}
    {text a : Text} {row : Mailbox} {owner : String} (hrow : t.lookup a = some row)
    (howner : row.user_id = some owner) :
    (serve s d ep auth t maildirs text).2.lookup a = some row := by
  rw [serve_table]
  rcases verify_table auth t maildirs text with heq | heq
  · rw [heq]
    exact hrow
  · rw [heq]
    exact sync_lookup maildirs hrow howner

/-! ## One step -/

theorem replacement_provisionedLine {body : MailboxCreateRequest} {line : Text}
    (h : provisionedLine s st body = some line) : replacement line = line := by
  obtain ⟨maildir, -, rfl⟩ := Option.map_eq_some_iff.mp h
  refine if_pos (List.isSuffixOf_iff_suffix.mpr ?_)
  exact ⟨body.address s ++ ':' :: st.hash body.password ++ ":5000:5000::".toList ++
    pathText maildir ++ "::".toList, by simp [userLine]⟩

theorem orderly_create {user_id : String} {body : MailboxCreateRequest} (h : Orderly st c)
    (hstep : c.step s d st (.create user_id body) = some c') : Orderly st c' := by
  simp only [Accounts.step] at hstep
  split at hstep
  · cases hstep
  · rename_i claimed table hclaim
    obtain ⟨-, haddress, hrow⟩ := claimMailbox_ok hclaim
    cases hstep
    refine orderly_start table (.provision claimed user_id _) _ h ?_ ?_
    · intro a ha
      have hne : a ≠ body.address s := haddress ▸ ha
      rcases hrow with ⟨_, -, -, -, rfl⟩ | ⟨-, -, rfl⟩
      · exact AList.lookup_insert_ne hne
      · exact AList.lookup_insert_ne hne
    · intro l hl
      refine ⟨replacement_provisionedLine hl, List.mem_append_right _ ?_⟩
      exact List.mem_map.mpr ⟨l, Option.mem_toList.mpr hl, rfl⟩

theorem orderly_delete {address : Text} (h : Orderly st c)
    (hstep : c.step s d st (.delete address) = some c') : Orderly st c' := by
  simp only [Accounts.step] at hstep
  split at hstep
  · cases hstep
  · cases hstep
    have hstart := orderly_start (deactivate c.table address) (.remove address) [] h
      (fun a ha => deactivate_lookup_ne ha) trivial
    simpa using hstart

theorem orderly_call {ep : Endpoint} {auth : Auth} {maildirs : List (Text × Text)} {text : Text}
    (h : Orderly st c) (hsafe : Safe s d st c (.call ep auth maildirs text))
    (hstep : c.step s d st (.call ep auth maildirs text) = some c') : Orderly st c' := by
  have hnone : (logsIn ep (serve s d ep auth c.table maildirs text).1).bind
      (ensureDovecotUser st (some c.file.value)) = none := by
    cases hname : logsIn ep (serve s d ep auth c.table maildirs text).1 with
    | none => rfl
    | some used => exact hsafe used hname
  simp only [Accounts.step, hnone, Option.toList_none, List.map_nil, List.nil_append] at hstep
  cases hstep
  exact orderly_table h fun a row owner => serve_lookup

theorem orderly_begin {task : Task} (h : Orderly st c)
    (hstep : c.step s d st (.begin task) = some c') : Orderly st c' := by
  simp only [Accounts.step] at hstep
  split at hstep
  · rename_i hready
    obtain ⟨file, hfile, rfl⟩ := Option.map_eq_some_iff.mp hstep
    obtain ⟨-, rfl⟩ := Cell.step_begin hfile
    have hactive : ∀ x ∈ c.active, x ∈ Accounts.active { c with
        file := { c.file with working := (task, c.file.value) :: c.file.working },
        waiting := c.waiting.erase task } := by
      intro x hx
      by_cases hxtask : x = task
      · simp [Accounts.active, hxtask]
      · simpa [Accounts.active, hxtask, List.mem_erase_of_ne] using hx
    refine ⟨?_, ?_, ?_⟩
    · intro line hline
      rcases h.consistent line hline with howned | hway
      · exact .inl howned
      · exact .inr (hway.mono hactive)
    · intro x hx
      apply h.prepared x
      simp only [Accounts.active, List.map_cons, List.mem_append, List.mem_cons] at hx ⊢
      rcases hx with hx | rfl | hx
      · exact .inl (List.mem_of_mem_erase hx)
      · exact .inl hready.1
      · exact .inr hx
    · exact List.forall_mem_cons.mpr ⟨hready.2, h.placed⟩
  · cases hstep

/-- A task is gone that has left its identity as it is to be. -/
theorem UnderWay.without {identity : Text} {task : Task} (h : UnderWay st c identity)
    (hother : st.casefold task.address ≠ identity)
    (hactive : ∀ x ∈ c.active, x ≠ task → x ∈ c'.active) : UnderWay st c' identity := by
  obtain ⟨x, hx, hname⟩ := h
  refine ⟨x, hactive x hx ?_, hname⟩
  rintro rfl
  exact hother hname

/-- A task ends without a line of its identity in the file. -/
theorem orderly_gone {t : Table} {file : Cell Text Task} {waiting : List Task} {task : Task}
    (h : Orderly st c) (hvalue : file.value = c.file.value)
    (hnone : entries st.casefold c.file.value (st.casefold task.address) = [])
    (hframe : ∀ a, a ≠ task.address → t.lookup a = c.table.lookup a)
    (hsub : ∀ x ∈ Accounts.active { c with table := t, file, waiting }, x ∈ c.active)
    (hactive : ∀ x ∈ c.active, x ≠ task → x ∈ Accounts.active { c with table := t, file, waiting })
    (hworking : ∀ job ∈ file.working, job ∈ c.file.working) :
    Orderly st { c with table := t, file, waiting } where
  consistent line hline := by
    rw [show ({ c with table := t, file, waiting } : Accounts).file.value = _ from hvalue] at hline
    have hother : st.casefold task.address ≠ st.casefold (lineName line) := by
      intro heq
      have hmem := mem_entries.mpr ⟨hline, heq.symm⟩
      rw [hnone] at hmem
      cases hmem
    rcases h.consistent line hline with howned | hway
    · have hkept := howned.frame [] hframe
      rw [List.append_nil] at hkept
      exact .inl (hkept.resolve_right hother)
    · exact .inr (hway.without hother hactive)
  prepared x hx := h.prepared x (hsub x hx)
  placed job hjob := h.placed job (hworking job hjob)

theorem failed_lookup {t : Table} {task : Task} {a : Text} (ha : a ≠ task.address) :
    (failed t task).lookup a = t.lookup a := by
  cases task with
  | provision claimed _ _ => exact rollBack_lookup_ne ha
  | remove _ => rfl
  | heal _ => rfl

theorem orderly_fail {task : Task} (h : Orderly st c) (hsafe : Safe s d st c (.fail task))
    (hstep : c.step s d st (.fail task) = some c') : Orderly st c' := by
  simp only [Accounts.step] at hstep
  split at hstep
  · cases hstep
    refine orderly_gone h rfl hsafe (fun a ha => failed_lookup ha) ?_ ?_ fun job hjob => hjob
    · intro x hx
      simp only [Accounts.active, List.mem_append] at hx ⊢
      exact hx.imp_left List.mem_of_mem_erase
    · intro x hx hne
      simpa [Accounts.active, List.mem_erase_of_ne hne] using hx
  · cases hstep

/-- A job that ends leaves the tasks of the others. -/
theorem active_of_end {file : Cell Text Task} {a : Cell.Step Text Task}
    (h : c.file.step locks (rewrite st) a = some file) (hend : ∀ task, a ≠ .begin task) (t : Table) :
    (∀ x ∈ Accounts.active { c with table := t, file }, x ∈ c.active) ∧
      ∀ x ∈ c.active, x ≠ a.op → x ∈ Accounts.active { c with table := t, file } := by
  obtain ⟨hsub, hkept⟩ := Cell.working_of_end h hend
  constructor
  · intro x hx
    simp only [Accounts.active, List.mem_append, List.mem_map] at hx ⊢
    exact hx.imp_right fun ⟨job, hjob, hname⟩ => ⟨job, hsub job hjob, hname⟩
  · intro x hx hne
    simp only [Accounts.active, List.mem_append, List.mem_map] at hx ⊢
    exact hx.imp_right fun ⟨job, hjob, hname⟩ => ⟨job, hkept job hjob (hname ▸ hne), hname⟩

theorem orderly_abandon {task : Task} {read : Text} (h : Orderly st c)
    (hsafe : Safe s d st c (.abandon task read))
    (hstep : c.step s d st (.abandon task read) = some c') : Orderly st c' := by
  simp only [Accounts.step] at hstep
  obtain ⟨file, hfile, rfl⟩ := Option.map_eq_some_iff.mp hstep
  obtain ⟨hsub, hkept⟩ := active_of_end hfile nofun (failed c.table task)
  have hvalue : file.value = c.file.value := by
    obtain ⟨-, rfl⟩ := Cell.step_abandon hfile
    rfl
  exact orderly_gone h hvalue hsafe (fun a ha => failed_lookup ha) hsub hkept
    (Cell.working_of_end hfile nofun).1

/-- The write of a task: the lines of its identity are what it leaves, and owned. -/
theorem orderly_finish {task : Task} {read : Text} (h : Orderly st c)
    (hsafe : Safe s d st c (.finish task read))
    (hstep : c.step s d st (.finish task read) = some c') : Orderly st c' := by
  simp only [Accounts.step] at hstep
  obtain ⟨file, hfile, rfl⟩ := Option.map_eq_some_iff.mp hstep
  obtain ⟨hsub, hkept⟩ := active_of_end hfile nofun c.table
  have hjobs := (Cell.working_of_end hfile nofun).1
  obtain ⟨hmem, rfl⟩ := Cell.step_finish hfile
  obtain ⟨rfl, hfits, hrow⟩ := hsafe
  have htask : task ∈ c.active := List.mem_append_right _ (List.mem_map_of_mem hmem)
  have hprepared := h.prepared task htask
  refine ⟨?_, fun x hx => h.prepared x (hsub x hx), fun job hjob => h.placed job (hjobs job hjob)⟩
  intro line hline
  by_cases hname : st.casefold task.address = st.casefold (lineName line)
  · have hown : line ∈ task.op.leaves := by
      rw [← entries_rewrite_own hfits]
      exact mem_entries.mpr ⟨hline, hname.symm⟩
    cases task with
    | remove address => cases hown
    | heal op => exact hprepared.elim
    | provision claimed user_id written =>
      obtain ⟨l, rfl⟩ := Option.isSome_iff_exists.mp (h.placed _ hmem)
      obtain ⟨hreplace, hset⟩ := hprepared l rfl
      obtain ⟨row, hlookup, hfor⟩ := (Option.any_eq_true _ _).mp hrow
      simp only [Bool.and_eq_true, beq_iff_eq] at hfor
      obtain rfl : line = l := (List.mem_singleton.mp hown).trans hreplace
      exact .inl ⟨claimed.address, row, user_id, hname, hlookup, hfor.1, hfor.2, hset⟩
  · have hbefore : line ∈ usersLines c.file.value := by
      have hafter : line ∈ entries st.casefold (task.op.rewrite st.casefold c.file.value)
          (st.casefold (lineName line)) := mem_entries.mpr ⟨hline, rfl⟩
      rw [entries_rewrite_other hfits hname] at hafter
      exact (mem_entries.mp hafter).1
    rcases h.consistent line hbefore with howned | hway
    · exact .inl howned
    · exact .inr (hway.without hname hkept)

theorem orderly_step {a : Act} (h : Orderly st c) (hsafe : Safe s d st c a)
    (hstep : c.step s d st a = some c') : Orderly st c' := by
  cases a with
  | create user_id body => exact orderly_create h hstep
  | delete address => exact orderly_delete h hstep
  | sync maildirs =>
    cases hstep
    exact orderly_table h fun a row owner => sync_lookup maildirs
  | call ep auth maildirs text => exact orderly_call h hsafe hstep
  | begin task => exact orderly_begin h hstep
  | finish task read => exact orderly_finish h hsafe hstep
  | fail task => exact orderly_fail h hsafe hstep
  | abandon task read => exact orderly_abandon h hsafe hstep

/-- Every line of the users file is of an active mailbox, with a password its owner set,
in every state of a run whose steps are safe; and a deleted mailbox has none. -/
theorem lines_are_owned {labels : List Act}
    (h : ((accountStore s d st).guarded (Safe s d st)).Run labels c) :
    Consistent st c ∧ ∀ identity, ¬ UnderWay st c identity →
      (∀ address row, st.casefold address = identity → c.table.lookup address = some row →
        row.is_active = false) →
      entries st.casefold c.file.value identity = [] := by
  have horderly : Orderly st c := by
    refine h.invariant (P := fun _ c => Orderly st c) ?_ ?_
    · rintro c ⟨hwaiting, hworking, hconsistent⟩
      refine ⟨hconsistent, fun x hx => ?_, fun job hjob => ?_⟩
      · simp [Accounts.active, hwaiting, hworking] at hx
      · simp [hworking] at hjob
    · rintro labels c a c' hbefore ⟨hstep, hsafe⟩
      exact orderly_step hbefore hsafe hstep
  refine ⟨horderly.consistent, fun identity hidle hdeleted => ?_⟩
  apply List.eq_nil_iff_forall_not_mem.mpr
  intro line hline
  obtain ⟨hmem, hname⟩ := mem_entries.mp hline
  rcases horderly.consistent line hmem with ⟨a, row, _, ha, hlookup, hactive, -⟩ | hway
  · cases hactive.symm.trans (hdeleted a row (ha.trans hname) hlookup)
  · exact hidle (hname ▸ hway)

end

instance (t : Table) (task : Task) : Decidable (ForRow t task) :=
  match task with
  | .provision _ _ _ => inferInstanceAs (Decidable (_ = true))
  | .remove _ => .isTrue trivial
  | .heal _ => .isTrue trivial

instance (s : Server) (d : Decoder) (st : Storage) (c : Accounts) (a : Act) :
    Decidable (Safe s d st c a) :=
  match a with
  | .create _ _ => .isTrue trivial
  | .delete _ => .isTrue trivial
  | .sync _ => .isTrue trivial
  | .call ep auth maildirs text =>
    inferInstanceAs (Decidable (∀ used ∈ logsIn ep (serve s d ep auth c.table maildirs text).1, _))
  | .begin _ => .isTrue trivial
  | .finish _ _ => inferInstanceAs (Decidable (_ ∧ _ ∧ _))
  | .fail _ => inferInstanceAs (Decidable (_ = []))
  | .abandon _ _ => inferInstanceAs (Decidable (_ = []))

/-! ## A mailbox that comes and goes -/

def newMailbox : MailboxCreateRequest where
  username := "aa".toList
  password := "correct horse".toList

def noAccounts : Accounts := ⟨∅, Cell.first [], [], []⟩

def aliceSet : Text := "aa@x:#correct horse:5000:5000::/var/mail/x/aa::\n".toList

def aliceProvision : Task := .provision ⟨"aa@x".toList, false⟩ "alice" (some aliceSet)

/-- Of a state: the tasks, whether Alice's row is active, the lines, and the lines set. -/
abbrev Observed := List Task × Option Bool × List Text × List Text

def observed (c : Accounts) : Observed :=
  (c.active, (c.table.lookup "aa@x".toList).map (·.is_active), usersLines c.file.value,
    c.settings.map (·.2.2))

def createdAndDeleted : List Act :=
  [.create "alice" newMailbox, .begin aliceProvision, .finish aliceProvision [],
    .call .listAllEmails alice [] "aa@x".toList, .delete "aa@x".toList,
    .begin (.remove "aa@x".toList), .finish (.remove "aa@x".toList) aliceSet]

theorem noAccounts_first (s : Server) (d : Decoder) (st : Storage) :
    (accountStore s d st).init noAccounts :=
  ⟨rfl, rfl, fun line hline => by cases hline⟩

theorem run_from_nothing (G : Accounts → Act → Prop) [∀ c a, Decidable (G c a)] (s : Server)
    (d : Decoder) (st : Storage) (acts : List Act) (seen : Observed)
    (h : (acts.foldlM (fun c a => if G c a then c.step s d st a else none) noAccounts).map
      observed = some seen) :
    ∃ c, ((accountStore s d st).guarded G).Run acts c ∧ observed c = seen := by
  obtain ⟨c, hexec, hseen⟩ := Option.map_eq_some_iff.mp h
  have hstart : ((accountStore s d st).guarded G).Run [] noAccounts :=
    .start _ (noAccounts_first s d st)
  exact ⟨c, hstart.exec_guarded (Accounts.step s d st) acts c hexec fun _ _ _ h => h, hseen⟩

/-- Created, read, and deleted. -/
theorem lines_are_owned_created :
    ∃ c, ((accountStore aliceServer replacing vhosts).guarded
        (Safe aliceServer replacing vhosts)).Run createdAndDeleted c ∧
      Consistent vhosts c ∧ ∀ identity, ¬ UnderWay vhosts c identity →
        (∀ address row, vhosts.casefold address = identity → c.table.lookup address = some row →
          row.is_active = false) →
        entries vhosts.casefold c.file.value identity = [] := by
  obtain ⟨c, hrun, -⟩ := run_from_nothing (Safe aliceServer replacing vhosts) aliceServer replacing
    vhosts createdAndDeleted ([], some false, [], [aliceSet])
    (by decide +kernel)
  exact ⟨c, hrun, lines_are_owned hrun⟩

def fixedLine : Text := "aa@x:#mailcue-auto-password:5000:5000::/var/mail/x/aa::\n".toList

def aliceHeal : Task := .heal (.upsert "aa@x".toList fixedLine)

/-- The former owner reads the deleted mailbox once more. -/
theorem deleted_account_returns :
    ∃ acts c, (accountStore aliceServer replacing vhosts).Run acts c ∧ c.active = [] ∧
      (c.table.lookup "aa@x".toList).map (·.is_active) = some false ∧
      usersLines c.file.value = [fixedLine] ∧ ¬ Consistent vhosts c := by
  obtain ⟨c, hrun, hseen⟩ := run_from_nothing (fun _ _ => True) aliceServer replacing vhosts
    (createdAndDeleted ++ [.call .listAllEmails alice [] "aa@x".toList, .begin aliceHeal,
      .finish aliceHeal []])
    ([], some false, [fixedLine], [aliceSet]) (by decide +kernel)
  simp only [observed, Prod.mk.injEq] at hseen
  obtain ⟨hidle, hrow, hlines, hset⟩ := hseen
  refine ⟨_, c, hrun.unguarded, hidle, hrow, hlines, fun hconsistent => ?_⟩
  rcases hconsistent fixedLine (by simp [hlines]) with ⟨a, _, owner, -, -, -, -, hmem⟩ | hway
  · have hline : fixedLine ∈ c.settings.map (·.2.2) := List.mem_map_of_mem hmem
    rw [hset] at hline
    exact absurd hline (by decide)
  · obtain ⟨task, htask, -⟩ := hway
    rw [hidle] at htask
    cases htask

end MailCue.Backend.Mailboxes
