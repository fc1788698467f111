import MailCue.Lib.Text
import MailCue.Lib.Transition
import Mathlib.Data.List.DropRight

/-!
# Deployment of TLS certificates

backend/app/system/service.py: `upload_tls_certificate` and `restore_custom_certs`, with
the file operations of `_write_certs_to_disk_sync` one by one. Each of them may fail, and
between any two of them other deployments may go on.
-/
namespace MailCue.Backend.System.Tls
open MailCue.Lib

/-- An upload, and the row of `tls_certificates` that is made of it. -/
structure CertificateSet where
  cert_pem : Text
  key_pem : Text
  ca_pem : Option Text := none
  deriving DecidableEq

inductive File
  | serverOnlyCert | fullChainCert | serverKey | caCert
  deriving DecidableEq

/-- What is in the certificate directory. -/
structure Disk where
  serverOnlyCert : Option Text := none
  fullChainCert : Option Text := none
  serverKey : Option Text := none
  caCert : Option Text := none
  deriving DecidableEq

def Disk.get (disk : Disk) : File → Option Text
  | .serverOnlyCert => disk.serverOnlyCert
  | .fullChainCert => disk.fullChainCert
  | .serverKey => disk.serverKey
  | .caCert => disk.caCert

def Disk.put (disk : Disk) (content : Option Text) : File → Disk
  | .serverOnlyCert => { disk with serverOnlyCert := content }
  | .fullChainCert => { disk with fullChainCert := content }
  | .serverKey => { disk with serverKey := content }
  | .caCert => { disk with caCert := content }

/-! ## Writing -/

/-- `write_text` opens the file, which empties it, and then writes. -/
inductive FileOp
  | mkdir
  | truncate (file : File)
  | fill (file : File) (text : Text)
  | chmod
  | unlink (file : File)
  deriving DecidableEq

/-- A write from the start of the file; what is longer stays behind it. -/
def Disk.overwrite (disk : Disk) (file : File) (text : Text) : Disk :=
  disk.put ((disk.get file).map fun old => text ++ old.drop text.length) file

def Disk.apply (disk : Disk) : FileOp → Disk
  | .mkdir => disk
  | .truncate file => disk.put (some []) file
  | .fill file text => disk.overwrite file text
  | .chmod => disk
  | .unlink file => disk.put none file

/-- An operation that raises: of a write, some of the text may be in the file. -/
def Disk.applyFailed (disk : Disk) (written : Nat) : FileOp → Disk
  | .fill file text => disk.overwrite file (text.take written)
  | _ => disk

def writeText (file : File) (text : Text) : List FileOp := [.truncate file, .fill file text]

/-- `if ca_pem:` -/
def CertificateSet.chain (set : CertificateSet) : Option Text := set.ca_pem.filter (· != [])

def CertificateSet.fullChain (set : CertificateSet) : Text :=
  match set.chain with
  | some ca_pem => set.cert_pem.rdropWhile (· == '\n') ++ '\n' :: ca_pem
  | none => set.cert_pem

/-- `_write_certs_to_disk_sync` -/
def writeCertsToDisk (set : CertificateSet) : List FileOp :=
  .mkdir :: writeText .serverOnlyCert set.cert_pem ++ writeText .fullChainCert set.fullChain ++
    writeText .serverKey set.key_pem ++ [.chmod] ++
    match set.chain with
    | some ca_pem => writeText .caCert ca_pem
    | none => [.unlink .caCert]

/-- The files of one upload. -/
def CertificateSet.files (set : CertificateSet) : Disk where
  serverOnlyCert := some set.cert_pem
  fullChainCert := some set.fullChain
  serverKey := some set.key_pem
  caCert := set.chain

/-! ## Deployments side by side -/

/-- The commands of `_reload_tls_services`. -/
inductive Service
  | postfixReload | doveadmReload
  deriving DecidableEq

inductive Phase
  /-- The row has been looked for; it is to be committed. -/
  | storing (found : Bool)
  | writing (op : FileOp) (rest : List FileOp)
  | reloading (service : Service) (rest : List Service)
  deriving DecidableEq

structure Task where
  isUpload : Bool
  set : CertificateSet
  phase : Phase
  deriving DecidableEq

structure State where
  row : Option CertificateSet
  disk : Disk
  /-- The files of the last deployment that has written all of its own. -/
  deployed : Disk
  tasks : List Task := []
  deriving DecidableEq

inductive Outcome
  | done
  | raised (written : Nat)

inductive Event
  | upload (set : CertificateSet)
  | restore
  | task (index : Nat) (outcome : Outcome)

def startWriting (set : CertificateSet) : Phase := .writing .mkdir (writeCertsToDisk set).tail

def State.setTask (s : State) (index : Nat) (task : Task) : State :=
  { s with tasks := s.tasks.set index task }

def State.endTask (s : State) (index : Nat) : State := { s with tasks := s.tasks.eraseIdx index }

/-- The next step of a task: a commit, a file operation or a reload. -/
def State.stepTask (s : State) (index : Nat) (task : Task) : Outcome → State
  | .done =>
    match task.phase with
    | .storing found =>
      -- A second row of this id is refused.
      if !found && s.row.isSome then s.endTask index
      else
        { s with row := some task.set }.setTask index
          { task with phase := startWriting task.set }
    | .writing op [] =>
      { s with disk := s.disk.apply op, deployed := s.disk.apply op }.setTask index
        { task with phase := .reloading .postfixReload [.doveadmReload] }
    | .writing op (next :: rest) =>
      { s with disk := s.disk.apply op }.setTask index { task with phase := .writing next rest }
    | .reloading _ [] => s.endTask index
    | .reloading _ (next :: rest) => s.setTask index { task with phase := .reloading next rest }
  | .raised written =>
    match task.phase with
    | .writing op _ => { s with disk := s.disk.applyFailed written op }.endTask index
    | .storing _ => s.endTask index
    -- What a reload answers is only logged.
    | .reloading _ [] => s.endTask index
    | .reloading _ (next :: rest) => s.setTask index { task with phase := .reloading next rest }

/-- `_validate_cert_key_pair` and the check of the CA certificate are a parameter. -/
def State.step (valid : CertificateSet → Bool) (s : State) : Event → State
  | .upload set =>
    if valid set then
      { s with tasks := s.tasks ++ [{ isUpload := true, set, phase := .storing s.row.isSome }] }
    else s
  | .restore =>
    match s.row with
    | none => s
    | some set =>
      { s with tasks := s.tasks ++ [{ isUpload := false, set, phase := startWriting set }] }
  | .task index outcome =>
    match s.tasks[index]? with
    | none => s
    | some task => s.stepTask index task outcome

def deployment (valid : CertificateSet → Bool) (row : Option CertificateSet) (disk : Disk) :
    Machine State Event where
  start := { row, disk, deployed := disk }
  step := State.step valid

/-! ## What is asked of a step -/

/-- The upload raises in this step. -/
def State.fails (s : State) (task : Task) (outcome : Outcome) : Bool :=
  task.isUpload &&
    match task.phase, outcome with
    | .storing found, .done => !found && s.row.isSome
    | .storing _, .raised _ => true
    | .writing _ _, .raised _ => true
    | _, _ => false

/-- Services are reloaded with the files of the stored upload, and an upload that fails leaves
those of the last deployment. -/
def Atomic (s : State) : Event → Prop
  | .task index outcome => ∀ task, s.tasks[index]? = some task →
      (∀ service rest, task.phase = .reloading service rest →
        ∃ set, s.row = some set ∧ s.disk = set.files) ∧
      (s.fails task outcome = true → (s.stepTask index task outcome).disk = s.deployed)
  | _ => True

/-- The task has committed or read the row, and is not through with its reloads. -/
def Task.deploying (task : Task) : Bool :=
  match task.phase with
  | .storing _ => false
  | _ => true

def State.Idle (s : State) : Prop := s.tasks.filter Task.deploying = []

/-- One deployment begins when no other is under way, and no file operation fails once a file
has been opened. -/
def Orderly (s : State) : Event → Prop
  | .upload _ => True
  | .restore => s.Idle
  | .task index outcome => ∀ task, s.tasks[index]? = some task →
      match task.phase, outcome with
      | .storing _, _ => s.Idle
      | .writing op _, .raised _ => op = .mkdir ∨ op = .truncate .serverOnlyCert
      | _, _ => True

/-! ## Writing all files -/

theorem apply_writeText (file : File) (text : Text) (disk : Disk) :
    (writeText file text).foldl Disk.apply disk = disk.put (some text) file := by
  cases file <;> simp [writeText, Disk.apply, Disk.overwrite, Disk.put, Disk.get]

/-- Whatever was there before. -/
theorem apply_writeCertsToDisk (set : CertificateSet) (disk : Disk) :
    (writeCertsToDisk set).foldl Disk.apply disk = set.files := by
  unfold writeCertsToDisk CertificateSet.files
  rw [List.cons_append, List.cons_append, List.cons_append, List.cons_append, List.foldl_cons,
    List.foldl_append, List.foldl_append, List.foldl_append, List.foldl_append, apply_writeText,
    apply_writeText, apply_writeText]
  cases set.chain with
  | some ca_pem =>
    simp only [apply_writeText, List.foldl_cons, List.foldl_nil, Disk.apply, Disk.put]
  | none => rfl

/-- The operations before any file is changed. -/
def FileOp.first (op : FileOp) : Prop := op = .mkdir ∨ op = .truncate .serverOnlyCert

theorem writeCertsToDisk_eq (set : CertificateSet) :
    ∃ rest, writeCertsToDisk set = .mkdir :: .truncate .serverOnlyCert :: rest ∧
      rest ≠ [] ∧ ∀ op ∈ rest, ¬ op.first := by
  refine ⟨(writeCertsToDisk set).tail.tail, rfl, List.cons_ne_nil _ _, ?_⟩
  have hlater (ops : List FileOp) (hops : ∀ op ∈ ops, ¬ op.first) :
      ∀ op ∈ .fill .serverOnlyCert set.cert_pem :: writeText .fullChainCert set.fullChain ++
        writeText .serverKey set.key_pem ++ [.chmod] ++ ops, ¬ op.first := by
    simpa [writeText, FileOp.first] using hops
  apply hlater
  cases set.chain with
  | some ca_pem => simp [writeText, FileOp.first]
  | none => simp [FileOp.first]

/-! ## One deployment at a time -/

/-- Nothing has been changed, or what is still to be done does not begin a deployment. -/
def Untouched (s : State) (set : CertificateSet) (ops : List FileOp) : Prop :=
  s.disk = s.deployed ∧ (ops = writeCertsToDisk set ∨ ops = (writeCertsToDisk set).tail) ∨
    ∀ op ∈ ops, ¬ op.first

/-- How far the deployment of a task has come. -/
def UnderWay (s : State) (task : Task) : Prop :=
  s.row = some task.set ∧
    match task.phase with
    | .storing _ => False
    | .writing op rest =>
      (op :: rest).foldl Disk.apply s.disk = task.set.files ∧ Untouched s task.set (op :: rest)
    | .reloading _ _ => s.disk = task.set.files ∧ s.disk = s.deployed

def Inv (s : State) : Prop :=
  s.Idle ∧ s.disk = s.deployed ∨
    ∃ task, s.tasks.filter Task.deploying = [task] ∧ UnderWay s task

theorem split_of_getElem? {α : Type} {items : List α} {index : Nat} {item : α}
    (h : items[index]? = some item) :
    ∃ before after, items = before ++ item :: after ∧
      (∀ other, items.set index other = before ++ other :: after) ∧
      items.eraseIdx index = before ++ after := by
  obtain ⟨hlt, hitem⟩ := List.getElem?_eq_some_iff.mp h
  refine ⟨items.take index, items.drop (index + 1), ?_, fun other => ?_, ?_⟩
  · rw [← hitem, List.getElem_cons_drop, List.take_append_drop]
  · rw [List.set_eq_take_append_cons_drop, if_pos hlt]
  · exact List.eraseIdx_eq_take_drop_succ items index

section
variable {s : State} {index : Nat} {task : Task}

/-- A task that steps in turn has no other deployment beside it. -/
theorem others_idle (htask : s.tasks[index]? = some task)
    (h : s.Idle ∨ ∃ other, s.tasks.filter Task.deploying = [other] ∧ task.deploying = true) :
    (∀ other, s.tasks.filter Task.deploying = [other] → other = task) ∧
    (∀ next, (s.tasks.set index next).filter Task.deploying =
      if next.deploying then [next] else []) ∧
    (s.tasks.eraseIdx index).filter Task.deploying = [] := by
  obtain ⟨before, after, hsplit, hset, herase⟩ := split_of_getElem? htask
  have hnone : before.filter Task.deploying = [] ∧ after.filter Task.deploying = [] := by
    rcases h with hidle | ⟨other, hone, hdeploying⟩
    · rw [State.Idle, hsplit, List.filter_append, List.append_eq_nil_iff, List.filter_cons] at hidle
      refine ⟨hidle.1, ?_⟩
      split at hidle
      · cases hidle.2
      · exact hidle.2
    · rw [hsplit, List.filter_append, List.filter_cons_of_pos hdeploying,
        List.append_eq_singleton_iff] at hone
      rcases hone with ⟨hbefore, hafter⟩ | ⟨_, hafter⟩
      · exact ⟨hbefore, (List.cons.inj hafter).2⟩
      · cases hafter
  refine ⟨fun other hone => ?_, fun next => ?_, ?_⟩
  · rw [hsplit, List.filter_append, hnone.1, List.filter_cons, hnone.2] at hone
    split at hone
    · exact (List.cons.inj hone).1.symm
    · cases hone
  · rw [hset, List.filter_append, hnone.1, List.filter_cons, hnone.2]
    rfl
  · rw [herase, List.filter_append, hnone.1, hnone.2]
    rfl

theorem Inv.disk_of_idle (hinv : Inv s) (hidle : s.Idle) : s.disk = s.deployed := by
  rcases hinv with ⟨_, hdisk⟩ | ⟨other, hone, _⟩
  · exact hdisk
  · cases hidle.symm.trans hone

/-- The deployment that is under way. -/
theorem Inv.underWay (hinv : Inv s) (htask : s.tasks[index]? = some task)
    (hdeploying : task.deploying = true) :
    s.tasks.filter Task.deploying = [task] ∧ UnderWay s task := by
  rcases hinv with ⟨hidle, _⟩ | ⟨other, hone, hway⟩
  · have hmem : task ∈ s.tasks.filter Task.deploying :=
      List.mem_filter.mpr ⟨List.mem_of_getElem? htask, hdeploying⟩
    rw [hidle] at hmem
    cases hmem
  · have hsame := (others_idle htask (.inr ⟨other, hone, hdeploying⟩)).1 other hone
    subst hsame
    exact ⟨hone, hway⟩

theorem Untouched.next {set : CertificateSet} {op : FileOp} {rest : List FileOp} {after : State}
    (h : Untouched s set (op :: rest)) (hdisk : after.disk = s.disk.apply op)
    (hdeployed : after.deployed = s.deployed) : Untouched after set rest := by
  obtain ⟨later, hops, _, hlater⟩ := writeCertsToDisk_eq set
  rcases h with ⟨hsame, hall | htail⟩ | hlate
  · rw [hops, List.cons.injEq] at hall
    obtain ⟨rfl, rfl⟩ := hall
    exact .inl ⟨by rw [hdisk, hdeployed, ← hsame]; rfl, .inr (by rw [hops]; rfl)⟩
  · rw [hops, List.tail_cons, List.cons.injEq] at htail
    exact .inr (htail.2 ▸ hlater)
  · exact .inr fun next hnext => hlate next (List.mem_cons_of_mem _ hnext)

/-- An operation that fails in time has changed nothing. -/
theorem Untouched.disk_of_first {set : CertificateSet} {op : FileOp} {rest : List FileOp}
    (h : Untouched s set (op :: rest)) (hfirst : op.first) (written : Nat) :
    s.disk.applyFailed written op = s.deployed := by
  have hsame : s.disk = s.deployed := by
    rcases h with ⟨hsame, _⟩ | hlate
    · exact hsame
    · exact absurd hfirst (hlate op (List.mem_cons_self ..))
  rcases hfirst with rfl | rfl
  · exact hsame
  · exact hsame

theorem untouched_start {set : CertificateSet} (hdisk : s.disk = s.deployed) :
    Untouched s set (.mkdir :: (writeCertsToDisk set).tail) := by
  obtain ⟨rest, hops, _⟩ := writeCertsToDisk_eq set
  exact .inl ⟨hdisk, .inl (by rw [hops]; rfl)⟩

theorem underWay_start {set : CertificateSet} {isUpload : Bool} (hrow : s.row = some set)
    (hdisk : s.disk = s.deployed) : UnderWay s { isUpload, set, phase := startWriting set } := by
  refine ⟨hrow, ?_, untouched_start hdisk⟩
  obtain ⟨rest, hops, _⟩ := writeCertsToDisk_eq set
  rw [show FileOp.mkdir :: (writeCertsToDisk set).tail = writeCertsToDisk set by rw [hops]; rfl]
  exact apply_writeCertsToDisk set s.disk

/-- A commit, with no deployment under way. -/
theorem step_storing {found : Bool} (hinv : Inv s) (hidle : s.Idle)
    (htask : s.tasks[index]? = some task) (hphase : task.phase = .storing found)
    (outcome : Outcome) :
    Inv (s.stepTask index task outcome) ∧
      (s.fails task outcome = true → (s.stepTask index task outcome).disk = s.deployed) := by
  have hdisk := hinv.disk_of_idle hidle
  obtain ⟨_, hset, herase⟩ := others_idle htask (.inl hidle)
  have hend : Inv (s.endTask index) := .inl ⟨herase, hdisk⟩
  cases outcome with
  | raised written =>
    rw [State.stepTask, hphase]
    exact ⟨hend, fun _ => hdisk⟩
  | done =>
    unfold State.fails
    rw [State.stepTask, hphase]
    dsimp only
    split
    · exact ⟨hend, fun _ => hdisk⟩
    · refine ⟨.inr ⟨{ task with phase := startWriting task.set }, ?_, ?_⟩, fun _ => hdisk⟩
      · exact (hset _).trans (if_pos rfl)
      · exact underWay_start rfl hdisk

theorem step_writing {op : FileOp} {rest : List FileOp} (hinv : Inv s)
    (htask : s.tasks[index]? = some task) (hphase : task.phase = .writing op rest)
    (outcome : Outcome) (horderly : ∀ written, outcome = .raised written → op.first) :
    Inv (s.stepTask index task outcome) ∧
      (s.fails task outcome = true → (s.stepTask index task outcome).disk = s.deployed) := by
  have hdeploying : task.deploying = true := by rw [Task.deploying, hphase]
  obtain ⟨hone, hrow, hway⟩ := hinv.underWay htask hdeploying
  rw [hphase] at hway
  obtain ⟨hfiles, huntouched⟩ := hway
  obtain ⟨_, hset, herase⟩ := others_idle htask (.inr ⟨task, hone, hdeploying⟩)
  cases outcome with
  | raised written =>
    have hdisk := huntouched.disk_of_first (horderly written rfl) written
    rw [State.stepTask, hphase]
    exact ⟨.inl ⟨herase, hdisk⟩, fun _ => hdisk⟩
  | done =>
    have hcontinues : s.fails task .done = false := by
      unfold State.fails
      rw [hphase]
      exact Bool.and_false _
    refine ⟨?_, fun hfails => absurd (hcontinues.symm.trans hfails) Bool.false_ne_true⟩
    rw [State.stepTask, hphase]
    cases rest with
    | nil =>
      refine .inr ⟨{ task with phase := .reloading .postfixReload [.doveadmReload] }, ?_, hrow,
        hfiles, rfl⟩
      exact (hset _).trans (if_pos rfl)
    | cons next rest =>
      refine .inr ⟨{ task with phase := .writing next rest }, ?_, hrow, hfiles, ?_⟩
      · exact (hset _).trans (if_pos rfl)
      · exact huntouched.next rfl rfl

theorem step_reloading {service : Service} {rest : List Service} (hinv : Inv s)
    (htask : s.tasks[index]? = some task) (hphase : task.phase = .reloading service rest)
    (outcome : Outcome) :
    Inv (s.stepTask index task outcome) ∧ s.fails task outcome = false ∧
      ∃ set, s.row = some set ∧ s.disk = set.files := by
  have hdeploying : task.deploying = true := by rw [Task.deploying, hphase]
  obtain ⟨hone, hrow, hway⟩ := hinv.underWay htask hdeploying
  rw [hphase] at hway
  obtain ⟨_, hset, herase⟩ := others_idle htask (.inr ⟨task, hone, hdeploying⟩)
  refine ⟨?_, ?_, task.set, hrow, hway.1⟩
  · have hnext : Inv (match rest with
        | [] => s.endTask index
        | next :: rest => s.setTask index { task with phase := .reloading next rest }) := by
      cases rest with
      | nil => exact .inl ⟨herase, hway.2⟩
      | cons next rest =>
        refine .inr ⟨{ task with phase := .reloading next rest }, ?_, hrow, hway⟩
        exact (hset _).trans (if_pos rfl)
    cases outcome with
    | done =>
      rw [State.stepTask, hphase]
      cases rest <;> exact hnext
    | raised written =>
      rw [State.stepTask, hphase]
      cases rest <;> exact hnext
  · unfold State.fails
    rw [hphase]
    cases outcome <;> exact Bool.and_false _

theorem inv_step (valid : CertificateSet → Bool) (hinv : Inv s) (event : Event)
    (horderly : Orderly s event) : Inv (s.step valid event) ∧ Atomic s event := by
  cases event with
  | upload set =>
    refine ⟨?_, trivial⟩
    rw [State.step]
    split
    · let task : Task := { isUpload := true, set, phase := .storing s.row.isSome }
      have hsame : (s.tasks ++ [task]).filter Task.deploying = s.tasks.filter Task.deploying := by
        rw [List.filter_append]
        exact List.append_nil _
      rcases hinv with ⟨hidle, hdisk⟩ | ⟨task, hone, hway⟩
      · exact .inl ⟨hsame.trans hidle, hdisk⟩
      · exact .inr ⟨task, hsame.trans hone, hway⟩
    · exact hinv
  | restore =>
    refine ⟨?_, trivial⟩
    rw [State.step]
    split
    · exact hinv
    · next set hrow =>
      refine .inr ⟨{ isUpload := false, set, phase := startWriting set }, ?_,
        underWay_start hrow (hinv.disk_of_idle horderly)⟩
      rw [List.filter_append, show s.tasks.filter Task.deploying = [] from horderly]
      rfl
  | task index outcome =>
    rw [State.step]
    cases htask : s.tasks[index]? with
    | none =>
      refine ⟨hinv, fun task hsome => ?_⟩
      cases htask.symm.trans hsome
    | some task =>
      have horderly := horderly task htask
      have hatomic (h : Inv (s.stepTask index task outcome) ∧
          (s.fails task outcome = true → (s.stepTask index task outcome).disk = s.deployed))
          (hreload : ∀ service rest, task.phase = .reloading service rest →
            ∃ set, s.row = some set ∧ s.disk = set.files) :
          Inv (s.stepTask index task outcome) ∧ Atomic s (.task index outcome) := by
        refine ⟨h.1, fun other hother => ?_⟩
        cases htask.symm.trans hother
        exact ⟨hreload, h.2⟩
      cases hphase : task.phase with
      | storing found =>
        rw [hphase] at horderly
        apply hatomic (step_storing hinv horderly htask hphase outcome)
        intro service rest hreloading
        cases hphase.symm.trans hreloading
      | writing op rest =>
        rw [hphase] at horderly
        apply hatomic (step_writing hinv htask hphase outcome fun written hraised => ?_)
        · intro service rest hreloading
          cases hphase.symm.trans hreloading
        · subst hraised
          exact horderly
      | reloading service rest =>
        obtain ⟨hnext, hcontinues, hstored⟩ := step_reloading hinv htask hphase outcome
        refine hatomic ⟨hnext, fun hfails => ?_⟩ fun _ _ _ => hstored
        cases hcontinues.symm.trans hfails

end

/-- Deployments that keep to themselves are atomic. -/
theorem deployment_atomic (valid : CertificateSet → Bool) (row : Option CertificateSet)
    (disk : Disk) (inputs : List Event)
    (h : (deployment valid row disk).EveryStep (fun _ s event => Orderly s event) inputs) :
    (deployment valid row disk).EveryStep (fun _ s event => Atomic s event) inputs := by
  have hinv : (deployment valid row disk).Always (fun _ s => Inv s) inputs := by
    refine Machine.always_of_step (.inl ⟨rfl, rfl⟩) (fun pre event hs horderly => ?_) h
    rw [Machine.run_snoc]
    exact (inv_step valid hs event horderly).1
  intro pre event hpre
  have hbefore := hinv pre ((List.prefix_append pre [event]).trans hpre)
  exact (inv_step valid hbefore event (h pre event hpre)).2

/-! ## An upload that fails half way -/

namespace Sample

def first : CertificateSet := { cert_pem := "cert 1".toList, key_pem := "key 1".toList }

def second : CertificateSet := { cert_pem := "cert 2".toList, key_pem := "key 2".toList }

/-- The upload of the second set, with the first on disk. -/
def machine : Machine State Event := deployment (fun _ => true) (some first) first.files

end Sample

/-- An upload that cannot open the first file. -/
theorem unopened_atomic :
    Sample.machine.EveryStep (fun _ s event => Atomic s event)
      [.upload Sample.second, .task 0 .done, .task 0 (.raised 0)] := by
  have hupload : Sample.machine.EveryStep (fun _ s event => Orderly s event)
      [.upload Sample.second] :=
    (Machine.everyStep_nil _).snoc trivial
  have hcommit : Sample.machine.EveryStep (fun _ s event => Orderly s event)
      [.upload Sample.second, .task 0 .done] :=
    hupload.snoc fun task htask => by
      cases htask
      exact (rfl : (Sample.machine.run [.upload Sample.second]).Idle)
  have hfail : Sample.machine.EveryStep (fun _ s event => Orderly s event)
      [.upload Sample.second, .task 0 .done, .task 0 (.raised 0)] :=
    hcommit.snoc fun task htask => by
      cases htask
      exact .inl rfl
  exact deployment_atomic _ _ _ _ hfail

/-- The disk is full when the key is to be written: the new certificate stays beside an empty
key. -/
theorem full_disk_mixes :
    ¬ Sample.machine.EveryStep (fun _ s event => Atomic s event)
      (.upload Sample.second :: List.replicate 7 (.task 0 .done) ++ [.task 0 (.raised 0)]) := by
  intro h
  have hatomic := h (.upload Sample.second :: List.replicate 7 (.task 0 .done))
    (.task 0 (.raised 0)) (List.prefix_refl _)
  have hdisk := (hatomic _ rfl).2 rfl
  revert hdisk
  decide

end MailCue.Backend.System.Tls
