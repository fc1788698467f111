import MailCue.Backend.Mailboxes.Service
import MailCue.Lib.Transition

/-!
# Owners and quotas

Over whole histories of creations, deletions and discoveries by any users. The
quota does not count catch-all mailboxes, and a creation hands an active catch-all
mailbox over to its caller, whoever has it: both hold of the mailboxes that are
not catch-all.
-/
namespace MailCue.Backend.Mailboxes
open MailCue.Lib

/-- What a user, or the discovery of a Maildir, asks of the table. -/
inductive Op
  | create (user_id : String) (body : MailboxCreateRequest) (provisioned : Bool)
  | delete (address : Text)
  | sync (maildirs : List (Text × Text))

def apply (s : Server) (t : Table) : Op → Table
  | .create user_id body provisioned => (createMailbox s t body (some user_id) provisioned).2
  | .delete address => (deleteMailbox t address).2
  | .sync maildirs => syncFilesystemMailboxes s t maildirs

def history (s : Server) (t : Table) : Machine Table Op where
  start := t
  step := apply s

/-- No user with a limit owns more active mailboxes than it, not counting catch-all
ones. -/
def WithinQuota (s : Server) (t : Table) : Prop :=
  ∀ user_id limit, s.limit user_id = some limit → (currentCount t user_id : Int) ≤ max 0 limit

/-- The active mailboxes of others that are not catch-all are as they were. -/
def SparesOthers (t t' : Table) (user_id : String) : Prop :=
  ∀ a row owner, t.lookup a = some row → row.is_active = true → row.is_catchall = false →
    row.user_id = some owner → owner ≠ user_id → t'.lookup a = some row

/-! ## Counting rows -/

section
variable {s : Server} {t t' : Table} {user_id : String} {a : Text} {row : Mailbox}

theorem currentCount_insert (t : Table) (a : Text) (row : Mailbox) (user_id : String) :
    currentCount (t.insert a row) user_id =
      currentCount (t.erase a) user_id + if row.counted user_id then 1 else 0 := by
  simp only [currentCount, AList.entries_insert, List.countP_cons]
  rfl

theorem currentCount_erase_le (t : Table) (a : Text) (user_id : String) :
    currentCount (t.erase a) user_id ≤ currentCount t user_id :=
  (List.kerase_sublist a t.entries).countP_le

/-- Writing a row adds one to no count but its owner's. -/
theorem currentCount_insert_le (t : Table) (a : Text) (row : Mailbox) (user_id : String) :
    currentCount (t.insert a row) user_id ≤
      currentCount t user_id + if row.counted user_id then 1 else 0 := by
  have herase := currentCount_erase_le t a user_id
  rw [currentCount_insert]
  omega

theorem not_counted_inactive (row : Mailbox) (user_id : String) :
    { row with is_active := false }.counted user_id = false := by
  simp [Mailbox.counted]

theorem currentCount_deactivate_le (t : Table) (a : Text) (user_id : String) :
    currentCount (deactivate t a) user_id ≤ currentCount t user_id := by
  unfold deactivate
  split
  · exact le_refl _
  · rename_i row _
    have hle := currentCount_insert_le t a { row with is_active := false } user_id
    rw [not_counted_inactive] at hle
    simpa using hle

theorem currentCount_rollBack_le (t : Table) (claimed : Claimed) (user_id : String) :
    currentCount (rollBack t claimed) user_id ≤ currentCount t user_id := by
  unfold rollBack
  split
  · exact currentCount_deactivate_le t _ user_id
  · exact currentCount_erase_le t _ user_id

/-! ## One operation -/

theorem withinQuota_mono (h : WithinQuota s t)
    (hle : ∀ user_id, currentCount t' user_id ≤ currentCount t user_id) : WithinQuota s t' := by
  intro user_id limit hlimit
  have hbefore := h user_id limit hlimit
  have hcount := hle user_id
  omega

/-- The row a creation writes is counted for its caller alone, whose count was
below the limit. -/
theorem withinQuota_claim (h : WithinQuota s t) {body : MailboxCreateRequest} {claimed : Claimed}
    (hclaim : claimMailbox s t body (some user_id) = .ok (claimed, t')) : WithinQuota s t' := by
  obtain ⟨hquota, -, hcases⟩ := claimMailbox_ok hclaim
  obtain ⟨row, howner, rfl⟩ : ∃ row : Mailbox, row.user_id = some user_id ∧
      t' = t.insert (body.address s) row := by
    rcases hcases with ⟨existing, -, -, -, rfl⟩ | ⟨-, -, rfl⟩
    · exact ⟨_, rfl, rfl⟩
    · exact ⟨_, rfl, rfl⟩
  intro user limit hlimit
  have hbefore := h user limit hlimit
  have hinsert := currentCount_insert_le t (body.address s) row user
  by_cases huser : user = user_id
  · subst huser
    have hbelow : (currentCount t user : Int) < limit := by
      simp only [checkQuota, hlimit] at hquota
      split at hquota
      · cases hquota
      · omega
    split at hinsert <;> omega
  · have hnot : row.counted user = false := by
      simp [Mailbox.counted, howner, Ne.symm huser]
    rw [hnot] at hinsert
    simp only [Bool.false_eq_true, if_false] at hinsert
    omega

theorem withinQuota_create (h : WithinQuota s t) (body : MailboxCreateRequest)
    (provisioned : Bool) :
    WithinQuota s (createMailbox s t body (some user_id) provisioned).2 := by
  unfold createMailbox
  split
  · exact h
  · rename_i claimed t' hclaim
    have hclaimed := withinQuota_claim h hclaim
    split
    · exact hclaimed
    · exact withinQuota_mono hclaimed (currentCount_rollBack_le t' claimed)

theorem withinQuota_discover (h : WithinQuota s t) (dir : Text × Text) :
    WithinQuota s (discover s t dir) := by
  have hcatchall : ∀ a (row : Mailbox), row.is_catchall = true → WithinQuota s (t.insert a row) := by
    intro a row hrow
    apply withinQuota_mono h
    intro user
    have hinsert := currentCount_insert_le t a row user
    simpa [Mailbox.counted, hrow] using hinsert
  unfold discover
  dsimp only
  split
  · split
    · exact hcatchall _ _ rfl
    · exact h
  · exact hcatchall _ _ rfl

theorem withinQuota_sync (h : WithinQuota s t) (maildirs : List (Text × Text)) :
    WithinQuota s (syncFilesystemMailboxes s t maildirs) := by
  unfold syncFilesystemMailboxes
  induction maildirs generalizing t with
  | nil => exact h
  | cons dir rest ih => exact ih (withinQuota_discover h dir)

theorem withinQuota_apply (h : WithinQuota s t) (op : Op) : WithinQuota s (apply s t op) := by
  cases op with
  | create user_id body provisioned => exact withinQuota_create h body provisioned
  | delete address =>
    simp only [apply, deleteMailbox]
    split
    · exact h
    · exact withinQuota_mono h (currentCount_deactivate_le t address)
  | sync maildirs => exact withinQuota_sync h maildirs

theorem create_sparesOthers (s : Server) (t : Table) (user_id : String)
    (body : MailboxCreateRequest) (provisioned : Bool) :
    SparesOthers t (createMailbox s t body (some user_id) provisioned).2 user_id := by
  intro a row owner hrow hactive hown _ _
  unfold createMailbox
  split
  · exact hrow
  · rename_i claimed t' hclaim
    obtain ⟨hne, hkept⟩ := claimMailbox_lookup hclaim hrow hactive hown
    split
    · exact hkept
    · exact (rollBack_lookup_ne hne).trans hkept

end

/-- **Owners and quotas are kept** over every history, of the mailboxes that are not
catch-all. -/
theorem owners_and_quotas_kept (s : Server) (t : Table) (ht : WithinQuota s t) (ops : List Op) :
    (history s t).Always (fun _ t => WithinQuota s t) ops ∧
    (history s t).EveryStep (fun _ t op => ∀ user_id body provisioned,
      op = .create user_id body provisioned → SparesOthers t (apply s t op) user_id) ops := by
  constructor
  · refine Machine.always_of_preserved (P := fun _ t => WithinQuota s t) ops ht ?_
    intro pre op hbefore
    rw [Machine.run_snoc]
    exact withinQuota_apply hbefore op
  · rintro pre op - user_id body provisioned rfl
    exact create_sparesOthers s _ user_id body provisioned

/-- A test server: an administrator, and a user with one mailbox to spend. -/
def testServer : Server where
  lower := Text.asciiLower
  domain := "x.org".toList
  is_production := false
  catch_all_enabled := true
  users user_id :=
    if user_id = "admin" then some ⟨true, true, 5⟩
    else if user_id = "eve" then some ⟨false, true, 1⟩
    else none
  catchall_owner := some "admin"
  registered _ := false
  active_domains := 0

def request (username : String) : MailboxCreateRequest :=
  { username := username.toList, password := "correct horse".toList }

theorem owners_and_quotas_kept_eve :
    (history testServer ∅).Always (fun _ t => WithinQuota testServer t)
      [.create "eve" (request "a") true, .create "eve" (request "b") true] := by
  have hempty : WithinQuota testServer ∅ := by
    intro _ limit _
    change ((0 : Nat) : Int) ≤ max 0 limit
    omega
  exact (owners_and_quotas_kept testServer ∅ hempty _).1

/-- The active mailboxes of a user, catch-all ones as well. -/
def ownedCount (t : Table) (user_id : String) : Nat :=
  t.entries.countP fun entry => entry.2.user_id == some user_id && entry.2.is_active

/-- Two catch-all mailboxes of the administrator are handed to the user, whose limit
is one. -/
theorem catchall_handed_over :
    let t := syncFilesystemMailboxes testServer ∅
      [("a".toList, "x.org".toList), ("b".toList, "x.org".toList)]
    let t' := (createMailbox testServer t (request "a") (some "eve") true).2
    let t'' := (createMailbox testServer t' (request "b") (some "eve") true).2
    ((t.lookup "a@x.org".toList).bind (·.user_id) = some "admin" ∧
      (t'.lookup "a@x.org".toList).bind (·.user_id) = some "eve") ∧
    testServer.limit "eve" = some 1 ∧ ownedCount t'' "eve" = 2 := by
  decide

end MailCue.Backend.Mailboxes
