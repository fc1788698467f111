import MailCue.Backend.Mailboxes.Service

/-!
# A creation that fails behind its commit

backend/app/mailboxes/service.py, `create_mailbox` and `_provision_system_mailbox`: the
row is committed before the mailbox is provisioned, and what a failure leaves of it. A
fresh row goes again; a row that was there keeps what the creation wrote over it and is
inactive.
-/
namespace MailCue.Backend.Mailboxes
open MailCue.Lib

/-! ## Provisioning -/

/-- The steps of `_provision_system_mailbox` that can raise. -/
inductive ProvisionStep
  | maildirPath | createMaildir | hashPassword | upsertUser | postfixMaps
  deriving DecidableEq, Repr

/-- An exception of the Postfix maps is logged only. -/
def ProvisionStep.fatal : ProvisionStep → Bool
  | postfixMaps => false
  | _ => true

/-- Whether the provisioning returns, by the step that raises. -/
def provisionSystemMailbox (raises : Option ProvisionStep) : Bool := !raises.any ProvisionStep.fatal

def createMailboxAt (s : Server) (t : Table) (body : MailboxCreateRequest)
    (user_id : Option String) (raises : Option ProvisionStep) : Except MailCueError Text × Table :=
  createMailbox s t body user_id (provisionSystemMailbox raises)

/-! ## The state a failure leaves -/

/-- Row for row the same table. -/
def Restored (t t' : Table) : Prop := ∀ a, t'.lookup a = t.lookup a

/-- The owner and the flags of a row. -/
def Mailbox.standing (row : Mailbox) : Option String × Bool × Bool :=
  (row.user_id, row.is_active, row.is_catchall)

/-- The same rows with the same owners and flags. -/
def SameStanding (t t' : Table) : Prop :=
  ∀ a, (t'.lookup a).map Mailbox.standing = (t.lookup a).map Mailbox.standing

/-- The row when the creation that wrote over it has failed. -/
def Mailbox.compensated (existing : Mailbox) (body : MailboxCreateRequest) (local_part : Text)
    (user_id : Option String) : Mailbox :=
  { existing.reactivated body local_part user_id with is_active := false }

/-- The creation hands the row to nobody else. -/
def Mailbox.KeepsOwner (existing : Mailbox) (user_id : Option String) : Prop :=
  ∀ u, user_id = some u → existing.user_id = some u

/-- The creation writes into the row the texts it has. -/
def Mailbox.KeepsTexts (existing : Mailbox) (body : MailboxCreateRequest) (local_part : Text) :
    Prop :=
  existing.display_name = (if body.display_name = [] then local_part else body.display_name) ∧
    existing.purpose = body.purpose

section
variable {s : Server} {t t₁ : Table} {body : MailboxCreateRequest} {user_id : Option String}
  {claimed : Claimed} {raises : Option ProvisionStep}

theorem createMailboxAt_failed (hclaim : claimMailbox s t body user_id = .ok (claimed, t₁))
    (hraises : raises.any ProvisionStep.fatal = true) :
    (createMailboxAt s t body user_id raises).2 = rollBack t₁ claimed := by
  simp [createMailboxAt, createMailbox, hclaim, provisionSystemMailbox, hraises]

/-- What the address has when a creation has failed. -/
theorem rollBack_lookup (hclaim : claimMailbox s t body user_id = .ok (claimed, t₁)) :
    (rollBack t₁ claimed).lookup (body.address s) = (t.lookup (body.address s)).map fun existing =>
      existing.compensated body (body.localPart s) user_id := by
  obtain ⟨-, haddress, ⟨existing, hlookup, -, hexisted, rfl⟩ | ⟨hlookup, hfresh, rfl⟩⟩ :=
    claimMailbox_ok hclaim
  · rw [rollBack, hexisted, if_pos rfl, haddress, deactivate, AList.lookup_insert, hlookup]
    exact AList.lookup_insert _
  · rw [rollBack, hfresh, if_neg (by decide), haddress, AList.lookup_erase, hlookup]
    rfl

/-- Every other address has what it had. -/
theorem rollBack_lookup_other (hclaim : claimMailbox s t body user_id = .ok (claimed, t₁))
    {a : Text} (hne : a ≠ body.address s) : (rollBack t₁ claimed).lookup a = t.lookup a := by
  obtain ⟨-, haddress, hcases⟩ := claimMailbox_ok hclaim
  rw [rollBack_lookup_ne (haddress ▸ hne)]
  rcases hcases with ⟨existing, -, -, -, rfl⟩ | ⟨-, -, rfl⟩
  · exact AList.lookup_insert_ne hne
  · exact AList.lookup_insert_ne hne

theorem keepsOwner_iff {existing : Mailbox} :
    existing.KeepsOwner user_id ↔ user_id.or existing.user_id = existing.user_id := by
  cases user_id with
  | none => simp [Mailbox.KeepsOwner]
  | some u => simp [Mailbox.KeepsOwner, eq_comm]

theorem compensated_eq_iff {existing : Mailbox} {local_part : Text} :
    existing.compensated body local_part user_id = existing ↔
      existing.is_active = false ∧ existing.KeepsOwner user_id ∧
        existing.KeepsTexts body local_part := by
  rw [keepsOwner_iff, Mailbox.KeepsTexts]
  cases existing
  simp only [Mailbox.compensated, Mailbox.reactivated, Mailbox.mk.injEq]
  tauto

theorem standing_compensated_iff {existing : Mailbox} {local_part : Text} :
    (existing.compensated body local_part user_id).standing = existing.standing ↔
      existing.is_active = false ∧ existing.KeepsOwner user_id := by
  rw [keepsOwner_iff]
  simp only [Mailbox.compensated, Mailbox.reactivated, Mailbox.standing, Prod.mk.injEq, and_true]
  tauto

/-- What a failure leaves as it was is what it leaves of the row that was there. -/
theorem rollBack_map_iff {β : Type} (f : Mailbox → β)
    (hclaim : claimMailbox s t body user_id = .ok (claimed, t₁)) :
    (∀ a, ((rollBack t₁ claimed).lookup a).map f = (t.lookup a).map f) ↔
      ∀ existing ∈ t.lookup (body.address s),
        f (existing.compensated body (body.localPart s) user_id) = f existing := by
  have hown := rollBack_lookup hclaim
  constructor
  · intro h existing hlookup
    have hrow := h (body.address s)
    rw [hown, Option.mem_def.mp hlookup] at hrow
    exact Option.some.inj hrow
  · intro h a
    by_cases ha : a = body.address s
    · subst ha
      rw [hown]
      cases hlookup : t.lookup (body.address s) with
      | none => rfl
      | some existing => exact congrArg some (h existing hlookup)
    · rw [rollBack_lookup_other hclaim ha]

/-- A failed creation is undone where there was no row, or an inactive one that the
creation wrote nothing new into: for owners and flags alone, one it left the owner. -/
theorem failed_creation_restores_iff
    (hclaim : claimMailbox s t body user_id = .ok (claimed, t₁))
    (hraises : raises.any ProvisionStep.fatal = true) :
    (Restored t (createMailboxAt s t body user_id raises).2 ↔
      ∀ existing ∈ t.lookup (body.address s), existing.is_active = false ∧
        existing.KeepsOwner user_id ∧ existing.KeepsTexts body (body.localPart s)) ∧
    (SameStanding t (createMailboxAt s t body user_id raises).2 ↔
      ∀ existing ∈ t.lookup (body.address s), existing.is_active = false ∧
        existing.KeepsOwner user_id) := by
  rw [createMailboxAt_failed hclaim hraises]
  have hrows := rollBack_map_iff id hclaim
  have hstanding := rollBack_map_iff Mailbox.standing hclaim
  simp only [Option.map_id_fun, id_eq, compensated_eq_iff] at hrows
  simp only [standing_compensated_iff] at hstanding
  exact ⟨hrows, hstanding⟩

end

/-! ## One server -/

/-- A server without a domain of its own in production, with the users it has. -/
private def server : Server where
  lower := Text.asciiLower
  domain := "x.org".toList
  is_production := false
  catch_all_enabled := true
  users _ := none
  catchall_owner := some "admin"
  registered _ := false
  active_domains := 0

private def dana : MailboxCreateRequest :=
  { username := "dana".toList, password := "correct horse".toList }

/-- Dana's row as the soft delete left it. -/
private def deleted : Mailbox :=
  { display_name := "dana".toList, domain := "x.org".toList, user_id := some "dana",
    is_active := false }

theorem failed_creation_restores_deleted :
    Restored (AList.singleton "dana@x.org".toList deleted)
      (createMailboxAt server (AList.singleton "dana@x.org".toList deleted) dana (some "dana")
        (some .hashPassword)).2 := by
  have hclaim : claimMailbox server (AList.singleton "dana@x.org".toList deleted) dana
      (some "dana") = .ok (⟨"dana@x.org".toList, true⟩,
        (AList.singleton "dana@x.org".toList deleted).insert "dana@x.org".toList
          (deleted.reactivated dana "dana".toList (some "dana"))) := by rfl
  refine (failed_creation_restores_iff hclaim (by decide)).1.mpr ?_
  intro existing hlookup
  obtain rfl := Option.mem_some_iff.mp hlookup
  exact ⟨rfl, fun u hu => hu, rfl, rfl⟩

/-- An active catch-all mailbox of the administrator is inactive and Eve's when her
creation has failed. -/
theorem failed_creation_takes_catchall :
    let t := syncFilesystemMailboxes server ∅ [("dana".toList, "x.org".toList)]
    let t' := (createMailboxAt server t dana (some "eve") (some .upsertUser)).2
    ((t.lookup "dana@x.org".toList).map Mailbox.standing = some (some "admin", true, true) ∧
      (t'.lookup "dana@x.org".toList).map Mailbox.standing = some (some "eve", false, true)) ∧
    ¬ SameStanding t t' ∧ ¬ Restored t t' := by
  refine ⟨by decide, fun h => ?_, fun h => ?_⟩
  · exact absurd (h "dana@x.org".toList) (by decide)
  · exact absurd (h "dana@x.org".toList) (by decide)

end MailCue.Backend.Mailboxes
