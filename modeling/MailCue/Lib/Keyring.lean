import Mathlib.Data.List.Induction
import Mathlib.Tactic.Common

/-!
# Keyrings

The public and the secret keys of one keyring, by their fingerprints. A public key
cannot be deleted while its secret key is there, so every secret key has its public
key. What a row of deletions takes out is said of the keyring before the first.
-/
namespace MailCue.Lib

structure Keyring (F : Type) where
  publicKeys : List F
  secretKeys : List F
  paired : secretKeys ⊆ publicKeys

namespace Keyring

variable {F : Type}

/-- Some call deletes the public key, and the secret key is not there or an earlier
call deletes it. -/
def Strikes (r : Keyring F) (calls : List (F × Bool)) (g : F) : Prop :=
  ∃ before behind, calls = before ++ (g, false) :: behind ∧
    (g ∈ r.secretKeys → (g, true) ∈ before)

theorem strikes_snoc (r : Keyring F) (g : F) (calls : List (F × Bool)) (call : F × Bool) :
    r.Strikes (calls ++ [call]) g ↔
      r.Strikes calls g ∨ call = (g, false) ∧ (g ∈ r.secretKeys → (g, true) ∈ calls) := by
  constructor
  · rintro ⟨before, behind, hcalls, hsecret⟩
    rcases List.eq_nil_or_concat behind with rfl | ⟨behind, last, rfl⟩
    · obtain ⟨rfl, hlast⟩ := List.append_inj' hcalls rfl
      cases hlast
      exact .inr ⟨rfl, hsecret⟩
    · rw [List.concat_eq_append, ← List.cons_append, ← List.append_assoc] at hcalls
      obtain ⟨hinit, -⟩ := List.append_inj' hcalls rfl
      exact .inl ⟨before, behind, hinit, hsecret⟩
  · rintro (⟨before, behind, rfl, hsecret⟩ | ⟨rfl, hsecret⟩)
    · exact ⟨before, behind ++ [call], by simp, hsecret⟩
    · exact ⟨calls, [], rfl, hsecret⟩

variable [DecidableEq F]

def empty : Keyring F := ⟨[], [], List.nil_subset _⟩

def importKey (r : Keyring F) (key : F × Bool) : Keyring F where
  publicKeys := r.publicKeys.insert key.1
  secretKeys := if key.2 then r.secretKeys.insert key.1 else r.secretKeys
  paired := by
    have hkept : r.secretKeys ⊆ r.publicKeys.insert key.1 := fun g hg =>
      List.mem_insert_of_mem (r.paired hg)
    split
    · intro g hg
      rcases List.mem_insert_iff.mp hg with rfl | hold
      · exact List.mem_insert_self
      · exact hkept hold
    · exact hkept

/-- Each key with whether its secret part comes with it. -/
def importAll (r : Keyring F) (keys : List (F × Bool)) : Keyring F := keys.foldl importKey r

def deleteSecret (r : Keyring F) (f : F) : Keyring F where
  publicKeys := r.publicKeys
  secretKeys := r.secretKeys.filter (· ≠ f)
  paired _ hg := r.paired (List.mem_filter.mp hg).1

def deletePublic (r : Keyring F) (f : F) : Keyring F :=
  if h : f ∈ r.secretKeys then r
  else
    { publicKeys := r.publicKeys.filter (· ≠ f)
      secretKeys := r.secretKeys
      paired := by
        intro g hg
        have hne : g ≠ f := fun heq => h (heq ▸ hg)
        exact List.mem_filter.mpr ⟨r.paired hg, by simpa using hne⟩ }

/-- A deletion with whether it is of the secret key. -/
def delete (r : Keyring F) (call : F × Bool) : Keyring F :=
  if call.2 then r.deleteSecret call.1 else r.deletePublic call.1

def deleteAll (r : Keyring F) (calls : List (F × Bool)) : Keyring F := calls.foldl delete r

/-! ## Importing -/

variable (r : Keyring F) (f g : F)

@[simp] theorem mem_public_importKey (key : F × Bool) :
    g ∈ (r.importKey key).publicKeys ↔ g = key.1 ∨ g ∈ r.publicKeys :=
  List.mem_insert_iff

theorem mem_public_importAll (keys : List (F × Bool)) :
    g ∈ (r.importAll keys).publicKeys ↔ g ∈ r.publicKeys ∨ g ∈ keys.map Prod.fst := by
  unfold importAll
  induction keys generalizing r with
  | nil => simp
  | cons key keys ih =>
    rw [List.foldl_cons, ih, mem_public_importKey, List.map_cons, List.mem_cons]
    tauto

/-! ## Deleting -/

@[simp] theorem deleteSecret_publicKeys : (r.deleteSecret f).publicKeys = r.publicKeys := rfl

@[simp] theorem mem_secret_deleteSecret :
    g ∈ (r.deleteSecret f).secretKeys ↔ g ∈ r.secretKeys ∧ g ≠ f := by
  simp [deleteSecret]

@[simp] theorem deletePublic_secretKeys : (r.deletePublic f).secretKeys = r.secretKeys := by
  unfold deletePublic
  split <;> rfl

@[simp] theorem mem_public_deletePublic :
    g ∈ (r.deletePublic f).publicKeys ↔ g ∈ r.publicKeys ∧ (g = f → f ∈ r.secretKeys) := by
  unfold deletePublic
  split
  · rename_i h
    simp [h]
  · rename_i h
    simp [h]

theorem mem_secret_deleteAll (calls : List (F × Bool)) :
    g ∈ (r.deleteAll calls).secretKeys ↔ g ∈ r.secretKeys ∧ (g, true) ∉ calls := by
  induction calls using List.reverseRecOn with
  | nil => simp [deleteAll]
  | append_singleton calls call ih =>
    obtain ⟨f, secret⟩ := call
    rw [deleteAll, List.foldl_append, List.foldl_cons, List.foldl_nil, ← deleteAll]
    cases secret with
    | true =>
      simp only [delete, if_true, mem_secret_deleteSecret, ih, List.mem_append,
        List.mem_singleton, Prod.mk.injEq, and_true]
      tauto
    | false =>
      simp only [delete, Bool.false_eq_true, if_false, deletePublic_secretKeys, ih,
        List.mem_append, List.mem_singleton, Prod.mk.injEq, Bool.true_eq_false, and_false, or_false]

/-- What a row of deletions leaves. -/
theorem mem_public_deleteAll (calls : List (F × Bool)) :
    g ∈ (r.deleteAll calls).publicKeys ↔ g ∈ r.publicKeys ∧ ¬ r.Strikes calls g := by
  induction calls using List.reverseRecOn with
  | nil => simp [deleteAll, Strikes]
  | append_singleton calls call ih =>
    obtain ⟨f, secret⟩ := call
    rw [strikes_snoc, deleteAll, List.foldl_append, List.foldl_cons, List.foldl_nil, ← deleteAll]
    cases secret with
    | true =>
      simp only [delete, if_true, deleteSecret_publicKeys, ih, Prod.mk.injEq,
        Bool.true_eq_false, and_false, false_and, or_false]
    | false =>
      simp only [delete, Bool.false_eq_true, if_false, mem_public_deletePublic, ih,
        mem_secret_deleteAll, Prod.mk.injEq, and_true]
      by_cases hfg : g = f
      · subst hfg
        tauto
      · simp [hfg, Ne.symm hfg]

end Keyring

end MailCue.Lib
