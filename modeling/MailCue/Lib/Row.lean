import Mathlib.Tactic.Common

/-!
# A row under transactions

A row of a table, and the transaction that has written it and has not ended. That one
holds the row's lock: the others read the committed row, and their writes wait.
-/
namespace MailCue.Lib

structure Row (τ ρ : Type) where
  committed : ρ
  /-- Who holds the lock, and the row it has made. -/
  writer : Option (τ × ρ) := none
  deriving DecidableEq

namespace Row

variable {τ ρ : Type} [DecidableEq τ]

def write (r : Row τ ρ) (who : τ) (f : ρ → ρ) : Option (Row τ ρ) :=
  if r.writer.isNone then some { r with writer := some (who, f r.committed) } else none

def commit (r : Row τ ρ) (who : τ) : Option (Row τ ρ) :=
  match r.writer with
  | some (holder, row) => if holder = who then some { committed := row } else none
  | none => none

def rollback (r : Row τ ρ) (who : τ) : Row τ ρ :=
  match r.writer with
  | some (holder, row) => if holder = who then { committed := r.committed } else r
  | none => r

omit [DecidableEq τ] in
theorem write_eq_some {r r' : Row τ ρ} {who : τ} {f : ρ → ρ} (h : r.write who f = some r') :
    r.writer = none ∧ r' = ⟨r.committed, some (who, f r.committed)⟩ := by
  unfold write at h
  split at h
  · next hfree =>
    cases h
    exact ⟨by simpa using hfree, rfl⟩
  · cases h

theorem commit_eq_some {r r' : Row τ ρ} {who : τ} (h : r.commit who = some r') :
    ∃ row, r.writer = some (who, row) ∧ r' = ⟨row, none⟩ := by
  unfold commit at h
  split at h
  · next holder row hwriter =>
    split at h
    · next heq =>
      cases h
      exact ⟨row, heq ▸ hwriter, rfl⟩
    · cases h
  · cases h

@[simp] theorem rollback_committed (r : Row τ ρ) (who : τ) :
    (r.rollback who).committed = r.committed := by
  unfold rollback
  split
  · split <;> rfl
  · rfl

/-- After a rollback the lock is free, or another's as before. -/
theorem rollback_writer {r : Row τ ρ} {who holder : τ} {row : ρ}
    (h : (r.rollback who).writer = some (holder, row)) :
    r.writer = some (holder, row) ∧ holder ≠ who := by
  unfold rollback at h
  split at h
  · next other made hwriter =>
    split at h
    · cases h
    · next hne =>
      rw [hwriter] at h
      cases h
      exact ⟨hwriter, hne⟩
  · next hnone =>
    rw [hnone] at h
    cases h

end Row

end MailCue.Lib
