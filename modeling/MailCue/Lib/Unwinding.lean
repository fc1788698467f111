import Mathlib.Data.List.Basic
import Mathlib.Tactic.Common

/-!
# Runs that show nothing of a hidden part

A machine that answers its inputs. Where hiding a part of the state changes no answer
and commutes with the step, it does so along a whole run; two states that are the same
with the part hidden are then answered alike.
-/
namespace MailCue.Lib

structure Responder (σ ι ο : Type) where
  step : σ → ι → ο × σ

namespace Responder

variable {σ ι ο : Type} (m : Responder σ ι ο)

def outputs : σ → List ι → List ο
  | _, [] => []
  | s, i :: inputs => (m.step s i).1 :: outputs (m.step s i).2 inputs

def after : σ → List ι → σ
  | s, [] => s
  | s, i :: inputs => after (m.step s i).2 inputs

/-- `G` of every input in the state that reads it. -/
def Meets (G : σ → ι → Prop) : σ → List ι → Prop
  | _, [] => True
  | s, i :: inputs => G s i ∧ Meets G (m.step s i).2 inputs

/-- Of states with `K` and inputs with `G`, a step commutes with `hide`. -/
structure Unwinds (hide : σ → σ) (K : σ → Prop) (G : σ → ι → Prop) : Prop where
  output : ∀ {s i}, K s → G s i → (m.step (hide s) i).1 = (m.step s i).1
  next : ∀ {s i}, K s → G s i → (m.step (hide s) i).2 = hide (m.step s i).2
  keeps : ∀ {s i}, K s → G s i → K (m.step s i).2

variable {m} {hide : σ → σ} {K : σ → Prop} {G : σ → ι → Prop} {s s' : σ} {inputs : List ι}

theorem Unwinds.run (h : m.Unwinds hide K G) (hK : K s) (hG : m.Meets G s inputs) :
    m.outputs (hide s) inputs = m.outputs s inputs ∧
      m.after (hide s) inputs = hide (m.after s inputs) := by
  induction inputs generalizing s with
  | nil => exact ⟨rfl, rfl⟩
  | cons i inputs ih =>
    obtain ⟨hi, hrest⟩ := hG
    obtain ⟨houtputs, hafter⟩ := ih (h.keeps hK hi) hrest
    simp only [outputs, after]
    rw [h.output hK hi, h.next hK hi]
    exact ⟨by rw [houtputs], hafter⟩

/-- Two runs from states that differ in the hidden part alone. -/
theorem Unwinds.same (h : m.Unwinds hide K G) (hsame : hide s = hide s') (hK : K s) (hK' : K s')
    (hG : m.Meets G s inputs) (hG' : m.Meets G s' inputs) :
    m.outputs s inputs = m.outputs s' inputs ∧
      hide (m.after s inputs) = hide (m.after s' inputs) := by
  obtain ⟨houtputs, hafter⟩ := h.run hK hG
  obtain ⟨houtputs', hafter'⟩ := h.run hK' hG'
  rw [← houtputs, ← hafter, ← houtputs', ← hafter', hsame]
  exact ⟨rfl, rfl⟩

/-- A view that no step changes. -/
theorem view_kept {τ : Type} (view : σ → τ)
    (hstep : ∀ {s i}, K s → G s i → view (m.step s i).2 = view s ∧ K (m.step s i).2)
    (hK : K s) (hG : m.Meets G s inputs) : view (m.after s inputs) = view s := by
  induction inputs generalizing s with
  | nil => rfl
  | cons i inputs ih =>
    obtain ⟨hi, hrest⟩ := hG
    obtain ⟨hview, hkeeps⟩ := hstep hK hi
    exact (ih hkeeps hrest).trans hview

end Responder

end MailCue.Lib
