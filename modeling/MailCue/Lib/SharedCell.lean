import MailCue.Lib.Transition

/-!
# A shared cell

A value that many operations rewrite, each in two steps: it reads the value, and
later writes back what it makes of what it read, or gives up. An operation that takes the lock
reads only while no other holds it. Where every write finds the value as its
operation read it, a run is the run of the same operations one after another.
-/
namespace MailCue.Lib

structure Cell (σ ω : Type) where
  value : σ
  /-- The operations under way, with what they read. -/
  working : List (ω × σ)
  /-- The operations in the order of their writes. -/
  finished : List ω
  deriving DecidableEq

namespace Cell

/-- One step of an operation: its read, or its write with what it had read, or no
write after all. -/
inductive Step (σ ω : Type)
  | begin (op : ω)
  | finish (op : ω) (read : σ)
  | abandon (op : ω) (read : σ)

def Step.op {σ ω : Type} : Step σ ω → ω
  | .begin op => op
  | .finish op _ => op
  | .abandon op _ => op

variable {σ ω : Type} [DecidableEq σ] [DecidableEq ω] (locked : ω → Bool) (apply : ω → σ → σ)

def first (value : σ) : Cell σ ω := ⟨value, [], []⟩

def step (c : Cell σ ω) : Step σ ω → Option (Cell σ ω)
  | .begin op =>
    if locked op && c.working.any fun job => locked job.1 then none
    else some { c with working := (op, c.value) :: c.working }
  | .finish op read =>
    if (op, read) ∈ c.working then
      some ⟨apply op read, c.working.erase (op, read), c.finished ++ [op]⟩
    else none
  | .abandon op read =>
    if (op, read) ∈ c.working then some { c with working := c.working.erase (op, read) }
    else none

/-- The operations one after another. -/
def serial (value : σ) : Machine σ ω where
  start := value
  step s op := apply op s

/-- All interleavings. -/
def interleaved (value : σ) : System (Cell σ ω) (Step σ ω) where
  init c := c = first value
  step c a c' := c.step locked apply a = some c'

/-- A write finds the value as its operation read it. -/
def Undisturbed {σ ω : Type} (c : Cell σ ω) : Step σ ω → Prop
  | .finish _ read => read = c.value
  | _ => True

/-- `G` of an operation and the value it is about to write over. -/
def OnWrite {σ ω : Type} (G : ω → σ → Prop) (c : Cell σ ω) : Step σ ω → Prop
  | .finish op _ => G op c.value
  | _ => True

instance (c : Cell σ ω) (a : Step σ ω) : Decidable (c.Undisturbed a) :=
  match a with
  | .begin _ => .isTrue trivial
  | .abandon _ _ => .isTrue trivial
  | .finish _ read => inferInstanceAs (Decidable (read = c.value))

instance (G : ω → σ → Prop) [∀ op s, Decidable (G op s)] (c : Cell σ ω) (a : Step σ ω) :
    Decidable (c.OnWrite G a) :=
  match a with
  | .begin _ => .isTrue trivial
  | .abandon _ _ => .isTrue trivial
  | .finish op _ => inferInstanceAs (Decidable (G op c.value))

variable {locked apply} {value : σ} {labels : List (Step σ ω)} {c c' : Cell σ ω}

theorem step_begin {op : ω} (h : c.step locked apply (.begin op) = some c') :
    (locked op = true → ∀ job ∈ c.working, locked job.1 = false) ∧
      c' = { c with working := (op, c.value) :: c.working } := by
  simp only [step] at h
  split at h
  · cases h
  · rename_i hfree
    cases h
    refine ⟨fun hop job hjob => ?_, rfl⟩
    simp only [hop, Bool.true_and, List.any_eq_true, not_exists, not_and] at hfree
    simpa using hfree job hjob

theorem step_finish {op : ω} {read : σ} (h : c.step locked apply (.finish op read) = some c') :
    (op, read) ∈ c.working ∧
      c' = ⟨apply op read, c.working.erase (op, read), c.finished ++ [op]⟩ := by
  simp only [step] at h
  split at h
  · rename_i hmem
    cases h
    exact ⟨hmem, rfl⟩
  · cases h

theorem step_abandon {op : ω} {read : σ} (h : c.step locked apply (.abandon op read) = some c') :
    (op, read) ∈ c.working ∧ c' = { c with working := c.working.erase (op, read) } := by
  simp only [step] at h
  split at h
  · rename_i hmem
    cases h
    exact ⟨hmem, rfl⟩
  · cases h

/-- A step that ends an operation leaves the others under way. -/
theorem working_of_end {a : Step σ ω} (h : c.step locked apply a = some c')
    (hend : ∀ op, a ≠ .begin op) :
    (∀ job ∈ c'.working, job ∈ c.working) ∧
      ∀ job ∈ c.working, job.1 ≠ a.op → job ∈ c'.working := by
  have herase : ∀ op read, a.op = op → c'.working = c.working.erase (op, read) →
      (∀ job ∈ c'.working, job ∈ c.working) ∧
        ∀ job ∈ c.working, job.1 ≠ a.op → job ∈ c'.working := by
    rintro op read rfl hworking
    rw [hworking]
    refine ⟨fun job => List.mem_of_mem_erase, fun job hjob hne => ?_⟩
    apply (List.mem_erase_of_ne _).mpr hjob
    rintro rfl
    exact hne rfl
  cases a with
  | begin op => exact absurd rfl (hend op)
  | finish op read =>
    obtain ⟨-, rfl⟩ := step_finish h
    exact herase op read rfl rfl
  | abandon op read =>
    obtain ⟨-, rfl⟩ := step_abandon h
    exact herase op read rfl rfl

/-- A run whose writes are undisturbed is serial, and what its writes met is met by
the serial run. -/
theorem run_serial {G : ω → σ → Prop}
    (h : ((interleaved locked apply value).guarded fun c a => Undisturbed c a ∧ OnWrite G c a).Run
      labels c) :
    c.value = (serial apply value).run c.finished ∧
      (serial apply value).EveryStep (fun _ s op => G op s) c.finished := by
  refine h.invariant (P := fun _ c => c.value = (serial apply value).run c.finished ∧
      (serial apply value).EveryStep (fun _ s op => G op s) c.finished) ?_ ?_
  · rintro c rfl
    exact ⟨rfl, Machine.everyStep_nil _⟩
  · rintro labels c a c' ⟨hvalue, hevery⟩ ⟨hstep, hquiet, hmet⟩
    cases a with
    | begin op =>
      obtain ⟨-, rfl⟩ := step_begin hstep
      exact ⟨hvalue, hevery⟩
    | finish op read =>
      obtain ⟨-, rfl⟩ := step_finish hstep
      obtain rfl : read = c.value := hquiet
      have hmet' : G op ((serial apply value).run c.finished) := hvalue ▸ hmet
      refine ⟨?_, hevery.snoc hmet'⟩
      rw [Machine.run_snoc, ← hvalue]
      rfl
    | abandon op read =>
      obtain ⟨-, rfl⟩ := step_abandon hstep
      exact ⟨hvalue, hevery⟩

/-- What the lock is for: where every operation takes it, at most one is under way,
and nothing was written since it read. -/
theorem run_locked
    (h : ((interleaved locked apply value).guarded fun _ a => locked a.op = true).Run labels c) :
    c.working = [] ∨ ∃ op, locked op = true ∧ c.working = [(op, c.value)] := by
  refine h.invariant (P := fun _ c =>
    c.working = [] ∨ ∃ op, locked op = true ∧ c.working = [(op, c.value)]) ?_ ?_
  · rintro c rfl
    exact .inl rfl
  · rintro labels c a c' ih ⟨hstep, hop⟩
    cases a with
    | begin op =>
      obtain ⟨hfree, rfl⟩ := step_begin hstep
      rcases ih with hnone | ⟨other, hother, hone⟩
      · exact .inr ⟨op, hop, by rw [hnone]⟩
      · have hno := hfree hop (other, c.value) (by simp [hone])
        cases hno.symm.trans hother
    | finish op read =>
      obtain ⟨hmem, rfl⟩ := step_finish hstep
      rcases ih with hnone | ⟨other, -, hone⟩
      · simp [hnone] at hmem
      · rw [hone, List.mem_singleton] at hmem
        cases hmem
        exact .inl (by simp [hone])
    | abandon op read =>
      obtain ⟨hmem, rfl⟩ := step_abandon hstep
      rcases ih with hnone | ⟨other, -, hone⟩
      · simp [hnone] at hmem
      · rw [hone, List.mem_singleton] at hmem
        cases hmem
        exact .inl (by simp [hone])

end Cell

end MailCue.Lib
