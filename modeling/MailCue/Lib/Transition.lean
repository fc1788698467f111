import Mathlib.Data.List.Induction
import Mathlib.Logic.Relation
import Mathlib.Order.RelClasses
import Mathlib.Tactic.Common

/-!
# Machines and transition systems

A `Machine` reads one input at a time; a `System` takes labelled steps, any
enabled one next. Both come with the rule that proves an invariant from its
first state and one step, where the step may assume a guard that every step of
the run met, and with the rule that makes such a guard exact. Of a state, what its
steps can lead to, and the rule by which they cannot.
-/
namespace MailCue.Lib

/-! ## Machines -/

structure Machine (σ ι : Type) where
  start : σ
  step : σ → ι → σ

namespace Machine

variable {σ ι : Type} (m : Machine σ ι)

def run (inputs : List ι) : σ := inputs.foldl m.step m.start

@[simp] theorem run_snoc (pre : List ι) (i : ι) : m.run (pre ++ [i]) = m.step (m.run pre) i := by
  simp [run]

/-- `P` of every prefix read and the state after it. -/
def Always (P : List ι → σ → Prop) (inputs : List ι) : Prop :=
  ∀ pre, pre <+: inputs → P pre (m.run pre)

/-- `G` of every input, with the prefix before it and the state it is read in. -/
def EveryStep (G : List ι → σ → ι → Prop) (inputs : List ι) : Prop :=
  ∀ pre i, pre ++ [i] <+: inputs → G pre (m.run pre) i

variable {m}

theorem always_of_step {P : List ι → σ → Prop} {G : List ι → σ → ι → Prop} {inputs : List ι}
    (hstart : P [] m.start)
    (hstep : ∀ pre i, P pre (m.run pre) → G pre (m.run pre) i →
      P (pre ++ [i]) (m.run (pre ++ [i])))
    (hguard : m.EveryStep G inputs) : m.Always P inputs := by
  intro pre
  induction pre using List.reverseRecOn with
  | nil => exact fun _ => hstart
  | append_singleton pre i ih =>
    intro hpre
    exact hstep pre i (ih ((List.prefix_append pre [i]).trans hpre)) (hguard pre i hpre)

/-- An invariant no guard is needed for. -/
theorem always_of_preserved {P : List ι → σ → Prop} (inputs : List ι) (hstart : P [] m.start)
    (hstep : ∀ pre i, P pre (m.run pre) → P (pre ++ [i]) (m.run (pre ++ [i]))) :
    m.Always P inputs :=
  always_of_step (G := fun _ _ _ => True) hstart (fun pre i h _ => hstep pre i h)
    (fun _ _ _ => trivial)

/-- Where a step that breaks the guard breaks the invariant, the guard is exact.
Both may use an invariant `K` that holds anyway. -/
theorem always_iff_everyStep {K P : List ι → σ → Prop} {G : List ι → σ → ι → Prop}
    {inputs : List ι} (hinv : m.Always K inputs) (hstart : P [] m.start)
    (hstep : ∀ pre i, K pre (m.run pre) → P pre (m.run pre) → G pre (m.run pre) i →
      P (pre ++ [i]) (m.run (pre ++ [i])))
    (hbreak : ∀ pre i, K pre (m.run pre) → P (pre ++ [i]) (m.run (pre ++ [i])) →
      G pre (m.run pre) i) :
    m.Always P inputs ↔ m.EveryStep G inputs := by
  have hK : ∀ pre i, pre ++ [i] <+: inputs → K pre (m.run pre) := fun pre i hi =>
    hinv pre ((List.prefix_append pre [i]).trans hi)
  constructor
  · intro h pre i hi
    exact hbreak pre i (hK pre i hi) (h _ hi)
  · intro hguard
    have hboth : m.EveryStep (fun pre s i => K pre s ∧ G pre s i) inputs := fun pre i hi =>
      ⟨hK pre i hi, hguard pre i hi⟩
    exact always_of_step hstart (fun pre i hp hg => hstep pre i hg.1 hp hg.2) hboth

/-- Under an invariant, two step properties that agree on it agree on every run. -/
theorem everyStep_congr {P : List ι → σ → Prop} {G H : List ι → σ → ι → Prop} {inputs : List ι}
    (hinv : m.Always P inputs)
    (h : ∀ pre i, P pre (m.run pre) → (G pre (m.run pre) i ↔ H pre (m.run pre) i)) :
    m.EveryStep G inputs ↔ m.EveryStep H inputs := by
  have hpre : ∀ pre i, pre ++ [i] <+: inputs → P pre (m.run pre) := fun pre i hi =>
    hinv pre ((List.prefix_append pre [i]).trans hi)
  constructor
  · intro hG pre i hi
    exact (h pre i (hpre pre i hi)).mp (hG pre i hi)
  · intro hH pre i hi
    exact (h pre i (hpre pre i hi)).mpr (hH pre i hi)

/-- A state that no input changes is where the run ends. -/
theorem run_of_stuck {pre inputs : List ι} (hpre : pre <+: inputs)
    (hstuck : ∀ i, m.step (m.run pre) i = m.run pre) : m.run inputs = m.run pre := by
  obtain ⟨post, rfl⟩ := hpre
  induction post using List.reverseRecOn with
  | nil => rw [List.append_nil]
  | append_singleton post i ih => rw [← List.append_assoc, run_snoc, ih, hstuck]

theorem everyStep_nil (G : List ι → σ → ι → Prop) : m.EveryStep G [] := by
  intro pre i h
  simp at h

theorem EveryStep.snoc {G : List ι → σ → ι → Prop} {inputs : List ι} {i : ι}
    (h : m.EveryStep G inputs) (hi : G inputs (m.run inputs) i) : m.EveryStep G (inputs ++ [i]) := by
  intro pre j hpre
  rcases List.prefix_concat_iff.mp hpre with heq | hprefix
  · obtain ⟨rfl, hlast⟩ := List.append_inj' heq rfl
    cases hlast
    exact hi
  · exact h pre j hprefix

end Machine

/-! ## What a state can come to -/

section CanReach

variable {σ ι : Type} {step : σ → ι → σ} {allowed : ι → Prop} {P : σ → Prop} {s : σ}

/-- Some allowed inputs lead from here to a state with `P`. -/
def CanReach (step : σ → ι → σ) (allowed : ι → Prop) (P : σ → Prop) (s : σ) : Prop :=
  ∃ s', Relation.ReflTransGen (fun s s' => ∃ i, allowed i ∧ step s i = s') s s' ∧ P s'

theorem CanReach.here (h : P s) : CanReach step allowed P s := ⟨s, .refl, h⟩

theorem CanReach.next {i : ι} (hi : allowed i) (h : CanReach step allowed P (step s i)) :
    CanReach step allowed P s := by
  obtain ⟨s', hsteps, hP⟩ := h
  exact ⟨s', .head ⟨i, hi, rfl⟩ hsteps, hP⟩

/-- Where `P` is not reached, some allowed input keeps `Q` and lowers the measure. -/
theorem canReach_of_decreasing {α : Type} [LT α] [WellFoundedLT α] {Q : σ → Prop} (measure : σ → α)
    (hstep : ∀ s, Q s → P s ∨ ∃ i, allowed i ∧ Q (step s i) ∧ measure (step s i) < measure s)
    {s : σ} (hQ : Q s) : CanReach step allowed P s := by
  induction hm : measure s using WellFoundedLT.induction generalizing s with
  | ind a ih =>
    rcases hstep s hQ with hP | ⟨i, hi, hnext, hless⟩
    · exact .here hP
    · exact .next hi (ih _ (hm ▸ hless) hnext rfl)

/-- What every allowed input keeps and `P` excludes is never left for `P`. -/
theorem not_canReach_of_preserved {Q : σ → Prop} (hQ : Q s)
    (hstep : ∀ s i, allowed i → Q s → Q (step s i)) (hP : ∀ s, Q s → ¬ P s) :
    ¬ CanReach step allowed P s := by
  rintro ⟨s', hsteps, hreached⟩
  refine hP s' ?_ hreached
  clear hreached
  induction hsteps with
  | refl => exact hQ
  | tail hbefore hlast ih =>
    obtain ⟨i, hi, rfl⟩ := hlast
    exact hstep _ i hi ih

end CanReach

/-! ## Transition systems -/

structure System (σ α : Type) where
  init : σ → Prop
  step : σ → α → σ → Prop

namespace System

variable {σ α : Type}

/-- The states a run of labelled steps reaches, with the labels in order. -/
inductive Run (S : System σ α) : List α → σ → Prop
  | start (s : σ) (first : S.init s) : Run S [] s
  | next (labels : List α) (s s' : σ) (a : α) (run : Run S labels s) (taken : S.step s a s') :
      Run S (labels ++ [a]) s'

/-- The same system, taking only the steps that meet `G`. -/
def guarded (S : System σ α) (G : σ → α → Prop) : System σ α where
  init := S.init
  step s a s' := S.step s a s' ∧ G s a

/-- The run rule: what holds first and survives every step holds at the end of
every run. -/
theorem Run.invariant {S : System σ α} {P : List α → σ → Prop}
    (hstart : ∀ s, S.init s → P [] s)
    (hstep : ∀ labels s a s', P labels s → S.step s a s' → P (labels ++ [a]) s')
    {labels : List α} {s : σ} (h : S.Run labels s) : P labels s := by
  induction h with
  | start s first => exact hstart s first
  | next labels s s' a run taken ih => exact hstep labels s a s' ih taken

theorem Run.unguarded {S : System σ α} {G : σ → α → Prop} {labels : List α} {s : σ}
    (h : (S.guarded G).Run labels s) : S.Run labels s := by
  induction h with
  | start s first => exact .start s first
  | next labels s s' a run taken ih => exact .next labels s s' a ih taken.1

/-- A guard that an invariant of the guarded runs improves. -/
theorem Run.guard_imp {S : System σ α} {G H : σ → α → Prop} {P : List α → σ → Prop}
    (hinv : ∀ labels s, (S.guarded G).Run labels s → P labels s)
    (himp : ∀ labels s a s', P labels s → S.step s a s' → G s a → H s a)
    {labels : List α} {s : σ} (h : (S.guarded G).Run labels s) : (S.guarded H).Run labels s := by
  induction h with
  | start s first => exact .start s first
  | next labels s s' a run taken ih =>
    obtain ⟨hstep, hG⟩ := taken
    exact .next labels s s' a ih ⟨hstep, himp labels s a s' (hinv labels s run) hstep hG⟩

/-- A run goes on by any actions a step function accepts one after another, as
long as the system allows each of them. -/
theorem Run.exec {S : System σ α} (f : σ → α → Option σ) {labels : List α} {s : σ}
    (h : S.Run labels s) (acts : List α) (s' : σ) (hexec : acts.foldlM f s = some s')
    (hstep : ∀ a ∈ acts, ∀ t t', f t a = some t' → S.step t a t') : S.Run (labels ++ acts) s' := by
  induction acts generalizing labels s with
  | nil =>
    obtain rfl : s = s' := by simpa using hexec
    simpa using h
  | cons a acts ih =>
    obtain ⟨t, ht, hrest⟩ : ∃ t, f s a = some t ∧ acts.foldlM f t = some s' := by
      simpa [List.foldlM_cons, Option.bind_eq_some_iff] using hexec
    have hnext : S.Run (labels ++ [a]) t := .next labels s t a h (hstep a (by simp) s t ht)
    have hrun := ih hnext hrest fun a' ha' => hstep a' (List.mem_cons_of_mem _ ha')
    simpa using hrun

theorem Run.exec_guarded {S : System σ α} {G : σ → α → Prop} [∀ s a, Decidable (G s a)]
    (f : σ → α → Option σ) {labels : List α} {s : σ} (h : (S.guarded G).Run labels s)
    (acts : List α) (s' : σ)
    (hexec : acts.foldlM (fun t a => if G t a then f t a else none) s = some s')
    (hstep : ∀ t a t', f t a = some t' → S.step t a t') : (S.guarded G).Run (labels ++ acts) s' := by
  refine h.exec _ acts s' hexec fun a _ t t' ht => ?_
  split at ht
  · rename_i hG
    exact ⟨hstep t a t' ht, hG⟩
  · cases ht

end System

end MailCue.Lib
