import Mathlib.Tactic.Common

/-!
# Programs that talk to a peer

A program that returns or fails and leaves a record of what has passed between it and its
peer; the peer's answers may depend on the record. What is claimed of a program is claimed
of how it ends and of what it has added to the record, wherever it starts.
-/
namespace MailCue.Lib

def Talk (ι ε α : Type) : Type := List ι → Except ε α × List ι

namespace Talk

variable {ι ε α β : Type}

instance : Monad (Talk ι ε) where
  pure a := fun log => (.ok a, log)
  bind m f := fun log =>
    match m log with
    | (.ok a, log) => f a log
    | (.error e, log) => (.error e, log)

/-- The peer answers, and that goes on record. -/
def exchange (answer : List ι → β) (event : β → ι) : Talk ι ε β := fun log =>
  (.ok (answer log), log ++ [event (answer log)])

/-- The program looks at something outside that leaves no trace. -/
def look (f : List ι → β) : Talk ι ε β := fun log => (.ok (f log), log)

def ofExcept (x : Except ε α) : Talk ι ε α := fun log => (x, log)

/-- A failure is a value here. -/
def attempt (m : Talk ι ε α) : Talk ι ε (Except ε α) := fun log => (.ok (m log).1, (m log).2)

/-- However it is started, the program ends and adds to the record as `Q` says. -/
def Gives (m : Talk ι ε α) (Q : Except ε α → List ι → Prop) : Prop :=
  ∀ log, ∃ new, (m log).2 = log ++ new ∧ Q (m log).1 new

namespace Gives

variable {m : Talk ι ε α} {f : α → Talk ι ε β} {P Q : Except ε α → List ι → Prop}

theorem mono (h : Gives m P) (himp : ∀ r new, P r new → Q r new) : Gives m Q := by
  intro log
  obtain ⟨new, hlog, hP⟩ := h log
  exact ⟨new, hlog, himp _ _ hP⟩

theorem ofPure {a : α} (h : Q (.ok a) []) : Gives (pure a) Q := fun log => ⟨[], by simp [pure], h⟩

theorem ofExcept {x : Except ε α} (h : Q x []) : Gives (Talk.ofExcept x) Q := fun log =>
  ⟨[], by simp [Talk.ofExcept], h⟩

theorem look {g : List ι → α} (h : ∀ a, Q (.ok a) []) : Gives (Talk.look g) Q := fun log =>
  ⟨[], by simp [Talk.look], h _⟩

theorem exchange {answer : List ι → α} {event : α → ι} (h : ∀ a, Q (.ok a) [event a]) :
    Gives (Talk.exchange answer event) Q := fun log => ⟨[event (answer log)], rfl, h _⟩

theorem attempt {Q : Except ε (Except ε α) → List ι → Prop}
    (h : Gives m fun r new => Q (.ok r) new) : Gives (Talk.attempt m) Q := h

/-- What the parts of a sequence give, the sequence gives. -/
theorem bind {Q : α → Except ε β → List ι → Prop} {R : Except ε β → List ι → Prop}
    (hm : Gives m P) (hf : ∀ a, Gives (f a) (Q a))
    (herror : ∀ e new, P (.error e) new → R (.error e) new)
    (hok : ∀ a new r more, P (.ok a) new → Q a r more → R r (new ++ more)) :
    Gives (m >>= f) R := by
  intro log
  obtain ⟨new, hlog, hP⟩ := hm log
  simp only [Bind.bind]
  cases hout : m log with
  | mk result log' =>
    rw [hout] at hlog hP
    simp only at hlog hP
    subst hlog
    cases result with
    | error e => exact ⟨new, rfl, herror e new hP⟩
    | ok a =>
      obtain ⟨more, hmore, hQ⟩ := hf a (log ++ new)
      exact ⟨new ++ more, by rw [hmore, List.append_assoc], hok a new _ more hP hQ⟩

/-- A look leaves nothing to account for. -/
theorem lookBind {g : List ι → α} {R : Except ε β → List ι → Prop} (h : ∀ a, Gives (f a) R) :
    Gives (Talk.look g >>= f) R := fun log => h (g log) log

/-- A program started on an empty record. -/
theorem run (h : Gives m Q) : Q (m []).1 (m []).2 := by
  obtain ⟨new, hlog, hQ⟩ := h []
  rw [List.nil_append] at hlog
  rwa [hlog]

end Gives

/-! ## Events of one kind -/

/-- The program puts nothing on record but such events. -/
def Emits (E : ι → Prop) (m : Talk ι ε α) : Prop := Gives m fun _ new => ∀ event ∈ new, E event

namespace Emits

variable {E : ι → Prop} {m : Talk ι ε α} {f : α → Talk ι ε β}

theorem ofPure (a : α) : Emits E (pure a : Talk ι ε α) := Gives.ofPure fun _ h => by cases h

theorem ofExcept (x : Except ε α) : Emits E (Talk.ofExcept x : Talk ι ε α) :=
  Gives.ofExcept fun _ h => by cases h

theorem look (g : List ι → α) : Emits E (Talk.look g : Talk ι ε α) :=
  Gives.look fun _ _ h => by cases h

theorem exchange {answer : List ι → α} {event : α → ι} (h : ∀ a, E (event a)) :
    Emits E (Talk.exchange answer event : Talk ι ε α) :=
  Gives.exchange fun a e he => by
    obtain rfl := List.mem_singleton.mp he
    exact h a

theorem attempt (h : Emits E m) : Emits E (Talk.attempt m) := Gives.attempt h

theorem bind (hm : Emits E m) (hf : ∀ a, Emits E (f a)) : Emits E (m >>= f) :=
  Gives.bind hm hf (fun _ _ h => h) fun _ _ _ _ hnew hmore e he =>
    (List.mem_append.mp he).elim (hnew e) (hmore e)

/-- A look is followed by what was seen. -/
theorem lookBind {g : List ι → α} (h : ∀ log, Emits E (f (g log))) :
    Emits E (Talk.look g >>= f) := fun log => h log log

end Emits

/-! ## Invariants of the record -/

/-- Whatever has passed, the program keeps the record as `I` says. -/
def Keeps (I : List ι → Prop) (m : Talk ι ε α) : Prop := ∀ log, I log → I (m log).2

namespace Keeps

variable {I : List ι → Prop} {m : Talk ι ε α} {f : α → Talk ι ε β}

theorem ofPure (a : α) : Keeps I (pure a : Talk ι ε α) := fun _ h => h

theorem ofExcept (x : Except ε α) : Keeps I (Talk.ofExcept x : Talk ι ε α) := fun _ h => h

theorem look (g : List ι → α) : Keeps I (Talk.look g : Talk ι ε α) := fun _ h => h

theorem exchange {answer : List ι → α} {event : α → ι}
    (h : ∀ log, I log → ∀ a, I (log ++ [event a])) :
    Keeps I (Talk.exchange answer event : Talk ι ε α) := fun log hlog => h log hlog (answer log)

theorem attempt (h : Keeps I m) : Keeps I (Talk.attempt m) := h

theorem bind (hm : Keeps I m) (hf : ∀ a, Keeps I (f a)) : Keeps I (m >>= f) := by
  intro log hlog
  have hfirst := hm log hlog
  simp only [Bind.bind]
  cases hout : m log with
  | mk result log' =>
    rw [hout] at hfirst
    cases result with
    | error e => exact hfirst
    | ok a => exact hf a log' hfirst

end Keeps

end Talk

end MailCue.Lib
