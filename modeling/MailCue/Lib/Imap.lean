import Mathlib.Logic.Function.Basic
import MailCue.Lib.Text

/-!
# IMAP commands and what they do

Command lines, message numbers and sets of them, and the effect of the UID commands
on a store. A line ends at its break, unless a literal is announced at its end. A
single number names the message with that UID and no other.
-/
namespace MailCue.Lib.Imap

/-! ## Lines -/

def isDigit (c : Char) : Bool := c.isDigit

/-- `{n}` or `{n+}` at the end: what follows the break belongs to the same command. -/
def AnnouncesLiteral (text : Text) : Prop :=
  ∃ front digits, (text = front ++ '{' :: digits ++ ['}'] ∨
    text = front ++ '{' :: digits ++ ['+', '}']) ∧ ∀ c ∈ digits, isDigit c = true

/-- One command, without its closing break. -/
def SingleLine (text : Text) : Prop :=
  '\r' ∉ text ∧ '\n' ∉ text ∧ ¬ AnnouncesLiteral text

/-- A literal that a text ends in is in what follows its last `{`. -/
theorem announcesLiteral_append {front text : Text} (h : '{' ∉ front) :
    AnnouncesLiteral (front ++ text) ↔ AnnouncesLiteral text := by
  have hsplit : ∀ pre tail : Text, front ++ text = pre ++ '{' :: tail →
      ∃ pre', text = pre' ++ '{' :: tail := by
    intro pre tail heq
    rcases List.append_eq_append_iff.mp heq with ⟨mid, rfl, htext⟩ | ⟨mid, hfront, htail⟩
    · exact ⟨mid, htext⟩
    · cases mid with
      | nil => exact ⟨[], by simpa using htail.symm⟩
      | cons c mid =>
        obtain ⟨rfl, -⟩ := List.cons.inj htail
        exact absurd (by simp [hfront]) h
  constructor
  · rintro ⟨pre, digits, heq | heq, hdigits⟩
    · obtain ⟨pre', htext⟩ := hsplit pre (digits ++ ['}']) (by simpa using heq)
      exact ⟨pre', digits, .inl (by simpa using htext), hdigits⟩
    · obtain ⟨pre', htext⟩ := hsplit pre (digits ++ ['+', '}']) (by simpa using heq)
      exact ⟨pre', digits, .inr (by simpa using htext), hdigits⟩
  · rintro ⟨pre, digits, rfl | rfl, hdigits⟩
    · exact ⟨front ++ pre, digits, .inl (by simp), hdigits⟩
    · exact ⟨front ++ pre, digits, .inr (by simp), hdigits⟩

theorem announcesLiteral_getLast {text : Text} (h : AnnouncesLiteral text) :
    text.getLast? = some '}' := by
  obtain ⟨front, digits, rfl | rfl, -⟩ := h
  · rw [List.getLast?_concat]
  · rw [show front ++ '{' :: digits ++ ['+', '}'] = (front ++ '{' :: digits ++ ['+']) ++ ['}'] by simp,
      List.getLast?_concat]

/-- What stands in front of a text, without a break or a brace, does not make it two
lines. -/
theorem singleLine_append {front text : Text} (hcr : '\r' ∉ front) (hlf : '\n' ∉ front)
    (hbrace : '{' ∉ front) : SingleLine (front ++ text) ↔ SingleLine text := by
  simp [SingleLine, hcr, hlf, announcesLiteral_append hbrace]

/-- A text that does not end in a brace announces nothing. -/
theorem singleLine_of_getLast {text : Text} (hcr : '\r' ∉ text) (hlf : '\n' ∉ text)
    (hlast : text.getLast? ≠ some '}') : SingleLine text :=
  ⟨hcr, hlf, fun h => hlast (announcesLiteral_getLast h)⟩

/-! ## Message numbers -/

/-- `nz-number` -/
def messageNumber (text : Text) : Option Nat :=
  if text.all isDigit ∧ text.head?.any (· != '0') then
    let n := text.foldl (fun n c => 10 * n + (c.toNat - '0'.toNat)) 0
    if n < 4294967296 then some n else none
  else none

/-- `seq-number`: a number, or `*` for the largest in use. -/
def seqNumber (largest : Nat) (text : Text) : Option Nat :=
  if text = ['*'] then some largest else messageNumber text

def seqRange (largest : Nat) (text : Text) : Option (Nat × Nat) :=
  match text.splitOn ':' with
  | [a] => do
    let n ← seqNumber largest a
    return (n, n)
  | [a, b] => do
    let n ← seqNumber largest a
    let m ← seqNumber largest b
    return (min n m, max n m)
  | _ => none

/-- Whether a `sequence-set` names a UID. What is none names nothing. -/
def names (largest : Nat) (set : Text) (uid : Nat) : Bool :=
  match (set.splitOn ',').mapM (seqRange largest) with
  | none => false
  | some ranges => ranges.any fun r => decide (r.1 ≤ uid) && decide (uid ≤ r.2)

theorem digits_of_messageNumber {text : Text} {n : Nat} (h : messageNumber text = some n) :
    ∀ c ∈ text, isDigit c = true := by
  unfold messageNumber at h
  split at h
  · rename_i hall
    exact List.all_eq_true.mp hall.1
  · cases h

theorem not_mem_of_messageNumber {text : Text} {n : Nat} (h : messageNumber text = some n)
    {c : Char} (hc : isDigit c = false) : c ∉ text := by
  intro hmem
  rw [digits_of_messageNumber h c hmem] at hc
  cases hc

/-- A number names the message with that UID. -/
theorem names_number {text : Text} {n : Nat} (h : messageNumber text = some n) (largest uid : Nat) :
    names largest text uid = (uid == n) := by
  have hsplit : ∀ sep : Char, isDigit sep = false → text.splitOn sep = [text] := by
    intro sep hsep
    exact List.splitOn_eq_singleton (not_mem_of_messageNumber h hsep)
  have hstar : text ≠ ['*'] := by
    rintro rfl
    exact not_mem_of_messageNumber h (c := '*') (by decide) (by simp)
  have hrange : seqRange largest text = some (n, n) := by
    simp [seqRange, hsplit ':' (by decide), seqNumber, hstar, h]
  have hone : names largest text uid = (decide (n ≤ uid) && decide (uid ≤ n)) := by
    rw [names, hsplit ',' (by decide)]
    simp [hrange]
  rw [hone]
  by_cases huid : uid = n
  · simp [huid]
  · have hout : (decide (n ≤ uid) && decide (uid ≤ n)) = false := by
      by_contra hin
      simp only [Bool.not_eq_false, Bool.and_eq_true, decide_eq_true_eq] at hin
      exact huid (Nat.le_antisymm hin.2 hin.1)
    rw [hout, beq_eq_false_iff_ne.mpr huid]

/-! ## The store -/

/-- `id` says which mail it is, whichever folder a copy of it lies in. -/
structure Mail where
  id : Nat
  uid : Nat
  seen : Bool
  deleted : Bool
  deriving DecidableEq, Repr

structure Folder where
  mails : List Mail
  uidnext : Nat
  deriving DecidableEq, Repr

abbrev Store := Text → Folder

namespace Folder

variable (f : Folder)

/-- Whether a set names the mail, where `*` is the largest UID of the folder. -/
def named (set : Text) (m : Mail) : Bool := names ((f.mails.map (·.uid)).foldl max 0) set m.uid

def change (set : Text) (g : Mail → Mail) : Folder :=
  { f with mails := f.mails.map fun m => if f.named set m then g m else m }

def append (m : Mail) : Folder :=
  ⟨f.mails ++ [{ m with uid := f.uidnext }], f.uidnext + 1⟩

def expunge : Folder := { f with mails := f.mails.filter (!·.deleted) }

end Folder

namespace Store

variable (store : Store) (folder : Text)

def change (set : Text) (g : Mail → Mail) : Store :=
  Function.update store folder ((store folder).change set g)

def copy (set target : Text) : Store :=
  Function.update store target
    (((store folder).mails.filter ((store folder).named set)).foldl .append (store target))

def expunge : Store := Function.update store folder (store folder).expunge

/-- The store but for what is seen of one message. -/
def unseen (n : Nat) : Store :=
  Function.update store folder { store folder with
    mails := (store folder).mails.map fun m => if m.uid = n then { m with seen := false } else m }

end Store

/-! ## One message -/

section
variable {store store' : Store} {folder set : Text} {n : Nat}

@[simp] theorem named_number {f : Folder} {m : Mail} (h : messageNumber set = some n) :
    f.named set m = (m.uid == n) :=
  names_number h _ _

/-- Every other message is where it was, and nothing came up but copies of this one. -/
structure Confined (store store' : Store) (folder : Text) (n : Nat) : Prop where
  kept : ∀ f, ∀ m ∈ (store f).mails, ¬ (f = folder ∧ m.uid = n) → m ∈ (store' f).mails
  copies : ∀ f, ∀ m' ∈ (store' f).mails,
    m' ∈ (store f).mails ∨ ∃ m ∈ (store folder).mails, m.uid = n ∧ m'.id = m.id

theorem Confined.refl (store : Store) (folder : Text) (n : Nat) :
    Confined store store folder n :=
  ⟨fun _ _ hm _ => hm, fun _ _ hm => .inl hm⟩

/-- What has the UID in the folder is a copy of what had it. -/
theorem Confined.own (h : Confined store store' folder n) {m' : Mail}
    (hm' : m' ∈ (store' folder).mails) (huid : m'.uid = n) :
    ∃ m ∈ (store folder).mails, m.uid = n ∧ m'.id = m.id := by
  rcases h.copies folder m' hm' with hold | hcopy
  · exact ⟨m', hold, huid, rfl⟩
  · exact hcopy

theorem Confined.change (h : Confined store store' folder n) (hset : messageNumber set = some n)
    {g : Mail → Mail} (hg : ∀ m, (g m).id = m.id) :
    Confined store (store'.change folder set g) folder n where
  kept f m hm hother := by
    have hmem := h.kept f m hm hother
    by_cases hf : f = folder
    · subst hf
      have huid : m.uid ≠ n := fun huid => hother ⟨rfl, huid⟩
      simp only [Store.change, Function.update_self, Folder.change, List.mem_map]
      exact ⟨m, hmem, by simp [named_number hset, huid]⟩
    · simpa [Store.change, hf] using hmem
  copies f m' hm' := by
    by_cases hf : f = folder
    · subst hf
      simp only [Store.change, Function.update_self, Folder.change, List.mem_map] at hm'
      obtain ⟨m, hm, rfl⟩ := hm'
      rw [named_number hset]
      split
      · rename_i huid
        obtain ⟨m₀, hm₀, hn, hid⟩ := h.own hm (by simpa using huid)
        exact .inr ⟨m₀, hm₀, hn, (hg m).trans hid⟩
      · exact h.copies f m hm
    · exact h.copies f m' (by simpa [Store.change, hf] using hm')

theorem mem_appended {mails : List Mail} {f : Folder} {m' : Mail}
    (h : m' ∈ (mails.foldl Folder.append f).mails) :
    m' ∈ f.mails ∨ ∃ m ∈ mails, m'.id = m.id := by
  induction mails generalizing f with
  | nil => exact .inl h
  | cons m mails ih =>
    rcases ih h with hf | ⟨m₀, hm₀, hid⟩
    · rcases List.mem_append.mp hf with hold | hnew
      · exact .inl hold
      · obtain rfl := List.mem_singleton.mp hnew
        exact .inr ⟨m, List.mem_cons_self, rfl⟩
    · exact .inr ⟨m₀, List.mem_cons_of_mem _ hm₀, hid⟩

theorem mem_foldl_append {mails : List Mail} {f : Folder} {m : Mail} (h : m ∈ f.mails) :
    m ∈ (mails.foldl Folder.append f).mails := by
  induction mails generalizing f with
  | nil => exact h
  | cons x mails ih => exact ih (List.mem_append_left _ h)

theorem Confined.copy (h : Confined store store' folder n) (hset : messageNumber set = some n)
    (target : Text) : Confined store (store'.copy folder set target) folder n where
  kept f m hm hother := by
    have hmem := h.kept f m hm hother
    by_cases hf : f = target
    · subst hf
      simpa [Store.copy] using mem_foldl_append hmem
    · simpa [Store.copy, hf] using hmem
  copies f m' hm' := by
    by_cases hf : f = target
    · subst hf
      simp only [Store.copy, Function.update_self] at hm'
      rcases mem_appended hm' with hold | ⟨m, hm, hid⟩
      · exact h.copies f m' hold
      · obtain ⟨hmem, huid⟩ := List.mem_filter.mp hm
        rw [named_number hset] at huid
        obtain ⟨m₀, hm₀, hn, hid₀⟩ := h.own hmem (by simpa using huid)
        exact .inr ⟨m₀, hm₀, hn, hid.trans hid₀⟩
    · exact h.copies f m' (by simpa [Store.copy, hf] using hm')

/-- Where no other message of the folder was marked deleted. -/
theorem Confined.expunge (h : Confined store store' folder n)
    (hquiet : ∀ m ∈ (store folder).mails, m.deleted = true → m.uid = n) :
    Confined store (store'.expunge folder) folder n where
  kept f m hm hother := by
    have hmem := h.kept f m hm hother
    by_cases hf : f = folder
    · subst hf
      have hdeleted : m.deleted = false :=
        Bool.eq_false_iff.mpr fun hdeleted => hother ⟨rfl, hquiet m hm hdeleted⟩
      simpa [Store.expunge, Folder.expunge, hdeleted] using hmem
    · simpa [Store.expunge, hf] using hmem
  copies f m' hm' := by
    by_cases hf : f = folder
    · subst hf
      simp only [Store.expunge, Function.update_self, Folder.expunge, List.mem_filter] at hm'
      exact h.copies f m' hm'.1
    · exact h.copies f m' (by simpa [Store.expunge, hf] using hm')

/-- Setting what is seen of one message changes nothing else. -/
theorem unseen_change (hset : messageNumber set = some n) (b : Bool) :
    (store.change folder set fun m => { m with seen := b }).unseen folder n =
      store.unseen folder n := by
  simp only [Store.unseen, Store.change, Function.update_self, Function.update_idem]
  congr 1
  simp only [Folder.change, List.map_map, Folder.mk.injEq, and_true, List.map_inj_left,
    Function.comp_apply, named_number hset]
  intro m _
  by_cases huid : m.uid = n
  · simp [huid]
  · simp [huid]

end

end MailCue.Lib.Imap
