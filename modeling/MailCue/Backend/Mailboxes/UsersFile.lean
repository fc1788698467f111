import MailCue.Lib.Lines
import MailCue.Lib.SharedCell
import MailCue.Lib.Text

/-!
# The users file

The Dovecot passwd-file and the two functions of backend/app/mailboxes/service.py
that rewrite it, each as its read and its write. A line belongs to the identity its
name casefolds to. An upsert takes the lock file, a removal does not: where nothing
is written between the read and the write of an operation, the file has the effect
of the last operation on each identity.
-/
namespace MailCue.Backend.Mailboxes
open MailCue.Lib

/-! ## Lines -/

/-- The characters `str.splitlines` breaks at. -/
def isLineBreak (c : Char) : Bool :=
  let n := c.toNat
  (0x0A ≤ n && n ≤ 0x0D) || (0x1C ≤ n && n ≤ 0x1E) || n == 0x85 || n == 0x2028 || n == 0x2029

/-- What `read_text` makes of line ends. -/
def universalNewlines : Text → Text
  | '\r' :: '\n' :: rest => '\n' :: universalNewlines rest
  | c :: rest => (if c = '\r' then '\n' else c) :: universalNewlines rest
  | [] => []

def usersLines (file : Text) : List Text :=
  Lines.splitLines isLineBreak (universalNewlines file)

/-- `line.partition(":")[0]` -/
def lineName (line : Text) : Text := line.takeWhile (· != ':')

def replacement (line : Text) : Text :=
  if ['\n'].isSuffixOf line then line else line ++ ['\n']

/-! ## The two functions -/

section
variable (casefold : Text → Text)

def upsertDovecotUser (address line file : Text) : Text :=
  let normalized_address := casefold address
  let retained := (usersLines file).filter fun existing =>
    casefold (lineName existing) != normalized_address
  retained.flatten ++ replacement line

def removeFromDovecotUsers (address file : Text) : Text :=
  ((usersLines file).filter fun ln => !(address ++ [':']).isPrefixOf ln).flatten

inductive UsersOp
  | upsert (address line : Text)
  | remove (address : Text)
  deriving DecidableEq

def UsersOp.address : UsersOp → Text
  | .upsert address _ => address
  | .remove address => address

def UsersOp.rewrite : UsersOp → Text → Text
  | .upsert address line => upsertDovecotUser casefold address line
  | .remove address => removeFromDovecotUsers address

/-- The lines an operation means its identity to have. -/
def UsersOp.leaves : UsersOp → List Text
  | .upsert _ line => [replacement line]
  | .remove _ => []

/-- The operations that take the lock file. -/
def UsersOp.locks : UsersOp → Bool
  | .upsert _ _ => true
  | .remove _ => false

/-- Any number of calls, interleaved. -/
def usersFile (file : Text) : System (Cell Text UsersOp) (Cell.Step Text UsersOp) :=
  Cell.interleaved UsersOp.locks (UsersOp.rewrite casefold) file

/-! ## Identities -/

/-- The lines of one identity. -/
def entries (file identity : Text) : List Text :=
  (usersLines file).filter fun line => casefold (lineName line) == identity

theorem mem_entries {casefold : Text → Text} {file line identity : Text} :
    line ∈ entries casefold file identity ↔
      line ∈ usersLines file ∧ casefold (lineName line) = identity := by
  simp [entries]

/-- What the last operation on an identity leaves of it, or what there was. -/
def lastEffect (file : Text) (ops : List UsersOp) (identity : Text) : List Text :=
  match ops.reverse.find? fun op => casefold op.address == identity with
  | none => entries casefold file identity
  | some op => op.leaves

/-- No line that the file ends in the middle of. -/
def Terminated (file : Text) : Prop := ∀ line ∈ usersLines file, Lines.Ended isLineBreak line

/-- One line, of the identity it is written for. -/
def OwnLine (address line : Text) : Prop :=
  Lines.Ended isLineBreak (replacement line) ∧
    casefold (lineName (replacement line)) = casefold address

/-- An upsert writes one line of its identity behind whole lines; a removal's test
finds the lines of its identity. -/
def Fits : UsersOp → Text → Prop
  | .upsert address line, file => Terminated file ∧ OwnLine casefold address line
  | .remove address, file => ∀ line ∈ usersLines file,
      address ++ [':'] <+: line ↔ casefold (lineName line) = casefold address

instance (file : Text) : Decidable (Terminated file) :=
  inferInstanceAs (Decidable (∀ line ∈ usersLines file, _))

instance (address line : Text) : Decidable (OwnLine casefold address line) :=
  inferInstanceAs (Decidable (_ ∧ _))

instance (op : UsersOp) (file : Text) : Decidable (Fits casefold op file) :=
  match op with
  | .upsert address line =>
    inferInstanceAs (Decidable (Terminated file ∧ OwnLine casefold address line))
  | .remove address => inferInstanceAs (Decidable (∀ line ∈ usersLines file,
      address ++ [':'] <+: line ↔ casefold (lineName line) = casefold address))

end

/-! ## Reading back what was written -/

theorem universalNewlines_no_cr (text : Text) : '\r' ∉ universalNewlines text := by
  fun_induction universalNewlines text with
  | case1 rest ih => simpa using ih
  | case2 c rest hnot ih =>
    intro hmem
    rcases List.mem_cons.mp hmem with heq | hmem
    · split at heq
      · exact absurd heq (by decide)
      · rename_i hc
        exact hc heq.symm
    · exact ih hmem
  | case3 => simp

theorem universalNewlines_of_no_cr {text : Text} (h : '\r' ∉ text) :
    universalNewlines text = text := by
  fun_induction universalNewlines text with
  | case1 rest ih => simp at h
  | case2 c rest hnot ih =>
    simp only [List.mem_cons, not_or] at h
    rw [ih h.2, if_neg fun hc => h.1 hc.symm]
  | case3 => rfl

theorem no_cr_of_mem_usersLines {file line : Text} (h : line ∈ usersLines file) : '\r' ∉ line := by
  intro hc
  have hmem : '\r' ∈ (usersLines file).flatten := List.mem_flatten.mpr ⟨line, h, hc⟩
  rw [usersLines, Lines.flatten_splitLines] at hmem
  exact universalNewlines_no_cr file hmem

theorem usersLines_flatten {lines : List Text} (h : Lines.AreLines isLineBreak lines)
    (hcr : ∀ line ∈ lines, '\r' ∉ line) : usersLines lines.flatten = lines := by
  have hno : '\r' ∉ lines.flatten := by
    intro hmem
    obtain ⟨line, hline, hc⟩ := List.mem_flatten.mp hmem
    exact hcr line hline hc
  rw [usersLines, universalNewlines_of_no_cr hno, Lines.splitLines_flatten h]

theorem areLines_usersLines (file : Text) : Lines.AreLines isLineBreak (usersLines file) :=
  Lines.areLines_splitLines _

theorem replacement_no_cr {line : Text} (h : Lines.Ended isLineBreak (replacement line)) :
    '\r' ∉ replacement line := by
  obtain ⟨body, c, heq, -, hbody⟩ := h
  have hlast : (replacement line).getLast? = some '\n' := by
    unfold replacement
    split
    · rename_i hends
      obtain ⟨front, rfl⟩ := List.isSuffixOf_iff_suffix.mp hends
      simp
    · simp
  rw [heq] at hlast ⊢
  obtain rfl : c = '\n' := by simpa using hlast
  intro hmem
  rcases List.mem_append.mp hmem with hmem | hmem
  · exact absurd (hbody _ hmem) (by decide)
  · exact absurd (List.mem_singleton.mp hmem) (by decide)

section
variable {casefold : Text → Text} {address line file : Text}

theorem usersLines_upsert
    (hfile : ∀ l ∈ usersLines file, Lines.Ended isLineBreak l ∨
      casefold (lineName l) = casefold address)
    (hline : Lines.Ended isLineBreak (replacement line)) :
    usersLines (upsertDovecotUser casefold address line file) =
      (usersLines file).filter (fun existing =>
        casefold (lineName existing) != casefold address) ++ [replacement line] := by
  have hjoin : upsertDovecotUser casefold address line file =
      ((usersLines file).filter (fun existing =>
        casefold (lineName existing) != casefold address) ++ [replacement line]).flatten := by
    simp [upsertDovecotUser]
  rw [hjoin]
  apply usersLines_flatten
  · refine Lines.AreLines.concat (fun l hl => ?_) (.inl hline)
    obtain ⟨hmem, hother⟩ := List.mem_filter.mp hl
    exact (hfile l hmem).resolve_right (by simpa using hother)
  · intro l hl
    rcases List.mem_append.mp hl with hl | hl
    · exact no_cr_of_mem_usersLines (List.mem_of_mem_filter hl)
    · obtain rfl := List.mem_singleton.mp hl
      exact replacement_no_cr hline

theorem usersLines_remove (address file : Text) :
    usersLines (removeFromDovecotUsers address file) =
      (usersLines file).filter fun ln => !(address ++ [':']).isPrefixOf ln :=
  usersLines_flatten ((areLines_usersLines file).sublist List.filter_sublist) fun _ hl =>
    no_cr_of_mem_usersLines (List.mem_of_mem_filter hl)

/-! ## One operation -/

theorem terminated_upsert (hfile : Terminated file)
    (hline : Lines.Ended isLineBreak (replacement line)) :
    Terminated (upsertDovecotUser casefold address line file) := by
  intro l hl
  rw [usersLines_upsert (fun l hl => .inl (hfile l hl)) hline] at hl
  rcases List.mem_append.mp hl with hl | hl
  · exact hfile l (List.mem_of_mem_filter hl)
  · obtain rfl := List.mem_singleton.mp hl
    exact hline

/-- An upsert leaves of its identity the line it writes. -/
theorem entries_upsert_own
    (hfile : ∀ l ∈ usersLines file, Lines.Ended isLineBreak l ∨
      casefold (lineName l) = casefold address) (hline : OwnLine casefold address line) :
    entries casefold (upsertDovecotUser casefold address line file) (casefold address) =
      [replacement line] := by
  obtain ⟨hended, hname⟩ := hline
  simp [entries, usersLines_upsert hfile hended, List.filter_filter, hname]

theorem entries_upsert_other
    (hfile : ∀ l ∈ usersLines file, Lines.Ended isLineBreak l ∨
      casefold (lineName l) = casefold address) (hline : OwnLine casefold address line)
    {identity : Text} (hne : casefold address ≠ identity) :
    entries casefold (upsertDovecotUser casefold address line file) identity =
      entries casefold file identity := by
  obtain ⟨hended, hname⟩ := hline
  have hkeep : ∀ l : Text, (casefold (lineName l) == identity &&
      casefold (lineName l) != casefold address) = (casefold (lineName l) == identity) := by
    intro l
    by_cases hl : casefold (lineName l) = identity
    · simp [hl, Ne.symm hne]
    · simp [hl]
  simp [entries, usersLines_upsert hfile hended, List.filter_filter, hkeep, hname, hne]

/-- An operation leaves its identity what it is to leave it. -/
theorem entries_rewrite_own {op : UsersOp} (h : Fits casefold op file) :
    entries casefold (op.rewrite casefold file) (casefold op.address) = op.leaves := by
  cases op with
  | upsert address line =>
    obtain ⟨hfile, hline⟩ := h
    exact entries_upsert_own (fun l hl => .inl (hfile l hl)) hline
  | remove address =>
    simp only [entries, UsersOp.rewrite, UsersOp.address, UsersOp.leaves, usersLines_remove,
      List.filter_filter]
    apply List.filter_eq_nil_iff.mpr
    intro l hl
    by_cases hid : casefold (lineName l) = casefold address
    · simp [List.isPrefixOf_iff_prefix.mpr ((h l hl).mpr hid)]
    · simp [hid]

/-- The lines of every other identity stay. -/
theorem entries_rewrite_other {op : UsersOp} (h : Fits casefold op file) {identity : Text}
    (hne : casefold op.address ≠ identity) :
    entries casefold (op.rewrite casefold file) identity = entries casefold file identity := by
  cases op with
  | upsert address line =>
    obtain ⟨hfile, hline⟩ := h
    exact entries_upsert_other (fun l hl => .inl (hfile l hl)) hline hne
  | remove address =>
    simp only [entries, UsersOp.rewrite, usersLines_remove, List.filter_filter]
    apply List.filter_congr
    intro l hl
    by_cases hid : casefold (lineName l) = identity
    · have hnot : ¬ address ++ [':'] <+: l := fun hpre => hne ((h l hl).mp hpre ▸ hid)
      have hfalse : (address ++ [':']).isPrefixOf l = false :=
        Bool.eq_false_iff.mpr fun hpre => hnot (List.isPrefixOf_iff_prefix.mp hpre)
      simp [hid, hfalse]
    · simp [hid]

/-! ## Runs -/

theorem lastEffect_snoc (file : Text) (ops : List UsersOp) (op : UsersOp) (identity : Text) :
    lastEffect casefold file (ops ++ [op]) identity =
      if casefold op.address = identity then op.leaves
      else lastEffect casefold file ops identity := by
  by_cases h : casefold op.address = identity
  · simp [lastEffect, h]
  · simp [lastEffect, h]

theorem entries_serial {ops : List UsersOp}
    (h : (Cell.serial (UsersOp.rewrite casefold) file).EveryStep
      (fun _ s op => Fits casefold op s) ops) (identity : Text) :
    entries casefold ((Cell.serial (UsersOp.rewrite casefold) file).run ops) identity =
      lastEffect casefold file ops identity := by
  refine Machine.always_of_step (P := fun ops s =>
    entries casefold s identity = lastEffect casefold file ops identity) rfl ?_ h ops
    (List.prefix_refl ops)
  intro pre op ih hfits
  rw [Machine.run_snoc, lastEffect_snoc, ← ih]
  split
  · rename_i heq
    exact heq ▸ entries_rewrite_own hfits
  · rename_i hne
    exact entries_rewrite_other hfits hne

/-- Nothing written to the users file is lost in a run whose operations each find
the file, when they write, as they read it. -/
theorem last_operation_kept {labels : List (Cell.Step Text UsersOp)} {c : Cell Text UsersOp}
    (h : ((usersFile casefold file).guarded fun c a =>
      Cell.Undisturbed c a ∧ Cell.OnWrite (Fits casefold) c a).Run labels c) (identity : Text) :
    entries casefold c.value identity = lastEffect casefold file c.finished identity := by
  obtain ⟨hvalue, hfits⟩ := Cell.run_serial h
  rw [hvalue]
  exact entries_serial hfits identity

/-- An upsert that writes a line of its identity. -/
def UpsertsOwn (casefold : Text → Text) : UsersOp → Prop
  | .upsert address line => OwnLine casefold address line
  | .remove _ => False

/-- The runs of upserts. -/
abbrev upsertsOnly (casefold : Text → Text) (file : Text) :
    System (Cell Text UsersOp) (Cell.Step Text UsersOp) :=
  (usersFile casefold file).guarded fun _ a => UpsertsOwn casefold a.op

section
variable {labels : List (Cell.Step Text UsersOp)} {c : Cell Text UsersOp}

theorem upserts_locked (h : (upsertsOnly casefold file).Run labels c) :
    c.working = [] ∨ ∃ op, op.locks = true ∧ c.working = [(op, c.value)] := by
  refine Cell.run_locked (h.guard_imp (P := fun _ _ => True) (fun _ _ _ => trivial) ?_)
  intro _ _ a _ _ _ hown
  cases hop : a.op with
  | upsert address line => rfl
  | remove address => simp [UpsertsOwn, hop] at hown

/-- The file ends in a line break, and so does whatever an upsert under way has read. -/
theorem upserts_terminated (hfile : Terminated file)
    (h : (upsertsOnly casefold file).Run labels c) :
    Terminated c.value ∧ ∀ job ∈ c.working, Terminated job.2 := by
  refine h.invariant (P := fun _ c => Terminated c.value ∧ ∀ job ∈ c.working,
    Terminated job.2) ?_ ?_
  · rintro c rfl
    exact ⟨hfile, fun job hjob => absurd hjob List.not_mem_nil⟩
  · rintro _ c a c' ⟨hvalue, hwork⟩ ⟨hstep, hown⟩
    cases a with
    | begin op =>
      obtain ⟨-, rfl⟩ := Cell.step_begin hstep
      exact ⟨hvalue, List.forall_mem_cons.mpr ⟨hvalue, hwork⟩⟩
    | finish op read =>
      have hjobs := (Cell.working_of_end hstep nofun).1
      refine ⟨?_, fun job hjob => hwork job (hjobs job hjob)⟩
      obtain ⟨hmem, rfl⟩ := Cell.step_finish hstep
      cases op with
      | upsert address line => exact terminated_upsert (hwork _ hmem) hown.1
      | remove address => exact hown.elim
    | abandon op read =>
      have hjobs := (Cell.working_of_end hstep nofun).1
      refine ⟨?_, fun job hjob => hwork job (hjobs job hjob)⟩
      obtain ⟨-, rfl⟩ := Cell.step_abandon hstep
      exact hvalue

theorem upserts_undisturbed
    (hlocked : c.working = [] ∨ ∃ op, op.locks = true ∧ c.working = [(op, c.value)])
    (hvalue : Terminated c.value) {a : Cell.Step Text UsersOp} {c' : Cell Text UsersOp}
    (hstep : (usersFile casefold file).step c a c') (hown : UpsertsOwn casefold a.op) :
    Cell.Undisturbed c a ∧ Cell.OnWrite (Fits casefold) c a := by
  cases a with
  | begin op => exact ⟨trivial, trivial⟩
  | abandon op read => exact ⟨trivial, trivial⟩
  | finish op read =>
    obtain ⟨hmem, -⟩ := Cell.step_finish hstep
    constructor
    · rcases hlocked with hnone | ⟨other, -, hone⟩
      · simp [hnone] at hmem
      · rw [hone, List.mem_singleton] at hmem
        cases hmem
        rfl
    · cases op with
      | upsert address line => exact ⟨hvalue, hown⟩
      | remove address => exact hown.elim

/-- Upserts alone lose nothing, however they interleave: the lock file keeps every
other one from reading until the write is done. -/
theorem upserts_kept (hfile : Terminated file) (h : (upsertsOnly casefold file).Run labels c)
    (identity : Text) :
    entries casefold c.value identity = lastEffect casefold file c.finished identity := by
  have hserial := h.guard_imp
    (fun _ _ hrun => And.intro (upserts_locked hrun) (upserts_terminated hfile hrun).1)
    (fun _ _ _ _ hinv hstep hown => upserts_undisturbed hinv.1 hinv.2 hstep hown)
  obtain ⟨hvalue, hfits⟩ := Cell.run_serial hserial
  rw [hvalue]
  exact entries_serial hfits identity

end

end

private def usersBefore : Text := "dana@x:1\nerin@x:1\n".toList

private def danaNew : UsersOp := .upsert "dana@x".toList "dana@x:2\n".toList

private def erinGone : UsersOp := .remove "erin@x".toList

/-- Erin is removed and Dana's password changed, one after the other. -/
theorem last_operation_kept_after_removal :
    entries Text.asciiLower "dana@x:2\n".toList "dana@x".toList = ["dana@x:2\n".toList] := by
  let G (c : Cell Text UsersOp) (a : Cell.Step Text UsersOp) :=
    Cell.Undisturbed c a ∧ Cell.OnWrite (Fits Text.asciiLower) c a
  have hstart : ((usersFile Text.asciiLower usersBefore).guarded G).Run [] (Cell.first usersBefore) :=
    .start _ rfl
  have hrun := hstart.exec_guarded (Cell.step UsersOp.locks (UsersOp.rewrite Text.asciiLower))
    [.begin erinGone, .finish erinGone usersBefore, .begin danaNew,
      .finish danaNew "dana@x:1\n".toList]
    ⟨"dana@x:2\n".toList, [], [erinGone, danaNew]⟩ (by decide) fun _ _ _ h => h
  exact last_operation_kept hrun "dana@x".toList

/-- Erin's removal reads the file before Dana's new password is in it. -/
theorem removal_loses_upsert :
    ∃ labels c, (usersFile Text.asciiLower usersBefore).Run labels c ∧
      c.working = [] ∧ c.finished = [danaNew, erinGone] ∧
      ¬ ∀ identity, entries Text.asciiLower c.value identity =
        lastEffect Text.asciiLower usersBefore c.finished identity := by
  refine ⟨_, ⟨"dana@x:1\n".toList, [], [danaNew, erinGone]⟩,
    System.Run.exec (Cell.step UsersOp.locks (UsersOp.rewrite Text.asciiLower))
      (.start (Cell.first usersBefore) rfl)
      [.begin erinGone, .begin danaNew, .finish danaNew usersBefore,
        .finish erinGone usersBefore] _ (by decide) fun _ _ _ _ h => h,
    rfl, rfl, ?_⟩
  intro h
  exact absurd (h "dana@x".toList) (by decide)

end MailCue.Backend.Mailboxes
