import MailCue.Backend.Emails.RcptParity
import MailCue.Lib.FirstMatch
import MailCue.Tunnel.Sidecar.Probe

/-!
# The sidecar and the backend on one status code

Both read `class.subject.detail` from a reply: the sidecar's `enhanced_status`
(tunnel/crates/sidecar/src/relay.rs) character by character, the backend's
`extract_enhanced_status` (backend/app/emails/smtp_reply.py) by an expression
with word boundaries. The scanner minds digits and dots at the sides of a
triple, the expression minds letters as well and does not mind a dot.
-/
namespace MailCue.Backend.Emails
open MailCue.Lib MailCue.Lib.Text

/-! ## Triples -/

/-- One to three digits. -/
def Run (digit : Char → Bool) (run : Text) : Prop :=
  run ≠ [] ∧ run.length ≤ 3 ∧ ∀ c ∈ run, digit c = true

def Triple (digit : Char → Bool) (status : Text) : Prop :=
  ∃ c subject detail, status = c :: '.' :: (subject ++ '.' :: detail) ∧
    (c = '2' ∨ c = '4' ∨ c = '5') ∧ Run digit subject ∧ Run digit detail

/-- A triple as the scanner takes it. -/
def ScannerTriple (before : Option Char) (status post : Text) : Prop :=
  Triple Char.isDigit status ∧ before.all (fun b => !b.isDigit && b != '.') = true ∧
    post.head?.all (!·.isDigit) = true

/-- A triple as the expression takes it. -/
def RegexTriple (py : PyText) (before : Option Char) (status post : Text) : Prop :=
  Triple py.isDigit status ∧ before.all (!py.isWord ·) = true ∧
    post.head?.all (!py.isWord ·) = true

theorem Triple.nonempty {digit : Char → Bool} {status : Text} (h : Triple digit status) :
    status ≠ [] := by
  obtain ⟨c, subject, detail, rfl, -⟩ := h
  exact List.cons_ne_nil _ _

/-- The longest run that a text begins with is read off it. -/
theorem takeWhile_run {digit : Char → Bool} {run rest : Text} (hrun : ∀ c ∈ run, digit c = true)
    (hrest : rest.head?.all (!digit ·) = true) : (run ++ rest).takeWhile digit = run := by
  rw [List.takeWhile_append_of_pos hrun]
  cases rest with
  | nil => simp
  | cons c rest =>
    have hc : digit c = false := by simpa using hrest
    rw [List.takeWhile_cons_of_neg (by simp [hc]), List.append_nil]

theorem run_unique {digit : Char → Bool} {run run' rest rest' : Text}
    (heq : run ++ rest = run' ++ rest') (hrun : ∀ c ∈ run, digit c = true)
    (hrun' : ∀ c ∈ run', digit c = true) (hrest : rest.head?.all (!digit ·) = true)
    (hrest' : rest'.head?.all (!digit ·) = true) : run = run' ∧ rest = rest' := by
  have hsame : run = run' := by
    rw [← takeWhile_run hrun hrest, heq, takeWhile_run hrun' hrest']
  subst hsame
  exact ⟨rfl, List.append_cancel_left heq⟩

/-- Digits cut at three end there, or in front of what is no digit. -/
theorem run_stops (digit : Char → Bool) (text : Text) :
    ((text.takeWhile digit).take 3).length = 3 ∨
      (text.drop ((text.takeWhile digit).take 3).length).head?.all (!digit ·) = true := by
  rcases Nat.lt_or_ge (text.takeWhile digit).length 3 with hshort | hlong
  · right
    have hdrop : text.drop (text.takeWhile digit).length = text.dropWhile digit := by
      conv => lhs; arg 2; rw [← List.takeWhile_append_dropWhile (p := digit) (l := text)]
      exact List.drop_left
    rw [List.take_of_length_le (Nat.le_of_lt hshort), hdrop]
    cases hrest : text.dropWhile digit with
    | nil => rfl
    | cons c rest =>
      have hne : text.dropWhile digit ≠ [] := by simp [hrest]
      have hhead := List.head_dropWhile_not digit hne
      simpa [hrest] using hhead
  · left
    simpa using hlong

/-! ## The scanner -/

open MailCue.Tunnel.Sidecar in
theorem dotGroup_iff (text group rest : Text) :
    dotGroup text = some (group, rest) ↔ ∃ run, group = '.' :: run ∧ text = '.' :: (run ++ rest) ∧
      Run Char.isDigit run ∧ (run.length = 3 ∨ rest.head?.all (!·.isDigit) = true) := by
  constructor
  · intro h
    unfold dotGroup at h
    split at h
    · next tail =>
      dsimp only at h
      split at h
      · cases h
      · next hsome =>
        cases h
        have hleads : (tail.takeWhile Char.isDigit).take 3 <+: tail :=
          (List.take_prefix 3 _).trans (List.takeWhile_prefix _)
        have htail := List.prefix_iff_eq_append.mp hleads
        refine ⟨_, rfl, by rw [htail], ⟨by simpa using hsome, List.length_take_le 3 _, ?_⟩,
          run_stops Char.isDigit tail⟩
        intro c hc
        exact List.mem_takeWhile_imp (List.mem_of_mem_take hc)
    · cases h
  · rintro ⟨run, rfl, rfl, ⟨hne, hlen, hdigits⟩, hend⟩
    have htake : ((run ++ rest).takeWhile Char.isDigit).take 3 = run := by
      rcases hend with hthree | hrest
      · rw [List.takeWhile_append_of_pos hdigits, ← hthree, List.take_left]
      · rw [takeWhile_run hdigits hrest, List.take_of_length_le hlen]
    simp [dotGroup, htake, hne]

open MailCue.Tunnel.Sidecar in
theorem scanner_finds : Finds statusAt ScannerTriple where
  nonempty _ _ _ h := h.1.nonempty
  read_iff before text found := by
    constructor
    · intro h
      unfold statusAt at h
      split at h
      · cases h
      · next c rest =>
        split at h
        · cases h
        · next hbefore =>
          split at h
          · cases h
          · next hclass =>
            cases hsubject : dotGroup rest with
            | none => simp [hsubject] at h
            | some first =>
              obtain ⟨group, rest'⟩ := first
              cases hdetail : dotGroup rest' with
              | none => simp [hsubject, hdetail] at h
              | some second =>
                obtain ⟨group', post⟩ := second
                simp only [hsubject, hdetail] at h
                split at h
                · cases h
                · next hpost =>
                  cases h
                  obtain ⟨subject, rfl, rfl, hs, -⟩ := (dotGroup_iff _ _ _).mp hsubject
                  obtain ⟨detail, rfl, rfl, hd, -⟩ := (dotGroup_iff _ _ _).mp hdetail
                  refine ⟨post, by simp, ⟨c, subject, detail, by simp, not_not.mp hclass, hs, hd⟩,
                    ?_, ?_⟩
                  · cases before <;> simp_all
                  · cases post <;> simp_all
    · rintro ⟨post, rfl, ⟨c, subject, detail, rfl, hclass, hs, hd⟩, hbefore, hpost⟩
      have hsubject : dotGroup ('.' :: (subject ++ '.' :: (detail ++ post))) =
          some ('.' :: subject, '.' :: (detail ++ post)) :=
        (dotGroup_iff _ _ _).mpr ⟨subject, rfl, rfl, hs, .inr rfl⟩
      have hdetail : dotGroup ('.' :: (detail ++ post)) = some ('.' :: detail, post) :=
        (dotGroup_iff _ _ _).mpr ⟨detail, rfl, rfl, hd, .inr hpost⟩
      have hnot : before.any (fun b => b.isDigit || b == '.') = false := by
        cases before <;> simp_all
      have hend : post.head?.any Char.isDigit = false := by
        cases post <;> simp_all
      simp [statusAt, hnot, hclass, hsubject, hdetail, hend]

theorem enhancedStatus_eq (message : String) :
    Tunnel.Sidecar.enhancedStatus message =
      (firstAt Tunnel.Sidecar.statusAt none message.toList).map String.ofList := by
  have hsearch : ∀ (text : Text) (before : Option Char),
      Tunnel.Sidecar.searchStatus before text = firstAt Tunnel.Sidecar.statusAt before text := by
    intro text
    induction text with
    | nil => intro before; rfl
    | cons c rest ih =>
      intro before
      rw [Tunnel.Sidecar.searchStatus, firstAt, ih]
  rw [Tunnel.Sidecar.enhancedStatus, hsearch]

/-! ## The expression -/

section Expression
variable {py : PyText}

theorem digits_iff (text run tail : Text) :
    (run, tail) ∈ py.digits text ↔ text = run ++ tail ∧ Run py.isDigit run := by
  constructor
  · intro h
    refine ⟨(PyText.digits_append h).symm, ?_⟩
    simp only [PyText.digits, List.mem_filterMap] at h
    obtain ⟨n, hn, h⟩ := h
    split at h
    · next hall =>
      cases h
      refine ⟨?_, ?_, fun c hc => List.all_eq_true.mp hall.2 c hc⟩
      · intro hnil
        have hlen := hall.1
        rw [hnil] at hlen
        simp at hn
        simp at hlen
        omega
      · rw [hall.1]
        simp at hn
        omega
    · cases h
  · rintro ⟨rfl, hne, hlen, hall⟩
    simp only [PyText.digits, List.mem_filterMap]
    have hpos := List.length_pos_iff.mpr hne
    refine ⟨run.length, ?_, ?_⟩
    · have : run.length = 3 ∨ run.length = 2 ∨ run.length = 1 := by omega
      simpa using this
    · simp only [List.take_left, List.drop_left]
      rw [if_pos ⟨trivial, List.all_eq_true.mpr hall⟩]

theorem findSome?_iff_of_unique {α β : Type} {f : α → Option β} {l : List α}
    (hunique : ∀ x ∈ l, ∀ y ∈ l, ∀ a b, f x = some a → f y = some b → a = b) (b : β) :
    l.findSome? f = some b ↔ ∃ x ∈ l, f x = some b := by
  constructor
  · exact List.exists_of_findSome?_eq_some
  · rintro ⟨x, hx, hb⟩
    cases hfound : l.findSome? f with
    | none =>
      rw [List.findSome?_eq_none_iff.mp hfound x hx] at hb
      cases hb
    | some a =>
      obtain ⟨y, hy, ha⟩ := List.exists_of_findSome?_eq_some hfound
      rw [hunique y hy x hx a b ha hb]

/-- Behind a digit, the boundary is in front of what is no word character. -/
theorem boundary_of_run (hword : ∀ c, py.isDigit c = true → py.isWord c = true) {run : Text}
    (hrun : Run py.isDigit run) (after : Option Char) :
    py.boundary run.getLast? after = after.all (!py.isWord ·) := by
  have hlast : run.getLast?.any py.isWord = true := by
    rw [List.getLast?_eq_some_getLast hrun.1]
    exact hword _ (hrun.2.2 _ (List.getLast_mem hrun.1))
  rw [PyText.boundary, hlast]
  cases after <;> simp

theorem not_digit_of_not_word (hword : ∀ c, py.isDigit c = true → py.isWord c = true)
    {after : Option Char} (h : after.all (!py.isWord ·) = true) :
    after.all (!py.isDigit ·) = true := by
  cases after with
  | none => rfl
  | some c =>
    cases hc : py.isDigit c with
    | false => simp [hc]
    | true => simp [hword c hc] at h

theorem dotDigits_iff (hword : ∀ c, py.isDigit c = true → py.isWord c = true)
    (read rest status : Text) :
    py.dotDigits read rest = some status ↔ ∃ detail post, rest = '.' :: (detail ++ post) ∧
      Run py.isDigit detail ∧ post.head?.all (!py.isWord ·) = true ∧
        status = read ++ '.' :: detail := by
  unfold PyText.dotDigits
  split
  · next rest =>
    have hone : ∀ run tail a, (run, tail) ∈ py.digits rest →
        ((if py.boundary run.getLast? tail.head? = true then some (read ++ '.' :: run) else none) =
            some a ↔ tail.head?.all (!py.isWord ·) = true ∧ a = read ++ '.' :: run) := by
      intro run tail a hmem
      rw [boundary_of_run hword ((digits_iff rest run tail).mp hmem).2,
        Option.ite_none_right_eq_some, Option.some.injEq]
      exact and_congr_right fun _ => eq_comm
    rw [findSome?_iff_of_unique]
    · constructor
      · rintro ⟨⟨run, tail⟩, hmem, hstatus⟩
        obtain ⟨hrest, hrun⟩ := (digits_iff rest run tail).mp hmem
        obtain ⟨hafter, hstatus⟩ := (hone run tail status hmem).mp hstatus
        exact ⟨run, tail, by rw [hrest], hrun, hafter, hstatus⟩
      · rintro ⟨detail, post, hrest, hrun, hafter, hstatus⟩
        have hmem := (digits_iff rest detail post).mpr ⟨(List.cons.inj hrest).2, hrun⟩
        exact ⟨(detail, post), hmem, (hone detail post status hmem).mpr ⟨hafter, hstatus⟩⟩
    · rintro ⟨run, tail⟩ hmem ⟨run', tail'⟩ hmem' a a' ha ha'
      obtain ⟨hrest, hrun⟩ := (digits_iff rest run tail).mp hmem
      obtain ⟨hrest', hrun'⟩ := (digits_iff rest run' tail').mp hmem'
      obtain ⟨hafter, rfl⟩ := (hone run tail a hmem).mp ha
      obtain ⟨hafter', rfl⟩ := (hone run' tail' a' hmem').mp ha'
      obtain ⟨rfl, -⟩ := run_unique (hrest.symm.trans hrest') hrun.2.2 hrun'.2.2
        (not_digit_of_not_word hword hafter) (not_digit_of_not_word hword hafter')
      rfl
  · next hnodot =>
    constructor
    · intro h
      cases h
    · rintro ⟨detail, post, rfl, -⟩
      exact absurd rfl (hnodot _)

/-- In front of a digit of the class, the boundary is behind what is no word character. -/
theorem boundary_class {c : Char} (hclass : c = '2' ∨ c = '4' ∨ c = '5') (before : Option Char) :
    py.boundary before (some c) = before.all (!py.isWord ·) := by
  have hc : py.isWord c = true := by
    rcases hclass with rfl | rfl | rfl <;> exact py.ascii_word _ rfl
  rw [PyText.boundary, Option.any_some, hc]
  cases before <;> simp

theorem regex_finds (hword : ∀ c, py.isDigit c = true → py.isWord c = true) :
    Finds py.statusAt (RegexTriple py) where
  nonempty _ _ _ h := h.1.nonempty
  read_iff before text found := by
    unfold PyText.statusAt
    split
    · next c rest =>
      have hdot : py.isDigit '.' = false := py.ascii_digit '.' rfl
      split
      · next hguard =>
        obtain ⟨hbefore, hclass⟩ := hguard
        rw [boundary_class hclass] at hbefore
        rw [findSome?_iff_of_unique]
        · constructor
          · rintro ⟨⟨subject, tail⟩, hmem, hstatus⟩
            obtain ⟨rfl, hs⟩ := (digits_iff rest subject tail).mp hmem
            obtain ⟨detail, post, rfl, hd, hpost, rfl⟩ := (dotDigits_iff hword _ _ _).mp hstatus
            exact ⟨post, by simp, ⟨c, subject, detail, by simp, hclass, hs, hd⟩, hbefore, hpost⟩
          · rintro ⟨post, htext, ⟨d, subject, detail, rfl, -, hs, hd⟩, -, hpost⟩
            simp only [List.cons_append, List.cons.injEq, true_and] at htext
            obtain ⟨rfl, hrest⟩ := htext
            have hmem : (subject, '.' :: (detail ++ post)) ∈ py.digits rest :=
              (digits_iff _ _ _).mpr ⟨by simpa using hrest, hs⟩
            exact ⟨_, hmem, (dotDigits_iff hword _ _ _).mpr ⟨detail, post, rfl, hd, hpost, by simp⟩⟩
        · rintro ⟨subject, tail⟩ hmem ⟨subject', tail'⟩ hmem' a a' ha ha'
          obtain ⟨hrest, hs⟩ := (digits_iff rest subject tail).mp hmem
          obtain ⟨hrest', hs'⟩ := (digits_iff rest subject' tail').mp hmem'
          obtain ⟨detail, post, rfl, hd, hpost, rfl⟩ := (dotDigits_iff hword _ _ _).mp ha
          obtain ⟨detail', post', rfl, hd', hpost', rfl⟩ := (dotDigits_iff hword _ _ _).mp ha'
          obtain ⟨rfl, htail⟩ := run_unique (hrest.symm.trans hrest') hs.2.2 hs'.2.2
            (by simp [hdot]) (by simp [hdot])
          obtain ⟨rfl, -⟩ := run_unique (List.cons.inj htail).2 hd.2.2 hd'.2.2
            (not_digit_of_not_word hword hpost) (not_digit_of_not_word hword hpost')
          rfl
      · next hguard =>
        constructor
        · intro h
          cases h
        · rintro ⟨post, htext, ⟨d, subject, detail, rfl, hclass, -, -⟩, hbefore, -⟩
          simp only [List.cons_append, List.cons.injEq, true_and] at htext
          obtain ⟨rfl, -⟩ := htext
          rw [← boundary_class hclass] at hbefore
          exact absurd ⟨hbefore, hclass⟩ hguard
    · next hnodot =>
      constructor
      · intro h
        cases h
      · rintro ⟨post, rfl, ⟨c, subject, detail, rfl, -⟩, -⟩
        exact absurd rfl (hnodot c _)

theorem searchStatus_eq (text : Text) :
    ∀ before, py.searchStatus before text = firstAt py.statusAt before text := by
  induction text with
  | nil => intro before; rfl
  | cons c rest ih =>
    intro before
    rw [PyText.searchStatus, firstAt, ih]
    cases py.statusAt before (c :: rest) <;> rfl

end Expression

/-! ## Agreement -/

/-- The two readings of a message agree exactly when the foremost of the
triples that either takes is the first one for both: taken by both where it
stands, or spelt again by the first one that the other takes. The class of word
characters holds the digits. -/
theorem enhanced_status_parity_iff (py : PyText)
    (hword : ∀ c, py.isDigit c = true → py.isWord c = true) (message : String) :
    Tunnel.Sidecar.enhancedStatus message = extractEnhancedStatus py message.toList ↔
      Shared ScannerTriple (RegexTriple py) message.toList := by
  rw [enhancedStatus_eq, extractEnhancedStatus, searchStatus_eq,
    ← firstAt_eq_iff scanner_finds (regex_finds hword)]
  constructor
  · exact fun h => Option.map_injective (fun a b hab => String.ofList_injective hab) h
  · exact fun h => by rw [h]

theorem enhanced_status_parity_gmail :
    Tunnel.Sidecar.enhancedStatus "550-5.1.1 no such user" =
        extractEnhancedStatus .asciiOnly "550-5.1.1 no such user".toList ↔
      Shared ScannerTriple (RegexTriple .asciiOnly) "550-5.1.1 no such user".toList := by
  refine enhanced_status_parity_iff .asciiOnly (fun c hc => ?_) "550-5.1.1 no such user"
  have hdigit : c.isDigit = true := hc
  simp [PyText.asciiOnly, Char.isAlphanum, hdigit]

/-- A letter behind the code ends the expression's token and not the scanner's;
a dot in front of it the other way round. -/
theorem glued_codes_differ :
    (Tunnel.Sidecar.enhancedStatus "5.1.1a" = some "5.1.1" ∧
      extractEnhancedStatus .asciiOnly "5.1.1a".toList = none) ∧
    (Tunnel.Sidecar.enhancedStatus "1.5.1.1" = none ∧
      extractEnhancedStatus .asciiOnly "1.5.1.1".toList = some "5.1.1") := by
  decide +kernel

end MailCue.Backend.Emails
