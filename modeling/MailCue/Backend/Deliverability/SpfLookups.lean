import Mathlib
import MailCue.Backend.Domains.SpfSyntax
import MailCue.Backend.Emails.Syntax
import MailCue.Lib.SpfLookups

/-!
# Counting the lookups of an SPF record

`_spf_lookup_terms` and `_spf_recursive_lookups` against the expansion of RFC 7208. The walk
goes down five levels, each domain once; a count that it calls complete is the number of
lookups where what it misses of them makes up for what it counts beside them.
-/
namespace MailCue.Backend.Deliverability
open MailCue.Lib
open Domains (words)
open Emails (IdnaCodec)

/-- What is used of the standard library. -/
structure Python where
  lower : Text → Text
  ascii_lower : ∀ text, (∀ c ∈ text, Text.ascii c = true) → lower text = Text.asciiLower text
  lower_append : ∀ front back, (∀ c ∈ front, Text.ascii c = true) →
    ∃ rest, lower (front ++ back) = Text.asciiLower front ++ rest
  idna : IdnaCodec

/-- The library on ASCII. -/
def Python.asciiOnly : Python where
  lower := Text.asciiLower
  ascii_lower := Domains.Python.asciiOnly.ascii_lower
  lower_append front back _ := ⟨Text.asciiLower back, List.map_append⟩
  idna := {
    encode domain := if domain.all Text.ascii then .ok domain else .error "not ASCII"
    ascii := by
      intro domain encoded hascii h
      rw [if_pos (List.all_eq_true.mpr hascii)] at h
      exact (Except.ok.inj h).symm }

section
variable (py : Python)

/-! ## Domains -/

/-- `[a-z0-9](?:[a-z0-9-]{0,61}[a-z0-9])?` -/
def isHostLabel (label : Text) : Bool :=
  label.all (fun c => c.isAlphanum || c == '-') && label.length ≤ 63 &&
    label.head?.any Char.isAlphanum && label.getLast?.any Char.isAlphanum

/-- `_HOST_RE`, on ASCII. -/
def isHost (text : Text) : Bool :=
  text.length ≤ 253 &&
    match (text.splitOn '.').reverse with
    | top :: label :: labels =>
      top.all Char.isAlpha && 2 ≤ top.length && top.length ≤ 63 && (label :: labels).all isHostLabel
    | _ => false

/-- `_RESERVED_SUFFIXES` -/
def reservedSuffixes : List String :=
  [".example", ".internal", ".invalid", ".local", ".localhost", ".test"]

/-- `_safe_domain` -/
def safeDomain (value : Text) : Option Text :=
  if value.isEmpty then none
  else
    match py.idna.encode ((Text.strip Text.isSpace value).rdropWhile (· == '.')) with
    | .error _ => none
    | .ok encoded =>
      let normalized := py.lower encoded
      if !isHost normalized || reservedSuffixes.any (·.toList.isSuffixOf normalized) ||
          253 < normalized.length then none
      else some normalized

/-! ## Terms -/

def lookupMechanisms : List String := ["a", "mx", "ptr", "include", "exists", "redirect"]

/-- What comes before the first colon, and of that before the first equals sign. -/
def mechanismOf (term : Text) : Text := py.lower ((term.takeWhile (· != ':')).takeWhile (· != '='))

/-- Whether a term is counted, and the domain that it adds to `nested`. -/
def lookupTerm (raw_term : Text) : Bool × Option Text :=
  let term := raw_term.dropWhile (· ∈ "+-~?".toList)
  let mechanism := mechanismOf py term
  (lookupMechanisms.any (·.toList == mechanism),
    if mechanism = "include".toList ∧ ':' ∈ term then some (term.dropWhile (· != ':')).tail
    else if mechanism = "redirect".toList ∧ '=' ∈ term then some (term.dropWhile (· != '=')).tail
    else none)

/-- `_spf_lookup_terms` -/
def spfLookupTerms (record : Text) : Nat × List Text :=
  let terms := (words record).tail.map (lookupTerm py)
  (terms.countP (·.1), terms.filterMap (·.2))

/-! ## The walk -/

/-- `value.lower().startswith("v=spf1")` -/
def isPolicy (value : Text) : Bool := "v=spf1".toList.isPrefixOf (py.lower value)

section
variable (resolve : Text → List Text)

/-- The loop over the nested domains, with the set of those visited. -/
def lookupDomains (walk : Text → List Text → (Nat × Bool) × List Text) (total : Nat)
    (incomplete : Bool) (visited : List Text) : List Text → (Nat × Bool) × List Text
  | [] => ((total, incomplete), visited)
  | raw_domain :: rest =>
    match safeDomain py raw_domain with
    | none => lookupDomains walk total true visited rest
    | some domain =>
      if domain ∈ visited then lookupDomains walk total true visited rest
      else
        match (resolve domain).filter (isPolicy py) with
        | [record] =>
          let ((nested_count, nested_incomplete), visited) := walk record (domain :: visited)
          if 10 < total + nested_count then
            ((total + nested_count, incomplete || nested_incomplete), visited)
          else
            lookupDomains walk (total + nested_count) (incomplete || nested_incomplete) visited rest
        | _ => lookupDomains walk total true (domain :: visited) rest

/-- `_spf_recursive_lookups`, so many levels above the depth of five. -/
def spfRecursiveLookups : Nat → Text → List Text → (Nat × Bool) × List Text
  | 0, record, visited =>
    let (direct, nested_domains) := spfLookupTerms py record
    ((direct, !nested_domains.isEmpty), visited)
  | levels + 1, record, visited =>
    let (direct, nested_domains) := spfLookupTerms py record
    lookupDomains py resolve (spfRecursiveLookups levels) direct false visited
      (nested_domains.take 10)

end

/-! ## The property -/

/-- A mechanism with a prefix length but no domain is taken for another one, a modifier with
the name of a mechanism for that mechanism. -/
def isCounted : Spf.Term → Bool
  | .directive _ m => m.looksUp && (m.domain.isSome || m.rest.isEmpty)
  | .modifier name _ => lookupMechanisms.any (·.toList == name)

/-- The nested domain of a term, with where it leads the evaluation. -/
def nestedTarget : Text × Spf.Term × Bool → Option (Text × Option Text)
  | (raw_term, mark) =>
    (lookupTerm py raw_term).2.map (·, if Spf.isQuery mark then mark.1.target else none)

/-- The nested domains of a record. Where the evaluation does not come to the record they lead
nowhere. -/
def below (evaluated : Bool) (record : Text) : List (Text × Option Text) :=
  match evaluated, Spf.readRecord record with
  | true, some terms => ((words record).tail.zip (Spf.marked terms)).filterMap (nestedTarget py)
  | _, _ => (spfLookupTerms py record).2.map (·, none)

/-- What a walk makes of the terms it comes to: queries that it counts, queries that it
misses, others that it counts; with the records it evaluates and the domains that it leaves out. -/
structure LookupTally where
  right : Nat
  missed : Nat
  spurious : Nat
  read : List Text
  left : List Text

def LookupTally.counted (t : LookupTally) : Nat := t.right + t.spurious

def LookupTally.add (t other : LookupTally) : LookupTally where
  right := t.right + other.right
  missed := t.missed + other.missed
  spurious := t.spurious + other.spurious
  read := t.read ++ other.read
  left := t.left ++ other.left

/-- Domains that are left out. -/
def LookupTally.leaves (domains : List Text) : LookupTally := ⟨0, 0, 0, [], domains⟩

/-- The tally of a record's own terms. -/
def tallyRecord (evaluated : Bool) (record : Text) : LookupTally :=
  match evaluated, Spf.readRecord record with
  | true, some terms =>
    let marks := Spf.marked terms
    { right := marks.countP fun mark => Spf.isQuery mark && isCounted mark.1
      missed := marks.countP fun mark => Spf.isQuery mark && !isCounted mark.1
      spurious := marks.countP fun mark => !Spf.isQuery mark && isCounted mark.1
      read := [record]
      left := [] }
  | true, none => ⟨(spfLookupTerms py record).1, 0, 0, [record], []⟩
  | false, _ => ⟨0, 0, (spfLookupTerms py record).1, [], []⟩

section
variable (resolve : Text → List Text)

/-- The only policy at a nested domain. -/
def nestedPolicy (raw_domain : Text) : Option Text := do
  match (resolve (← safeDomain py raw_domain)).filter (isPolicy py) with
  | [record] => some record
  | _ => none

/-- The tally below a record, until more than ten terms are counted. -/
def tallyBelow (tally : Bool → Text → LookupTally) : Nat → List (Text × Option Text) → LookupTally
  | _, [] => .leaves []
  | total, (raw_domain, target) :: rest =>
    match nestedPolicy py resolve raw_domain with
    | none => .leaves []
    | some record =>
      let t := tally target.isSome record
      t.add (if 10 < total + t.counted then .leaves (rest.filterMap (·.2))
        else tallyBelow tally (total + t.counted) rest)

def tally : Nat → Bool → Text → LookupTally
  | 0, evaluated, record => tallyRecord py evaluated record
  | levels + 1, evaluated, record =>
    (tallyRecord py evaluated record).add
      (tallyBelow py resolve (tally levels) (spfLookupTerms py record).1
        (below py evaluated record))

/-- The records that are evaluated follow the grammar, and the queries that are missed, with
those at the domains left out, are as many as the other terms that are counted. -/
def Balanced (record : Text) : Prop :=
  let t := tally py resolve 5 true record
  (∀ read ∈ t.read, (Spf.readRecord read).isSome = true) ∧
    ∃ counts, List.Forall₂ (Spf.LookupsAt resolve) t.left counts ∧
      t.missed + counts.sum = t.spurious

end

end

/-! ## Nested domains -/

section
variable {py : Python}

theorem lower_of_visible {text : Text} (h : Domains.Visible text) :
    py.lower text = Text.asciiLower text :=
  py.ascii_lower text (Domains.ascii_of_visible h)

theorem isHostLabel_chars {label : Text} (h : isHostLabel label = true) : '%' ∉ label := by
  intro hmem
  simp only [isHostLabel, Bool.and_eq_true, List.all_eq_true] at h
  exact absurd (h.1.1.1 _ hmem) (by decide)

/-- A host has no macro in it. -/
theorem percent_not_mem_of_isHost {text : Text} (h : isHost text = true) : '%' ∉ text := by
  intro hmem
  rcases Text.mem_splitOn '.' hmem with hdot | ⟨label, hlabel, hin⟩
  · exact absurd hdot (by decide)
  · unfold isHost at h
    obtain ⟨-, h⟩ := Bool.and_eq_true_iff.mp h
    split at h
    · rename_i top second labels hlabels
      simp only [Bool.and_eq_true, List.all_eq_true] at h
      obtain ⟨⟨⟨htop, -⟩, -⟩, hothers⟩ := h
      have hmem : label ∈ top :: second :: labels := hlabels ▸ List.mem_reverse.mpr hlabel
      rcases List.mem_cons.mp hmem with rfl | hmem
      · exact absurd (htop _ hin) (by decide)
      · exact isHostLabel_chars (hothers _ hmem) hin
    · cases h

theorem asciiLower_rdropWhile (text : Text) :
    Text.asciiLower (text.rdropWhile (· == '.')) =
      (Text.asciiLower text).rdropWhile (· == '.') := by
  have hdot : ((· == '.') ∘ Char.toLower) = (· == '.') := by
    funext c
    exact Text.toLower_cases (P := fun d c => (d == '.') = (c == '.')) (fun _ => rfl)
      (by decide +kernel) c
  rw [Text.asciiLower, Text.asciiLower, List.rdropWhile, List.rdropWhile, ← List.map_reverse,
    List.dropWhile_map, hdot, List.map_reverse]

/-- A receiver drops the dot that the walk drops. -/
theorem rdropWhile_eq_dropDot {spec : Text} (h : Spf.isDomainSpec spec = true) :
    spec.rdropWhile (· == '.') = Spf.dropDot spec := by
  by_cases hdot : spec.getLast? = some '.'
  · obtain ⟨front, label, -, rfl, -, hlast⟩ := Spf.topLabel_of_dot h hdot
    rw [Spf.rdropWhile_concat hlast, Spf.dropDot_concat]
  · rw [Spf.rdropWhile_of_getLast hdot, Spf.dropDot_of_getLast hdot]

theorem isHost_of_safeDomain {raw_domain domain : Text}
    (h : safeDomain py raw_domain = some domain) : isHost domain = true := by
  unfold safeDomain at h
  split at h
  · cases h
  · split at h
    · cases h
    · dsimp only at h
      split at h
      · cases h
      · rename_i hok
        simp only [Bool.or_eq_true, Bool.not_eq_true', not_or, Bool.not_eq_false] at hok
        rw [← Option.some.inj h]
        exact hok.1.1

/-- The walk asks for the domain that a receiver asks for. -/
theorem eq_of_safeDomain {raw_domain domain : Text} (hvisible : Domains.Visible raw_domain)
    (hspec : Spf.isDomainSpec (Spf.foldCase raw_domain) = true)
    (h : safeDomain py raw_domain = some domain) :
    domain = Spf.dropDot (Spf.foldCase raw_domain) := by
  have hpercent := percent_not_mem_of_isHost (isHost_of_safeDomain h)
  have hstrip : Text.strip Text.isSpace raw_domain = raw_domain :=
    Text.strip_of_forall fun c hc => Domains.not_isSpace_of_visible (hvisible c hc)
  have hshort : Domains.Visible (raw_domain.rdropWhile (· == '.')) :=
    hvisible.subset (List.rdropWhile_prefix _ _).subset
  have hdomain : domain = Text.asciiLower (raw_domain.rdropWhile (· == '.')) := by
    unfold safeDomain at h
    split at h
    · cases h
    · rw [hstrip] at h
      split at h
      · cases h
      · rename_i encoded hencoded
        obtain rfl := py.idna.ascii _ _ (Domains.ascii_of_visible hshort) hencoded
        dsimp only at h
        split at h
        · cases h
        · rw [← Option.some.inj h, lower_of_visible hshort]
  have hplain : '%' ∉ raw_domain := by
    intro hmem
    rw [← List.rdropWhile_append_rtakeWhile (p := (· == '.')) (l := raw_domain),
      List.mem_append] at hmem
    rcases hmem with hmem | hmem
    · exact hpercent (hdomain ▸ List.mem_map.mpr ⟨'%', hmem, by decide⟩)
    · exact absurd (List.mem_rtakeWhile_imp hmem) (by decide)
  rw [hdomain, asciiLower_rdropWhile, ← Spf.foldCase_of_plain hplain, rdropWhile_eq_dropDot hspec]

/-! ## Terms as a receiver reads them -/

/-- The walk counts a term as it says, and asks for the domain the term leads to. -/
structure Agrees (py : Python) (raw_term : Text) (term : Spf.Term) : Prop where
  counted : (lookupTerm py raw_term).1 = isCounted term
  target : ∀ target ∈ term.target, ∃ raw_domain ∈ (lookupTerm py raw_term).2,
    ∀ domain ∈ safeDomain py raw_domain, domain = target

def mechanismNames : List String := ["all", "a", "mx", "ptr", "include", "exists", "ip4", "ip6"]

/-- Nothing that ends the name for `_spf_lookup_terms`. -/
def isPlain (c : Char) : Bool := c != ':' && c != '='

theorem isPlain_of_toLower {start : Text} (h : (Text.asciiLower start).all isPlain = true) :
    ∀ c ∈ start, (c != ':') = true ∧ (c != '=') = true := by
  intro c hc
  have hplain := List.all_eq_true.mp h _ (List.mem_map_of_mem hc)
  have hsame : isPlain c.toLower = isPlain c :=
    Text.toLower_cases (P := fun d c => isPlain d = isPlain c) (fun _ => rfl)
      (by decide +kernel) c
  rw [hsame, isPlain, Bool.and_eq_true] at hplain
  exact hplain

/-- The name is read up to a colon or an equals sign. -/
theorem mechanismOf_append {start : Text} (hvisible : Domains.Visible start)
    (hstart : (Text.asciiLower start).all isPlain = true) {back : Text}
    (hback : back = [] ∨ ∃ rest, back = ':' :: rest ∨ back = '=' :: rest) :
    mechanismOf py (start ++ back) = Text.asciiLower start := by
  have hplain := isPlain_of_toLower hstart
  have hcut : ((start ++ back).takeWhile (· != ':')).takeWhile (· != '=') = start := by
    rw [List.takeWhile_append_of_pos fun c hc => (hplain c hc).1,
      List.takeWhile_append_of_pos fun c hc => (hplain c hc).2]
    rcases hback with rfl | ⟨rest, rfl | rfl⟩
    · simp
    · simp
    · rw [List.takeWhile_cons_of_pos (by decide), List.takeWhile_cons_of_neg (by decide),
        List.append_nil]
  rw [mechanismOf, hcut, lower_of_visible hvisible]

/-- A slash is taken for a part of the name. -/
theorem slash_mem_mechanismOf {start rest : Text}
    (hvisible : Domains.Visible (start ++ '/' :: rest))
    (hstart : (Text.asciiLower start).all isPlain = true) :
    '/' ∈ mechanismOf py (start ++ '/' :: rest) := by
  have hplain := isPlain_of_toLower hstart
  have hcut : '/' ∈ ((start ++ '/' :: rest).takeWhile (· != ':')).takeWhile (· != '=') := by
    rw [List.takeWhile_append_of_pos fun c hc => (hplain c hc).1,
      List.takeWhile_append_of_pos fun c hc => (hplain c hc).2,
      List.takeWhile_cons_of_pos (by decide), List.takeWhile_cons_of_pos (by decide)]
    exact List.mem_append_right _ List.mem_cons_self
  rw [mechanismOf, lower_of_visible (hvisible.subset
    ((List.takeWhile_prefix _).trans (List.takeWhile_prefix _)).subset)]
  exact List.mem_map.mpr ⟨'/', hcut, by decide⟩

theorem dropWhile_signs {start : Text}
    (hstart : (Text.asciiLower start).head?.any Char.isAlpha = true) (back : Text) :
    (start ++ back).dropWhile (· ∈ "+-~?".toList) = start ++ back := by
  cases start with
  | nil => cases hstart
  | cons c start =>
    have halpha : c.toLower.isAlpha = true := by simpa [Text.asciiLower] using hstart
    refine List.dropWhile_cons_of_neg ?_
    intro hsign
    have hall : ∀ c ∈ "+-~?".toList, c.toLower.isAlpha = false :=
      List.forall_iff_forall_mem.mp (by decide)
    rw [hall c (by simpa using hsign)] at halpha
    cases halpha

/-- What the names of mechanisms are: plain, and each counted where it queries the DNS. -/
theorem of_mechanismNames {name : String} (h : name ∈ mechanismNames) :
    '%' ∉ name.toList ∧ name.toList.all isPlain = true ∧
      name.toList.head?.any Char.isAlpha = true ∧ name ≠ "redirect" ∧
      lookupMechanisms.any (·.toList == name.toList) =
        Spf.Mechanism.looksUp ⟨name.toList, none, []⟩ := by
  have hall : ∀ name ∈ mechanismNames, '%' ∉ name.toList ∧ name.toList.all isPlain = true ∧
      name.toList.head?.any Char.isAlpha = true ∧ name ≠ "redirect" ∧
      lookupMechanisms.any (·.toList == name.toList) =
        Spf.Mechanism.looksUp ⟨name.toList, none, []⟩ := by decide
  exact hall name h

section
variable (py) {name : String} {raw_term start back : Text}
  (hsigns : raw_term.dropWhile (· ∈ "+-~?".toList) = (start ++ back).dropWhile (· ∈ "+-~?".toList))
  (hvisible : Domains.Visible (start ++ back)) (hname : name ∈ mechanismNames)
  (hstart : Text.asciiLower start = name.toList)
include hsigns hvisible hname hstart

/-- A mechanism with a colon or nothing behind its name. -/
theorem lookupTerm_mechanism (hback : back = [] ∨ ∃ rest, back = ':' :: rest) :
    lookupTerm py raw_term = (lookupMechanisms.any (·.toList == name.toList),
      if name = "include" ∧ back ≠ [] then some back.tail else none) := by
  obtain ⟨-, hplain, halpha, hredirect, -⟩ := of_mechanismNames hname
  have hkeep := dropWhile_signs (hstart ▸ halpha) back
  have hstop : back = [] ∨ ∃ rest, back = ':' :: rest ∨ back = '=' :: rest :=
    hback.imp_right fun ⟨rest, h⟩ => ⟨rest, .inl h⟩
  have hmechanism : mechanismOf py (start ++ back) = name.toList := by
    rw [mechanismOf_append (hvisible.subset (List.subset_append_left _ _)) (hstart ▸ hplain) hstop,
      hstart]
  have hcolons := isPlain_of_toLower (hstart ▸ hplain)
  have hnot : ':' ∉ start := fun hmem => absurd (hcolons _ hmem).1 (by decide)
  have hother : name.toList ≠ "redirect".toList := fun h => hredirect (String.toList_injective h)
  rw [lookupTerm, hsigns, hkeep]
  simp only [hmechanism, hother, false_and, if_false, String.toList_inj]
  rcases hback with rfl | ⟨rest, rfl⟩
  · simp [hnot]
  · have hdrop : (start ++ ':' :: rest).dropWhile (· != ':') = ':' :: rest := by
      rw [List.dropWhile_append_of_pos fun c hc => (hcolons c hc).1,
        List.dropWhile_cons_of_neg (by decide)]
    rw [hdrop]
    simp

/-- A mechanism with a slash behind its name is not counted. -/
theorem lookupTerm_slash (hback : back.head? = some '/') :
    lookupTerm py raw_term = (false, none) := by
  obtain ⟨-, hplain, halpha, -, -⟩ := of_mechanismNames hname
  obtain ⟨rest, rfl⟩ := List.head?_eq_some_iff.mp hback
  have hslash : '/' ∈ mechanismOf py (start ++ '/' :: rest) :=
    slash_mem_mechanismOf hvisible (hstart ▸ hplain)
  have hnames : ∀ name ∈ lookupMechanisms, '/' ∉ name.toList := by decide
  have hother : ∀ name ∈ lookupMechanisms,
      name.toList ≠ mechanismOf py (start ++ '/' :: rest) := by
    intro name hname heq
    exact hnames name hname (heq ▸ hslash)
  have hcounted : lookupMechanisms.any
      (·.toList == mechanismOf py (start ++ '/' :: rest)) = false := by
    rw [List.any_eq_false]
    exact fun name hname => by simpa using hother name hname
  have hinclude := (hother "include" (by decide)).symm
  have hredirect := (hother "redirect" (by decide)).symm
  rw [lookupTerm, hsigns, dropWhile_signs (hstart ▸ halpha)]
  simp only [hcounted, hinclude, hredirect, false_and, if_false]

end

/-- A sign in front of the folded text is in front of the text. -/
theorem exists_sign {back value : Text} {c : Char} (hpercent : c ≠ '%') (hc : c.isAlpha = false)
    (h : Spf.foldCase back = c :: value) :
    ∃ rest, back = c :: rest ∧ Spf.foldCase rest = value := by
  have hfront : '%' ∉ [c] := fun hmem => hpercent (List.mem_singleton.mp hmem).symm
  obtain ⟨start, rest, rfl, hstart, hrest⟩ := @Spf.exists_of_foldCase [c] value back hfront h
  obtain ⟨d, rfl, hd⟩ := List.map_eq_singleton_iff.mp hstart
  exact ⟨rest, by rw [Text.toLower_eq_of_not_alpha hc hd, List.singleton_append], hrest⟩

theorem eq_nil_of_foldCase {text : Text} (h : Spf.foldCase text = []) : text = [] := by
  have hfolds := Spf.folds_foldCase text
  rw [h] at hfolds
  exact List.forall₂_nil_right_iff.mp hfolds

/-- A mechanism that leads nowhere agrees where it is counted alike. -/
theorem Agrees.of_counted {raw_term : Text} {term : Spf.Term} (htarget : term.target = none)
    (hcounted : (lookupTerm py raw_term).1 = isCounted term) : Agrees py raw_term term :=
  ⟨hcounted, by rw [htarget]; nofun⟩

theorem agrees_directive {raw_term term : Text} {q : Spf.Qualifier} {m : Spf.Mechanism}
    (hsigns : raw_term.dropWhile (· ∈ "+-~?".toList) = term.dropWhile (· ∈ "+-~?".toList))
    (hvisible : Domains.Visible term) (h : Spf.Written (Spf.foldCase term) m) :
    Agrees py raw_term (.directive q m) := by
  have hsplit : ∀ {name : String} {after : Text}, name ∈ mechanismNames →
      Spf.foldCase term = name.toList ++ after → ∃ start back, term = start ++ back ∧
        Text.asciiLower start = name.toList ∧ Spf.foldCase back = after := by
    intro name after hname hfold
    exact Spf.exists_of_foldCase (of_mechanismNames hname).1 hfold
  generalize hfold : Spf.foldCase term = folded at h
  cases h with
  | @bare name hname =>
    have hmember : name ∈ mechanismNames :=
      (by decide : ∀ name ∈ ["all", "a", "mx", "ptr"], name ∈ mechanismNames) name hname
    obtain ⟨start, back, rfl, hstart, hback⟩ :=
      hsplit hmember (hfold.trans (List.append_nil _).symm)
    obtain rfl := eq_nil_of_foldCase hback
    have hread := lookupTerm_mechanism py hsigns hvisible hmember hstart (.inl rfl)
    refine .of_counted (ite_self _) ?_
    rw [hread, (of_mechanismNames hmember).2.2.2.2]
    exact (Bool.and_true _).symm
  | @host name hname value domain rest =>
    have hmember : name ∈ mechanismNames ∧ name ≠ "include" :=
      (by decide : ∀ name ∈ ["a", "mx"], name ∈ mechanismNames ∧ name ≠ "include") name hname
    obtain ⟨start, back, rfl, hstart, hback⟩ := hsplit hmember.1 hfold
    obtain ⟨after, rfl, -⟩ := exists_sign (by decide) (by decide) hback
    have hread := lookupTerm_mechanism py hsigns hvisible hmember.1 hstart (.inr ⟨after, rfl⟩)
    refine .of_counted (if_neg fun h => hmember.2 (String.toList_injective h)) ?_
    rw [hread, (of_mechanismNames hmember.1).2.2.2.2]
    exact (Bool.and_true _).symm
  | @domain name hname spec hspec =>
    have hmember : name ∈ mechanismNames :=
      (by decide : ∀ name ∈ ["ptr", "include", "exists"], name ∈ mechanismNames) name hname
    obtain ⟨start, back, rfl, hstart, hback⟩ := hsplit hmember hfold
    obtain ⟨after, rfl, rfl⟩ := exists_sign (by decide) (by decide) hback
    have hread := lookupTerm_mechanism py hsigns hvisible hmember hstart (.inr ⟨after, rfl⟩)
    refine ⟨?_, fun target htarget => ?_⟩
    · rw [hread, (of_mechanismNames hmember).2.2.2.2]
      exact (Bool.and_true _).symm
    · obtain ⟨hinclude, hdomain⟩ := Option.mem_ite_none_right.mp htarget
      refine ⟨after, ?_, fun domain hsafe => ?_⟩
      · rw [hread]
        simp [String.toList_injective hinclude]
      · have hafter : Domains.Visible after :=
          hvisible.subset fun c hc => List.mem_append_right _ (List.mem_cons_of_mem _ hc)
        rw [eq_of_safeDomain hafter hspec hsafe]
        exact Option.some.inj hdomain
  | @network name hname network =>
    have hmember : name ∈ mechanismNames :=
      (by decide : ∀ name ∈ ["ip4", "ip6"], name ∈ mechanismNames) name hname
    obtain ⟨start, back, rfl, hstart, hback⟩ := hsplit hmember hfold
    obtain ⟨after, rfl, -⟩ := exists_sign (by decide) (by decide) hback
    have hread := lookupTerm_mechanism py hsigns hvisible hmember hstart (.inr ⟨after, rfl⟩)
    have hlooks : Spf.Mechanism.looksUp ⟨name.toList, none, []⟩ = false :=
      (by decide : ∀ name ∈ ["ip4", "ip6"],
        Spf.Mechanism.looksUp ⟨name.toList, none, []⟩ = false) name hname
    refine .of_counted (ite_self _) ?_
    rw [hread, (of_mechanismNames hmember).2.2.2.2, hlooks]
    exact (Bool.and_eq_false_imp.mpr fun h => absurd (h.symm.trans hlooks) (by decide)).symm
  | @lengths name hname rest =>
    have hmember : name ∈ mechanismNames :=
      (by decide : ∀ name ∈ ["a", "mx"], name ∈ mechanismNames) name hname
    obtain ⟨start, back, rfl, hstart, hback⟩ := hsplit hmember hfold
    obtain ⟨after, rfl, -⟩ := exists_sign (by decide) (by decide) hback
    have hread := lookupTerm_slash py hsigns hvisible hmember hstart rfl
    refine .of_counted (ite_self _) ?_
    rw [hread]
    exact (Bool.and_false _).symm

theorem agrees_modifier {start rest value : Text}
    (hvisible : Domains.Visible (start ++ '=' :: rest))
    (hplain : (Text.asciiLower start).all isPlain = true)
    (halpha : (Text.asciiLower start).head?.any Char.isAlpha = true)
    (hvalue : Text.asciiLower start = "redirect".toList →
      Spf.isDomainSpec (Spf.foldCase rest) = true ∧ value = Spf.dropDot (Spf.foldCase rest)) :
    Agrees py (start ++ '=' :: rest) (.modifier (Text.asciiLower start) value) := by
  have hmechanism : mechanismOf py (start ++ '=' :: rest) = Text.asciiLower start :=
    mechanismOf_append (hvisible.subset (List.subset_append_left _ _)) hplain
      (.inr ⟨rest, .inr rfl⟩)
  constructor
  · rw [lookupTerm, dropWhile_signs halpha]
    simp only [hmechanism, isCounted]
  · intro target htarget
    obtain ⟨hredirect, hsome⟩ := Option.mem_ite_none_right.mp htarget
    obtain rfl := Option.some.inj hsome
    obtain ⟨hspec, rfl⟩ := hvalue hredirect
    refine ⟨rest, ?_, fun domain hsafe => ?_⟩
    · have hother : ¬("redirect".toList = "include".toList ∧ ':' ∈ start ++ '=' :: rest) :=
        fun h => absurd h.1 (by decide)
      have hmem : '=' ∈ start ++ '=' :: rest := List.mem_append_right _ List.mem_cons_self
      have hdrop : (start ++ '=' :: rest).dropWhile (· != '=') = '=' :: rest := by
        rw [List.dropWhile_append_of_pos fun c hc => (isPlain_of_toLower hplain c hc).2,
          List.dropWhile_cons_of_neg (by decide)]
      rw [lookupTerm, dropWhile_signs halpha]
      simp only [hmechanism, hredirect, if_neg hother, hdrop, List.tail_cons, Option.mem_def]
      exact if_pos ⟨trivial, hmem⟩
    · have hrest : Domains.Visible rest :=
        hvisible.subset fun c hc => List.mem_append_right _ (List.mem_cons_of_mem _ hc)
      exact eq_of_safeDomain hrest hspec hsafe

/-- A qualifier is dropped with all signs. -/
theorem dropWhile_withoutQualifier (raw_term : Text) :
    raw_term.dropWhile (· ∈ "+-~?".toList) =
      (Domains.withoutQualifier raw_term).dropWhile (· ∈ "+-~?".toList) := by
  unfold Domains.withoutQualifier
  split
  · rename_i hqualifier
    obtain ⟨c, hc, hsign⟩ := (Option.any_eq_true _ _).mp hqualifier
    obtain ⟨rest, rfl⟩ := List.head?_eq_some_iff.mp hc
    exact List.dropWhile_cons_of_pos hsign
  · rfl

/-- A term that a receiver can read. -/
theorem agrees_of_readTerm {raw_term : Text} {term : Spf.Term}
    (hvisible : Domains.Visible raw_term) (h : Spf.readTerm (Spf.foldCase raw_term) = some term) :
    Agrees py raw_term term := by
  unfold Spf.readTerm at h
  split at h
  · rename_i value hafter
    have hjoin := List.takeWhile_append_dropWhile (p := Spf.isNameChar) (l := Spf.foldCase raw_term)
    rw [hafter] at hjoin
    have hchars : ∀ c ∈ (Spf.foldCase raw_term).takeWhile Spf.isNameChar,
        Spf.isNameChar c = true := fun c hc => List.mem_takeWhile_imp hc
    obtain ⟨start, back, rfl, hstart, hback⟩ := Spf.exists_of_foldCase
      (fun hmem => absurd (hchars _ hmem) (by decide)) hjoin.symm
    obtain ⟨rest, rfl, rfl⟩ := exists_sign (by decide) (by decide) hback
    have hplain : (Text.asciiLower start).all isPlain = true := by
      rw [List.all_eq_true, hstart]
      intro c hc
      simp only [isPlain, Bool.and_eq_true, bne_iff_ne]
      constructor
      · rintro rfl
        exact absurd (hchars _ hc) (by decide)
      · rintro rfl
        exact absurd (hchars _ hc) (by decide)
    simp only [← hstart] at h
    split at h
    · cases h
    · rename_i halpha
      simp only [Bool.not_eq_true', Bool.not_eq_false] at halpha
      split at h
      · split at h
        · rename_i hspec
          cases h
          exact agrees_modifier hvisible hplain halpha fun _ => ⟨hspec, rfl⟩
        · cases h
      · rename_i hother
        split at h
        · cases h
          exact agrees_modifier hvisible hplain halpha fun h => absurd (.inl h) hother
        · cases h
  · obtain ⟨m, hm, rfl⟩ := Option.map_eq_some_iff.mp h
    rw [Domains.readQualifier_foldCase] at hm
    have hterm : Domains.Visible (Domains.withoutQualifier raw_term) := by
      unfold Domains.withoutQualifier
      split
      · exact hvisible.subset (List.tail_sublist _).subset
      · exact hvisible
    exact agrees_directive (dropWhile_withoutQualifier raw_term) hterm
      (Spf.written_of_readMechanism hm)

end

end MailCue.Backend.Deliverability
