import Mathlib
import MailCue.Lib.IpAddress

/-!
# Sender Policy Framework

Records and what a receiver makes of them: the grammar of RFC 7208 section 12, and the
evaluation of section 4.6 for one sender, of whom a `World` says which mechanisms match.
A record that does not follow the grammar anywhere is a permanent error.
-/
namespace MailCue.Lib.Spf

/-! ## Records -/

inductive Qualifier
  | pass | fail | softfail | neutral
  deriving DecidableEq, Repr

/-- A mechanism by its name, the domain it names and its network or prefix lengths. -/
structure Mechanism where
  name : Text
  domain : Option Text
  rest : Text
  deriving DecidableEq, Repr

inductive Term
  | directive (qualifier : Qualifier) (mechanism : Mechanism)
  | modifier (name value : Text)
  deriving DecidableEq, Repr

/-! ## Domains -/

/-- The letters in lower case, but for those that name a macro: an upper-case one escapes
what it stands for. -/
def foldCase : Text → Text
  | '%' :: '%' :: rest => '%' :: '%' :: foldCase rest
  | '%' :: '{' :: letter :: rest => '%' :: '{' :: letter :: foldCase rest
  | c :: rest => c.toLower :: foldCase rest
  | [] => []

def isVisible (c : Char) : Bool := ' ' < c && c ≤ '~'

def isMacroLetter (c : Char) : Bool := c.toLower ∈ "slodiphcrtv".toList

def isDelimiter (c : Char) : Bool := c ∈ ".-+,/_=".toList

/-- Where the reader of a macro string stands: behind something, which may have been a
macro, behind a percent sign, behind `%{`, its letter or its transformers. -/
inductive MacroState
  | behind (expanded : Bool)
  | percent
  | letter
  | digits
  | delimiters
  deriving DecidableEq

def MacroState.next : MacroState → Char → Option MacroState
  | behind _, c =>
    if c = '%' then some percent else if isVisible c then some (behind false) else none
  | percent, c =>
    if c = '\x7b' then some letter
    else if c ∈ ['%', '_', '-'] then some (behind true) else none
  | letter, c => if isMacroLetter c then some digits else none
  | digits, c =>
    if c.isDigit then some digits
    else if c = 'r' ∨ isDelimiter c then some delimiters
    else if c = '\x7d' then some (behind true) else none
  | delimiters, c =>
    if isDelimiter c then some delimiters else if c = '\x7d' then some (behind true) else none

/-- Where reading the text ends. -/
def macroEnd (text : Text) : Option MacroState := text.foldlM MacroState.next (.behind false)

def isMacroString (text : Text) : Bool :=
  macroEnd text = some (.behind false) || macroEnd text = some (.behind true)

def isTopLabel (label : Text) : Bool :=
  label.all (fun c => c.isAlphanum || c == '-') && label.head?.any Char.isAlphanum &&
    label.getLast?.any Char.isAlphanum && label.any fun c => c.isAlpha || c == '-'

/-- The text without one dot at its end. -/
def dropDot (text : Text) : Text := if text.getLast? = some '.' then text.dropLast else text

/-- A macro string that ends in a dot and a top label, behind which another dot may stand. -/
def endsInTopLabel (spec : Text) : Bool :=
  let body := dropDot spec
  '.' ∈ body && isTopLabel (Text.afterLast '.' body) &&
    isMacroString (body.take (body.length - (Text.afterLast '.' body).length - 1))

def isDomainSpec (spec : Text) : Bool :=
  endsInTopLabel spec || macroEnd spec = some (.behind true)

/-! ## Terms -/

def isCidrLength (limit : Nat) (text : Text) : Bool :=
  text.all Char.isDigit && !text.isEmpty && (text == ['0'] || text.head? != some '0') &&
    IpAddress.decimalValue text ≤ limit

/-- `[ "/" length ] [ "//" length ]` -/
def isDualCidr (text : Text) : Bool :=
  match text with
  | [] => true
  | '/' :: '/' :: length => isCidrLength 128 length
  | '/' :: rest =>
    isCidrLength 32 (rest.takeWhile (· != '/')) &&
      match rest.dropWhile (· != '/') with
      | [] => true
      | '/' :: '/' :: length => isCidrLength 128 length
      | _ => false
  | _ => false

def isCidrChar (c : Char) : Bool := c.isDigit || c == '/'

/-- A domain and the prefix lengths behind it. -/
def splitCidr (text : Text) : Text × Text :=
  let trailing := text.rtakeWhile isCidrChar
  (text.rdropWhile isCidrChar ++ trailing.takeWhile Char.isDigit, trailing.dropWhile Char.isDigit)

def isNetwork (limit : Nat) (isAddress : Text → Bool) (text : Text) : Bool :=
  match text.splitOn '/' with
  | [address] => isAddress address
  | [address, length] => isAddress address && isCidrLength limit length
  | _ => false

def isNameEnd (c : Char) : Bool := c == ':' || c == '/'

/-- A mechanism with its letters folded. -/
def readMechanism (text : Text) : Option Mechanism :=
  let name := text.takeWhile (!isNameEnd ·)
  match String.ofList name, text.dropWhile (!isNameEnd ·) with
  | "all", [] => some ⟨name, none, []⟩
  | "a", ':' :: value | "mx", ':' :: value =>
    if isDomainSpec (splitCidr value).1 && isDualCidr (splitCidr value).2 then
      some ⟨name, some (dropDot (splitCidr value).1), (splitCidr value).2⟩
    else none
  | "a", rest | "mx", rest => if isDualCidr rest then some ⟨name, none, rest⟩ else none
  | "ptr", [] => some ⟨name, none, []⟩
  | "ptr", ':' :: spec | "include", ':' :: spec | "exists", ':' :: spec =>
    if isDomainSpec spec then some ⟨name, some (dropDot spec), []⟩ else none
  | "ip4", ':' :: network =>
    if isNetwork 32 (fun t => (IpAddress.readV4 t).isSome) network then some ⟨name, none, network⟩
    else none
  | "ip6", ':' :: network =>
    if isNetwork 128 (fun t => (IpAddress.readV6 t).isSome) network then some ⟨name, none, network⟩
    else none
  | _, _ => none

def isNameChar (c : Char) : Bool := c.isAlphanum || c == '-' || c == '_' || c == '.'

/-- The qualifier of a directive, and what follows it. -/
def readQualifier : Text → Qualifier × Text
  | '+' :: rest => (.pass, rest)
  | '-' :: rest => (.fail, rest)
  | '~' :: rest => (.softfail, rest)
  | '?' :: rest => (.neutral, rest)
  | text => (.pass, text)

/-- A term with its letters folded: a name and an equals sign make a modifier. -/
def readTerm (text : Text) : Option Term :=
  match text.dropWhile isNameChar with
  | '=' :: value =>
    let name := text.takeWhile isNameChar
    if !name.head?.any Char.isAlpha then none
    else if name = "redirect".toList ∨ name = "exp".toList then
      if isDomainSpec value then some (.modifier name (dropDot value)) else none
    else if isMacroString value then some (.modifier name value) else none
  | _ => .directive (readQualifier text).1 <$> readMechanism (readQualifier text).2

/-- What stands between spaces. -/
def spWords (text : Text) : List Text := (text.splitOn ' ').filter (!·.isEmpty)

def hasVersion (text : Text) : Bool :=
  Text.asciiLower (text.take 6) = "v=spf1".toList && (text.drop 6).head?.all (· == ' ')

def countModifier (name : String) (terms : List Term) : Nat :=
  terms.countP fun term =>
    match term with
    | .modifier n _ => n == name.toList
    | _ => false

/-- The terms of a record, where all of it follows the grammar. -/
def readRecord (text : Text) : Option (List Term) := do
  if !hasVersion text || !text.all (fun c => c == ' ' || isVisible c) then none
  else
    let terms ← (spWords (text.drop 6)).mapM fun term => readTerm (foldCase term)
    if 1 < countModifier "redirect" terms ∨ 1 < countModifier "exp" terms then none
    else return terms

/-- The modifier that a term is. -/
def Term.modifierName : Term → Option Text
  | directive _ _ => none
  | modifier name _ => some name

/-! ## Evaluation -/

inductive Result
  | none | neutral | pass | fail | softfail | temperror | permerror
  deriving DecidableEq, Repr

def Qualifier.result : Qualifier → Result
  | pass => .pass
  | fail => .fail
  | softfail => .softfail
  | neutral => .neutral

inductive Answer
  | matched | differs
  | failed (result : Result)
  deriving DecidableEq, Repr

/-- What the DNS says of one sender. -/
structure World where
  answer : Mechanism → Answer
  redirect : Text → Result

def Mechanism.isAll (m : Mechanism) : Bool := m.name == "all".toList

/-- The mechanisms that count against the limit of ten. -/
def Mechanism.looksUp (m : Mechanism) : Bool :=
  m.name ∈ ["a".toList, "mx".toList, "ptr".toList, "include".toList, "exists".toList]

/-- The terms of a record that cause a DNS query: such a mechanism, or a redirection. -/
def Term.looksUp : Term → Bool
  | directive _ m => m.looksUp
  | modifier name _ => name == "redirect".toList

def directives (terms : List Term) : List (Qualifier × Mechanism) :=
  terms.filterMap fun term =>
    match term with
    | .directive q m => some (q, m)
    | .modifier _ _ => none

def redirectOf (terms : List Term) : Option Text :=
  terms.findSome? fun term =>
    match term with
    | .modifier name value => if name = "redirect".toList then some value else none
    | _ => none

/-- From left to right, with so many lookups left. -/
def evaluateFrom (w : World) (redirect : Option Text) :
    Nat → List (Qualifier × Mechanism) → Result
  | left, [] =>
    match redirect with
    | none => .neutral
    | some domain => if left = 0 then .permerror else w.redirect domain
  | left, (q, m) :: rest =>
    if m.isAll then q.result
    else if m.looksUp && left == 0 then .permerror
    else
      match w.answer m with
      | .matched => q.result
      | .differs => evaluateFrom w redirect (if m.looksUp then left - 1 else left) rest
      | .failed result => result

def evaluate (w : World) (terms : List Term) : Result :=
  evaluateFrom w (redirectOf terms) 10 (directives terms)

/-- `check_host()` on a record. -/
def checkHost (w : World) (text : Text) : Result :=
  if !hasVersion text then .none
  else
    match readRecord text with
    | none => .permerror
    | some terms => evaluate w terms

example : checkHost ⟨fun _ => .matched, fun _ => .none⟩ "v=spf1 mx a:localhost -all".toList =
    .permerror := by decide +kernel

/-! ## Policies -/

/-- What becomes of senders that nothing matches. -/
inductive Policy
  | result (result : Result)
  | redirect (domain : Text)
  deriving DecidableEq, Repr

def policyOf (terms : List Term) : Policy :=
  match (directives terms).find? fun d => d.2.isAll with
  | some d => .result d.1.result
  | none =>
    match redirectOf terms with
    | some domain => .redirect domain
    | none => .result .neutral

def policy (text : Text) : Option Policy := policyOf <$> readRecord text

def Result.severity : Result → Nat
  | fail => 3
  | softfail => 2
  | neutral => 1
  | _ => 0

/-- The same policy or a stricter one. -/
def Policy.AtLeast (p other : Policy) : Prop :=
  p = other ∨ ∃ r r', p = .result r ∧ other = .result r' ∧ r'.severity ≤ r.severity

/-! ## Folded letters -/

theorem foldCase_cons {c : Char} (hc : c ≠ '%') (text : Text) :
    foldCase (c :: text) = c.toLower :: foldCase text := by
  conv_lhs => unfold foldCase
  split
  · rename_i heq
    cases heq
    exact absurd rfl hc
  · rename_i heq
    cases heq
    exact absurd rfl hc
  · rename_i heq
    cases heq
    rfl
  · rename_i heq
    cases heq

/-- Without macros every letter is folded. -/
theorem foldCase_of_plain {text : Text} (h : '%' ∉ text) : foldCase text = Text.asciiLower text := by
  induction text with
  | nil => rfl
  | cons c text ih =>
    rw [foldCase_cons fun hc => h (hc ▸ List.mem_cons_self),
      ih fun hmem => h (List.mem_cons_of_mem _ hmem)]
    rfl

/-- A text starts with what it starts with in lower case, up to the first percent sign. -/
theorem foldCase_of_prefix {front text rest : Text} (hfront : '%' ∉ front)
    (h : Text.asciiLower text = front ++ rest) :
    ∃ back, foldCase text = front ++ foldCase back ∧ Text.asciiLower back = rest := by
  induction front generalizing text with
  | nil => exact ⟨text, rfl, h⟩
  | cons d front ih =>
    cases text with
    | nil => cases h
    | cons c text =>
      obtain ⟨rfl, htext⟩ := List.cons.inj h
      have hc : c ≠ '%' := by
        rintro rfl
        exact hfront List.mem_cons_self
      obtain ⟨back, hfold, hback⟩ := ih (fun hmem => hfront (List.mem_cons_of_mem _ hmem)) htext
      exact ⟨back, by rw [foldCase_cons hc, hfold, List.cons_append], hback⟩

theorem foldCase_append {front : Text} (h : '%' ∉ front) (rest : Text) :
    foldCase (front ++ rest) = Text.asciiLower front ++ foldCase rest := by
  induction front with
  | nil => rfl
  | cons c front ih =>
    rw [List.cons_append, foldCase_cons fun hc => h (hc ▸ List.mem_cons_self),
      ih fun hmem => h (List.mem_cons_of_mem _ hmem)]
    rfl

/-- A letter, or what it is folded to. -/
def Folds (c d : Char) : Prop := d = c ∨ d = c.toLower

theorem folds_foldCase (text : Text) : List.Forall₂ Folds text (foldCase text) := by
  induction text using foldCase.induct with
  | case1 rest ih =>
    rw [foldCase]
    exact .cons (.inl rfl) (.cons (.inl rfl) ih)
  | case2 letter rest ih =>
    rw [foldCase]
    exact .cons (.inl rfl) (.cons (.inl rfl) (.cons (.inl rfl) ih))
  | case3 c rest hpercent hmacro ih =>
    rw [foldCase]
    · exact .cons (.inr rfl) ih
    · exact hpercent
    · exact hmacro
  | case4 => exact .nil

theorem folds_dropWhile {text folded : Text} (h : List.Forall₂ Folds text folded)
    {keep : Char → Bool} (hkeep : ∀ c, keep c.toLower = keep c) :
    List.Forall₂ Folds (text.dropWhile keep) (folded.dropWhile keep) := by
  induction h with
  | nil => exact .nil
  | @cons c d text folded hcd hrest ih =>
    have hsame : keep d = keep c := by
      rcases hcd with rfl | rfl
      · rfl
      · exact hkeep c
    rw [List.dropWhile_cons, List.dropWhile_cons, hsame]
    split
    · exact ih
    · exact .cons hcd hrest

/-- What has no upper case is not folded. -/
theorem eq_of_folds {text folded : Text} (h : List.Forall₂ Folds text folded)
    (hfixed : ∀ c ∈ text, c.toLower = c) : folded = text := by
  induction h with
  | nil => rfl
  | @cons c d text folded hcd hrest ih =>
    obtain ⟨hc, htext⟩ := List.forall_mem_cons.mp hfixed
    rw [ih htext]
    rcases hcd with rfl | rfl
    · rfl
    · rw [hc]

theorem mem_foldCase {d : Char} (hd : d.isAlpha = false) {text : Text} :
    d ∈ foldCase text ↔ d ∈ text := by
  have hfixed : d.toLower = d :=
    Text.toLower_cases (P := fun e c => c.isAlpha = false → e = c) (fun _ _ => rfl)
      (by decide +kernel) d hd
  have h := folds_foldCase text
  generalize foldCase text = folded at h
  induction h with
  | nil => rfl
  | @cons c e text folded hce hrest ih =>
    rw [List.mem_cons, List.mem_cons]
    refine or_congr ?_ ih
    rcases hce with rfl | rfl
    · rfl
    · constructor
      · intro heq
        exact (Text.toLower_eq_of_not_alpha hd heq.symm).symm
      · rintro rfl
        exact hfixed.symm

/-! ## Dots at the end of a domain -/

/-- A text that ends in something else has no dot to drop. -/
theorem dropDot_of_getLast {text : Text} (h : text.getLast? ≠ some '.') : dropDot text = text := by
  rw [dropDot, if_neg h]

theorem dropDot_concat (text : Text) : dropDot (text ++ ['.']) = text := by
  simp [dropDot]

/-- Digits at the end of a name are no prefix length. -/
theorem splitCidr_of_topLabel {front label : Text} (h : isTopLabel label = true) :
    splitCidr (front ++ '.' :: label) = (front ++ '.' :: label, []) := by
  simp only [isTopLabel, Bool.and_eq_true, List.all_eq_true, Bool.or_eq_true, beq_iff_eq] at h
  obtain ⟨⟨⟨hall, -⟩, -⟩, -⟩ := h
  have hdigits : ∀ c ∈ (front ++ '.' :: label).rtakeWhile isCidrChar, c.isDigit = true := by
    intro c hc
    have hcidr : isCidrChar c = true := List.mem_rtakeWhile_imp hc
    have hsuffix := List.rtakeWhile_suffix isCidrChar (front ++ '.' :: label)
    have hother : '.' :: label <:+ front ++ '.' :: label := ⟨front, rfl⟩
    rcases List.suffix_or_suffix_of_suffix hsuffix hother with hshort | hlong
    · rcases List.suffix_cons_iff.mp hshort with heq | hlabel
      · have hdot : '.' ∈ (front ++ '.' :: label).rtakeWhile isCidrChar := by
          rw [heq]
          exact List.mem_cons_self
        exact absurd (List.mem_rtakeWhile_imp hdot) (by decide)
      · have hkind := hall c (hlabel.subset hc)
        simp only [isCidrChar, Bool.or_eq_true, beq_iff_eq] at hcidr
        rcases hcidr with hdigit | rfl
        · exact hdigit
        · exact absurd hkind (by decide)
    · have hdot : '.' ∈ (front ++ '.' :: label).rtakeWhile isCidrChar :=
        hlong.subset List.mem_cons_self
      exact absurd (List.mem_rtakeWhile_imp hdot) (by decide)
  have htake := List.takeWhile_eq_self_iff.mpr hdigits
  have hdrop := List.dropWhile_eq_nil_iff.mpr hdigits
  rw [splitCidr, htake, hdrop, List.rdropWhile_append_rtakeWhile]

/-- A name without a slash in front of prefix lengths. -/
theorem splitCidr_append {host cidr : Text} (hhost : '/' ∉ host)
    (hhead : ∀ c ∈ cidr.head?, c = '/') (hcidr : ∀ c ∈ cidr, isCidrChar c = true) :
    splitCidr (host ++ cidr) = (host, cidr) := by
  have htrailing : (host ++ cidr).rtakeWhile isCidrChar = host.rtakeWhile isCidrChar ++ cidr := by
    simp only [List.rtakeWhile, List.reverse_append]
    rw [List.takeWhile_append_of_pos fun c hc => hcidr c (List.mem_reverse.mp hc)]
    simp
  have hdigits : ∀ c ∈ host.rtakeWhile isCidrChar, c.isDigit = true := by
    intro c hc
    have hkind : isCidrChar c = true := List.mem_rtakeWhile_imp hc
    have hmem : c ∈ host := (List.rtakeWhile_suffix isCidrChar host).subset hc
    simp only [isCidrChar, Bool.or_eq_true, beq_iff_eq] at hkind
    rcases hkind with hdigit | rfl
    · exact hdigit
    · exact absurd hmem hhost
  have hstop : cidr.takeWhile Char.isDigit = [] ∧ cidr.dropWhile Char.isDigit = cidr := by
    cases cidr with
    | nil => exact ⟨rfl, rfl⟩
    | cons c cidr =>
      obtain rfl := hhead c rfl
      exact ⟨rfl, rfl⟩
  rw [splitCidr, htrailing, Text.rdropWhile_append_of_forall host hcidr,
    List.takeWhile_append_of_pos hdigits, List.dropWhile_append_of_pos hdigits, hstop.1, hstop.2,
    List.append_nil, List.rdropWhile_append_rtakeWhile]

theorem macroEnd_dot (text : Text) : macroEnd (text ++ ['.']) ≠ some (.behind true) := by
  intro h
  have hstep : macroEnd (text ++ ['.']) = (macroEnd text).bind fun s => s.next '.' := by
    simp [macroEnd, List.foldlM_append]
  rw [hstep] at h
  obtain ⟨state, -, hnext⟩ := Option.bind_eq_some_iff.mp h
  revert hnext
  cases state with
  | behind expanded => cases expanded <;> decide
  | percent => decide
  | letter => decide
  | digits => decide
  | delimiters => decide

/-- A domain with a dot at its end ends in a top label and the dot, which may go. -/
theorem topLabel_of_dot {spec : Text} (h : isDomainSpec spec = true)
    (hdot : spec.getLast? = some '.') :
    ∃ front label, isTopLabel label = true ∧ spec = (front ++ '.' :: label) ++ ['.'] ∧
      isDomainSpec (front ++ '.' :: label) = true ∧
      (front ++ '.' :: label).getLast? ≠ some '.' := by
  obtain ⟨body, rfl⟩ : ∃ body, spec = body ++ ['.'] := by
    rw [List.getLast?_eq_some_iff] at hdot
    exact hdot
  have htop : endsInTopLabel (body ++ ['.']) = true := by
    simpa [isDomainSpec, macroEnd_dot] using h
  have hparts := htop
  simp only [endsInTopLabel, dropDot_concat, Bool.and_eq_true, decide_eq_true_eq] at hparts
  obtain ⟨⟨hmem, hlabel⟩, -⟩ := hparts
  obtain ⟨front, hbody⟩ := Text.exists_afterLast hmem
  have hlast : body.getLast? ≠ some '.' := by
    simp only [isTopLabel, Bool.and_eq_true, Option.any_eq_true] at hlabel
    obtain ⟨⟨-, d, hd, halnum⟩, -⟩ := hlabel
    obtain ⟨init, hinit⟩ := List.getLast?_eq_some_iff.mp hd
    rw [hbody, hinit]
    intro hend
    have hsame : (front ++ '.' :: (init ++ [d])).getLast? = some d := by
      rw [← List.cons_append, ← List.append_assoc, List.getLast?_concat]
    obtain rfl := Option.some.inj (hsame.symm.trans hend)
    exact absurd halnum (by decide)
  refine ⟨front, Text.afterLast '.' body, hlabel, by rw [← hbody], ?_, by rw [← hbody]; exact hlast⟩
  rw [← hbody, isDomainSpec, Bool.or_eq_true]
  left
  simpa only [endsInTopLabel, dropDot_concat, dropDot_of_getLast hlast] using htop

theorem rdropWhile_of_getLast {text : Text} (h : text.getLast? ≠ some '.') :
    text.rdropWhile (· == '.') = text := by
  refine List.rdropWhile_eq_self_iff.mpr fun hne hdot => h ?_
  rw [List.getLast?_eq_some_getLast hne, beq_iff_eq.mp hdot]

theorem rdropWhile_concat {text : Text} (h : text.getLast? ≠ some '.') :
    (text ++ ['.']).rdropWhile (· == '.') = text := by
  rw [List.rdropWhile_concat_pos (· == '.') text '.' (by decide), rdropWhile_of_getLast h]

theorem getLast_append_cons {front text : Text} {c : Char} (hc : c ≠ '.')
    (h : text.getLast? ≠ some '.') : (front ++ c :: text).getLast? ≠ some '.' := by
  rw [List.getLast?_append_cons, List.getLast?_cons]
  cases hlast : text.getLast? with
  | none => simpa using hc
  | some d => simpa [hlast] using h

/-! ## Mechanisms of hosts -/

/-- `a` and `mx` with a domain, as they are read. -/
theorem readMechanism_host {name : String} (hname : name = "a" ∨ name = "mx") (value : Text) :
    readMechanism (name.toList ++ ':' :: value) =
      if isDomainSpec (splitCidr value).1 && isDualCidr (splitCidr value).2 then
        some ⟨name.toList, some (dropDot (splitCidr value).1), (splitCidr value).2⟩
      else none := by
  rcases hname with rfl | rfl
  · rfl
  · rfl

/-- The dots at the end of a mechanism of hosts may go. -/
theorem readMechanism_rdropWhile {name : String} (hname : name = "a" ∨ name = "mx") {value : Text}
    {m : Mechanism} (h : readMechanism (name.toList ++ ':' :: value) = some m) :
    readMechanism ((name.toList ++ ':' :: value).rdropWhile (· == '.')) = some m := by
  by_cases hdot : value.getLast? = some '.'
  · have htrailing : value.rtakeWhile isCidrChar = [] := by
      obtain ⟨body, rfl⟩ := List.getLast?_eq_some_iff.mp hdot
      exact List.rtakeWhile_concat_neg isCidrChar body '.' (by decide)
    have hsplit : splitCidr value = (value, []) := by
      have hjoin := List.rdropWhile_append_rtakeWhile (p := isCidrChar) (l := value)
      rw [htrailing, List.append_nil] at hjoin
      simp [splitCidr, htrailing, hjoin]
    rw [readMechanism_host hname, hsplit] at h
    split at h
    · rename_i hok
      simp only [Bool.and_eq_true] at hok
      obtain ⟨front, label, hlabel, rfl, hspec, hlast⟩ := topLabel_of_dot hok.1 hdot
      have hkeep : (name.toList ++ ':' :: ((front ++ '.' :: label) ++ ['.'])).rdropWhile
          (· == '.') = name.toList ++ ':' :: (front ++ '.' :: label) := by
        rw [← List.cons_append, ← List.append_assoc,
          rdropWhile_concat (getLast_append_cons (by decide) hlast)]
      rw [hkeep, readMechanism_host hname, splitCidr_of_topLabel hlabel, ← h, dropDot_concat,
        dropDot_of_getLast hlast]
      simp [hspec, isDualCidr]
    · cases h
  · rw [rdropWhile_of_getLast (getLast_append_cons (by decide) hdot)]
    exact h

/-! ## Evaluating a list of hosts -/

/-- Every lookup gets an answer. -/
def World.Answered (w : World) : Prop := ∀ m result, w.answer m ≠ .failed result

/-- Where nothing in front of it turns a sender away, a mechanism that matches lets it
pass. -/
theorem evaluateFrom_pass {w : World} (hw : w.Answered) {redirect : Option Text}
    {ds rest : List (Qualifier × Mechanism)} {left : Nat}
    (hpass : ∀ d ∈ ds, d.1 = .pass) (hleft : ds.length ≤ left)
    {d : Qualifier × Mechanism} (hd : d ∈ ds) (hmatch : w.answer d.2 = .matched) :
    evaluateFrom w redirect left (ds ++ rest) = .pass := by
  induction ds generalizing left with
  | nil => cases hd
  | cons first ds ih =>
    obtain ⟨q, m⟩ := first
    obtain rfl : q = .pass := hpass _ List.mem_cons_self
    have hroom : (left == 0) = false := by
      simp only [List.length_cons] at hleft
      simp only [beq_eq_false_iff_ne, ne_eq]
      omega
    rw [List.cons_append, evaluateFrom, hroom, Bool.and_false]
    split
    · rfl
    · simp only [Bool.false_eq_true, if_false]
      cases hanswer : w.answer m with
      | matched => rfl
      | failed result => exact absurd hanswer (hw m result)
      | differs =>
        have hlater : d ∈ ds := by
          rcases List.mem_cons.mp hd with rfl | hlater
          · rw [hmatch] at hanswer
            cases hanswer
          · exact hlater
        refine ih (fun e he => hpass e (List.mem_cons_of_mem _ he)) ?_ hlater
        simp only [List.length_cons] at hleft
        split
        · omega
        · omega

/-! ## Records that are none -/

theorem checkHost_of_malformed {text : Text} (h : readRecord text = none) (w : World) :
    checkHost w text ≠ .pass := by
  unfold checkHost
  split
  · nofun
  · rw [h]
    nofun

end MailCue.Lib.Spf
