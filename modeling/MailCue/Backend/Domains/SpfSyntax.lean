import MailCue.Backend.Domains.SpfMatching
import MailCue.Lib.Fallible

/-!
# What the check of a record leaves open

`_validate_spf_record` splits at any white space, takes any domain without a slash, any value of
a modifier, and prefix lengths as `\d` and `ip_network` read them. A record that passes is one
that receivers can read where these parts are in order.
-/
namespace MailCue.Backend.Domains
open MailCue.Lib

/-! ## The parts that are not checked -/

/-- Digits without a zero in front. -/
def plainLength (text : Text) : Bool :=
  text.all Char.isDigit && (text == ['0'] || text.head? != some '0')

/-- The prefix lengths of `a` and `mx` are plain. -/
def plainLengths : Text → Bool
  | '/' :: '/' :: length => plainLength length
  | '/' :: rest =>
    plainLength (rest.takeWhile (· != '/')) &&
      match rest.dropWhile (· != '/') with
      | '/' :: '/' :: length => plainLength length
      | _ => true
  | _ => true

/-- The value of a modifier: a domain where one is meant, else a macro string. -/
def modifierInOrder (name value : Text) : Bool :=
  if name = "redirect".toList ∨ name = "exp".toList then Spf.isDomainSpec value
  else Spf.isMacroString value

/-- A network without a scope and without a netmask, with a plain prefix length. -/
def networkInOrder (network : Text) : Bool :=
  '%' ∉ network &&
    match network.splitOn '/' with
    | [_, length] => plainLength length
    | _ => true

/-- What follows the name of a mechanism: a domain or a network, with plain prefix lengths. -/
def mechanismInOrder (name : String) (rest : Text) : Bool :=
  match name, rest with
  | "a", ':' :: value | "mx", ':' :: value =>
    Spf.isDomainSpec (value.takeWhile (· != '/')) && plainLengths (value.dropWhile (· != '/'))
  | "a", rest | "mx", rest => plainLengths rest
  | "ptr", ':' :: spec | "include", ':' :: spec | "exists", ':' :: spec => Spf.isDomainSpec spec
  | "ip4", ':' :: network | "ip6", ':' :: network => networkInOrder network
  | _, _ => true

def afterMechanism (term : Text) : Text := term.dropWhile fun c => c != ':' && c != '/'

def partsInOrder (raw_term : Text) : Bool :=
  let term := withoutQualifier raw_term
  if '=' ∈ term then
    let name := term.takeWhile (· != '=')
    modifierInOrder (Text.asciiLower name) (Spf.foldCase (term.drop (name.length + 1)))
  else
    mechanismInOrder (String.ofList (Text.asciiLower (mechanismText term)))
      (Spf.foldCase (afterMechanism term))

/-- The record starts with its version, has nothing but visible ASCII and blanks, and the
parts of its terms are in order. -/
def InOrder (value : Text) : Prop :=
  Spf.hasVersion value = true ∧ (∀ c ∈ value, isRecordChar c = true) ∧
    ∀ raw_term ∈ (words value).tail, partsInOrder raw_term = true

/-- A record that receivers can read, with ten terms at most that query the DNS. -/
def Readable (value : Text) : Prop :=
  ∃ terms, Spf.readRecord value = some terms ∧ terms.countP Spf.Term.looksUp ≤ 10

/-! ## Prefix lengths -/

section
variable {py : Python}

def Visible (text : Text) : Prop := ∀ c ∈ text, Spf.isVisible c = true

theorem ascii_of_visible {text : Text} (h : Visible text) : ∀ c ∈ text, Text.ascii c = true := by
  intro c hc
  exact (recordChar (by rw [isRecordChar, h c hc, Bool.or_true])).1

theorem lower_of_visible {text : Text} (h : Visible text) : py.lower text = Text.asciiLower text :=
  py.ascii_lower text (ascii_of_visible h)

/-- Decimal digits of ASCII are read as a number. -/
theorem digits_of_foldlM {text : Text} (h : Visible text) {start n : Nat}
    (hread : text.foldlM (fun n c => (10 * n + ·) <$> py.digit c) start = some n) :
    text.all Char.isDigit = true ∧
      n = text.foldl (fun n c => 10 * n + (c.toNat - '0'.toNat)) start := by
  induction text generalizing start with
  | nil => exact ⟨rfl, (Option.some.inj hread).symm⟩
  | cons c text ih =>
    obtain ⟨hc, htext⟩ := List.forall_mem_cons.mp h
    have hascii := ascii_of_visible h c List.mem_cons_self
    rw [List.foldlM_cons, py.ascii_digit c hascii] at hread
    by_cases hdigit : c.isDigit = true
    · rw [if_pos hdigit] at hread
      obtain ⟨hall, hn⟩ := ih htext hread
      exact ⟨by simp [hdigit, hall], hn⟩
    · rw [if_neg hdigit] at hread
      cases hread

theorem cidr_eq {text : Text} (h : Visible text) {n : Nat} (hread : cidr py text = some n) :
    text ≠ [] ∧ text.all Char.isDigit = true ∧ n = IpAddress.decimalValue text := by
  unfold cidr at hread
  split at hread
  · rename_i hshort
    exact ⟨hshort.1, digits_of_foldlM h hread⟩
  · cases hread

/-- What was read as a length is one but for zeros in front. -/
theorem isCidrLength_iff {text : Text} (h : Visible text) {n limit : Nat}
    (hread : cidr py text = some n) (hlimit : n ≤ limit) :
    Spf.isCidrLength limit text = plainLength text := by
  obtain ⟨hne, hdigits, rfl⟩ := cidr_eq h hread
  simp [Spf.isCidrLength, plainLength, hdigits, hne, hlimit]

theorem Visible.subset {text more : Text} (h : Visible text) (hmore : more ⊆ text) :
    Visible more := fun c hc => h c (hmore hc)

/-- The ways to write the prefix lengths of `a` and `mx`. -/
theorem of_cidrs {text : Text} {ipv4_cidr ipv6_cidr : Option Nat}
    (h : cidrs py text = some (ipv4_cidr, ipv6_cidr)) :
    text = [] ∨
      (∃ length n, text = '/' :: '/' :: length ∧ cidr py length = some n ∧ ipv6_cidr = some n) ∨
      ∃ length n more, text = '/' :: length ++ more ∧ length ≠ [] ∧ '/' ∉ length ∧
        cidr py length = some n ∧ ipv4_cidr = some n ∧
        (more = [] ∨
          ∃ last m, more = '/' :: '/' :: last ∧ cidr py last = some m ∧ ipv6_cidr = some m) := by
  unfold cidrs at h
  split at h
  · exact .inl rfl
  · rename_i length
    obtain ⟨n, hn, h⟩ := Option.bind_eq_some_iff.mp h
    cases h
    exact .inr (.inl ⟨length, n, rfl, hn, rfl⟩)
  · rename_i rest _
    obtain ⟨n, hn, h⟩ := Option.bind_eq_some_iff.mp h
    have hne : rest.takeWhile (· != '/') ≠ [] := by
      intro hnil
      rw [hnil] at hn
      simp [cidr] at hn
    have hslash : '/' ∉ rest.takeWhile (· != '/') := by
      intro hmem
      simpa using List.mem_takeWhile_imp hmem
    refine .inr (.inr ⟨rest.takeWhile (· != '/'), n, rest.dropWhile (· != '/'), ?_, hne, hslash,
      hn, ?_⟩)
    · rw [List.cons_append, List.takeWhile_append_dropWhile]
    · split at h
      · rename_i hmore
        cases h
        exact ⟨rfl, .inl hmore⟩
      · rename_i last hmore
        obtain ⟨m, hm, h⟩ := Option.bind_eq_some_iff.mp h
        cases h
        exact ⟨rfl, .inr ⟨last, m, hmore, hm, rfl⟩⟩
      · cases h
  · cases h

theorem isCidrChar_of_cidr {text : Text} (h : Visible text) {n : Nat}
    (hread : cidr py text = some n) : ∀ c ∈ text, Spf.isCidrChar c = true := by
  intro c hc
  have hdigit := List.all_eq_true.mp (cidr_eq h hread).2.1 c hc
  simp [Spf.isCidrChar, hdigit]

/-- What was read as prefix lengths has no letters. -/
theorem isCidrChar_of_cidrs {text : Text} (h : Visible text) {ipv4_cidr ipv6_cidr : Option Nat}
    (hread : cidrs py text = some (ipv4_cidr, ipv6_cidr)) :
    (∀ c ∈ text.head?, c = '/') ∧ ∀ c ∈ text, Spf.isCidrChar c = true := by
  rcases of_cidrs hread with rfl | ⟨length, n, rfl, hn, -⟩ |
      ⟨length, n, more, rfl, -, -, hn, -, hmore⟩
  · exact ⟨nofun, nofun⟩
  · have hlength : Visible length := h.subset fun c hc =>
      List.mem_cons_of_mem _ (List.mem_cons_of_mem _ hc)
    refine ⟨by simp, List.forall_mem_cons.mpr ⟨rfl, List.forall_mem_cons.mpr ⟨rfl, ?_⟩⟩⟩
    exact isCidrChar_of_cidr hlength hn
  · have hlength : Visible length := h.subset fun c hc =>
      List.mem_append_left _ (List.mem_cons_of_mem _ hc)
    refine ⟨by simp, List.forall_mem_append.mpr
      ⟨List.forall_mem_cons.mpr ⟨rfl, isCidrChar_of_cidr hlength hn⟩, ?_⟩⟩
    rcases hmore with rfl | ⟨last, m, rfl, hm, -⟩
    · nofun
    · have hlast : Visible last := h.subset fun d hd => List.mem_append_right _
        (List.mem_cons_of_mem _ (List.mem_cons_of_mem _ hd))
      refine List.forall_mem_cons.mpr ⟨rfl, List.forall_mem_cons.mpr ⟨rfl, ?_⟩⟩
      exact isCidrChar_of_cidr hlast hm

/-- What was read as prefix lengths is so but for zeros in front. -/
theorem isDualCidr_eq {text : Text} (h : Visible text) {ipv4_cidr ipv6_cidr : Option Nat}
    (hread : cidrs py text = some (ipv4_cidr, ipv6_cidr)) (hfour : ipv4_cidr.any (32 < ·) = false)
    (hsix : ipv6_cidr.any (128 < ·) = false) : Spf.isDualCidr text = plainLengths text := by
  rcases of_cidrs hread with rfl | ⟨length, n, rfl, hn, rfl⟩ |
      ⟨length, n, more, rfl, hne, hslash, hn, rfl, hmore⟩
  · rfl
  · have hlength : Visible length := h.subset fun c hc =>
      List.mem_cons_of_mem _ (List.mem_cons_of_mem _ hc)
    exact isCidrLength_iff hlength hn (by simpa using hsix)
  · have hlength : Visible length := h.subset fun c hc =>
      List.mem_append_left _ (List.mem_cons_of_mem _ hc)
    have hfirst := isCidrLength_iff hlength hn (by simpa using hfour)
    obtain ⟨c, rest, rfl⟩ := List.exists_cons_of_ne_nil hne
    have hother : ∀ more length : Text, c :: (rest ++ more) = '/' :: length → False := by
      intro more length heq
      exact hslash ((List.cons.inj heq).1 ▸ List.mem_cons_self)
    have hkeep : ∀ d ∈ c :: rest, (d != '/') = true := by
      intro d hd
      simpa using fun heq : d = '/' => hslash (heq ▸ hd)
    rcases hmore with rfl | ⟨last, m, rfl, hm, rfl⟩
    · have htake : (c :: rest).takeWhile (· != '/') = c :: rest :=
        List.takeWhile_eq_self_iff.mpr hkeep
      have hdrop : (c :: rest).dropWhile (· != '/') = [] := List.dropWhile_eq_nil_iff.mpr hkeep
      have hnot := hother []
      rw [List.append_nil] at hnot ⊢
      rw [Spf.isDualCidr, plainLengths, htake, hdrop, hfirst]
      · exact hnot
      · exact hnot
    · have hlast : Visible last := h.subset fun d hd => List.mem_append_right _
        (List.mem_cons_of_mem _ (List.mem_cons_of_mem _ hd))
      have hsecond := isCidrLength_iff hlast hm (by simpa using hsix)
      have htake : (c :: rest ++ '/' :: '/' :: last).takeWhile (· != '/') = c :: rest := by
        rw [List.takeWhile_append_of_pos hkeep]
        simp
      have hdrop : (c :: rest ++ '/' :: '/' :: last).dropWhile (· != '/') = '/' :: '/' :: last := by
        rw [List.dropWhile_append_of_pos hkeep]
        simp
      rw [List.cons_append] at htake hdrop
      rw [List.cons_append, List.cons_append, Spf.isDualCidr, plainLengths, htake, hdrop, hfirst]
      · exact congrArg (plainLength (c :: rest) && ·) hsecond
      · exact hother _
      · exact hother _

/-! ## The name of a mechanism -/

def knownMechanisms : List String := ["all", "a", "mx", "ptr", "include", "exists", "ip4", "ip6"]

theorem percent_not_mem_name {name : String} (h : name ∈ knownMechanisms) : '%' ∉ name.toList := by
  have hall : ∀ name ∈ knownMechanisms, '%' ∉ name.toList := by decide
  exact hall name h

theorem known_of_checkMechanism {name : String} {raw_term term : Text}
    (h : checkMechanism py name raw_term term = .ok ()) : name ∈ knownMechanisms := by
  by_contra hunknown
  simp only [knownMechanisms, List.mem_cons, List.not_mem_nil, or_false, not_or] at hunknown
  simp [checkMechanism, hunknown] at h

theorem mechanismText_append (term : Text) : mechanismText term ++ afterMechanism term = term :=
  List.takeWhile_append_dropWhile

/-- Behind the name is nothing, a colon or a slash. -/
theorem of_afterMechanism (term : Text) :
    afterMechanism term = [] ∨ (∃ value, afterMechanism term = ':' :: value) ∨
      ∃ rest, afterMechanism term = '/' :: rest := by
  have hstop := List.head?_dropWhile_not (fun c => c != ':' && c != '/') term
  unfold afterMechanism
  cases hafter : term.dropWhile fun c => c != ':' && c != '/' with
  | nil => exact .inl rfl
  | cons c rest =>
    rw [hafter] at hstop
    simp only [List.head?_cons, bne, Bool.and_eq_false_iff, Bool.not_eq_eq_eq_not, Bool.not_false,
      beq_iff_eq] at hstop
    rcases hstop with rfl | rfl
    · exact .inr (.inl ⟨rest, rfl⟩)
    · exact .inr (.inr ⟨rest, rfl⟩)

section
variable {name : String} {term : Text} (hname : Text.asciiLower (mechanismText term) = name.toList)
include hname

theorem drop_name : term.drop name.toList.length = afterMechanism term := by
  have hlength : name.toList.length = (mechanismText term).length := by
    rw [← hname, Text.asciiLower, List.length_map]
  conv_lhs => rw [← mechanismText_append term]
  rw [hlength, List.drop_left]

theorem afterName_name : afterName name.toList term = some (afterMechanism term) := by
  have hlength : name.toList.length = (mechanismText term).length := by
    rw [← hname, Text.asciiLower, List.length_map]
  have htake : term.take name.toList.length = mechanismText term := by
    conv_lhs => rw [← mechanismText_append term]
    rw [hlength, List.take_left]
  rw [afterName, htake, if_pos hname, drop_name hname]

theorem asciiLower_term :
    Text.asciiLower term = name.toList ++ Text.asciiLower (afterMechanism term) := by
  conv_lhs => rw [← mechanismText_append term]
  rw [Text.asciiLower, List.map_append]
  exact congrArg (· ++ _) hname

theorem foldCase_term (hknown : name ∈ knownMechanisms) :
    Spf.foldCase term = name.toList ++ Spf.foldCase (afterMechanism term) := by
  have hpercent : '%' ∉ mechanismText term := by
    intro hmem
    refine percent_not_mem_name hknown ?_
    rw [← hname]
    exact List.mem_map.mpr ⟨'%', hmem, by decide⟩
  conv_lhs => rw [← mechanismText_append term]
  rw [Spf.foldCase_append hpercent, hname]

/-- A term that starts with the name and a colon. -/
theorem exists_value (hvisible : Visible term)
    (hstart : (name.toList ++ [':']).isPrefixOf (py.lower term) = true) :
    ∃ value, afterMechanism term = ':' :: value ∧
      term.drop (name.toList ++ [':']).length = value := by
  rw [lower_of_visible hvisible, asciiLower_term hname, List.isPrefixOf_iff_prefix,
    List.prefix_append_right_inj] at hstart
  obtain ⟨rest, hrest⟩ := hstart
  obtain ⟨c, value, hafter⟩ : ∃ c value, afterMechanism term = c :: value := by
    cases hafter : afterMechanism term with
    | nil =>
      rw [hafter] at hrest
      cases hrest
    | cons c value => exact ⟨c, value, rfl⟩
  rw [hafter] at hrest
  obtain rfl : c = ':' := Text.toLower_eq_of_not_alpha (by decide) (List.cons.inj hrest).1.symm
  refine ⟨value, hafter, ?_⟩
  rw [List.length_append, ← List.drop_drop, drop_name hname, hafter]
  rfl

end

/-! ## The mechanisms one by one -/

theorem toLower_of_isCidrChar {c : Char} (h : Spf.isCidrChar c = true) : c.toLower = c := by
  simp only [Spf.isCidrChar, Bool.or_eq_true, beq_iff_eq] at h
  rcases h with hdigit | rfl
  · exact IpAddress.toLower_of_isDigit hdigit
  · decide

theorem not_isSpace_of_visible {c : Char} (h : Spf.isVisible c = true) :
    Text.isSpace c = false := by
  have hspace := (recordChar (by rw [isRecordChar, h, Bool.or_true])).2.1
  rw [hspace, beq_eq_false_iff_ne]
  rintro rfl
  exact absurd h (by decide)

/-- No space ends the name of a host in front of its slash. -/
theorem afterHost_eq {value cidr : Text} (h : Visible value) (hread : afterHost value = some cidr) :
    cidr = value.dropWhile (· != '/') := by
  have hsame : (value.takeWhile fun c => c != '/' && !Text.isSpace c) =
      value.takeWhile (· != '/') := by
    clear hread
    induction value with
    | nil => rfl
    | cons c value ih =>
      obtain ⟨hc, hvalue⟩ := List.forall_mem_cons.mp h
      rw [List.takeWhile_cons, List.takeWhile_cons, not_isSpace_of_visible hc, ih hvalue]
      simp
  have hjoin := List.takeWhile_append_dropWhile (p := (· != '/')) (l := value)
  rw [afterHost, hsame] at hread
  split at hread
  · cases hread
  · rw [← Option.some.inj hread]
    calc value.drop (value.takeWhile (· != '/')).length
        = (value.takeWhile (· != '/') ++ value.dropWhile (· != '/')).drop
            (value.takeWhile (· != '/')).length := by rw [hjoin]
      _ = value.dropWhile (· != '/') := List.drop_left

theorem isSome_if {α : Type} (b : Bool) (a : α) : (if b then some a else none).isSome = b := by
  cases b with
  | false => rfl
  | true => rfl

theorem toLower_slash (c : Char) : (c.toLower != '/') = (c != '/') :=
  Text.toLower_cases (P := fun d c => (d != '/') = (c != '/')) (fun _ => rfl) (by decide +kernel) c

/-- `a` and `mx`: the name of the host may be no domain, the lengths may start with zeros. -/
theorem isSome_host {name : String} (hhost : name = "a" ∨ name = "mx") {term : Text}
    (hname : Text.asciiLower (mechanismText term) = name.toList) (hvisible : Visible term)
    {ipv4_cidr ipv6_cidr : Option Nat}
    (hmatch : matchHost py name.toList term = some (ipv4_cidr, ipv6_cidr))
    (hfour : ipv4_cidr.any (32 < ·) = false) (hsix : ipv6_cidr.any (128 < ·) = false) :
    (Spf.readMechanism (name.toList ++ Spf.foldCase (afterMechanism term))).isSome =
      mechanismInOrder name (Spf.foldCase (afterMechanism term)) := by
  have hafter : Visible (afterMechanism term) := hvisible.subset (List.dropWhile_sublist _).subset
  have hcolon : ∀ value, Spf.foldCase (':' :: value) = ':' :: Spf.foldCase value :=
    Spf.foldCase_cons (by decide)
  rw [matchHost, afterName_name hname, Option.bind_eq_bind, Option.bind_some] at hmatch
  rcases of_afterMechanism term with hnil | ⟨value, hvalue⟩ | ⟨rest, hrest⟩
  · rw [hnil]
    rcases hhost with rfl | rfl
    · rfl
    · rfl
  · rw [hvalue] at hmatch hafter ⊢
    have hvisible : Visible value := hafter.subset (List.subset_cons_self _ _)
    obtain ⟨cidr, hcidr, hread⟩ := Option.bind_eq_some_iff.mp hmatch
    have hdrop : cidr = value.dropWhile (· != '/') := afterHost_eq hvisible hcidr
    have hsuffix : Visible cidr := by
      rw [hdrop]
      exact hvisible.subset (List.dropWhile_sublist _).subset
    have hdual := isDualCidr_eq hsuffix hread hfour hsix
    obtain ⟨hhead, hchars⟩ := isCidrChar_of_cidrs hsuffix hread
    -- the lengths have no letters to fold, and the name has no slash
    have hfold : (Spf.foldCase value).dropWhile (· != '/') = cidr := by
      have hfolds : List.Forall₂ Spf.Folds (value.dropWhile (· != '/'))
          ((Spf.foldCase value).dropWhile (· != '/')) :=
        Spf.folds_dropWhile (Spf.folds_foldCase value) toLower_slash
      rw [← hdrop] at hfolds
      exact Spf.eq_of_folds hfolds fun c hc => toLower_of_isCidrChar (hchars c hc)
    have hslash : '/' ∉ (Spf.foldCase value).takeWhile (· != '/') := by
      intro hmem
      simpa using List.mem_takeWhile_imp hmem
    have hsplit : Spf.splitCidr (Spf.foldCase value) =
        ((Spf.foldCase value).takeWhile (· != '/'), cidr) := by
      conv_lhs => rw [← List.takeWhile_append_dropWhile (p := (· != '/')) (l := Spf.foldCase value)]
      rw [hfold, Spf.splitCidr_append hslash hhead hchars]
    have horder : mechanismInOrder name (':' :: Spf.foldCase value) =
        (Spf.isDomainSpec ((Spf.foldCase value).takeWhile (· != '/')) && plainLengths cidr) := by
      rw [← hfold]
      rcases hhost with rfl | rfl
      · rfl
      · rfl
    rw [hcolon, Spf.readMechanism_host hhost, hsplit, hdual, horder, isSome_if]
  · rw [hrest] at hmatch hafter ⊢
    have hdual := isDualCidr_eq hafter hmatch hfour hsix
    obtain ⟨-, hchars⟩ := isCidrChar_of_cidrs hafter hmatch
    have hfold : Spf.foldCase ('/' :: rest) = '/' :: rest :=
      Spf.eq_of_folds (Spf.folds_foldCase _) fun c hc => toLower_of_isCidrChar (hchars c hc)
    have hread : (Spf.readMechanism (name.toList ++ '/' :: rest)).isSome =
        Spf.isDualCidr ('/' :: rest) := by
      have hone : Spf.readMechanism (name.toList ++ '/' :: rest) =
          if Spf.isDualCidr ('/' :: rest) then some ⟨name.toList, none, '/' :: rest⟩ else none := by
        rcases hhost with rfl | rfl
        · rfl
        · rfl
      rw [hone, isSome_if]
    have horder : mechanismInOrder name ('/' :: rest) = plainLengths ('/' :: rest) := by
      rcases hhost with rfl | rfl
      · rfl
      · rfl
    rw [hfold, hread, hdual, horder]

theorem percent_not_mem_of_isNetwork {limit : Nat} {isAddress : Text → Bool}
    (haddress : ∀ t, isAddress t = true → '%' ∉ t) {text : Text}
    (h : Spf.isNetwork limit isAddress text = true) : '%' ∉ text := by
  intro hmem
  rcases Text.mem_splitOn '/' hmem with hslash | ⟨piece, hpiece, hmem⟩
  · cases hslash
  · unfold Spf.isNetwork at h
    split at h
    · rename_i address hsplit
      rw [hsplit, List.mem_singleton] at hpiece
      exact haddress address h (hpiece ▸ hmem)
    · rename_i address length hsplit
      simp only [Bool.and_eq_true] at h
      rw [hsplit, List.mem_cons, List.mem_singleton] at hpiece
      rcases hpiece with rfl | rfl
      · exact haddress piece h.1 hmem
      · have hlength := h.2
        simp only [Spf.isCidrLength, Bool.and_eq_true] at hlength
        exact absurd (List.all_eq_true.mp hlength.1.1.1 _ hmem) (by decide)
    · cases h

/-- What was read as the prefix length of a network is one but for zeros in front, and a
netmask is none. -/
theorem isCidrLength_of_mask {limit n : Nat} {mask : Text}
    (h : IpAddress.readPrefix limit mask = some n ∨ IpAddress.readMask mask = some n) :
    Spf.isCidrLength limit (Text.asciiLower mask) = plainLength (Text.asciiLower mask) := by
  rcases h with hprefix | hmask
  · obtain ⟨value, hvalue, hlimit⟩ := Option.bind_eq_some_iff.mp hprefix
    unfold IpAddress.readDecimal at hvalue
    split at hvalue
    · rename_i hdigits
      obtain rfl := Option.some.inj hvalue
      split at hlimit
      · rename_i hle
        rw [IpAddress.asciiLower_of_digits (List.all_eq_true.mp hdigits.2)]
        simp [Spf.isCidrLength, plainLength, hdigits.1, hdigits.2, hle]
      · cases hlimit
    · cases hvalue
  · have hdot := IpAddress.dot_mem_asciiLower.mpr (IpAddress.dot_mem_of_readMask hmask)
    have hdigits : (Text.asciiLower mask).all Char.isDigit = false := by
      rw [List.all_eq_false]
      exact ⟨'.', hdot, by decide⟩
    simp [Spf.isCidrLength, plainLength, hdigits]

/-- A network that was read is one to a receiver where it is in order. -/
theorem isNetwork_eq {limit n : Nat} {isAddress : Text → Bool} {network front : Text}
    (haddress : ∀ t, isAddress t = true → '%' ∉ t)
    (hlower : ∀ t, isAddress (Text.asciiLower t) = isAddress t)
    (hfront : '%' ∉ front → isAddress front = true)
    (hsplit : network.splitOn '/' = [front] ∨ ∃ mask, network.splitOn '/' = [front, mask] ∧
      (IpAddress.readPrefix limit mask = some n ∨ IpAddress.readMask mask = some n)) :
    Spf.isNetwork limit isAddress (Spf.foldCase network) =
      networkInOrder (Spf.foldCase network) := by
  have hmem : '%' ∈ Spf.foldCase network ↔ '%' ∈ network := Spf.mem_foldCase (by decide)
  by_cases hplain : '%' ∈ network
  · have hnot : Spf.isNetwork limit isAddress (Spf.foldCase network) = false := by
      by_contra hnetwork
      exact percent_not_mem_of_isNetwork haddress (by simpa using hnetwork) (hmem.mpr hplain)
    rw [hnot, networkInOrder]
    simp [hmem, hplain]
  · have hpart : front ∈ network.splitOn '/' := by
      rcases hsplit with hone | ⟨mask, htwo, -⟩
      · rw [hone]
        exact List.mem_cons_self
      · rw [htwo]
        exact List.mem_cons_self
    have hread := hfront fun hc => hplain (Text.of_mem_splitOnP hpart _ hc).2
    have hnone : decide ('%' ∉ Spf.foldCase network) = true := by simp [hmem, hplain]
    rw [networkInOrder, hnone, Bool.true_and, Spf.foldCase_of_plain hplain, Spf.isNetwork,
      Text.splitOn_asciiLower (by decide)]
    rcases hsplit with hone | ⟨mask, htwo, hmask⟩
    · rw [hone]
      exact (hlower front).trans hread
    · rw [htwo]
      change (isAddress (Text.asciiLower front) &&
        Spf.isCidrLength limit (Text.asciiLower mask)) = _
      rw [hlower, hread, Bool.true_and]
      exact isCidrLength_of_mask hmask

theorem isNetwork_four {network : Text} {address : IpAddress} {n : Nat}
    (hread : IpAddress.readNetwork network = some (address, n))
    (hversion : address.version = .four) :
    Spf.isNetwork 32 (fun t => (IpAddress.readV4 t).isSome) (Spf.foldCase network) =
      networkInOrder (Spf.foldCase network) := by
  obtain ⟨front, hsplit, hfront⟩ := IpAddress.of_readNetwork hread
  rw [hversion] at hsplit hfront
  refine isNetwork_eq (fun t ht => ?_) (fun t => ?_) (fun _ => hfront) hsplit
  · obtain ⟨octets, hoctets⟩ := Option.isSome_iff_exists.mp ht
    exact IpAddress.percent_not_mem_of_readV4 hoctets
  · rw [IpAddress.readV4_asciiLower]

theorem isNetwork_six {network : Text} {address : IpAddress} {n : Nat}
    (hread : IpAddress.readNetwork network = some (address, n))
    (hversion : address.version = .six) :
    Spf.isNetwork 128 (fun t => (IpAddress.readV6 t).isSome) (Spf.foldCase network) =
      networkInOrder (Spf.foldCase network) := by
  obtain ⟨front, hsplit, hfront⟩ := IpAddress.of_readNetwork hread
  rw [hversion] at hsplit hfront
  refine isNetwork_eq (fun t ht => ?_) (fun t => ?_)
    (fun hplain => IpAddress.readV6_of_readScoped hplain hfront) hsplit
  · obtain ⟨hextets, hhextets⟩ := Option.isSome_iff_exists.mp ht
    exact IpAddress.percent_not_mem_of_readV6 hhextets
  · rw [IpAddress.readV6_asciiLower]

section
variable {name : String} {raw_term term : Text} (h : checkMechanism py name raw_term term = .ok ())
include h

theorem matchHost_of_checkMechanism (hhost : name = "a" ∨ name = "mx") :
    ∃ ipv4_cidr ipv6_cidr, matchHost py name.toList term = some (ipv4_cidr, ipv6_cidr) ∧
      ipv4_cidr.any (32 < ·) = false ∧ ipv6_cidr.any (128 < ·) = false := by
  have hall : name ≠ "all" := by
    rcases hhost with rfl | rfl
    · decide
    · decide
  rw [checkMechanism, if_neg hall, if_pos hhost] at h
  split at h
  · cases h
  · rename_i ipv4_cidr ipv6_cidr hmatch
    split at h
    · cases h
    · rename_i hfour
      split at h
      · cases h
      · rename_i hsix
        exact ⟨ipv4_cidr, ipv6_cidr, hmatch, by simpa using hfour, by simpa using hsix⟩

variable (hname : Text.asciiLower (mechanismText term) = name.toList) (hvisible : Visible term)
include hname hvisible

theorem exists_value_of_checkMechanism (hother : name = "include" ∨ name = "exists") :
    ∃ value, afterMechanism term = ':' :: value := by
  have hothers : name ≠ "all" ∧ ¬(name = "a" ∨ name = "mx") ∧ name ≠ "ptr" := by
    rcases hother with rfl | rfl
    · decide
    · decide
  rw [checkMechanism, if_neg hothers.1, if_neg hothers.2.1, if_neg hothers.2.2, if_pos hother] at h
  split at h
  · cases h
  · rename_i hok
    simp only [Bool.or_eq_true, Bool.not_eq_true', not_or, Bool.not_eq_false] at hok
    obtain ⟨value, hvalue, -⟩ := exists_value hname hvisible hok.1
    exact ⟨value, hvalue⟩

theorem network_of_checkMechanism (hip : name = "ip4" ∨ name = "ip6") :
    ∃ value address n, afterMechanism term = ':' :: value ∧
      IpAddress.readNetwork value = some (address, n) ∧
      address.version = if name = "ip4" then IpVersion.four else .six := by
  have hothers : name ≠ "all" ∧ ¬(name = "a" ∨ name = "mx") ∧ name ≠ "ptr" ∧
      ¬(name = "include" ∨ name = "exists") := by
    rcases hip with rfl | rfl
    · decide
    · decide
  rw [checkMechanism, if_neg hothers.1, if_neg hothers.2.1, if_neg hothers.2.2.1,
    if_neg hothers.2.2.2, if_pos hip] at h
  split at h
  · cases h
  · rename_i hok
    simp only [Bool.not_eq_true', Bool.not_eq_false] at hok
    obtain ⟨value, hvalue, hdrop⟩ := exists_value hname hvisible hok
    rw [hdrop] at h
    split at h
    · cases h
    · rename_i address n hread
      refine ⟨value, address, n, hvalue, hread, ?_⟩
      by_contra hversion
      rw [if_pos hversion] at h
      cases h

/-- A mechanism that passes the check is one to a receiver where its parts are in order. -/
theorem isSome_readMechanism : (Spf.readMechanism (Spf.foldCase term)).isSome =
    mechanismInOrder name (Spf.foldCase (afterMechanism term)) := by
  have hknown := known_of_checkMechanism h
  have hcolon : ∀ value, Spf.foldCase (':' :: value) = ':' :: Spf.foldCase value :=
    Spf.foldCase_cons (by decide)
  have hhost : name = "a" ∨ name = "mx" →
      (Spf.readMechanism (name.toList ++ Spf.foldCase (afterMechanism term))).isSome =
        mechanismInOrder name (Spf.foldCase (afterMechanism term)) := by
    intro hhost
    obtain ⟨ipv4_cidr, ipv6_cidr, hmatch, hfour, hsix⟩ := matchHost_of_checkMechanism h hhost
    exact isSome_host hhost hname hvisible hmatch hfour hsix
  rw [foldCase_term hname hknown]
  simp only [knownMechanisms, List.mem_cons, List.not_mem_nil, or_false] at hknown
  rcases hknown with rfl | rfl | rfl | rfl | rfl | rfl | rfl | rfl
  · have hall : py.lower term = "all".toList := by simpa [checkMechanism] using h
    rw [lower_of_visible hvisible, asciiLower_term hname] at hall
    have hnil : Text.asciiLower (afterMechanism term) = [] := List.append_right_eq_self.mp hall
    rw [List.map_eq_nil_iff.mp hnil]
    rfl
  · exact hhost (.inl rfl)
  · exact hhost (.inr rfl)
  · rcases of_afterMechanism term with hnil | ⟨value, hvalue⟩ | ⟨rest, hrest⟩
    · rw [hnil]
      rfl
    · rw [hvalue, hcolon]
      exact isSome_if _ _
    · have hmatch : matchPtr term = false := by
        rw [matchPtr, afterName_name hname, hrest]
        rfl
      simp [checkMechanism, hmatch] at h
  · obtain ⟨value, hvalue⟩ := exists_value_of_checkMechanism h hname hvisible (.inl rfl)
    rw [hvalue, hcolon]
    exact isSome_if _ _
  · obtain ⟨value, hvalue⟩ := exists_value_of_checkMechanism h hname hvisible (.inr rfl)
    rw [hvalue, hcolon]
    exact isSome_if _ _
  · obtain ⟨value, address, n, hvalue, hread, hversion⟩ :=
      network_of_checkMechanism h hname hvisible (.inl rfl)
    rw [hvalue, hcolon]
    exact (isSome_if _ _).trans (isNetwork_four hread hversion)
  · obtain ⟨value, address, n, hvalue, hread, hversion⟩ :=
      network_of_checkMechanism h hname hvisible (.inr rfl)
    rw [hvalue, hcolon]
    exact (isSome_if _ _).trans (isNetwork_six hread hversion)

end

/-! ## One term -/

theorem name_of_readMechanism {text : Text} {m : Spf.Mechanism}
    (h : Spf.readMechanism text = some m) : m.name = text.takeWhile (!Spf.isNameEnd ·) := by
  unfold Spf.readMechanism at h
  simp only at h
  split at h
  all_goals first
    | (cases h; rfl)
    | cases h
    | (split at h; (cases h; rfl); cases h)

/-- A receiver reads the mechanism behind the same qualifier. -/
theorem readQualifier_foldCase (raw_term : Text) :
    (Spf.readQualifier (Spf.foldCase raw_term)).2 = Spf.foldCase (withoutQualifier raw_term) := by
  cases raw_term with
  | nil => rfl
  | cons c rest =>
    by_cases hqualifier : c ∈ spfQualifiers
    · have hcases : c = '+' ∨ c = '-' ∨ c = '~' ∨ c = '?' := by
        simpa [spfQualifiers] using hqualifier
      have hdrop : withoutQualifier (c :: rest) = rest := by
        simp [withoutQualifier, hasQualifier, hqualifier]
      rw [hdrop]
      rcases hcases with rfl | rfl | rfl | rfl
      all_goals
        rw [Spf.foldCase_cons (by decide)]
        rfl
    · have hkeep : withoutQualifier (c :: rest) = c :: rest := by
        simp [withoutQualifier, hasQualifier, hqualifier]
      rw [hkeep]
      have hfolds := Spf.folds_foldCase (c :: rest)
      generalize Spf.foldCase (c :: rest) = folded at hfolds
      cases hfolds with
      | @cons _ d _ back hcd hback =>
        have hd : d ∉ spfQualifiers := by
          rcases hcd with rfl | rfl
          · exact hqualifier
          · intro hmem
            have hletter : c.toLower.isAlpha = false := by
              have hall : ∀ d ∈ spfQualifiers, d.isAlpha = false :=
                List.forall_iff_forall_mem.mp (by decide)
              exact hall _ hmem
            have hsame := Text.toLower_eq_of_not_alpha hletter rfl
            rw [← hsame] at hmem
            exact hqualifier hmem
        unfold Spf.readQualifier
        split
        all_goals first
          | rfl
          | (rename_i heq; exact absurd (by rw [(List.cons.inj heq).1]; decide) hd)

/-- Without an equals sign the term is a directive. -/
theorem readTerm_directive {raw_term : Text} (h : '=' ∉ raw_term) :
    ∃ qualifier, Spf.readTerm (Spf.foldCase raw_term) =
      Spf.Term.directive qualifier <$>
        Spf.readMechanism (Spf.foldCase (withoutQualifier raw_term)) := by
  refine ⟨(Spf.readQualifier (Spf.foldCase raw_term)).1, ?_⟩
  rw [← readQualifier_foldCase]
  unfold Spf.readTerm
  split
  · rename_i value hdrop
    have hmem : '=' ∈ (Spf.foldCase raw_term).dropWhile Spf.isNameChar := by
      rw [hdrop]
      exact List.mem_cons_self
    have hequals := (List.dropWhile_sublist _).subset hmem
    exact absurd ((Spf.mem_foldCase (by decide)).mp hequals) h
  · rfl

theorem isNameChar_asciiLower {name : Text} (hname : isModifierName name = true) :
    '%' ∉ name ∧ (∀ c ∈ Text.asciiLower name, Spf.isNameChar c = true) ∧
      (Text.asciiLower name).head?.any Char.isAlpha = true := by
  cases name with
  | nil => cases hname
  | cons c rest =>
    simp only [isModifierName, Bool.and_eq_true, List.all_eq_true] at hname
    obtain ⟨halpha, hrest⟩ := hname
    have hlower : ∀ c : Char, c.toLower.isAlpha = c.isAlpha ∧ c.toLower.isAlphanum = c.isAlphanum ∧
        Spf.isNameChar c.toLower = Spf.isNameChar c :=
      Text.toLower_cases (P := fun d c => d.isAlpha = c.isAlpha ∧ d.isAlphanum = c.isAlphanum ∧
        Spf.isNameChar d = Spf.isNameChar c) (fun _ => ⟨rfl, rfl, rfl⟩) (by decide +kernel)
    have hchars : ∀ d ∈ c :: rest, Spf.isNameChar d = true := by
      intro d hd
      rcases List.mem_cons.mp hd with rfl | hd
      · simp [Spf.isNameChar, Char.isAlphanum, halpha]
      · have hone := hrest d hd
        simp only [Bool.or_eq_true, beq_iff_eq] at hone
        rcases hone with ((halnum | rfl) | rfl) | rfl
        · simp [Spf.isNameChar, halnum]
        · decide
        · decide
        · decide
    refine ⟨fun hmem => absurd (hchars _ hmem) (by decide), fun d hd => ?_, ?_⟩
    · obtain ⟨e, he, rfl⟩ := List.mem_map.mp hd
      exact (hlower e).2.2.trans (hchars e he)
    · exact (hlower c).1.trans halpha

/-- A modifier that passes the check, as a receiver reads it. -/
theorem readTerm_modifier {name : Text} (hname : isModifierName name = true) (value : Text) :
    ∃ read, Spf.readTerm (Spf.foldCase (name ++ '=' :: value)) =
      if modifierInOrder (Text.asciiLower name) (Spf.foldCase value) then
        some (.modifier (Text.asciiLower name) read) else none := by
  obtain ⟨hpercent, hchars, hhead⟩ := isNameChar_asciiLower hname
  have hfold : Spf.foldCase (name ++ '=' :: value) =
      Text.asciiLower name ++ '=' :: Spf.foldCase value := by
    rw [Spf.foldCase_append hpercent, Spf.foldCase_cons (by decide)]
    rfl
  have hdrop : (Text.asciiLower name ++ '=' :: Spf.foldCase value).dropWhile Spf.isNameChar =
      '=' :: Spf.foldCase value := by
    rw [List.dropWhile_append_of_pos hchars]
    rfl
  have htake : (Text.asciiLower name ++ '=' :: Spf.foldCase value).takeWhile Spf.isNameChar =
      Text.asciiLower name := by
    rw [List.takeWhile_append_of_pos hchars, List.takeWhile_cons_of_neg (by decide),
      List.append_nil]
  rw [hfold, Spf.readTerm, hdrop]
  simp only [htake, hhead, Bool.not_true, Bool.false_eq_true, if_false, modifierInOrder]
  split
  · exact ⟨_, rfl⟩
  · exact ⟨_, rfl⟩

/-- What the check of a term says of it, and what it notes. -/
def Noted (state next : SpfState) (raw_term : Text) : Prop :=
  (Spf.readTerm (Spf.foldCase raw_term)).isSome = partsInOrder raw_term ∧
    ∀ read, Spf.readTerm (Spf.foldCase raw_term) = some read →
      next.lookup_terms = state.lookup_terms + (if read.looksUp then 1 else 0) ∧
      next.seen_modifiers = read.modifierName.toList ++ state.seen_modifiers ∧
      ∀ name ∈ read.modifierName, name ∉ state.seen_modifiers

theorem noted_of_checkModifier {state next : SpfState} {raw_term : Text}
    (hvisible : Visible raw_term) (hequals : '=' ∈ withoutQualifier raw_term)
    (h : checkModifier py state (hasQualifier raw_term) raw_term (withoutQualifier raw_term) =
      .ok next) : Noted state next raw_term := by
  unfold checkModifier at h
  split at h
  · cases h
  · rename_i hqualifier
    have hkeep : withoutQualifier raw_term = raw_term := if_neg hqualifier
    rw [hkeep] at h hequals
    obtain ⟨name, value, hraw, hnot⟩ := List.eq_append_cons_of_mem hequals
    have htake : raw_term.takeWhile (· != '=') = name := by
      have hfront : ∀ c ∈ name, (c != '=') = true := by
        intro c hc
        simpa using fun heq : c = '=' => hnot (heq ▸ hc)
      rw [hraw, List.takeWhile_append_of_pos hfront]
      simp
    have hdrop : raw_term.drop (name.length + 1) = value := by simp [hraw]
    have hlower : py.lower name = Text.asciiLower name :=
      lower_of_visible (hvisible.subset (hraw ▸ List.subset_append_left _ _))
    have horder : partsInOrder raw_term =
        modifierInOrder (Text.asciiLower name) (Spf.foldCase value) := by
      simp only [partsInOrder, hkeep, if_pos hequals, htake, hdrop]
    simp only [htake, hlower] at h
    split at h
    · cases h
    · rename_i hok
      simp only [Bool.or_eq_true, Bool.not_eq_true', not_or, Bool.not_eq_false] at hok
      split at h
      · cases h
      · rename_i hnew
        cases h
        obtain ⟨found, hread⟩ := readTerm_modifier hok.1 value
        rw [← hraw] at hread
        refine ⟨by rw [hread, horder, isSome_if], fun read hsome => ?_⟩
        rw [hread] at hsome
        split at hsome
        · cases hsome
          have hlooks : (Spf.Term.modifier (Text.asciiLower name) found).looksUp =
              (Text.asciiLower name == "redirect".toList) := rfl
          refine ⟨?_, rfl, ?_⟩
          · rw [hlooks]
            simp only [beq_iff_eq]
          · intro other hother
            rw [← Option.some.inj hother]
            exact hnew
        · cases hsome

/-- The mechanisms that are counted are those that query the DNS. -/
theorem looksUp_of_readMechanism {name : String} {rest : Text} {m : Spf.Mechanism}
    (hknown : name ∈ knownMechanisms) (hrest : ∀ c ∈ rest.head?, Spf.isNameEnd c = true)
    (h : Spf.readMechanism (name.toList ++ rest) = some m) :
    m.looksUp = decide (name ∈ spfDnsMechanisms) := by
  have hplain : ∀ name ∈ knownMechanisms, name.toList.all (!Spf.isNameEnd ·) = true := by decide
  have hstop : rest.takeWhile (!Spf.isNameEnd ·) = [] := by
    cases rest with
    | nil => rfl
    | cons c rest => rw [List.takeWhile_cons_of_neg (by simp [hrest c rfl])]
  have hm : m.name = name.toList := by
    rw [name_of_readMechanism h,
      List.takeWhile_append_of_pos (List.all_eq_true.mp (hplain name hknown)), hstop,
      List.append_nil]
  have hall : ∀ name ∈ knownMechanisms, (decide (name.toList ∈
      ["a".toList, "mx".toList, "ptr".toList, "include".toList, "exists".toList])) =
        decide (name ∈ spfDnsMechanisms) := by decide
  rw [Spf.Mechanism.looksUp, hm]
  exact hall name hknown

theorem head_foldCase_afterMechanism (term : Text) :
    ∀ c ∈ (Spf.foldCase (afterMechanism term)).head?, Spf.isNameEnd c = true := by
  intro c hc
  rcases of_afterMechanism term with hnil | ⟨value, hvalue⟩ | ⟨rest, hrest⟩
  · rw [hnil] at hc
    cases hc
  · rw [hvalue, Spf.foldCase_cons (by decide)] at hc
    rw [← Option.some.inj hc]
    decide
  · rw [hrest, Spf.foldCase_cons (by decide)] at hc
    rw [← Option.some.inj hc]
    decide

theorem mem_withoutQualifier {c : Char} (hc : c ∉ spfQualifiers) {raw_term : Text}
    (h : c ∈ raw_term) : c ∈ withoutQualifier raw_term := by
  unfold withoutQualifier
  split
  · rename_i hqualifier
    cases raw_term with
    | nil => cases h
    | cons first rest =>
      rcases List.mem_cons.mp h with rfl | hmem
      · exact absurd (by simpa [hasQualifier] using hqualifier) hc
      · exact hmem
  · exact h

/-- One turn of the check. -/
theorem noted_of_checkTerm {state next : SpfState} {raw_term : Text} (hvisible : Visible raw_term)
    (h : checkTerm py state raw_term = .ok next) : Noted state next raw_term := by
  have hterm : Visible (withoutQualifier raw_term) := by
    unfold withoutQualifier
    split
    · exact hvisible.subset (List.tail_sublist _).subset
    · exact hvisible
  unfold checkTerm at h
  simp only at h
  split at h
  · cases h
  · split at h
    · rename_i hequals
      exact noted_of_checkModifier hvisible hequals h
    · rename_i hequals
      obtain ⟨⟨⟩, hcheck, h⟩ := ok_of_bind h
      have hlower : py.lower (mechanismText (withoutQualifier raw_term)) =
          Text.asciiLower (mechanismText (withoutQualifier raw_term)) :=
        lower_of_visible (hterm.subset (List.takeWhile_sublist _).subset)
      rw [hlower] at hcheck h
      obtain rfl := Except.ok.inj h
      have hnone : '=' ∉ raw_term := fun hmem => hequals (mem_withoutQualifier (by decide) hmem)
      have horder : partsInOrder raw_term = mechanismInOrder
          (String.ofList (Text.asciiLower (mechanismText (withoutQualifier raw_term))))
          (Spf.foldCase (afterMechanism (withoutQualifier raw_term))) := by
        simp only [partsInOrder, if_neg hequals]
      have hname : Text.asciiLower (mechanismText (withoutQualifier raw_term)) =
          (String.ofList (Text.asciiLower (mechanismText (withoutQualifier raw_term)))).toList :=
        String.toList_ofList.symm
      have hknown := known_of_checkMechanism hcheck
      obtain ⟨qualifier, hdirective⟩ := readTerm_directive hnone
      refine ⟨?_, fun read hread => ?_⟩
      · rw [hdirective, horder, ← isSome_readMechanism hcheck hname hterm]
        exact Option.isSome_map
      · rw [hdirective] at hread
        obtain ⟨m, hm, rfl⟩ := Option.map_eq_some_iff.mp hread
        rw [foldCase_term hname hknown] at hm
        have hlooks := looksUp_of_readMechanism hknown (head_foldCase_afterMechanism _) hm
        refine ⟨?_, rfl, nofun⟩
        change _ = state.lookup_terms + (if m.looksUp then 1 else 0)
        rw [hlooks]
        simp only [decide_eq_true_eq]

/-! ## A whole record -/

/-- All turns of the check. -/
theorem noted_of_foldlM {terms : List Text} {state next : SpfState}
    (hvisible : ∀ term ∈ terms, Visible term) (h : terms.foldlM (checkTerm py) state = .ok next) :
    ((terms.mapM fun term => Spf.readTerm (Spf.foldCase term)).isSome = true ↔
        ∀ raw_term ∈ terms, partsInOrder raw_term = true) ∧
      ∀ reads, (terms.mapM fun term => Spf.readTerm (Spf.foldCase term)) = some reads →
        next.lookup_terms = state.lookup_terms + reads.countP Spf.Term.looksUp ∧
        (reads.filterMap Spf.Term.modifierName).Nodup ∧
        ∀ name ∈ reads.filterMap Spf.Term.modifierName, name ∉ state.seen_modifiers := by
  induction terms generalizing state with
  | nil =>
    obtain rfl := Except.ok.inj h
    refine ⟨by simp, fun reads hreads => ?_⟩
    obtain rfl : [] = reads := by simpa using hreads
    simp
  | cons raw_term terms ih =>
    obtain ⟨hterm, hterms⟩ := List.forall_mem_cons.mp hvisible
    obtain ⟨after, hstep, hrest⟩ := ok_of_bind h
    obtain ⟨hsome, hnotes⟩ := noted_of_checkTerm hterm hstep
    obtain ⟨horder, hrun⟩ := ih hterms hrest
    refine ⟨?_, fun reads hreads => ?_⟩
    · rw [List.forall_mem_cons, ← horder, ← hsome, List.mapM_cons]
      cases Spf.readTerm (Spf.foldCase raw_term) with
      | none => simp
      | some read => simp [Option.isSome_bind]
    · rw [List.mapM_cons] at hreads
      obtain ⟨read, hread, hreads⟩ := Option.bind_eq_some_iff.mp hreads
      obtain ⟨others, hothers, hreads⟩ := Option.bind_eq_some_iff.mp hreads
      obtain rfl := Option.some.inj hreads
      obtain ⟨hlookups, hseen, hnew⟩ := hnotes read hread
      obtain ⟨hcount, hnodup, hfresh⟩ := hrun others hothers
      refine ⟨?_, ?_⟩
      · rw [hcount, hlookups, List.countP_cons]
        omega
      · cases hname : read.modifierName with
        | none =>
          rw [List.filterMap_cons_none hname]
          rw [hseen, hname] at hfresh
          exact ⟨hnodup, hfresh⟩
        | some name =>
          rw [List.filterMap_cons_some hname]
          rw [hseen, hname] at hfresh
          refine ⟨List.nodup_cons.mpr ⟨fun hmem => ?_, hnodup⟩, fun other hother => ?_⟩
          · exact hfresh name hmem List.mem_cons_self
          · rcases List.mem_cons.mp hother with rfl | hother
            · exact hnew other hname
            · exact fun hmem => hfresh other hother (List.mem_cons_of_mem _ hmem)

/-- A modifier whose name stands once stands at most once. -/
theorem countModifier_le {name : String} {terms : List Spf.Term}
    (h : (terms.filterMap Spf.Term.modifierName).Nodup) : Spf.countModifier name terms ≤ 1 := by
  have hcount : Spf.countModifier name terms =
      (terms.filterMap Spf.Term.modifierName).count name.toList := by
    clear h
    induction terms with
    | nil => rfl
    | cons term terms ih =>
      rw [Spf.countModifier, List.countP_cons]
      change Spf.countModifier name terms + _ = _
      rw [ih]
      cases term with
      | directive q m => rfl
      | modifier n value => exact List.count_cons.symm
  rw [hcount]
  exact List.nodup_iff_count.mp h _

/-- What an accepted record is: its version, and terms that pass one after the other with
ten lookups at most. -/
theorem of_validateSpfRecord {value : Text} (h : validateSpfRecord py value = .ok ()) :
    ∃ version terms state, words value = version :: terms ∧
      terms.foldlM (checkTerm py) ⟨0, []⟩ = .ok state ∧ state.lookup_terms ≤ 10 := by
  unfold validateSpfRecord at h
  split at h
  · cases h
  · rename_i version terms hwords
    split at h
    · cases h
    · split at h
      · cases h
      · obtain ⟨state, hrun, h⟩ := ok_of_bind h
        split at h
        · cases h
        · rename_i hfew
          exact ⟨version, terms, state, hwords, hrun, not_lt.mp hfew⟩

/-- An accepted record is one that receivers can read where its parts are in order. -/
theorem validateSpfRecord_sound_iff (py : Python) (value : Text)
    (h : validateSpfRecord py value = .ok ()) : Readable value ↔ InOrder value := by
  obtain ⟨version, terms, state, hwords, hrun, hfew⟩ := of_validateSpfRecord h
  have hkey : Spf.hasVersion value = true → (∀ c ∈ value, isRecordChar c = true) →
      terms = Spf.spWords (value.drop 6) ∧ ∀ term ∈ terms, Visible term := by
    intro hversion hchars
    have hsame := words_eq_spWords hchars
    rw [hwords, spWords_of_hasVersion hversion] at hsame
    refine ⟨(List.cons.inj hsame).2, fun term hterm c hc => ?_⟩
    have hmem : term ∈ words value := hwords ▸ List.mem_cons_of_mem _ hterm
    have hrecord := hchars c (Text.of_mem_splitOnP (List.mem_filter.mp hmem).1 c hc).2
    have hspace := (isWord_of_mem_words hmem).2 c hc
    rw [(recordChar hrecord).2.1] at hspace
    simpa [isRecordChar, hspace] using hrecord
  constructor
  · rintro ⟨reads, hread, -⟩
    obtain ⟨hversion, hchars, hreads⟩ := of_readRecord hread
    obtain ⟨rfl, hvisible⟩ := hkey hversion hchars
    refine ⟨hversion, hchars, ?_⟩
    rw [hwords]
    exact (noted_of_foldlM hvisible hrun).1.mp (by rw [hreads]; rfl)
  · rintro ⟨hversion, hchars, horder⟩
    obtain ⟨rfl, hvisible⟩ := hkey hversion hchars
    rw [hwords] at horder
    obtain ⟨hsome, hnotes⟩ := noted_of_foldlM hvisible hrun
    obtain ⟨reads, hreads⟩ := Option.isSome_iff_exists.mp (hsome.mpr horder)
    obtain ⟨hcount, hnodup, -⟩ := hnotes reads hreads
    refine ⟨reads, ?_, by omega⟩
    have hall : value.all (fun c => c == ' ' || Spf.isVisible c) = true :=
      List.all_eq_true.mpr hchars
    have honce : ¬(1 < Spf.countModifier "redirect" reads ∨ 1 < Spf.countModifier "exp" reads) := by
      have hredirect := @countModifier_le "redirect" reads hnodup
      have hexp := @countModifier_le "exp" reads hnodup
      omega
    rw [Spf.readRecord, hversion, hall]
    simp only [Bool.not_true, Bool.or_self, Bool.false_eq_true, if_false, hreads,
      Option.bind_eq_bind, Option.bind_some, if_neg honce]
    rfl

theorem validateSpfRecord_sound_for_hosts :
    Readable "v=spf1 mx a:mail.example.com/24 ip4:192.0.2.7 ~all".toList :=
  (validateSpfRecord_sound_iff .asciiOnly _ (by decide +kernel)).mpr
    ⟨by decide, List.all_eq_true.mp (by decide), List.all_eq_true.mp (by decide +kernel)⟩

/-- The name of a host may have no dot. -/
theorem validateSpfRecord_not_sound :
    ¬∀ (py : Python) (value : Text), validateSpfRecord py value = .ok () → Readable value := by
  intro h
  obtain ⟨terms, hread, -⟩ := h .asciiOnly "v=spf1 a:localhost -all".toList (by decide +kernel)
  have hnone : Spf.readRecord "v=spf1 a:localhost -all".toList = none := by decide +kernel
  rw [hnone] at hread
  cases hread

end

end MailCue.Backend.Domains
