import Mathlib
import MailCue.Backend.Emails.Syntax

/-!
# What the syntax check lets through

backend/app/emails/validation.py, `validate_syntax`, against an own description of
a deliverable address. The length of the address and the names of the examples are
checked on the domain as it is written, the pattern and the labels on the domain as
it is encoded, and `home.arpa` is looked for among the last labels, where it cannot
be; where none of this matters an accepted address is well formed and is accepted
again in its encoded form.
-/
namespace MailCue.Backend.Emails
open MailCue.Lib

/-! ## An address -/

structure DotAtom (local_part : Text) : Prop where
  nonempty : local_part ≠ []
  chars : ∀ c ∈ local_part, isLocalChar c = true
  dots : ¬ (local_part.head? = some '.' ∨ local_part.getLast? = some '.' ∨
    Text.contains local_part ['.', '.'] = true)
  length : local_part.length ≤ 64

/-- Letters, digits and inner hyphens. -/
structure LdhLabel (label : Text) : Prop where
  length : 1 ≤ label.length ∧ label.length ≤ 63
  chars : ∀ c ∈ label, isAlnum c = true ∨ c = '-'
  ends : label.head? ≠ some '-' ∧ label.getLast? ≠ some '-'

/-- `home.arpa` and the names below it. -/
def homeArpa (domain : Text) : Bool :=
  domain == "home.arpa".toList || ".home.arpa".toList.isSuffixOf domain

/-- The names the source lists as reserved, as last label or as domain. -/
def specialUse (domain : Text) : Bool :=
  (reservedTlds.map String.toList).contains ((domain.splitOn '.').getLastD []) ||
    homeArpa domain || reservedDomain domain

structure WellFormed (local_part domain : Text) : Prop where
  dot_atom : DotAtom local_part
  labels : ∀ label ∈ domain.splitOn '.', LdhLabel label
  total : local_part.length + 1 + domain.length ≤ 254
  ordinary : specialUse (Text.asciiLower domain) = false

/-- What is reported is well formed, and its address is accepted with the same report. -/
def Sound (py : Python) (email : Text) : Prop :=
  ∃ local_part domain, (validateSyntax py email).local_part = some local_part ∧
    (validateSyntax py email).domain = some domain ∧ WellFormed local_part domain ∧
    validateSyntax py (local_part ++ '@' :: domain) = validateSyntax py email

/-- The encoded domain ends in no line feed, fits into the address, and is none of
the names looked for elsewhere. -/
structure PlainlyEncoded (local_part ascii_domain : Text) : Prop where
  unbroken : ascii_domain.getLast? ≠ some '\n'
  total : local_part.length + 1 + ascii_domain.length ≤ 254
  not_home : homeArpa (Text.asciiLower ascii_domain) = false
  not_example : reservedDomain (Text.asciiLower ascii_domain) = false

def Plain (py : Python) (email : Text) : Prop :=
  ∀ local_part domain ascii_domain : Text,
    (Text.strip Text.isSpace email).splitOn '@' = [local_part, domain] →
      py.idna.encode domain = .ok ascii_domain → PlainlyEncoded local_part ascii_domain

/-- `str.lower` and the IDNA codec on ASCII: the one lowers the letters, the other
returns a domain of labels of 1 to 63 characters. -/
structure StandardAscii (py : Python) : Prop where
  lower : ∀ text : Text, (∀ c ∈ text, Text.ascii c = true) → py.lower text = Text.asciiLower text
  encode : ∀ domain : Text, (∀ c ∈ domain, Text.ascii c = true) →
    (∀ label ∈ domain.splitOn '.', 1 ≤ label.length ∧ label.length ≤ 63) →
      py.idna.encode domain = .ok domain

/-! ## The checks passed -/

structure Passes (py : Python) (email local_part domain ascii_domain : Text) : Prop where
  email_length : email.length ≤ 254
  local_length : local_part.length ≤ 64
  domain_length : domain.length ≤ 255
  encoded : py.idna.encode domain = .ok ascii_domain
  pattern : matchesEmail local_part ascii_domain = true
  dots : ¬ (local_part.head? = some '.' ∨ local_part.getLast? = some '.' ∨
    Text.contains local_part ['.', '.'] = true)
  dotted : 2 ≤ (ascii_domain.splitOn '.').length
  labels : (ascii_domain.splitOn '.').findSome? labelError = none
  tld_length : 2 ≤ ((ascii_domain.splitOn '.').getLastD []).length
  tld_chars : (dropNewline ((ascii_domain.splitOn '.').getLastD [])).all
    (fun c => isAlnum c || c == '-') = true
  tld_free : (reservedTlds.map String.toList).contains
    (py.lower ((ascii_domain.splitOn '.').getLastD [])) = false
  domain_free : reservedDomain (py.lower domain) = false

theorem ite_error_eq_ok_iff {c : Prop} [Decidable c] {error : String} {rest : Except String Text}
    {result : Text} :
    (if c then .error error else rest) = Except.ok result ↔ ¬ c ∧ rest = .ok result := by
  by_cases hc : c
  · simp [hc]
  · simp [hc]

theorem checkParts_eq_ok_iff {py : Python} {email local_part domain result : Text} :
    checkParts py email local_part domain = .ok result ↔
      ∃ ascii_domain, Passes py email local_part domain ascii_domain ∧
        result = py.lower ascii_domain := by
  unfold checkParts
  rw [ite_error_eq_ok_iff, ite_error_eq_ok_iff, ite_error_eq_ok_iff]
  cases hencode : py.idna.encode domain with
  | error exc =>
    constructor
    · intro h
      exact absurd h.2.2.2 (by simp)
    · intro h
      obtain ⟨ascii_domain, hpasses, _⟩ := h
      have hencoded := hpasses.encoded
      rw [hencode] at hencoded
      cases hencoded
  | ok ascii_domain =>
    dsimp only
    rw [ite_error_eq_ok_iff, ite_error_eq_ok_iff, ite_error_eq_ok_iff]
    cases hlabels : (ascii_domain.splitOn '.').findSome? labelError with
    | some error =>
      constructor
      · intro h
        exact absurd h.2.2.2.2.2.2 (by simp)
      · intro h
        obtain ⟨other, hpasses, _⟩ := h
        have hencoded := hpasses.encoded
        rw [hencode] at hencoded
        cases hencoded
        have hnone := hpasses.labels
        rw [hlabels] at hnone
        cases hnone
    | none =>
      dsimp only
      rw [ite_error_eq_ok_iff, ite_error_eq_ok_iff, ite_error_eq_ok_iff, ite_error_eq_ok_iff]
      constructor
      · intro h
        obtain ⟨h1, h2, h3, h4, h5, h6, h7, h8, h9, h10, h11⟩ := h
        refine ⟨ascii_domain, ⟨by omega, by omega, by omega, hencode, by simpa using h4, h5,
          by omega, hlabels, by omega, by simpa only [Bool.not_eq_true', Bool.not_eq_false] using h8,
          by simpa using h9, by simpa using h10⟩, ?_⟩
        exact (Except.ok.inj h11).symm
      · intro h
        obtain ⟨other, hpasses, rfl⟩ := h
        have hencoded := hpasses.encoded
        rw [hencode] at hencoded
        cases hencoded
        have hlen := hpasses.email_length
        have hloc := hpasses.local_length
        have hdom := hpasses.domain_length
        have hdot := hpasses.dotted
        have htld := hpasses.tld_length
        refine ⟨by omega, by omega, by omega, ?_, hpasses.dots, by omega, by omega, ?_, ?_, ?_, rfl⟩
        · simp [hpasses.pattern]
        · rw [hpasses.tld_chars]
          decide
        · simpa using hpasses.tld_free
        · simpa using hpasses.domain_free

/-! ## Lower case -/

theorem isAlnum_toLower (c : Char) : isAlnum c.toLower = isAlnum c := by
  by_cases hc : Text.ascii c = true
  · have hall : ∀ n < 128, isAlnum (Char.ofNat n).toLower = isAlnum (Char.ofNat n) := by decide
    have hone := hall c.toNat (by simpa [Text.ascii] using hc)
    rwa [Char.ofNat_toNat] at hone
  · rw [Text.toLower_of_not_ascii (by simpa using hc)]

theorem toLower_beq {c d : Char} (hd : d.isAlpha = false) : (c.toLower == d) = (c == d) := by
  rw [Bool.eq_iff_iff, beq_iff_eq, beq_iff_eq]
  constructor
  · exact Text.toLower_eq_of_not_alpha hd
  · intro h
    subst h
    have hnot : ¬ (c.val ≥ 'A'.val ∧ c.val ≤ 'Z'.val) := by
      intro hupper
      have halpha : c.isAlpha = true := by
        simp only [Char.isAlpha, Char.isUpper, hupper.1, hupper.2]
        simp
      rw [hd] at halpha
      cases halpha
    unfold Char.toLower
    rw [dif_neg hnot]

theorem ascii_of_isAlnum {c : Char} (h : isAlnum c = true) : Text.ascii c = true := by
  by_contra hc
  simp only [isAlnum, Char.isAlpha, Char.isUpper, Char.isLower, Char.isDigit, Bool.or_eq_true,
    Bool.and_eq_true, decide_eq_true_eq, UInt32.le_iff_toNat_le, ge_iff_le] at h
  simp only [Text.ascii, decide_eq_true_eq, Char.toNat] at hc
  have hvalues : 'A'.val.toNat = 65 ∧ 'Z'.val.toNat = 90 ∧ 'a'.val.toNat = 97 ∧
      'z'.val.toNat = 122 ∧ '0'.val.toNat = 48 ∧ '9'.val.toNat = 57 := by decide
  omega

theorem splitOn_asciiLower (text : Text) :
    (Text.asciiLower text).splitOn '.' = (text.splitOn '.').map Text.asciiLower := by
  induction text with
  | nil => rfl
  | cons c text ih =>
    have hcons : Text.asciiLower (c :: text) = c.toLower :: Text.asciiLower text := rfl
    rw [hcons, List.splitOn_cons_eq_if_modifyHead, List.splitOn_cons_eq_if_modifyHead, ih,
      toLower_beq (by decide)]
    split
    · rfl
    · cases text.splitOn '.' with
      | nil => rfl
      | cons first others => rfl

theorem getLastD_asciiLower (pieces : List Text) :
    (pieces.map Text.asciiLower).getLastD [] = Text.asciiLower (pieces.getLastD []) := by
  rw [List.getLastD_eq_getLast?, List.getLastD_eq_getLast?, List.getLast?_map]
  cases pieces.getLast? with
  | none => rfl
  | some last => rfl

theorem asciiLower_asciiLower (text : Text) :
    Text.asciiLower (Text.asciiLower text) = Text.asciiLower text := by
  simp [Text.asciiLower, Text.toLower_toLower]

theorem mem_asciiLower {c : Char} {text : Text} :
    c ∈ Text.asciiLower text ↔ ∃ d ∈ text, d.toLower = c := List.mem_map

theorem ascii_asciiLower {text : Text} (h : ∀ c ∈ text, Text.ascii c = true) :
    ∀ c ∈ Text.asciiLower text, Text.ascii c = true := by
  intro c hc
  obtain ⟨d, hd, rfl⟩ := mem_asciiLower.mp hc
  exact Text.ascii_toLower (h d hd)

/-! ## Labels -/

theorem matchesLabel_iff (label : Text) : matchesLabel label = true ↔ LdhLabel label := by
  cases label with
  | nil =>
    constructor
    · intro h
      cases h
    · intro h
      exact absurd h.length.1 (by simp)
  | cons first rest =>
    have hlast : (first :: rest).getLast? = some (rest.getLastD first) := by
      rw [List.getLast?_cons, List.getLastD_eq_getLast?]
    have hlast_mem : rest.getLastD first ∈ first :: rest := List.mem_of_getLast? hlast
    have hhyphen : isAlnum '-' = false := by decide
    simp only [matchesLabel, Bool.and_eq_true, List.all_eq_true, Bool.or_eq_true, beq_iff_eq,
      decide_eq_true_eq]
    constructor
    · intro h
      obtain ⟨⟨⟨hfirst, hchars⟩, hend⟩, hlength⟩ := h
      refine ⟨⟨by simp, hlength⟩, hchars, ?_, ?_⟩
      · intro heq
        cases heq
        rw [hhyphen] at hfirst
        cases hfirst
      · intro heq
        rw [hlast] at heq
        rw [Option.some.inj heq, hhyphen] at hend
        cases hend
    · intro h
      refine ⟨⟨⟨?_, h.chars⟩, ?_⟩, h.length.2⟩
      · refine (h.chars first List.mem_cons_self).resolve_right fun heq => h.ends.1 ?_
        rw [heq]
        rfl
      · refine (h.chars _ hlast_mem).resolve_right fun heq => h.ends.2 ?_
        rw [hlast, heq]

theorem LdhLabel.ascii {label : Text} (h : LdhLabel label) :
    ∀ c ∈ label, Text.ascii c = true := by
  intro c hc
  rcases h.chars c hc with halnum | hhyphen
  · exact ascii_of_isAlnum halnum
  · subst hhyphen
    rfl

theorem LdhLabel.asciiLower {label : Text} (h : LdhLabel label) :
    LdhLabel (Text.asciiLower label) := by
  have hhyphen (d : Char) : d.toLower = '-' → d = '-' :=
    Text.toLower_eq_of_not_alpha (by decide)
  refine ⟨by simpa [Text.asciiLower] using h.length, ?_, ?_, ?_⟩
  · intro c hc
    obtain ⟨d, hd, rfl⟩ := mem_asciiLower.mp hc
    rw [isAlnum_toLower]
    refine (h.chars d hd).imp_right fun heq => ?_
    subst heq
    rfl
  · intro heq
    rw [Text.asciiLower, List.head?_map, Option.map_eq_some_iff] at heq
    obtain ⟨d, hd, hlower⟩ := heq
    exact h.ends.1 (hhyphen d hlower ▸ hd)
  · intro heq
    rw [Text.asciiLower, List.getLast?_map, Option.map_eq_some_iff] at heq
    obtain ⟨d, hd, hlower⟩ := heq
    exact h.ends.2 (hhyphen d hlower ▸ hd)

theorem LdhLabel.labelError {label : Text} (h : LdhLabel label) : labelError label = none := by
  have hne : label.isEmpty = false := by
    cases label with
    | nil => exact absurd h.length.1 (by simp)
    | cons first rest => rfl
  have hshort := h.length.2
  rw [Emails.labelError, if_neg (by simp [hne]), if_neg (by omega), if_neg]
  intro hends
  exact hends.elim h.ends.1 h.ends.2

/-! ## Domains of such labels -/

section Domain
variable {domain : Text}

/-- Every character of such a domain is ASCII and none is white space or an `@`. -/
theorem ascii_of_labels (h : ∀ label ∈ domain.splitOn '.', LdhLabel label) :
    ∀ c ∈ domain, Text.ascii c = true := by
  intro c hc
  rcases Text.mem_splitOn '.' hc with hdot | ⟨label, hlabel, hmem⟩
  · subst hdot
    rfl
  · exact (h label hlabel).ascii c hmem

theorem not_space_of_isAlnum {c : Char} (h : isAlnum c = true) : Text.isSpace c = false := by
  have hall : ∀ n < 128, isAlnum (Char.ofNat n) = true → Text.isSpace (Char.ofNat n) = false := by
    decide
  have hone := hall c.toNat (by simpa [Text.ascii] using ascii_of_isAlnum h)
  rw [Char.ofNat_toNat] at hone
  exact hone h

theorem plain_of_labels (h : ∀ label ∈ domain.splitOn '.', LdhLabel label) :
    ∀ c ∈ domain, c ≠ '@' ∧ Text.isSpace c = false ∧ c ≠ '\n' := by
  intro c hc
  rcases Text.mem_splitOn '.' hc with hdot | ⟨label, hlabel, hmem⟩
  · subst hdot
    decide
  · rcases (h label hlabel).chars c hmem with halnum | hhyphen
    · refine ⟨?_, not_space_of_isAlnum halnum, ?_⟩
      · intro heq
        subst heq
        revert halnum
        decide
      · intro heq
        subst heq
        revert halnum
        decide
    · subst hhyphen
      decide

end Domain

/-! ## An accepted address -/

def accepted (local_part domain : Text) : EmailValidationSyntax :=
  { is_valid := true, local_part := some local_part, domain := some domain }

theorem exists_passes {py : Python} {email : Text}
    (h : (validateSyntax py email).is_valid = true) :
    ∃ local_part domain ascii_domain : Text,
      (Text.strip Text.isSpace email).splitOn '@' = [local_part, domain] ∧
      Passes py (Text.strip Text.isSpace email) local_part domain ascii_domain := by
  simp only [validateSyntax] at h
  split at h
  · next local_part domain hsplit =>
    cases hcheck : checkParts py (Text.strip Text.isSpace email) local_part domain with
    | error error => simp [hcheck] at h
    | ok result =>
      obtain ⟨ascii_domain, hpasses, _⟩ := checkParts_eq_ok_iff.mp hcheck
      exact ⟨local_part, domain, ascii_domain, hsplit, hpasses⟩
  · cases h

theorem validateSyntax_of_passes {py : Python} {email local_part domain ascii_domain : Text}
    (hsplit : (Text.strip Text.isSpace email).splitOn '@' = [local_part, domain])
    (hpasses : Passes py (Text.strip Text.isSpace email) local_part domain ascii_domain) :
    validateSyntax py email = accepted local_part (py.lower ascii_domain) := by
  have hcheck := checkParts_eq_ok_iff.mpr ⟨ascii_domain, hpasses, rfl⟩
  simp only [validateSyntax, hsplit, hcheck]
  rfl

section Passed
variable {py : Python} {email local_part domain ascii_domain : Text}

theorem Passes.dotAtom (h : Passes py email local_part domain ascii_domain) :
    DotAtom local_part := by
  have hpattern := h.pattern
  simp only [matchesEmail, Bool.and_eq_true, List.all_eq_true] at hpattern
  refine ⟨?_, hpattern.1.2, h.dots, h.local_length⟩
  intro hnil
  simp [hnil] at hpattern

theorem Passes.ldhLabels (h : Passes py email local_part domain ascii_domain) :
    ∀ label ∈ (dropNewline ascii_domain).splitOn '.', LdhLabel label := by
  have hpattern := h.pattern
  simp only [matchesEmail, Bool.and_eq_true, List.all_eq_true] at hpattern
  intro label hlabel
  exact (matchesLabel_iff label).mp (hpattern.2 label hlabel)

theorem mem_dropNewline {text : Text} {c : Char} (hc : c ∈ text) :
    c ∈ dropNewline text ∨ c = '\n' := by
  unfold dropNewline
  split
  · next hlast =>
    have hne := List.ne_nil_of_mem hc
    rw [List.getLast?_eq_some_getLast hne] at hlast
    rw [← List.dropLast_append_getLast hne, Option.some.inj hlast, List.mem_append,
      List.mem_singleton] at hc
    exact hc
  · exact Or.inl hc

theorem Passes.ascii (h : Passes py email local_part domain ascii_domain) :
    ∀ c ∈ ascii_domain, Text.ascii c = true := by
  intro c hc
  rcases mem_dropNewline hc with hdomain | hnewline
  · exact ascii_of_labels h.ldhLabels c hdomain
  · subst hnewline
    rfl

theorem Passes.lower (h : Passes py email local_part domain ascii_domain)
    (hpy : StandardAscii py) : py.lower ascii_domain = Text.asciiLower ascii_domain :=
  hpy.lower _ h.ascii

/-- Labels of the lowered domain, where no line feed was dropped. -/
theorem Passes.ldhLabels_lower (h : Passes py email local_part domain ascii_domain)
    (hunbroken : ascii_domain.getLast? ≠ some '\n') :
    ∀ label ∈ (Text.asciiLower ascii_domain).splitOn '.', LdhLabel label := by
  have hsame : dropNewline ascii_domain = ascii_domain := if_neg hunbroken
  have hlabels := h.ldhLabels
  rw [hsame] at hlabels
  rw [splitOn_asciiLower]
  intro label hlabel
  obtain ⟨original, horiginal, rfl⟩ := List.mem_map.mp hlabel
  exact (hlabels original horiginal).asciiLower

theorem length_asciiLower (text : Text) : (Text.asciiLower text).length = text.length :=
  List.length_map _

theorem Passes.wellFormed (h : Passes py email local_part domain ascii_domain)
    (hpy : StandardAscii py) (hplain : PlainlyEncoded local_part ascii_domain) :
    WellFormed local_part (Text.asciiLower ascii_domain) := by
  have hlabels := h.ldhLabels_lower hplain.unbroken
  have htld : ∀ c ∈ (ascii_domain.splitOn '.').getLastD [], Text.ascii c = true := by
    intro c hc
    rw [List.getLastD_eq_getLast?] at hc
    cases hlast : (ascii_domain.splitOn '.').getLast? with
    | none =>
      rw [hlast] at hc
      cases hc
    | some label =>
      rw [hlast] at hc
      have hpiece := List.mem_of_getLast? hlast
      rw [List.splitOn_eq_splitOnP] at hpiece
      exact h.ascii c (Text.of_mem_splitOnP hpiece c hc).2
  refine ⟨h.dotAtom, hlabels, ?_, ?_⟩
  · rw [length_asciiLower]
    exact hplain.total
  · have hfree := h.tld_free
    rw [hpy.lower _ htld] at hfree
    rw [asciiLower_asciiLower, specialUse, splitOn_asciiLower, getLastD_asciiLower, hfree,
      hplain.not_home, hplain.not_example]
    rfl

/-- The line feed, the length and the two kinds of names show in the report. -/
theorem plainlyEncoded_of_wellFormed
    (hformed : WellFormed local_part (Text.asciiLower ascii_domain)) :
    PlainlyEncoded local_part ascii_domain := by
  have hordinary := hformed.ordinary
  rw [asciiLower_asciiLower] at hordinary
  simp only [specialUse, Bool.or_eq_false_iff] at hordinary
  refine ⟨?_, ?_, hordinary.1.2, hordinary.2⟩
  · intro hbroken
    have hmem : '\n' ∈ Text.asciiLower ascii_domain :=
      mem_asciiLower.mpr ⟨'\n', List.mem_of_getLast? hbroken, rfl⟩
    exact (plain_of_labels hformed.labels '\n' hmem).2.2 rfl
  · have htotal := hformed.total
    rwa [length_asciiLower] at htotal

theorem not_space_of_isLocalChar {c : Char} (h : isLocalChar c = true) :
    Text.isSpace c = false ∧ c ≠ '@' := by
  rcases Bool.or_eq_true_iff.mp h with halnum | hmark
  · refine ⟨not_space_of_isAlnum halnum, fun heq => ?_⟩
    subst heq
    revert halnum
    decide
  · have hall : (".!#$%&\x27*+/=?^_\x60\x7b|\x7d~-".toList.all
        fun c => !Text.isSpace c && c != '@') = true := by decide
    have hone := List.all_eq_true.mp hall c (List.contains_iff_mem.mp hmark)
    simpa using hone

/-- The reported address passes every check itself. -/
theorem Passes.again (h : Passes py email local_part domain ascii_domain)
    (hpy : StandardAscii py) (hformed : WellFormed local_part (Text.asciiLower ascii_domain)) :
    Passes py (local_part ++ '@' :: Text.asciiLower ascii_domain) local_part
      (Text.asciiLower ascii_domain) (Text.asciiLower ascii_domain) := by
  have hascii := ascii_asciiLower h.ascii
  have hplain := plain_of_labels hformed.labels
  have htotal := hformed.total
  have hordinary := hformed.ordinary
  simp only [specialUse, Bool.or_eq_false_iff] at hordinary
  have hnewline : ∀ text : Text, (∀ c ∈ text, c ≠ '\n') → dropNewline text = text := by
    intro text htext
    exact if_neg fun hlast => htext '\n' (List.mem_of_getLast? hlast) rfl
  have htld : ((Text.asciiLower ascii_domain).splitOn '.').getLastD [] ∈
      (Text.asciiLower ascii_domain).splitOn '.' := by
    obtain ⟨first, others, hlist⟩ :=
      List.exists_cons_of_ne_nil (List.splitOn_ne_nil '.' (Text.asciiLower ascii_domain))
    rw [hlist, List.getLastD_cons]
    exact List.getLastD_mem_cons
  have htldLabel := hformed.labels _ htld
  refine ⟨?_, h.local_length, by omega, ?_, ?_, h.dots, ?_, ?_, ?_, ?_, ?_, ?_⟩
  · rw [List.length_append, List.length_cons]
    omega
  · exact hpy.encode _ hascii fun label hlabel => (hformed.labels label hlabel).length
  · have hdomain : dropNewline (Text.asciiLower ascii_domain) = Text.asciiLower ascii_domain :=
      hnewline _ fun c hc => (hplain c hc).2.2
    have hpattern := h.pattern
    simp only [matchesEmail, Bool.and_eq_true, List.all_eq_true] at hpattern ⊢
    refine ⟨hpattern.1, fun label hlabel => ?_⟩
    rw [hdomain] at hlabel
    exact (matchesLabel_iff label).mpr (hformed.labels label hlabel)
  · rw [splitOn_asciiLower, List.length_map]
    exact h.dotted
  · rw [List.findSome?_eq_none_iff]
    exact fun label hlabel => (hformed.labels label hlabel).labelError
  · rw [splitOn_asciiLower, getLastD_asciiLower, length_asciiLower]
    exact h.tld_length
  · have hsame : dropNewline (((Text.asciiLower ascii_domain).splitOn '.').getLastD []) =
        ((Text.asciiLower ascii_domain).splitOn '.').getLastD [] := by
      apply hnewline
      intro c hc heq
      subst heq
      rcases htldLabel.chars _ hc with halnum | hhyphen
      · revert halnum
        decide
      · revert hhyphen
        decide
    rw [hsame, List.all_eq_true]
    intro c hc
    simpa using htldLabel.chars c hc
  · rw [hpy.lower _ htldLabel.ascii, ← getLastD_asciiLower, ← splitOn_asciiLower]
    exact hordinary.1.1
  · rw [hpy.lower _ hascii]
    exact hordinary.2

theorem strip_address (hdot : DotAtom local_part)
    (hlabels : ∀ label ∈ domain.splitOn '.', LdhLabel label) :
    Text.strip Text.isSpace (local_part ++ '@' :: domain) = local_part ++ '@' :: domain ∧
      (local_part ++ '@' :: domain).splitOn '@' = [local_part, domain] := by
  have hplain := plain_of_labels hlabels
  constructor
  · apply Text.strip_of_forall
    intro c hc
    rcases List.mem_append.mp hc with hlocal | hrest
    · exact (not_space_of_isLocalChar (hdot.chars c hlocal)).1
    · rcases List.mem_cons.mp hrest with hat | hdomain
      · subst hat
        rfl
      · exact (hplain c hdomain).2.1
  · have hfront : '@' ∉ local_part := fun hmem =>
      (not_space_of_isLocalChar (hdot.chars _ hmem)).2 rfl
    have hback : '@' ∉ domain := fun hmem => (hplain _ hmem).1 rfl
    rw [List.splitOn_append_cons_self, List.splitOn_eq_singleton hfront,
      List.splitOn_eq_singleton hback]
    rfl

end Passed

/-- An accepted address is reported well formed and accepted again exactly where its
encoded domain is plain. -/
theorem validate_syntax_sound_iff (py : Python) (hpy : StandardAscii py) (email : Text)
    (haccepted : (validateSyntax py email).is_valid = true) :
    Sound py email ↔ Plain py email := by
  obtain ⟨local_part, domain, ascii_domain, hsplit, hpasses⟩ := exists_passes haccepted
  have hreport := validateSyntax_of_passes hsplit hpasses
  rw [hpasses.lower hpy] at hreport
  constructor
  · intro hsound
    obtain ⟨local_part', domain', hlocal, hdomain, hformed, _⟩ := hsound
    rw [hreport] at hlocal hdomain
    cases hlocal
    cases hdomain
    intro local_part' domain' ascii_domain' hsplit' hencode'
    rw [hsplit] at hsplit'
    cases hsplit'
    rw [hpasses.encoded] at hencode'
    cases hencode'
    exact plainlyEncoded_of_wellFormed hformed
  · intro hplain
    have hformed := hpasses.wellFormed hpy (hplain _ _ _ hsplit hpasses.encoded)
    obtain ⟨hstrip, hparts⟩ := strip_address hformed.dot_atom hformed.labels
    have hagain := hpasses.again hpy hformed
    rw [← hstrip] at hparts hagain
    refine ⟨local_part, Text.asciiLower ascii_domain, ?_, ?_, hformed, ?_⟩
    · rw [hreport]
      rfl
    · rw [hreport]
      rfl
    · rw [validateSyntax_of_passes hparts hagain, hreport, hpy.lower _
        (ascii_asciiLower hpasses.ascii), asciiLower_asciiLower]

/-! ## The codec on ASCII -/

def labelsEncode (domain : Text) : Bool :=
  (domain.splitOn '.').dropLast.all (fun label => 1 ≤ label.length && label.length ≤ 63) &&
    ((domain.splitOn '.').getLastD []).length ≤ 63

def asciiCodec : IdnaCodec where
  encode domain :=
    if domain.all Text.ascii && labelsEncode domain then .ok domain
    else .error "label empty or too long"
  ascii domain encoded _ h := by
    split at h
    · exact (Except.ok.inj h).symm
    · cases h

def asciiPython : Python := ⟨.asciiOnly, asciiCodec⟩

theorem asciiPython_standard : StandardAscii asciiPython where
  lower _ _ := rfl
  encode domain hascii hlabels := by
    have hencode : labelsEncode domain = true := by
      simp only [labelsEncode, Bool.and_eq_true, List.all_eq_true, decide_eq_true_eq]
      refine ⟨fun label hlabel => hlabels label (List.mem_of_mem_dropLast hlabel), ?_⟩
      obtain ⟨first, others, hlist⟩ :=
        List.exists_cons_of_ne_nil (List.splitOn_ne_nil '.' domain)
      rw [hlist, List.getLastD_cons]
      exact (hlabels _ (hlist ▸ List.getLastD_mem_cons)).2
    have hall : domain.all Text.ascii = true := List.all_eq_true.mpr hascii
    simp only [asciiPython, asciiCodec, hall, hencode, Bool.and_self, if_true]

theorem validate_syntax_sound_mail :
    (validateSyntax asciiPython "user@Mail.co".toList).is_valid = true ∧
      (Sound asciiPython "user@Mail.co".toList ↔ Plain asciiPython "user@Mail.co".toList) := by
  have hvalid : (validateSyntax asciiPython "user@Mail.co".toList).is_valid = true := by
    decide +kernel
  exact ⟨hvalid, validate_syntax_sound_iff asciiPython asciiPython_standard _ hvalid⟩

/-- A name below `home.arpa`, which the source lists as reserved, is accepted. -/
theorem home_arpa_is_accepted :
    (validateSyntax asciiPython "user@router.home.arpa".toList).is_valid = true ∧
      ¬ Sound asciiPython "user@router.home.arpa".toList := by
  have hvalid : (validateSyntax asciiPython "user@router.home.arpa".toList).is_valid = true := by
    decide +kernel
  have hdomain : (validateSyntax asciiPython "user@router.home.arpa".toList).domain =
      some "router.home.arpa".toList := by decide +kernel
  have hreserved : specialUse (Text.asciiLower "router.home.arpa".toList) = true := by
    decide +kernel
  refine ⟨hvalid, fun hsound => ?_⟩
  obtain ⟨local_part, domain, _, hreported, hformed, _⟩ := hsound
  rw [hdomain] at hreported
  cases hreported
  have hordinary := hformed.ordinary
  rw [hreserved] at hordinary
  cases hordinary

end MailCue.Backend.Emails
