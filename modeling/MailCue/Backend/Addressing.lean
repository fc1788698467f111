import MailCue.Lib.Text

/-!
# Addresses in mail-server configuration

backend/app/addressing.py. What a normalized address is made of is all that a file of
addresses relies on: it stands in one line.
-/
namespace MailCue.Backend
open MailCue.Lib

def isLocalPartChar (c : Char) : Bool := c.isAlphanum || "._+-".toList.contains c

def isDomainChar (c : Char) : Bool := c.isAlphanum || c == '-'

/-- A character of one kind, others behind it, and at the end no punctuation. -/
def matchesBounded (first within : Char → Bool) (limit : Nat) (text : Text) : Bool :=
  match text with
  | [] => false
  | c :: rest =>
    first c && rest.all within && (rest.getLast?.all Char.isAlphanum) && text.length ≤ limit

/-- `LOCAL_PART_RE` -/
def matchesLocalPart (text : Text) : Bool :=
  matchesBounded Char.isAlphanum isLocalPartChar 64 text

/-- `DOMAIN_RE` -/
def matchesDomain (text : Text) : Bool :=
  let labels := text.splitOn '.'
  1 ≤ text.length && text.length ≤ 253 && 2 ≤ labels.length &&
    labels.dropLast.all (matchesBounded Char.isAlphanum isDomainChar 63) &&
    matchesBounded Char.isAlpha isDomainChar 63 (labels.getLastD [])

def normalizeLocalPart (lowering : Text.Lowering) (value : Text) : Except String Text :=
  let normalized := lowering.lower (Text.strip Text.isSpace value)
  if !matchesLocalPart normalized || Text.contains normalized ['.', '.'] then
    .error "Invalid email local part"
  else .ok normalized

def normalizeDomain (lowering : Text.Lowering) (value : Text) : Except String Text :=
  let normalized := (lowering.lower (Text.strip Text.isSpace value)).rdropWhile (· == '.')
  if !matchesDomain normalized then .error "Invalid email domain" else .ok normalized

def normalizeEmailAddress (lowering : Text.Lowering) (value : Text) : Except String Text :=
  let normalized := lowering.lower (Text.strip Text.isSpace value)
  if 254 < normalized.length then .error "Invalid email address"
  else
    match normalized.splitOn '@' with
    | [local_part, domain] => do
      let local_part ← normalizeLocalPart lowering local_part
      let domain ← normalizeDomain lowering domain
      return local_part ++ '@' :: domain
    | _ => .error "Invalid email address"

/-! ## What is left of an address -/

def isAddressChar (c : Char) : Bool := isLocalPartChar c || c == '@'

/-- An address as configuration files have it. -/
structure Address where
  text : Text
  plain : text.all isAddressChar = true
  deriving DecidableEq

theorem all_of_matchesBounded {first within : Char → Bool} {limit : Nat} {text : Text}
    (hfirst : ∀ c, first c = true → within c = true)
    (h : matchesBounded first within limit text = true) : ∀ c ∈ text, within c = true := by
  unfold matchesBounded at h
  split at h
  · cases h
  · simp only [Bool.and_eq_true] at h
    obtain ⟨⟨⟨hhead, hrest⟩, -⟩, -⟩ := h
    exact List.forall_mem_cons.mpr ⟨hfirst _ hhead, List.all_eq_true.mp hrest⟩

theorem isDomainChar_of_isAlphanum {c : Char} (h : c.isAlphanum = true) :
    isDomainChar c = true := by
  rw [isDomainChar, h, Bool.true_or]

/-- A domain is made of its labels' characters and dots. -/
theorem all_of_matchesDomain {text : Text} (h : matchesDomain text = true) :
    ∀ c ∈ text, isDomainChar c = true ∨ c = '.' := by
  intro c hc
  simp only [matchesDomain, Bool.and_eq_true] at h
  obtain ⟨⟨⟨-, htwo⟩, hlabels⟩, hlast⟩ := h
  have halpha : ∀ c : Char, c.isAlpha = true → isDomainChar c = true := fun c hc =>
    isDomainChar_of_isAlphanum (by rw [Char.isAlphanum, hc, Bool.true_or])
  have hjoin : ['.'].intercalate (text.splitOn '.') = text := List.intercalate_splitOn '.'
  rw [← hjoin] at hc
  rcases Text.mem_intercalate hc with hdot | ⟨label, hlabel, hmem⟩
  · exact .inr hdot
  · left
    have hne : text.splitOn '.' ≠ [] := List.ne_nil_of_mem hlabel
    rw [← List.dropLast_append_getLast hne, List.mem_append, List.mem_singleton] at hlabel
    rcases hlabel with hinit | rfl
    · exact all_of_matchesBounded (fun c => isDomainChar_of_isAlphanum)
        (List.all_eq_true.mp hlabels label hinit) c hmem
    · rw [List.getLastD_eq_getLast?, List.getLast?_eq_some_getLast hne, Option.getD_some] at hlast
      exact all_of_matchesBounded halpha hlast c hmem

theorem ok_of_normalizeLocalPart {lowering : Text.Lowering} {value normalized : Text}
    (h : normalizeLocalPart lowering value = .ok normalized) :
    matchesLocalPart normalized = true := by
  unfold normalizeLocalPart at h
  dsimp only at h
  split at h
  · cases h
  · rename_i hmatch
    cases h
    simp only [Bool.or_eq_true, not_or, Bool.not_eq_true', Bool.not_eq_false] at hmatch
    exact hmatch.1

theorem ok_of_normalizeDomain {lowering : Text.Lowering} {value normalized : Text}
    (h : normalizeDomain lowering value = .ok normalized) : matchesDomain normalized = true := by
  unfold normalizeDomain at h
  dsimp only at h
  split at h
  · cases h
  · rename_i hmatch
    cases h
    simpa using hmatch

/-- A normalized address has neither spaces nor line breaks. -/
theorem plain_of_normalizeEmailAddress {lowering : Text.Lowering} {value normalized : Text}
    (h : normalizeEmailAddress lowering value = .ok normalized) :
    normalized.all isAddressChar = true := by
  unfold normalizeEmailAddress at h
  dsimp only at h
  split at h
  · cases h
  · split at h
    · rename_i value_local value_domain _
      cases hlocal : normalizeLocalPart lowering value_local with
      | error e =>
        rw [hlocal] at h
        cases h
      | ok local_part =>
        cases hdomain : normalizeDomain lowering value_domain with
        | error e =>
          rw [hlocal, hdomain] at h
          cases h
        | ok domain =>
          rw [hlocal, hdomain] at h
          cases h
          have hlocalChars : ∀ c ∈ local_part, isLocalPartChar c = true :=
            all_of_matchesBounded (fun c hc => by rw [isLocalPartChar, hc, Bool.true_or])
              (ok_of_normalizeLocalPart hlocal)
          refine List.all_eq_true.mpr fun c hc => ?_
          rcases List.mem_append.mp hc with hfront | hback
          · rw [isAddressChar, hlocalChars c hfront, Bool.true_or]
          · rcases List.mem_cons.mp hback with rfl | hback
            · rfl
            · rcases all_of_matchesDomain (ok_of_normalizeDomain hdomain) c hback with hlabel | rfl
              · unfold isDomainChar at hlabel
                rcases Bool.or_eq_true_iff.mp hlabel with halnum | hdash
                · rw [isAddressChar, isLocalPartChar, halnum, Bool.true_or, Bool.true_or]
                · rw [beq_iff_eq.mp hdash]
                  rfl
              · rfl
    · cases h

/-- A validator's field: the address, or the validator's error. -/
def validateAddress (lowering : Text.Lowering) (value : Text) : Except String Address :=
  match h : normalizeEmailAddress lowering value with
  | .error e => .error e
  | .ok text => .ok ⟨text, plain_of_normalizeEmailAddress h⟩

end MailCue.Backend
