import MailCue.Lib.Text

/-!
# The syntax check of an address

backend/app/emails/validation.py, `validate_syntax`. The case mapping and the IDNA
codec of the standard library are parameters, with what they do to ASCII; the
text of a codec error is its own.
-/
namespace MailCue.Backend.Emails
open MailCue.Lib

/-- `str.encode("idna")`. An ASCII domain is checked and returned as it is. -/
structure IdnaCodec where
  encode : Text → Except String Text
  ascii : ∀ domain encoded : Text, (∀ c ∈ domain, Text.ascii c = true) →
    encode domain = .ok encoded → encoded = domain

structure Python where
  lowering : Text.Lowering
  idna : IdnaCodec

def Python.lower (py : Python) (text : Text) : Text := py.lowering.lower text

structure EmailValidationSyntax where
  is_valid : Bool
  local_part : Option Text := none
  domain : Option Text := none
  error : Option String := none

/-! ## The pattern -/

def isAlnum (c : Char) : Bool := c.isAlpha || c.isDigit

/-- `[a-zA-Z0-9.!#$%&'*+/=?^_{|}~-]` and the backquote. -/
def isLocalChar (c : Char) : Bool :=
  isAlnum c || ".!#$%&\x27*+/=?^_\x60\x7b|\x7d~-".toList.contains c

/-- One label of the pattern, of 1 to 63 characters. -/
def matchesLabel (label : Text) : Bool :=
  match label with
  | [] => false
  | first :: rest =>
    isAlnum first && label.all (fun c => isAlnum c || c == '-') && isAlnum (rest.getLastD first) &&
      label.length ≤ 63

/-- A pattern that ends in `$` also matches before a last line feed. -/
def dropNewline (text : Text) : Text :=
  if text.getLast? = some '\n' then text.dropLast else text

/-- `EMAIL_REGEX` on a local part and a domain. -/
def matchesEmail (local_part domain : Text) : Bool :=
  !local_part.isEmpty && local_part.all isLocalChar &&
    ((dropNewline domain).splitOn '.').all matchesLabel

/-! ## The check -/

def reservedTlds : List String :=
  ["local", "localhost", "test", "example", "invalid", "internal", "lan", "home.arpa"]

def labelError (label : Text) : Option String :=
  if label.isEmpty then some "Domain labels cannot be empty"
  else if 63 < label.length then
    some ("Domain label '" ++ String.ofList label ++ "' exceeds maximum length of 63 characters")
  else if label.head? = some '-' ∨ label.getLast? = some '-' then
    some ("Domain label '" ++ String.ofList label ++ "' cannot start or end with a hyphen")
  else none

def reservedDomain (domain_lower : Text) : Bool :=
  ["example.com", "example.net", "example.org"].any fun reserved =>
    domain_lower == reserved.toList || ('.' :: reserved.toList).isSuffixOf domain_lower

/-- The first error of a split address, or the domain of a valid one. -/
def checkParts (py : Python) (email local_part domain : Text) : Except String Text :=
  if 254 < email.length then .error "Email address exceeds maximum length of 254 characters"
  else if 64 < local_part.length then .error "Local part exceeds maximum length of 64 characters"
  else if 255 < domain.length then .error "Domain part exceeds maximum length of 255 characters"
  else
    match py.idna.encode domain with
    | .error exc => .error ("Invalid IDN domain: " ++ exc)
    | .ok ascii_domain =>
      if !matchesEmail local_part ascii_domain then .error "Invalid email address syntax"
      else if local_part.head? = some '.' ∨ local_part.getLast? = some '.' ∨
          Text.contains local_part ['.', '.'] = true then
        .error "Local part cannot start or end with a dot or contain consecutive dots"
      else
        let domain_labels := ascii_domain.splitOn '.'
        let tld := domain_labels.getLastD []
        if domain_labels.length < 2 then
          .error "Domain must contain at least one dot (e.g., domain.com)"
        else
          match domain_labels.findSome? labelError with
          | some error => .error error
          | none =>
            if tld.length < 2 then .error "Top-level domain (TLD) must be at least 2 characters"
            else if !(dropNewline tld).all (fun c => isAlnum c || c == '-') then
              .error "Top-level domain (TLD) contains invalid characters"
            else if (reservedTlds.map String.toList).contains (py.lower tld) then
              .error ("Domain uses a reserved or internal top-level domain: ." ++
                String.ofList (py.lower tld))
            else if reservedDomain (py.lower domain) then
              .error "Domain is reserved for testing/examples"
            else .ok (py.lower ascii_domain)

def validateSyntax (py : Python) (email : Text) : EmailValidationSyntax :=
  let email := Text.strip Text.isSpace email
  match email.splitOn '@' with
  | [local_part, domain] =>
    match checkParts py email local_part domain with
    | .error error =>
      { is_valid := false, local_part := local_part, domain := domain, error := error }
    | .ok ascii_domain => { is_valid := true, local_part := local_part, domain := ascii_domain }
  | _ =>
    { is_valid := false, error := "Email address must contain exactly one '@' character" }

/-! ## What a valid address has -/

/-- What passes a check goes on behind it. -/
theorem ok_of_ite {c : Prop} [Decidable c] {error : String} {rest : Except String Text}
    {result : Text} (h : (if c then .error error else rest) = .ok result) : rest = .ok result := by
  by_cases hc : c
  · rw [if_pos hc] at h
    cases h
  · rwa [if_neg hc] at h

theorem checkParts_ok {py : Python} {email local_part domain result : Text}
    (h : checkParts py email local_part domain = .ok result) :
    ∃ ascii_domain, py.idna.encode domain = .ok ascii_domain ∧ result = py.lower ascii_domain := by
  unfold checkParts at h
  have hlengths := ok_of_ite (ok_of_ite (ok_of_ite h))
  cases hencode : py.idna.encode domain with
  | error exc =>
    rw [hencode] at hlengths
    cases hlengths
  | ok ascii_domain =>
    rw [hencode] at hlengths
    have hdotted := ok_of_ite (ok_of_ite (ok_of_ite hlengths))
    refine ⟨ascii_domain, rfl, ?_⟩
    cases hlabels : (ascii_domain.splitOn '.').findSome? labelError with
    | some error =>
      rw [hlabels] at hdotted
      cases hdotted
    | none =>
      rw [hlabels] at hdotted
      have htld := ok_of_ite (ok_of_ite (ok_of_ite (ok_of_ite hdotted)))
      exact (Except.ok.inj htld).symm

/-- The domain of a valid address is what stands behind its `@`, encoded and lower-cased. -/
theorem validateSyntax_domain {py : Python} {email : Text}
    (h : (validateSyntax py email).is_valid = true) :
    ∃ ascii_domain,
      py.idna.encode (Text.afterLast '@' (Text.strip Text.isSpace email)) = .ok ascii_domain ∧
      (validateSyntax py email).domain = some (py.lower ascii_domain) := by
  unfold validateSyntax at h ⊢
  dsimp only at h ⊢
  split at h
  · rename_i local_part domain hsplit
    obtain ⟨hemail, hdomain⟩ := Text.of_splitOn_pair hsplit
    cases hcheck : checkParts py (Text.strip Text.isSpace email) local_part domain with
    | error error => simp [hcheck] at h
    | ok result =>
      obtain ⟨ascii_domain, hencode, rfl⟩ := checkParts_ok hcheck
      refine ⟨ascii_domain, ?_, by simp⟩
      rw [hemail, Text.afterLast_append hdomain]
      exact hencode
  · cases h

end MailCue.Backend.Emails
