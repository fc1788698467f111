import Mathlib
import MailCue.Lib.IpAddress

/-!
# SPF records

backend/app/domains/service.py: the record that is recommended for a domain
(`_build_spf_expected`), the check of a record (`_validate_spf_record`) and the
comparison of a published record with the recommended one (`_record_matches` for the
slot `spf`).
-/
namespace MailCue.Backend.Domains
open MailCue.Lib

/-- What the functions use of the text library: `str.lower`, the decimal digits that `\d`
and `int` accept, and how an IPv6 address is written. -/
structure Python where
  lower : Text → Text
  ascii_lower : ∀ text, (∀ c ∈ text, Text.ascii c = true) → lower text = Text.asciiLower text
  digit : Char → Option Nat
  ascii_digit : ∀ c, Text.ascii c = true →
    digit c = if c.isDigit then some (c.toNat - '0'.toNat) else none
  ipv6 : IpAddress.Rendering

/-- The library on ASCII, with IPv6 addresses written in full. -/
def Python.asciiOnly : Python where
  lower := Text.asciiLower
  ascii_lower _ _ := rfl
  digit c := if c.isDigit then some (c.toNat - '0'.toNat) else none
  ascii_digit _ _ := rfl
  ipv6 := .exploded

/-- `text.split()` -/
def words (text : Text) : List Text := (text.splitOnP Text.isSpace).filter (!·.isEmpty)

/-- `" ".join(tokens)` -/
def joinWords (tokens : List Text) : Text := [' '].intercalate tokens

/-! ## The check -/

def spfQualifiers : Text := "+-~?".toList

def spfDnsMechanisms : List String := ["a", "mx", "ptr", "include", "exists"]

structure SpfState where
  lookup_terms : Nat
  seen_modifiers : List Text
  deriving DecidableEq, Repr

/-- `[A-Za-z][A-Za-z0-9_.-]*` -/
def isModifierName (name : Text) : Bool :=
  match name with
  | [] => false
  | c :: rest => c.isAlpha && rest.all fun d => d.isAlphanum || d == '_' || d == '.' || d == '-'

/-- What stands in front of the first colon, and of that in front of the first slash. -/
def mechanismText (term : Text) : Text := term.takeWhile fun c => c != ':' && c != '/'

/-- `re.match(name, text, re.IGNORECASE)`, as what follows. -/
def afterName (name term : Text) : Option Text :=
  if Text.asciiLower (term.take name.length) = name then some (term.drop name.length) else none

section
variable (py : Python)

/-- `\d{1,3}` at the end of the text, as its number. -/
def cidr (text : Text) : Option Nat :=
  if text ≠ [] ∧ text.length ≤ 3 then
    text.foldlM (fun n c => (10 * n + ·) <$> py.digit c) 0
  else none

/-- `(?:/(\d{1,3}))?(?://(\d{1,3}))?` at the end of the text. -/
def cidrs (text : Text) : Option (Option Nat × Option Nat) :=
  match text with
  | [] => some (none, none)
  | '/' :: '/' :: ipv6_cidr => do
    let ipv6_cidr ← cidr py ipv6_cidr
    return (none, some ipv6_cidr)
  | '/' :: rest => do
    let ipv4_cidr ← cidr py (rest.takeWhile (· != '/'))
    match rest.dropWhile (· != '/') with
    | [] => return (some ipv4_cidr, none)
    | '/' :: '/' :: ipv6_cidr => do
      let ipv6_cidr ← cidr py ipv6_cidr
      return (some ipv4_cidr, some ipv6_cidr)
    | _ => none
  | _ => none

/-- `:[^/\s]+` in front of something else that starts with a slash, or of nothing. -/
def afterHost (text : Text) : Option Text :=
  let host := text.takeWhile fun c => c != '/' && !Text.isSpace c
  if host.isEmpty then none else some (text.drop host.length)

/-- The pattern of the mechanisms `a` and `mx`. -/
def matchHost (name term : Text) : Option (Option Nat × Option Nat) := do
  match ← afterName name term with
  | ':' :: rest => cidrs py (← afterHost rest)
  | rest => cidrs py rest

def matchPtr (term : Text) : Bool :=
  match afterName "ptr".toList term with
  | some [] => true
  | some (':' :: rest) => afterHost rest = some []
  | _ => false

def invalid (name : String) (raw_term : Text) : String :=
  s!"Invalid {name} mechanism: {String.ofList raw_term}"

/-- The check of one mechanism by its name in lower case. -/
def checkMechanism (mechanism_name : String) (raw_term term : Text) : Except String Unit :=
  let raw := String.ofList raw_term
  let start := mechanism_name.toList ++ [':']
  let value := term.drop start.length
  if mechanism_name = "all" then
    if py.lower term ≠ "all".toList then .error s!"Invalid all mechanism: {raw}" else .ok ()
  else if mechanism_name = "a" ∨ mechanism_name = "mx" then
    match matchHost py mechanism_name.toList term with
    | none => .error (invalid mechanism_name raw_term)
    | some (ipv4_cidr, ipv6_cidr) =>
      if ipv4_cidr.any (32 < ·) then .error s!"Invalid IPv4 prefix length in {raw}"
      else if ipv6_cidr.any (128 < ·) then .error s!"Invalid IPv6 prefix length in {raw}"
      else .ok ()
  else if mechanism_name = "ptr" then
    if matchPtr term then .ok () else .error s!"Invalid ptr mechanism: {raw}"
  else if mechanism_name = "include" ∨ mechanism_name = "exists" then
    if !start.isPrefixOf (py.lower term) || value.isEmpty then
      .error (invalid mechanism_name raw_term)
    else .ok ()
  else if mechanism_name = "ip4" ∨ mechanism_name = "ip6" then
    if !start.isPrefixOf (py.lower term) then .error (invalid mechanism_name raw_term)
    else
      match IpAddress.readNetwork value with
      | none => .error s!"Invalid {mechanism_name} network: {raw}"
      | some (address, _) =>
        if address.version ≠ (if mechanism_name = "ip4" then IpVersion.four else .six) then
          .error s!"Address family does not match {mechanism_name}: {raw}"
        else .ok ()
  else .error s!"Unknown SPF mechanism: {mechanism_name}"

def checkModifier (state : SpfState) (has_qualifier : Bool) (raw_term term : Text) :
    Except String SpfState :=
  if has_qualifier then
    .error s!"SPF modifiers cannot have a qualifier: {String.ofList raw_term}"
  else
    let name := term.takeWhile (· != '=')
    if !isModifierName name || (term.drop (name.length + 1)).isEmpty then
      .error s!"Invalid SPF modifier: {String.ofList raw_term}"
    else if py.lower name ∈ state.seen_modifiers then
      .error s!"Duplicate SPF modifier: {String.ofList name}"
    else
      .ok ⟨state.lookup_terms + if py.lower name = "redirect".toList then 1 else 0,
        py.lower name :: state.seen_modifiers⟩

def hasQualifier (raw_term : Text) : Bool := raw_term.head?.any fun c => c ∈ spfQualifiers

def withoutQualifier (raw_term : Text) : Text :=
  if hasQualifier raw_term then raw_term.tail else raw_term

/-- One turn of the loop over the terms. -/
def checkTerm (state : SpfState) (raw_term : Text) : Except String SpfState := do
  let term := withoutQualifier raw_term
  let qualifier := if hasQualifier raw_term then raw_term.headD '+' else '+'
  if term.isEmpty then .error s!"Invalid empty SPF term after {qualifier}"
  else if '=' ∈ term then checkModifier py state (hasQualifier raw_term) raw_term term
  else
    let mechanism_name := String.ofList (py.lower (mechanismText term))
    checkMechanism py mechanism_name raw_term term
    return { state with lookup_terms := state.lookup_terms +
      if mechanism_name ∈ spfDnsMechanisms then 1 else 0 }

/-- `_validate_spf_record`, with the reason of a refusal. -/
def validateSpfRecord (value : Text) : Except String Unit := do
  match words value with
  | [] => .error "SPF must start with v=spf1"
  | version :: terms =>
    if py.lower version ≠ "v=spf1".toList then .error "SPF must start with v=spf1"
    else if terms.isEmpty then .error "SPF has no mechanisms"
    else
      let state ← terms.foldlM (checkTerm py) ⟨0, []⟩
      if 10 < state.lookup_terms then
        .error s!"SPF uses {state.lookup_terms} DNS lookups; the limit is 10"
      else .ok ()

example : validateSpfRecord .asciiOnly "v=spf1 a aaaa -all".toList =
    .error "Unknown SPF mechanism: aaaa" := by decide +kernel

/-! ## The comparison -/

/-- A mechanism of the simple form, without its qualifier and the dots at its end. -/
def simpleMechanism (token : Text) : Option Text :=
  let normalized := if token.head? = some '+' then token.tail else token
  if normalized = "mx".toList ∨ normalized = "a".toList ∨ "mx:".toList.isPrefixOf normalized ∨
      "a:".toList.isPrefixOf normalized then
    some (normalized.rdropWhile (· == '.'))
  else none

/-- `_simple_spf_parts` -/
def simpleSpfParts (value : Text) : Option (List Text × Text) :=
  match words value with
  | version :: first :: rest =>
    let terminal := rest.getLastD first
    if version ≠ "v=spf1".toList ∨ (terminal ≠ "-all".toList ∧ terminal ≠ "~all".toList) then none
    else do
      let mechanisms ← (first :: rest).dropLast.mapM simpleMechanism
      return (mechanisms, terminal)
  | _ => none

/-- The mechanisms that a published record of the simple form has to have. -/
def requiredMechanisms (expected : List Text × Text) : List Text :=
  if "mx".toList ∈ expected.1 ∧ expected.2 = "~all".toList then
    expected.1.filter fun m => !"a:".toList.isPrefixOf m
  else expected.1

def terminalIsCompatible (expected current : Text) : Bool :=
  current == expected || (expected == "~all".toList && current == "-all".toList)

/-- `" ".join(value.lower().split())` -/
def normalizeSpf (value : Text) : Text := joinWords (words (py.lower value))

/-- `_record_matches` for the slot `spf`. -/
def spfMatches (expected current : Text) : Bool :=
  let expected_normalized := normalizeSpf py expected
  let current_normalized := normalizeSpf py current
  if !(validateSpfRecord py expected_normalized).isOk ||
      !(validateSpfRecord py current_normalized).isOk then false
  else
    match simpleSpfParts expected_normalized, simpleSpfParts current_normalized with
    | some expected_simple, some current_simple =>
      (requiredMechanisms expected_simple).all (current_simple.1.contains ·) &&
        terminalIsCompatible expected_simple.2 current_simple.2
    | _, _ => expected_normalized == current_normalized

/-! ## The recommendation -/

/-- `f"ip{address.version}:{address}"` -/
def ipMechanism (address : IpAddress) : Text :=
  (match address.version with
    | .four => "ip4:".toList
    | .six => "ip6:".toList) ++ address.write py.ipv6

/-- The mechanism of one tunnel endpoint. -/
def tunnelMechanism (host : Text) : Text :=
  match IpAddress.read host with
  | none => "a:".toList ++ host
  | some address => ipMechanism py address

/-- `_build_spf_expected` -/
def buildSpfExpected (hostname : Text) (tunnel_hosts : List Text) : Text :=
  if tunnel_hosts.isEmpty then "v=spf1 mx a:".toList ++ hostname ++ " ~all".toList
  else "v=spf1 mx ".toList ++ joinWords (tunnel_hosts.map (tunnelMechanism py)) ++ " -all".toList

example : buildSpfExpected .asciiOnly "mail.example.com".toList
    ["192.0.2.7".toList, "relay.example.com".toList] =
    "v=spf1 mx ip4:192.0.2.7 a:relay.example.com -all".toList := by decide

end

/-! ## Words -/

/-- No space in it, and something. -/
def IsWord (text : Text) : Prop := text ≠ [] ∧ ∀ c ∈ text, Text.isSpace c = false

theorem words_of_isWord {text : Text} (h : IsWord text) : words text = [text] := by
  rw [words, List.splitOnP_eq_singleton (by simpa using h.2)]
  simp [h.1]

theorem words_append_space {text : Text} (rest : Text) :
    words (text ++ ' ' :: rest) = words text ++ words rest := by
  unfold words
  rw [List.splitOnP_append_cons _ _ (by decide), List.filter_append]

theorem joinWords_cons (first second : Text) (others : List Text) :
    joinWords (first :: second :: others) = first ++ ' ' :: joinWords (second :: others) := by
  simp [joinWords, List.intercalate]

theorem joinWords_concat (tokens : List Text) (hne : tokens ≠ []) (last : Text) :
    joinWords (tokens ++ [last]) = joinWords tokens ++ ' ' :: last := by
  induction tokens with
  | nil => exact absurd rfl hne
  | cons token tokens ih =>
    cases tokens with
    | nil => simp [joinWords, List.intercalate]
    | cons next tokens =>
      rw [List.cons_append, List.cons_append, joinWords_cons, joinWords_cons, ← List.cons_append,
        ih (List.cons_ne_nil next tokens), List.append_assoc]
      rfl

theorem words_joinWords {tokens : List Text} (h : ∀ token ∈ tokens, IsWord token) :
    words (joinWords tokens) = tokens := by
  induction tokens with
  | nil => decide
  | cons token tokens ih =>
    obtain ⟨htoken, hrest⟩ := List.forall_mem_cons.mp h
    cases tokens with
    | nil => simpa [joinWords, List.intercalate] using words_of_isWord htoken
    | cons next tokens =>
      rw [joinWords_cons, words_append_space, words_of_isWord htoken, ih hrest]
      rfl

theorem isWord_of_mem_words {text token : Text} (h : token ∈ words text) : IsWord token := by
  obtain ⟨hmem, hne⟩ := List.mem_filter.mp h
  exact ⟨by simpa using hne, fun c hc => (Text.of_mem_splitOnP hmem c hc).1⟩

theorem words_normalizeSpf (py : Python) (value : Text) :
    words (normalizeSpf py value) = words (py.lower value) :=
  words_joinWords fun _ => isWord_of_mem_words

theorem joinWords_map_asciiLower (tokens : List Text) :
    Text.asciiLower (joinWords tokens) = joinWords (tokens.map Text.asciiLower) := by
  have hspace : (' ' : Char).toLower = ' ' := by decide
  induction tokens with
  | nil => rfl
  | cons token tokens ih =>
    cases tokens with
    | nil => simp [joinWords, List.intercalate]
    | cons next tokens =>
      rw [List.map_cons, List.map_cons, joinWords_cons, joinWords_cons, ← List.map_cons, ← ih]
      simp [Text.asciiLower, hspace]

theorem isWord_asciiLower {text : Text} (h : IsWord text) (hascii : ∀ c ∈ text, Text.ascii c = true) :
    IsWord (Text.asciiLower text) := by
  refine ⟨fun hnil => h.1 (List.map_eq_nil_iff.mp hnil), fun c hc => ?_⟩
  obtain ⟨d, hd, rfl⟩ := List.mem_map.mp hc
  have hall : ∀ n < 128, Text.isSpace (Char.ofNat n) = false →
      Text.isSpace (Char.ofNat n).toLower = false := by decide +kernel
  have hone := hall d.toNat (by simpa [Text.ascii] using hascii d hd)
  rw [Char.ofNat_toNat] at hone
  exact hone (h.2 d hd)

/-- Normalizing ASCII words lowers each. -/
theorem normalizeSpf_joinWords {py : Python} {tokens : List Text}
    (h : ∀ token ∈ tokens, IsWord token ∧ ∀ c ∈ token, Text.ascii c = true) :
    normalizeSpf py (joinWords tokens) = joinWords (tokens.map Text.asciiLower) := by
  have hascii : ∀ c ∈ joinWords tokens, Text.ascii c = true := by
    intro c hc
    rcases Text.mem_intercalate hc with rfl | ⟨token, htoken, hmem⟩
    · decide
    · exact (h token htoken).2 c hmem
  have hlowered : ∀ token ∈ tokens.map Text.asciiLower, IsWord token := by
    intro token htoken
    obtain ⟨t, ht, rfl⟩ := List.mem_map.mp htoken
    exact isWord_asciiLower (h t ht).1 (h t ht).2
  rw [normalizeSpf, py.ascii_lower _ hascii, joinWords_map_asciiLower, words_joinWords hlowered]

end MailCue.Backend.Domains
