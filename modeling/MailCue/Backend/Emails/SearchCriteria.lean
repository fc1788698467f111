import MailCue.Lib.ImapSearch

/-!
# The criteria of a search

backend/app/emails/service.py, `_build_imap_search_criteria`: what a user searches for,
as the argument of UID SEARCH. Runs of CR and LF become one blank; a NUL stays.
-/
namespace MailCue.Backend.Emails
open MailCue.Lib MailCue.Lib.Imap

/-- `str.lower`. The letters of a field name come from ASCII letters only: of ASCII, other
characters are lowered to `i` and `k` alone. -/
structure FieldLowering extends Text.Lowering where
  starts : ∀ text word : Text, (∀ c ∈ word, Text.ascii c = true ∧ c ≠ 'i' ∧ c ≠ 'k') →
    word <+: lower text → ∃ front back, text = front ++ back ∧ Text.asciiLower front = word

def FieldLowering.asciiOnly : FieldLowering where
  toLowering := .asciiOnly
  starts text word _ h := by
    obtain ⟨rest, hrest⟩ := h
    obtain ⟨front, back, htext, hfront, -⟩ := List.map_eq_append_iff.mp hrest.symm
    exact ⟨front, back, htext, hfront⟩

/-! ## The function -/

def isBreak (c : Char) : Bool := c == '\r' || c == '\n'

/-- `re.sub(r"[\r\n]+", " ", text)` -/
def subBreaks : Text → Text
  | [] => []
  | c :: rest =>
    if isBreak c then
      if rest.head?.any isBreak then subBreaks rest else ' ' :: subBreaks rest
    else c :: subBreaks rest

/-- `text.replace(c, by)` for a single character. -/
def replaceChar (c : Char) (text by_text : Text) : Text :=
  text.flatMap fun d => if d = c then by_text else [d]

def escaped (term : Text) : Text :=
  replaceChar '"' (replaceChar '\\' term ['\\', '\\']) ['\\', '"']

/-- `text.split(":", 1)[1]`, which raises where there is no colon. -/
def afterColon (text : Text) : Option Text :=
  match text.dropWhile (· != ':') with
  | [] => none
  | _ :: rest => some rest

/-- What is searched for in one field, named by the key. -/
def fieldCriteria (key : String) (clean : Text) : Option Text := do
  let rest ← afterColon clean
  let term := Text.strip Text.isSpace rest
  return if (escaped term).isEmpty then "ALL".toList
    else key.toList ++ ' ' :: '"' :: escaped term ++ ['"']

/-- The field names, with the key of each. -/
def searchFields : List (String × String) :=
  [("body:", "TEXT"), ("text:", "TEXT"), ("subject:", "SUBJECT"), ("from:", "FROM"), ("to:", "TO")]

def headerCriteria (e : Text) : Text :=
  "OR (OR (OR SUBJECT \"".toList ++ e ++ "\" FROM \"".toList ++ e ++ "\") TO \"".toList ++ e ++
    "\") CC \"".toList ++ e ++ "\"".toList

variable (l : FieldLowering)

/-- `none` when the function raises. -/
def buildImapSearchCriteria (search : Option Text) (search_scope : Text) : Option Text :=
  match search with
  | none => some "ALL".toList
  | some search =>
    if search.isEmpty then some "ALL".toList
    else
      let clean := Text.strip Text.isSpace (subBreaks search)
      if clean.isEmpty then some "ALL".toList
      else
        match searchFields.find? fun f => f.1.toList.isPrefixOf (l.lower clean) with
        | some f => fieldCriteria f.2 clean
        | none =>
          if l.lower search_scope ∈ ["all".toList, "body".toList, "text".toList] then
            some ("TEXT \"".toList ++ escaped clean ++ ['"'])
          else some (headerCriteria (escaped clean))

example : buildImapSearchCriteria .asciiOnly (some "test \"quoted\" and \\slash".toList) "all".toList =
    some "TEXT \"test \\\"quoted\\\" and \\\\slash\"".toList := by decide

/-! ## The term -/

/-- What the user searches for: what is left of the search when breaks have become blanks
and the ends are trimmed, or of that behind the name of a field. -/
inductive UserTerm (search : Text) : Text → Prop
  | whole : UserTerm search (Text.strip Text.isSpace (subBreaks search))
  | field (name rest : Text) :
      Text.strip Text.isSpace (subBreaks search) = name ++ ':' :: rest →
      String.ofList (Text.asciiLower name) ∈ ["body", "text", "subject", "from", "to"] →
      UserTerm search (Text.strip Text.isSpace rest)

/-- Subject, sender, recipient and copies. -/
def headerKey (term : Text) : SearchKey :=
  .either (.either (.either (.field "SUBJECT".toList term) (.field "FROM".toList term))
    (.field "TO".toList term)) (.field "CC".toList term)

/-- The keys a search can have. The term stands in quoted strings only. -/
def searchKeys (term : Text) : List SearchKey :=
  [.all, .field "TEXT".toList term, .field "SUBJECT".toList term, .field "FROM".toList term,
    .field "TO".toList term, headerKey term]

/-- The criteria are the text of one of these keys. -/
def ReadsBack (search : Text) (criteria : Text) : Prop :=
  ∃ term key, UserTerm search term ∧ key ∈ searchKeys term ∧ lex criteria = some key.tokens

/-! ## Breaks and NUL -/

theorem isBreak_iff {c : Char} : isBreak c = true ↔ c = '\r' ∨ c = '\n' := by
  simp [isBreak]

theorem unbroken_subBreaks (text : Text) : Unbroken (subBreaks text) := by
  induction text with
  | nil => simp [subBreaks, Unbroken]
  | cons c rest ih =>
    rw [subBreaks]
    by_cases hbreak : isBreak c = true
    · rw [if_pos hbreak]
      split
      · exact ih
      · exact unbroken_cons.mpr ⟨by decide, ih⟩
    · rw [if_neg hbreak]
      exact unbroken_cons.mpr ⟨not_or.mp (isBreak_iff.not.mp hbreak), ih⟩

/-- What neither breaks a line nor is a blank is kept. -/
theorem mem_subBreaks {c : Char} (hbreak : isBreak c = false) (hblank : c ≠ ' ') (text : Text) :
    c ∈ subBreaks text ↔ c ∈ text := by
  induction text with
  | nil => simp [subBreaks]
  | cons d rest ih =>
    rw [subBreaks]
    by_cases hd : isBreak d = true
    · have hne : c ≠ d := by
        rintro rfl
        rw [hbreak] at hd
        cases hd
      rw [if_pos hd]
      split
      · simp [ih, hne]
      · simp [ih, hne, hblank]
    · rw [if_neg hd]
      simp [ih]

theorem unbroken_strip {space : Char → Bool} {text : Text} (h : Unbroken text) :
    Unbroken (Text.strip space text) :=
  ⟨fun hmem => h.1 ((Text.strip_infix space text).subset hmem),
    fun hmem => h.2 ((Text.strip_infix space text).subset hmem)⟩

theorem nul_mem_clean (search : Text) :
    '\x00' ∈ Text.strip Text.isSpace (subBreaks search) ↔ '\x00' ∈ search := by
  rw [Text.mem_strip (by decide), mem_subBreaks (by decide) (by decide)]

/-! ## Quoting -/

theorem replaceChar_cons (c d : Char) (text by_text : Text) :
    replaceChar c (d :: text) by_text =
      (if d = c then by_text else [d]) ++ replaceChar c text by_text := by
  simp [replaceChar]

/-- Escaping the backslashes and then the quotes escapes each of both once. -/
theorem escaped_eq_quote (term : Text) : escaped term = quote term := by
  induction term with
  | nil => rfl
  | cons c term ih =>
    have hquote : quote (c :: term) =
        (if c = '"' ∨ c = '\\' then ['\\', c] else [c]) ++ quote term := by
      simp [quote]
    rw [hquote, ← ih, escaped, replaceChar_cons]
    by_cases hslash : c = '\\'
    · subst hslash
      simp [replaceChar_cons, escaped]
    · by_cases hq : c = '"'
      · subst hq
        simp [replaceChar_cons, escaped]
      · simp [replaceChar_cons, escaped, hslash, hq]

theorem quote_isEmpty (term : Text) : (quote term).isEmpty = term.isEmpty := by
  cases term with
  | nil => rfl
  | cons c term =>
    have hmem := subset_quote (c :: term) List.mem_cons_self
    simp [List.ne_nil_of_mem hmem]

/-! ## Every search -/

theorem afterColon_append {name : Text} (h : ':' ∉ name) (rest : Text) :
    afterColon (name ++ ':' :: rest) = some rest := by
  have hdrop : (name ++ ':' :: rest).dropWhile (· != ':') = ':' :: rest := by
    rw [List.dropWhile_append_of_pos fun c hc => Text.bne_of_not_mem h hc,
      List.dropWhile_cons_of_neg (by decide)]
  rw [afterColon, hdrop]

theorem field_name {f : String × String} (hf : f ∈ searchFields) :
    ∃ name : Text, f.1.toList = name ++ [':'] ∧ ':' ∉ name ∧ '\x00' ∉ name ∧
      (∀ c ∈ name, Text.ascii c = true ∧ c ≠ 'i' ∧ c ≠ 'k') ∧
      String.ofList name ∈ ["body", "text", "subject", "from", "to"] ∧
      f.2 ∈ ["TEXT", "SUBJECT", "FROM", "TO"] := by
  refine ⟨f.1.toList.dropLast, ?_⟩
  simp only [searchFields, List.mem_cons, List.not_mem_nil, or_false] at hf
  rcases hf with rfl | rfl | rfl | rfl | rfl
  all_goals
    refine ⟨by decide, by decide, by decide, List.forall_iff_forall_mem.mp (by decide),
      by decide, by decide⟩

/-- What the name of a field is found in front of. -/
theorem clean_of_field {clean : Text} {f : String × String} (hf : f ∈ searchFields)
    (h : f.1.toList.isPrefixOf (l.lower clean) = true) :
    ∃ name rest, clean = name ++ ':' :: rest ∧ afterColon clean = some rest ∧ '\x00' ∉ name ∧
      String.ofList (Text.asciiLower name) ∈ ["body", "text", "subject", "from", "to"] := by
  obtain ⟨word, hword, hcolon, hnul, hascii, hnamed, -⟩ := field_name hf
  have hletters : ∀ c ∈ word ++ [':'], Text.ascii c = true ∧ c ≠ 'i' ∧ c ≠ 'k' := by
    intro c hc
    rcases List.mem_append.mp hc with hc | hc
    · exact hascii c hc
    · rw [List.mem_singleton.mp hc]
      decide
  rw [hword, List.isPrefixOf_iff_prefix] at h
  obtain ⟨front, rest, rfl, hfront⟩ := l.starts clean _ hletters h
  obtain ⟨name, colon, rfl, hname, hlast⟩ := List.map_eq_append_iff.mp hfront
  obtain ⟨c, rfl, hc⟩ : ∃ c, colon = [c] ∧ c.toLower = ':' := by
    cases colon with
    | nil => cases hlast
    | cons c tail =>
      obtain ⟨hc, htail⟩ := List.cons.inj hlast
      exact ⟨c, by rw [List.map_eq_nil_iff.mp htail], hc⟩
  obtain rfl := Text.toLower_eq_of_not_alpha (by decide) hc
  have hnot : ∀ d : Char, d.toLower = d → d ∉ word → d ∉ name := by
    intro d hd hword hmem
    exact hword (hname ▸ List.mem_map.mpr ⟨d, hmem, hd⟩)
  refine ⟨name, rest, by simp, ?_, hnot _ (by decide) hnul, ?_⟩
  · rw [List.append_assoc]
    exact afterColon_append (hnot _ (by decide) hcolon) rest
  · rw [Text.asciiLower, hname]
    exact hnamed

/-- The criteria of a field, or of everything where nothing is searched for. -/
theorem fieldCriteria_key {key : String} {clean rest : Text} (h : afterColon clean = some rest) :
    fieldCriteria key clean = some (if (Text.strip Text.isSpace rest).isEmpty then SearchKey.all
      else .field key.toList (Text.strip Text.isSpace rest)).text := by
  rw [fieldCriteria, h]
  simp only [Option.bind_eq_bind, Option.bind_some, escaped_eq_quote, quote_isEmpty]
  split
  · rfl
  · rfl

theorem headerCriteria_text (term : Text) : headerCriteria (quote term) = (headerKey term).text := by
  unfold headerCriteria headerKey
  simp only [SearchKey.text, SearchKey.isChoice, if_true, Bool.false_eq_true, if_false]
  generalize quote term = e
  simp only [String.reduceToList, List.append_assoc, List.cons_append, List.nil_append]

theorem searchKeys_plain {term : Text} (h : Unbroken term) :
    ∀ key ∈ searchKeys term, key.Plain := by
  have hfield : ∀ name ∈ ["TEXT", "SUBJECT", "FROM", "TO", "CC"],
      (SearchKey.field name.toList term).Plain := by
    intro name hname
    refine ⟨?_, ?_, h⟩
    · revert name
      decide
    · simp only [List.mem_cons, List.not_mem_nil, or_false] at hname
      rcases hname with rfl | rfl | rfl | rfl | rfl
      all_goals exact List.forall_iff_forall_mem.mp (by decide)
  intro key hkey
  simp only [searchKeys, List.mem_cons, List.not_mem_nil, or_false] at hkey
  rcases hkey with rfl | rfl | rfl | rfl | rfl | rfl
  · exact trivial
  · exact hfield "TEXT" (by decide)
  · exact hfield "SUBJECT" (by decide)
  · exact hfield "FROM" (by decide)
  · exact hfield "TO" (by decide)
  · exact ⟨⟨⟨hfield "SUBJECT" (by decide), hfield "FROM" (by decide)⟩, hfield "TO" (by decide)⟩,
      hfield "CC" (by decide)⟩

/-- A search for something has of user text the term, and of other text no break and no
NUL. -/
theorem mem_searchKey {term : Text} {key : SearchKey} (hkey : key ∈ searchKeys term)
    {c : Char} (hc : c ∈ key.text) : c ∈ term ∨ c ∉ ['\r', '\n', '\x00'] := by
  have hletters : ∀ d ∈ "TEXTSUBJECTFROMTOCC".toList ++ syntaxChars,
      d ∉ ['\r', '\n', '\x00'] := List.forall_iff_forall_mem.mp (by decide)
  rcases mem_text hc with hcontent | hsyntax
  · simp only [searchKeys, List.mem_cons, List.not_mem_nil, or_false] at hkey
    have hin : c ∈ term ∨ c ∈ "TEXTSUBJECTFROMTOCC".toList := by
      rcases hkey with rfl | rfl | rfl | rfl | rfl | rfl <;>
        simp [SearchKey.contents, headerKey] at hcontent ⊢ <;> grind
    exact hin.imp_right fun hin => hletters c (List.mem_append_left _ hin)
  · exact .inr (hletters c (List.mem_append_right _ hsyntax))

theorem subset_searchKey {term : Text} {key : SearchKey} (hkey : key ∈ searchKeys term)
    (hsome : key ≠ .all) : term ⊆ key.text := by
  refine List.Subset.trans ?_ (subset_text key)
  simp only [searchKeys, List.mem_cons, List.not_mem_nil, or_false] at hkey
  rcases hkey with rfl | rfl | rfl | rfl | rfl | rfl
  · exact absurd rfl hsome
  all_goals exact fun c hc => by simp [SearchKey.contents, headerKey, hc]

/-- The criteria are the text of a key with the term of the user, and the key for
everything where the term is empty. -/
theorem buildImapSearchCriteria_key (search : Option Text) (search_scope : Text) :
    ∃ term key, buildImapSearchCriteria l search search_scope = some key.text ∧
      UserTerm (search.getD []) term ∧ key ∈ searchKeys term ∧ Unbroken term ∧
      ('\x00' ∈ term ↔ '\x00' ∈ search.getD []) ∧ (key = .all → term = []) := by
  cases search with
  | none => exact ⟨[], .all, rfl, .whole, by simp [searchKeys], by decide, by simp, fun _ => rfl⟩
  | some search =>
    by_cases hempty : search = []
    · subst hempty
      exact ⟨[], .all, rfl, .whole, by simp [searchKeys], by decide, by simp, fun _ => rfl⟩
    have hunbroken : Unbroken (Text.strip Text.isSpace (subBreaks search)) :=
      unbroken_strip (unbroken_subBreaks search)
    have hnul := nul_mem_clean search
    have hwhole : UserTerm search (Text.strip Text.isSpace (subBreaks search)) := .whole
    have hfield := @UserTerm.field search
    simp only [buildImapSearchCriteria, List.isEmpty_iff, hempty, if_false, Option.getD_some]
    generalize Text.strip Text.isSpace (subBreaks search) = clean at hunbroken hnul hwhole hfield ⊢
    by_cases hclean : clean = []
    · subst hclean
      exact ⟨[], .all, rfl, hwhole, by simp [searchKeys], hunbroken, hnul, fun _ => rfl⟩
    rw [if_neg hclean]
    cases hfind : searchFields.find? fun f => f.1.toList.isPrefixOf (l.lower clean) with
    | some f =>
      have hmem := List.mem_of_find?_eq_some hfind
      obtain ⟨name, rest, rfl, hafter, hname, hnamed⟩ :=
        clean_of_field l hmem (by simpa using List.find?_some hfind)
      obtain ⟨-, -, -, -, -, -, hkey⟩ := field_name hmem
      have hrest : '\x00' ∈ Text.strip Text.isSpace rest ↔ '\x00' ∈ search := by
        rw [Text.mem_strip (by decide), ← hnul]
        simp [hname]
      have hbroken : Unbroken rest := (unbroken_cons.mp (unbroken_append.mp hunbroken).2).2
      refine ⟨Text.strip Text.isSpace rest, _, fieldCriteria_key hafter, hfield name rest rfl hnamed,
        ?_, unbroken_strip hbroken, hrest, ?_⟩
      · split
        · exact List.mem_cons_self
        · simp only [List.mem_cons, List.not_mem_nil, or_false] at hkey
          rcases hkey with hkey | hkey | hkey | hkey <;> simp [searchKeys, hkey]
      · intro hall
        split at hall
        · rename_i hterm
          exact List.isEmpty_iff.mp hterm
        · cases hall
    | none =>
      by_cases hscope : l.lower search_scope ∈ ["all".toList, "body".toList, "text".toList]
      · refine ⟨clean, .field "TEXT".toList clean, ?_, hwhole, by simp [searchKeys], hunbroken, hnul,
          fun hall => by cases hall⟩
        simp only [hscope, if_true, escaped_eq_quote]
        rfl
      · refine ⟨clean, headerKey clean, ?_, hwhole, by simp [searchKeys], hunbroken, hnul,
          fun hall => by cases hall⟩
        simp only [hscope, if_false, escaped_eq_quote, headerCriteria_text]

/-- Where the search contains no NUL, and there only, the criteria are one line without
one that is read back as a key with the term of the user. -/
theorem buildImapSearchCriteria_safe_iff (search : Option Text) (search_scope : Text) :
    (∃ criteria, buildImapSearchCriteria l search search_scope = some criteria ∧
      Unbroken criteria ∧ '\x00' ∉ criteria ∧ ReadsBack (search.getD []) criteria) ↔
      '\x00' ∉ search.getD [] := by
  obtain ⟨term, key, hbuild, hterm, hkey, hunbroken, hnul, hall⟩ :=
    buildImapSearchCriteria_key l search search_scope
  rw [hbuild]
  constructor
  · rintro ⟨criteria, heq, -, hno, -⟩ hsearch
    obtain rfl := Option.some.inj heq
    have hin := hnul.mpr hsearch
    by_cases heverything : key = .all
    · rw [hall heverything] at hin
      cases hin
    · exact hno (subset_searchKey hkey heverything hin)
  · intro hno
    have hapart : ∀ c ∈ ['\r', '\n', '\x00'], c ∉ term → c ∉ key.text := by
      intro c hc hterm hmem
      exact (mem_searchKey hkey hmem).elim hterm fun hother => hother hc
    refine ⟨key.text, rfl, ⟨hapart _ (by decide) hunbroken.1, hapart _ (by decide) hunbroken.2⟩,
      hapart _ (by decide) fun hin => hno (hnul.mp hin), term, key, hterm, hkey, ?_⟩
    exact lex_text (searchKeys_plain hunbroken key hkey)

theorem nul_search_not_safe :
    ¬ ∀ search search_scope, ∃ criteria,
      buildImapSearchCriteria .asciiOnly search search_scope = some criteria ∧
        Unbroken criteria ∧ '\x00' ∉ criteria ∧ ReadsBack (search.getD []) criteria := by
  intro h
  obtain ⟨criteria, hbuild, -, hno, -⟩ := h (some ['a', '\x00', 'b']) "headers".toList
  have hvalue : buildImapSearchCriteria .asciiOnly (some ['a', '\x00', 'b']) "headers".toList =
      some (headerCriteria ['a', '\x00', 'b']) := by decide
  rw [hvalue] at hbuild
  rw [← Option.some.inj hbuild] at hno
  exact hno (by decide)

end MailCue.Backend.Emails
