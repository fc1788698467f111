import MailCue.Backend.Domains.SpfRecommended
import MailCue.Lib.Spf

/-!
# What a matching record authorizes

`_record_matches` for SPF against the evaluation of RFC 7208: a published record that is
accepted lets every sender pass that a required mechanism of the expected one names, and
is as strict, where it follows the grammar. `_validate_spf_record` lets records through
that do not, and these let nobody pass.
-/
namespace MailCue.Backend.Domains
open MailCue.Lib

/-! ## The property -/

def WellFormed (text : Text) : Prop := ∃ terms, Spf.readRecord text = some terms

/-- Terms that are one in lower case are one to a receiver, who minds how the letter of a
macro is spelt. -/
def SameMacros (expected current : Text) : Prop :=
  ∀ t ∈ words expected, ∀ t' ∈ words current,
    (Text.asciiLower t = Text.asciiLower t' → Spf.foldCase t = Spf.foldCase t') ∧
    ∀ m, simpleMechanism (Text.asciiLower t) = some m →
      simpleMechanism (Text.asciiLower t') = some m →
      simpleMechanism (Spf.foldCase t) = simpleMechanism (Spf.foldCase t')

/-- A receiver reads the mechanism off a term of the record that has to be matched. -/
def Requires (expected : Text) (parts : List Text × Text) (mechanism : Spf.Mechanism) : Prop :=
  ∃ t ∈ words expected, ∃ m ∈ requiredMechanisms parts,
    simpleMechanism (Text.asciiLower t) = some m ∧
      Spf.readTerm (Spf.foldCase t) = some (.directive .pass mechanism)

section
variable (py : Python)

/-- The sender is one that the expected record asks for: by a required mechanism of a
simple record, by the whole of another one. -/
def Authorizes (w : Spf.World) (expected : Text) : Prop :=
  match simpleSpfParts (normalizeSpf py expected) with
  | some parts => ∃ mechanism, Requires expected parts mechanism ∧ w.answer mechanism = .matched
  | none => Spf.checkHost w expected = .pass

/-- Whoever the expected record asks for passes the current one, whose policy is the same
or stricter. -/
def Sound (expected current : Text) : Prop :=
  (∀ w : Spf.World, w.Answered → Authorizes py w expected → Spf.checkHost w current = .pass) ∧
    ∀ p, Spf.policy expected = some p → ∃ p', Spf.policy current = some p' ∧ p'.AtLeast p

/-- The expected record asks for something that a receiver can read. -/
def Asks (expected : Text) : Prop :=
  WellFormed expected ∨ ∃ parts, simpleSpfParts (normalizeSpf py expected) = some parts ∧
    ∃ mechanism, Requires expected parts mechanism

end

/-! ## Words of a well-formed record -/

/-- What a record is written with. -/
def isRecordChar (c : Char) : Bool := c == ' ' || Spf.isVisible c

theorem recordChar {c : Char} (h : isRecordChar c = true) :
    Text.ascii c = true ∧ Text.isSpace c = (c == ' ') ∧ Text.isSpace c.toLower = (c == ' ') := by
  have hrange : c.toNat < 128 := by
    simp only [isRecordChar, Spf.isVisible, Bool.or_eq_true, beq_iff_eq, Bool.and_eq_true,
      decide_eq_true_eq] at h
    rcases h with rfl | h
    · decide
    · have hle : c.toNat ≤ 126 := h.2
      omega
  have hall : ∀ n < 128, isRecordChar (Char.ofNat n) = true → Text.ascii (Char.ofNat n) = true ∧
      Text.isSpace (Char.ofNat n) = (Char.ofNat n == ' ') ∧
      Text.isSpace (Char.ofNat n).toLower = (Char.ofNat n == ' ') := by decide +kernel
  have hone := hall c.toNat hrange
  rw [Char.ofNat_toNat] at hone
  exact hone h

/-- The blanks of a record are its only spaces. -/
theorem words_eq_spWords {text : Text} (h : ∀ c ∈ text, isRecordChar c = true) :
    words text = Spf.spWords text := by
  have hsame : text.splitOnP Text.isSpace = text.splitOnP (· == ' ') := by
    have hmap := @Text.splitOnP_map Text.isSpace (· == ' ') id text
      fun c hc => (recordChar (h c hc)).2.1
    simpa using hmap
  rw [words, hsame]
  rfl

theorem words_asciiLower {text : Text} (h : ∀ c ∈ text, isRecordChar c = true) :
    words (Text.asciiLower text) = (Spf.spWords text).map Text.asciiLower := by
  have hsplit : (text.map Char.toLower).splitOnP Text.isSpace =
      (text.splitOnP (· == ' ')).map (·.map Char.toLower) :=
    Text.splitOnP_map fun c hc => (recordChar (h c hc)).2.2
  have hempty : (fun word : Text => !word.isEmpty) ∘ (·.map Char.toLower) =
      fun word : Text => !word.isEmpty := by
    funext word
    simp
  unfold words Text.asciiLower Spf.spWords
  rw [hsplit, List.filter_map, hempty]
  rfl

theorem spWords_of_hasVersion {text : Text} (h : Spf.hasVersion text = true) :
    Spf.spWords text = text.take 6 :: Spf.spWords (text.drop 6) := by
  simp only [Spf.hasVersion, Bool.and_eq_true, decide_eq_true_eq] at h
  obtain ⟨hversion, hnext⟩ := h
  have hword : ∀ c ∈ text.take 6, (c == ' ') = false := by
    intro c hc
    have hmem : c.toLower ∈ "v=spf1".toList := hversion ▸ List.mem_map_of_mem hc
    by_contra hspace
    obtain rfl : c = ' ' := by simpa using hspace
    exact absurd hmem (by decide)
  have hne : text.take 6 ≠ [] := by
    intro hnil
    rw [hnil] at hversion
    exact absurd hversion (by decide)
  have hjoin : text = text.take 6 ++ text.drop 6 := (List.take_append_drop 6 text).symm
  cases hdrop : text.drop 6 with
  | nil =>
    rw [hdrop, List.append_nil] at hjoin
    rw [← hjoin] at hword hne ⊢
    have hone : text.splitOn ' ' = [text] := List.splitOnP_eq_singleton (by simpa using hword)
    rw [Spf.spWords, hone]
    simp [Spf.spWords, hne]
  | cons c rest =>
    rw [hdrop] at hnext hjoin
    obtain rfl : c = ' ' := by simpa using hnext
    have hsplit : text.splitOn ' ' = text.take 6 :: rest.splitOn ' ' := by
      conv_lhs => rw [hjoin]
      exact List.splitOnP_append_cons_of_forall_mem hword ' ' rfl rest
    have hrest : Spf.spWords (' ' :: rest) = Spf.spWords rest := by
      have hcons : (' ' :: rest).splitOn ' ' = [] :: rest.splitOn ' ' := by
        simp [List.splitOn, List.splitOnP_cons_eq_if_modifyHead]
      simp [Spf.spWords, hcons]
    rw [hrest, Spf.spWords, hsplit, List.filter_cons_of_pos (by simpa using hne)]
    rfl

theorem of_readRecord {text : Text} {terms : List Spf.Term} (h : Spf.readRecord text = some terms) :
    Spf.hasVersion text = true ∧ (∀ c ∈ text, isRecordChar c = true) ∧
      (Spf.spWords (text.drop 6)).mapM (fun term => Spf.readTerm (Spf.foldCase term)) =
        some terms := by
  unfold Spf.readRecord at h
  split at h
  · cases h
  · rename_i hok
    simp only [Bool.or_eq_true, Bool.not_eq_true', not_or, Bool.not_eq_false] at hok
    obtain ⟨found, hread, hrest⟩ := Option.bind_eq_some_iff.mp h
    split at hrest
    · cases hrest
    · obtain rfl : found = terms := by simpa using hrest
      exact ⟨hok.1, List.all_eq_true.mp hok.2, hread⟩

/-- What the matcher reads of a well-formed record is what a receiver reads, in lower
case. -/
theorem words_of_readRecord (py : Python) {text : Text} {terms : List Spf.Term}
    (h : Spf.readRecord text = some terms) :
    words (normalizeSpf py text) =
      "v=spf1".toList :: (Spf.spWords (text.drop 6)).map Text.asciiLower := by
  obtain ⟨hversion, hchars, -⟩ := of_readRecord h
  have hascii : ∀ c ∈ text, Text.ascii c = true := fun c hc => (recordChar (hchars c hc)).1
  have hlower : Text.asciiLower (text.take 6) = "v=spf1".toList := by
    simp only [Spf.hasVersion, Bool.and_eq_true, decide_eq_true_eq] at hversion
    exact hversion.1
  rw [words_normalizeSpf, py.ascii_lower text hascii, words_asciiLower hchars,
    spWords_of_hasVersion hversion, List.map_cons, hlower]

/-- A receiver's words are words. -/
theorem mem_words_of_spWords {text term : Text} {terms : List Spf.Term}
    (h : Spf.readRecord text = some terms) (hterm : term ∈ Spf.spWords (text.drop 6)) :
    term ∈ words text := by
  obtain ⟨hversion, hchars, -⟩ := of_readRecord h
  rw [words_eq_spWords hchars, spWords_of_hasVersion hversion]
  exact List.mem_cons_of_mem _ hterm

/-! ## Simple terms -/

/-- A mechanism of hosts, with a domain or without. -/
def hostToken (name : String) (value : Option Text) : Text :=
  name.toList ++ value.elim [] (':' :: ·)

theorem of_simpleMechanism {token m : Text} (h : simpleMechanism token = some m) :
    ∃ (name : String) (value : Option Text) (sign : Text), (name = "a" ∨ name = "mx") ∧
      (sign = [] ∨ sign = ['+']) ∧ token = sign ++ hostToken name value ∧
      m = (hostToken name value).rdropWhile (· == '.') := by
  have hsign : ∃ sign, (sign = [] ∨ sign = ['+']) ∧
      token = sign ++ if token.head? = some '+' then token.tail else token := by
    by_cases hplus : token.head? = some '+'
    · obtain ⟨rest, rfl⟩ := List.head?_eq_some_iff.mp hplus
      exact ⟨['+'], .inr rfl, rfl⟩
    · exact ⟨[], .inl rfl, by simp [hplus]⟩
  obtain ⟨sign, hsign, htoken⟩ := hsign
  unfold simpleMechanism at h
  generalize (if token.head? = some '+' then token.tail else token) = normalized at h htoken
  dsimp only at h
  split at h
  · rename_i hshape
    obtain rfl := Option.some.inj h
    have hbody : ∃ (name : String) (value : Option Text), (name = "a" ∨ name = "mx") ∧
        normalized = hostToken name value := by
      rcases hshape with rfl | rfl | hmx | ha
      · exact ⟨"mx", none, .inr rfl, rfl⟩
      · exact ⟨"a", none, .inl rfl, rfl⟩
      · obtain ⟨value, rfl⟩ := List.isPrefixOf_iff_prefix.mp hmx
        exact ⟨"mx", some value, .inr rfl, rfl⟩
      · obtain ⟨value, rfl⟩ := List.isPrefixOf_iff_prefix.mp ha
        exact ⟨"a", some value, .inl rfl, rfl⟩
    obtain ⟨name, value, hname, rfl⟩ := hbody
    exact ⟨name, value, sign, hname, hsign, htoken, rfl⟩
  · cases h

theorem simpleMechanism_hostToken {name : String} (hname : name = "a" ∨ name = "mx")
    {sign : Text} (hsign : sign = [] ∨ sign = ['+']) (value : Option Text) :
    simpleMechanism (sign ++ hostToken name value) =
      some ((hostToken name value).rdropWhile (· == '.')) := by
  have hshape : hostToken name value = "mx".toList ∨ hostToken name value = "a".toList ∨
      "mx:".toList.isPrefixOf (hostToken name value) = true ∨
      "a:".toList.isPrefixOf (hostToken name value) = true := by
    rcases hname with rfl | rfl
    · cases value with
      | none => exact .inr (.inl rfl)
      | some value => exact .inr (.inr (.inr rfl))
    · cases value with
      | none => exact .inl rfl
      | some value => exact .inr (.inr (.inl rfl))
  have hhead : (hostToken name value).head? ≠ some '+' := by
    rcases hname with rfl | rfl
    · exact fun h => absurd (Option.some.inj h) (by decide)
    · exact fun h => absurd (Option.some.inj h) (by decide)
  rcases hsign with rfl | rfl
  · simp only [simpleMechanism, List.nil_append, if_neg hhead, if_pos hshape]
  · have hunsigned : (['+'] ++ hostToken name value).head? = some '+' := rfl
    have htail : (['+'] ++ hostToken name value).tail = hostToken name value := rfl
    simp only [simpleMechanism, if_pos hunsigned, htail, if_pos hshape]

/-- A simple term is one to a receiver. -/
theorem simpleMechanism_foldCase {term m : Text}
    (h : simpleMechanism (Text.asciiLower term) = some m) :
    ∃ m', simpleMechanism (Spf.foldCase term) = some m' := by
  obtain ⟨name, value, sign, hname, hsign, hterm, -⟩ := of_simpleMechanism h
  have hfront : '%' ∉ sign ++ hostToken name none ∧ '%' ∉ sign ++ hostToken name (some []) := by
    rcases hname with rfl | rfl
    · rcases hsign with rfl | rfl
      · decide
      · decide
    · rcases hsign with rfl | rfl
      · decide
      · decide
  cases value with
  | none =>
    obtain ⟨back, hfold, hback⟩ := Spf.foldCase_of_prefix hfront.1 (by rw [hterm, List.append_nil])
    obtain rfl : back = [] := List.map_eq_nil_iff.mp hback
    rw [hfold, Spf.foldCase, List.append_nil]
    exact ⟨_, simpleMechanism_hostToken hname hsign none⟩
  | some value =>
    obtain ⟨back, hfold, -⟩ := @Spf.foldCase_of_prefix (sign ++ hostToken name (some [])) term value
      hfront.2 (by rw [hterm]; simp [hostToken])
    have hjoin : sign ++ hostToken name (some []) ++ Spf.foldCase back =
        sign ++ hostToken name (some (Spf.foldCase back)) := by simp [hostToken]
    rw [hfold, hjoin]
    exact ⟨_, simpleMechanism_hostToken hname hsign _⟩

/-- A receiver who reads a simple term lets the hosts pass that its mechanism names, with
or without dots at its end. -/
theorem readTerm_simple {token m : Text} {term : Spf.Term} (h : simpleMechanism token = some m)
    (hread : Spf.readTerm token = some term) :
    ∃ mechanism, term = .directive .pass mechanism ∧ Spf.readMechanism m = some mechanism ∧
      mechanism.isAll = false := by
  obtain ⟨name, value, sign, hname, hsign, rfl, rfl⟩ := of_simpleMechanism h
  have hdirective : Spf.readTerm (sign ++ hostToken name value) =
      Spf.Term.directive .pass <$> Spf.readMechanism (hostToken name value) := by
    rcases hname with rfl | rfl
    · rcases hsign with rfl | rfl
      · cases value with
        | none => rfl
        | some value => rfl
      · rfl
    · rcases hsign with rfl | rfl
      · cases value with
        | none => rfl
        | some value => rfl
      · rfl
  rw [hdirective] at hread
  obtain ⟨mechanism, hmechanism, rfl⟩ := Option.map_eq_some_iff.mp hread
  refine ⟨mechanism, rfl, ?_⟩
  cases value with
  | none =>
    rcases hname with rfl | rfl
    · obtain rfl := Option.some.inj hmechanism
      exact ⟨by decide, by decide⟩
    · obtain rfl := Option.some.inj hmechanism
      exact ⟨by decide, by decide⟩
  | some value =>
    refine ⟨Spf.readMechanism_rdropWhile hname hmechanism, ?_⟩
    have hhost := hmechanism
    change Spf.readMechanism (name.toList ++ ':' :: value) = _ at hhost
    rw [Spf.readMechanism_host hname] at hhost
    split at hhost
    · obtain rfl := Option.some.inj hhost
      rcases hname with rfl | rfl
      · rfl
      · rfl
    · cases hhost

/-! ## Simple records -/

theorem of_simpleSpfParts {value terminal : Text} {mechanisms : List Text}
    (h : simpleSpfParts value = some (mechanisms, terminal)) :
    ∃ tokens, words value = "v=spf1".toList :: (tokens ++ [terminal]) ∧
      (terminal = "-all".toList ∨ terminal = "~all".toList) ∧
      tokens.mapM simpleMechanism = some mechanisms := by
  unfold simpleSpfParts at h
  split at h
  · rename_i version first rest hwords
    dsimp only at h
    split at h
    · cases h
    · rename_i hok
      simp only [not_or, not_and, ne_eq, Decidable.not_not] at hok
      obtain ⟨found, hfound, hpair⟩ := Option.bind_eq_some_iff.mp h
      obtain ⟨rfl, rfl⟩ := Prod.mk.inj (Option.some.inj hpair)
      have hlast : (first :: rest).getLast (List.cons_ne_nil _ _) = rest.getLastD first :=
        List.getLast_eq_getLastD _
      have hjoin := List.dropLast_append_getLast (List.cons_ne_nil first rest)
      rw [hlast] at hjoin
      refine ⟨(first :: rest).dropLast, by rw [hwords, hjoin, hok.1], ?_, hfound⟩
      by_cases hhard : rest.getLastD first = "-all".toList
      · exact .inl hhard
      · exact .inr (hok.2 hhard)
  · cases h

/-- The mechanism that matches everybody. -/
def allMechanism : Spf.Mechanism := ⟨"all".toList, none, []⟩

theorem readTerm_terminal {term : Text} {read : Spf.Term} {q : Spf.Qualifier}
    (h : Text.asciiLower term = "-all".toList ∧ q = .fail ∨
      Text.asciiLower term = "~all".toList ∧ q = .softfail)
    (hread : Spf.readTerm (Spf.foldCase term) = some read) : read = .directive q allMechanism := by
  have hfold : ∀ text : Text, '%' ∉ text → Text.asciiLower term = text →
      Spf.foldCase term = text := by
    intro text hplain hlower
    obtain ⟨back, hback, hnil⟩ := Spf.foldCase_of_prefix hplain
      (hlower.trans (List.append_nil text).symm)
    obtain rfl : back = [] := List.map_eq_nil_iff.mp hnil
    rw [hback, Spf.foldCase, List.append_nil]
  rcases h with ⟨hhard, rfl⟩ | ⟨hsoft, rfl⟩
  · rw [hfold _ (by decide) hhard] at hread
    exact (Option.some.inj hread).symm
  · rw [hfold _ (by decide) hsoft] at hread
    exact (Option.some.inj hread).symm

/-- What a receiver makes of a simple record: mechanisms that let hosts pass, one for each
term, and at the end the one that matches everybody. -/
theorem directives_of_simple {py : Python} {text terminal : Text} {terms : List Spf.Term}
    {mechanisms : List Text} (hread : Spf.readRecord text = some terms)
    (hsimple : simpleSpfParts (normalizeSpf py text) = some (mechanisms, terminal)) :
    ∃ ds q, Spf.directives terms = ds ++ [(q, allMechanism)] ∧
      (∀ d ∈ ds, d.1 = .pass ∧ d.2.isAll = false) ∧ ds.length ≤ mechanisms.length ∧
      (terminal = "-all".toList ∧ q = .fail ∨ terminal = "~all".toList ∧ q = .softfail) ∧
      ∀ m ∈ mechanisms, ∃ t ∈ words text, simpleMechanism (Text.asciiLower t) = some m ∧
        ∃ d ∈ ds, Spf.readTerm (Spf.foldCase t) = some (.directive d.1 d.2) := by
  obtain ⟨tokens, hwords, hterminal, htokens⟩ := of_simpleSpfParts hsimple
  rw [words_of_readRecord py hread] at hwords
  obtain ⟨raw, lasts, hraw, rfl, hlasts⟩ := List.map_eq_append_iff.mp (List.cons.inj hwords).2
  obtain ⟨last, rfl, hlast⟩ := List.map_eq_singleton_iff.mp hlasts
  obtain ⟨-, -, hterms⟩ := of_readRecord hread
  rw [hraw, List.mapM_append] at hterms
  obtain ⟨front, hfront, hterms⟩ := Option.bind_eq_some_iff.mp hterms
  obtain ⟨back, hback, hterms⟩ := Option.bind_eq_some_iff.mp hterms
  obtain rfl : front ++ back = terms := Option.some.inj hterms
  obtain ⟨hlength, hsome, hfound⟩ := Text.of_mapM hfront
  obtain ⟨hcount, htokenSome, htokenFound⟩ := Text.of_mapM htokens
  -- every term but the last lets the hosts of its mechanism pass
  have hpass : ∀ term ∈ front, ∃ mechanism, term = .directive .pass mechanism ∧
      mechanism.isAll = false := by
    intro term hterm
    obtain ⟨t, ht, hreadTerm⟩ := hfound term hterm
    obtain ⟨m, -, hm⟩ := htokenSome _ (List.mem_map_of_mem ht)
    obtain ⟨m', hm'⟩ := simpleMechanism_foldCase hm
    obtain ⟨mechanism, hdirective, -, hall⟩ := readTerm_simple hm' hreadTerm
    exact ⟨mechanism, hdirective, hall⟩
  obtain ⟨q, hq⟩ : ∃ q : Spf.Qualifier, terminal = "-all".toList ∧ q = .fail ∨
      terminal = "~all".toList ∧ q = .softfail := by
    rcases hterminal with hhard | hsoft
    · exact ⟨.fail, .inl ⟨hhard, rfl⟩⟩
    · exact ⟨.softfail, .inr ⟨hsoft, rfl⟩⟩
  obtain rfl : back = [.directive q allMechanism] := by
    have hone : (Spf.readTerm (Spf.foldCase last)).bind (fun term => some [term]) = some back := by
      simpa [List.mapM_cons] using hback
    obtain ⟨term, hterm, hback⟩ := Option.bind_eq_some_iff.mp hone
    rw [← Option.some.inj hback, readTerm_terminal (hlast ▸ hq) hterm]
  refine ⟨Spf.directives front, q, ?_, ?_, ?_, hq, ?_⟩
  · simp [Spf.directives]
  · intro d hd
    obtain ⟨term, hterm, hd⟩ := List.mem_filterMap.mp hd
    obtain ⟨mechanism, rfl, hall⟩ := hpass term hterm
    obtain rfl := Option.some.inj hd
    exact ⟨rfl, hall⟩
  · have hle : (Spf.directives front).length ≤ front.length := List.length_filterMap_le _ _
    rw [hcount, List.length_map, ← hlength]
    exact hle
  · intro m hm
    obtain ⟨token, htoken, hm⟩ := htokenFound m hm
    obtain ⟨t, ht, rfl⟩ := List.mem_map.mp htoken
    have hword : t ∈ words text :=
      mem_words_of_spWords hread (hraw ▸ List.mem_append_left _ ht)
    obtain ⟨term, hterm, hreadTerm⟩ := hsome t ht
    obtain ⟨mechanism, rfl, -⟩ := hpass term hterm
    exact ⟨t, hword, hm, (.pass, mechanism), List.mem_filterMap.mpr ⟨_, hterm, rfl⟩, hreadTerm⟩

/-! ## Lookups -/

section
variable {name : String} (hname : name = "a" ∨ name = "mx")
include hname

theorem withoutQualifier_hostToken {sign : Text} (hsign : sign = [] ∨ sign = ['+'])
    {value : Option Text} :
    withoutQualifier (sign ++ hostToken name value) = hostToken name value := by
  rcases hname with rfl | rfl
  · rcases hsign with rfl | rfl
    · rfl
    · rfl
  · rcases hsign with rfl | rfl
    · rfl
    · rfl

theorem mechanismText_hostToken {value : Option Text} :
    mechanismText (hostToken name value) = name.toList := by
  rcases hname with rfl | rfl
  · cases value with
    | none => rfl
    | some value => rfl
  · cases value with
    | none => rfl
    | some value => rfl

theorem lower_hostName {py : Python} : py.lower name.toList = name.toList := by
  rcases hname with rfl | rfl
  · exact py.ascii_lower _ (List.all_eq_true.mp (by decide))
  · exact py.ascii_lower _ (List.all_eq_true.mp (by decide))

theorem hostName_mem : name ∈ spfDnsMechanisms := by
  rcases hname with rfl | rfl
  · decide
  · decide

/-- An equals sign makes no modifier of it: the colon belongs to no name. -/
theorem not_isModifierName_hostToken {value : Option Text}
    (hequals : '=' ∈ hostToken name value) :
    isModifierName ((hostToken name value).takeWhile (· != '=')) = false := by
  rcases hname with rfl | rfl
  · cases value with
    | none => exact absurd hequals (by decide)
    | some value => rfl
  · cases value with
    | none => exact absurd hequals (by decide)
    | some value => rfl

end

/-- One turn of the check counts a simple term. -/
theorem checkTerm_simple {py : Python} {state next : SpfState} {token m : Text}
    (hsimple : simpleMechanism token = some m) (h : checkTerm py state token = .ok next) :
    next.lookup_terms = state.lookup_terms + 1 := by
  obtain ⟨name, value, sign, hname, hsign, rfl, -⟩ := of_simpleMechanism hsimple
  have hnonempty : (hostToken name value).isEmpty = false := by
    rcases hname with rfl | rfl
    · rfl
    · rfl
  simp only [checkTerm, withoutQualifier_hostToken hname hsign, hnonempty, Bool.false_eq_true,
    if_false, mechanismText_hostToken hname, lower_hostName hname, String.ofList_toList,
    if_pos (hostName_mem hname)] at h
  split at h
  · rename_i hequals
    have hmodifier := not_isModifierName_hostToken hname hequals
    unfold checkModifier at h
    split at h
    · cases h
    · simp only [hmodifier, Bool.not_false, Bool.true_or, if_true] at h
      cases h
  · cases hcheck : checkMechanism py name (sign ++ hostToken name value) (hostToken name value) with
    | error reason =>
      rw [hcheck] at h
      cases h
    | ok _ =>
      rw [hcheck] at h
      obtain rfl := Except.ok.inj h
      rfl

theorem foldlM_checkTerm_simple {py : Python} {tokens mechanisms : List Text} {state next : SpfState}
    (hsimple : tokens.mapM simpleMechanism = some mechanisms)
    (h : tokens.foldlM (checkTerm py) state = .ok next) :
    next.lookup_terms = state.lookup_terms + tokens.length := by
  have hsome := (Text.of_mapM hsimple).2.1
  clear hsimple
  induction tokens generalizing state with
  | nil =>
    obtain rfl := Except.ok.inj h
    rfl
  | cons token tokens ih =>
    obtain ⟨⟨m, -, hm⟩, hrest⟩ := List.forall_mem_cons.mp hsome
    rw [List.foldlM_cons] at h
    cases hstep : checkTerm py state token with
    | error reason =>
      rw [hstep] at h
      cases h
    | ok after =>
      rw [hstep] at h
      rw [ih h hrest, checkTerm_simple hm hstep, List.length_cons]
      omega

/-- A simple record that passes the check has ten mechanisms at most. -/
theorem length_le_of_valid {py : Python} {value terminal : Text} {mechanisms : List Text}
    (hsimple : simpleSpfParts value = some (mechanisms, terminal))
    (hvalid : (validateSpfRecord py value).isOk = true) : mechanisms.length ≤ 10 := by
  obtain ⟨tokens, hwords, hterminal, htokens⟩ := of_simpleSpfParts hsimple
  have hversion : py.lower "v=spf1".toList = "v=spf1".toList :=
    py.ascii_lower _ (List.all_eq_true.mp (by decide))
  rw [(Text.of_mapM htokens).1]
  unfold validateSpfRecord at hvalid
  rw [hwords] at hvalid
  simp only [hversion, ne_eq, not_true_eq_false, if_false, List.isEmpty_iff, List.append_eq_nil_iff,
    List.cons_ne_self, and_false, List.foldlM_append] at hvalid
  cases hfold : tokens.foldlM (checkTerm py) ⟨0, []⟩ with
  | error reason =>
    rw [hfold] at hvalid
    cases hvalid
  | ok state =>
    have hcount := foldlM_checkTerm_simple htokens hfold
    have hlast : [terminal].foldlM (checkTerm py) state =
        .ok { state with lookup_terms := state.lookup_terms + 0 } := by
      rw [List.foldlM_cons, counts_all hterminal state]
      rfl
    rw [hfold] at hvalid
    change (do let state ← [terminal].foldlM (checkTerm py) state; _).isOk = true at hvalid
    rw [hlast] at hvalid
    by_contra hmany
    have hover : 10 < state.lookup_terms + 0 := by
      simp only [hcount]
      omega
    change Except.isOk (if 10 < state.lookup_terms + 0 then _ else _) = true at hvalid
    rw [if_pos hover] at hvalid
    cases hvalid

/-! ## Soundness -/

/-- What an accepted record is: the same as the expected one, or a simple one that has
what is required and a policy that is as strict. -/
theorem of_spfMatches {py : Python} {expected current : Text}
    (h : spfMatches py expected current = true) :
    (validateSpfRecord py (normalizeSpf py current)).isOk = true ∧
      ((∃ e c, simpleSpfParts (normalizeSpf py expected) = some e ∧
          simpleSpfParts (normalizeSpf py current) = some c ∧
          (∀ m ∈ requiredMechanisms e, m ∈ c.1) ∧ terminalIsCompatible e.2 c.2 = true) ∨
        simpleSpfParts (normalizeSpf py expected) = none ∧
          normalizeSpf py expected = normalizeSpf py current) := by
  unfold spfMatches at h
  dsimp only at h
  split at h
  · cases h
  · rename_i hok
    simp only [Bool.or_eq_true, Bool.not_eq_true', not_or, Bool.not_eq_false] at hok
    refine ⟨hok.2, ?_⟩
    split at h
    · rename_i e c he hc
      simp only [Bool.and_eq_true, List.all_eq_true, List.contains_iff_mem] at h
      exact .inl ⟨e, c, he, hc, h.1, h.2⟩
    · rename_i hnot
      have hsame : normalizeSpf py expected = normalizeSpf py current := beq_iff_eq.mp h
      refine .inr ⟨?_, hsame⟩
      cases hparts : simpleSpfParts (normalizeSpf py expected) with
      | none => rfl
      | some e => exact absurd (hsame ▸ hparts) (hnot e e hparts)

theorem pass_of_simple {py : Python} {expected current : Text} {terms : List Spf.Term}
    {e c : List Text × Text} (hread : Spf.readRecord current = some terms)
    (hc : simpleSpfParts (normalizeSpf py current) = some c) (hfew : c.1.length ≤ 10)
    (hrequired : ∀ m ∈ requiredMechanisms e, m ∈ c.1) (hsame : SameMacros expected current)
    {w : Spf.World} (hw : w.Answered) {mechanism : Spf.Mechanism}
    (hasked : Requires expected e mechanism) (hmatch : w.answer mechanism = .matched) :
    Spf.checkHost w current = .pass := by
  obtain ⟨t, ht, m, hm, hsimple, hdirective⟩ := hasked
  obtain ⟨ds, q, hds, hall, hlength, -, hfound⟩ := directives_of_simple hread hc
  obtain ⟨t', ht', hsimple', d, hd, hdirective'⟩ := hfound m (hrequired m hm)
  -- the receiver reads the same mechanism off both terms
  obtain ⟨m', hm'⟩ := simpleMechanism_foldCase hsimple
  have hm'' : simpleMechanism (Spf.foldCase t') = some m' :=
    ((hsame t ht t' ht').2 m hsimple hsimple').symm.trans hm'
  obtain ⟨found, hterm, hmechanism, -⟩ := readTerm_simple hm' hdirective
  obtain ⟨found', hterm', hmechanism', -⟩ := readTerm_simple hm'' hdirective'
  obtain rfl : mechanism = found := by cases hterm; rfl
  have hd2 : d.2 = mechanism := by
    obtain ⟨-, rfl⟩ := Spf.Term.directive.inj hterm'
    exact Option.some.inj (hmechanism'.symm.trans hmechanism)
  rw [Spf.checkHost, (of_readRecord hread).1, hread]
  change Spf.evaluateFrom w _ 10 (Spf.directives terms) = .pass
  rw [hds]
  exact Spf.evaluateFrom_pass hw (fun d hd => (hall d hd).1) (hlength.trans hfew) hd
    (by rw [hd2]; exact hmatch)

theorem policy_of_simple {py : Python} {text : Text} {terms : List Spf.Term}
    {parts : List Text × Text} (hread : Spf.readRecord text = some terms)
    (hparts : simpleSpfParts (normalizeSpf py text) = some parts) :
    Spf.policy text = some (.result (if parts.2 = "-all".toList then .fail else .softfail)) := by
  obtain ⟨ds, q, hds, hall, -, hq, -⟩ := directives_of_simple hread hparts
  have hfind : (Spf.directives terms).find? (fun d => d.2.isAll) = some (q, allMechanism) := by
    have hnone : ds.find? (fun d => d.2.isAll) = none :=
      List.find?_eq_none.mpr fun d hd => by simp [(hall d hd).2]
    rw [hds, List.find?_append, hnone]
    rfl
  rw [Spf.policy, hread]
  change some (Spf.policyOf terms) = _
  rw [Spf.policyOf, hfind]
  rcases hq with ⟨hhard, rfl⟩ | ⟨hsoft, rfl⟩
  · rw [if_pos hhard]
    rfl
  · rw [if_neg (by rw [hsoft]; decide)]
    rfl

theorem map_eq_of_map_eq {α β γ : Type} {f : α → β} {g : α → γ} {items others : List α}
    (hfg : ∀ a ∈ items, ∀ b ∈ others, f a = f b → g a = g b)
    (h : items.map f = others.map f) : items.map g = others.map g := by
  induction items generalizing others with
  | nil =>
    obtain rfl : others = [] := List.map_eq_nil_iff.mp h.symm
    rfl
  | cons a items ih =>
    cases others with
    | nil => cases h
    | cons b others =>
      obtain ⟨hhead, htail⟩ := List.cons.inj h
      rw [List.map_cons, List.map_cons, hfg a List.mem_cons_self b List.mem_cons_self hhead,
        ih (fun a ha b hb => hfg a (List.mem_cons_of_mem _ ha) b (List.mem_cons_of_mem _ hb)) htail]

/-- The terms of a record are the same to a receiver where they are to the matcher. -/
theorem readTerms_congr {py : Python} {expected current : Text} {e c : List Spf.Term}
    (hexpected : Spf.readRecord expected = some e) (hcurrent : Spf.readRecord current = some c)
    (hsame : SameMacros expected current)
    (hnormal : normalizeSpf py expected = normalizeSpf py current) : e = c := by
  have hwords : (Spf.spWords (expected.drop 6)).map Text.asciiLower =
      (Spf.spWords (current.drop 6)).map Text.asciiLower := by
    have hboth := congrArg words hnormal
    rw [words_of_readRecord py hexpected, words_of_readRecord py hcurrent] at hboth
    exact (List.cons.inj hboth).2
  have hfolded : (Spf.spWords (expected.drop 6)).map Spf.foldCase =
      (Spf.spWords (current.drop 6)).map Spf.foldCase := by
    refine map_eq_of_map_eq (fun t ht t' ht' => ?_) hwords
    exact (hsame t (mem_words_of_spWords hexpected ht) t' (mem_words_of_spWords hcurrent ht')).1
  have hread : ∀ {text : Text} {terms : List Spf.Term}, Spf.readRecord text = some terms →
      ((Spf.spWords (text.drop 6)).map Spf.foldCase).mapM Spf.readTerm = some terms := by
    intro text terms h
    rw [List.mapM_map]
    exact (of_readRecord h).2.2
  exact Option.some.inj ((hread hexpected).symm.trans (hfolded ▸ hread hcurrent))

theorem atLeast_of_compatible {e c : Text} (h : terminalIsCompatible e c = true) :
    Spf.Policy.AtLeast (.result (if c = "-all".toList then .fail else .softfail))
      (.result (if e = "-all".toList then .fail else .softfail)) := by
  simp only [terminalIsCompatible, Bool.or_eq_true, beq_iff_eq, Bool.and_eq_true] at h
  rcases h with rfl | ⟨rfl, rfl⟩
  · exact .inl rfl
  · exact .inr ⟨.fail, .softfail, rfl, rfl, by decide⟩

/-- Records without macros have no letters to spell differently. -/
theorem sameMacros_of_plain {expected current : Text} (hexpected : '%' ∉ expected)
    (hcurrent : '%' ∉ current) : SameMacros expected current := by
  have hfold : ∀ {text t : Text}, '%' ∉ text → t ∈ words text →
      Spf.foldCase t = Text.asciiLower t := by
    intro text t hplain ht
    refine Spf.foldCase_of_plain fun hmem => hplain ?_
    exact (Text.of_mem_splitOnP (List.mem_filter.mp ht).1 _ hmem).2
  intro t ht t' ht'
  rw [hfold hexpected ht, hfold hcurrent ht']
  exact ⟨id, fun m hm hm' => hm.trans hm'.symm⟩

theorem readRecord_eq_none {text : Text} (h : ¬WellFormed text) : Spf.readRecord text = none :=
  Option.eq_none_iff_forall_ne_some.mpr fun terms hread => h ⟨terms, hread⟩

theorem wellFormed_of_pass {w : Spf.World} {text : Text} (h : Spf.checkHost w text = .pass) :
    WellFormed text := by
  by_contra hnot
  exact Spf.checkHost_of_malformed (readRecord_eq_none hnot) w h

theorem wellFormed_of_policy {text : Text} {p : Spf.Policy} (h : Spf.policy text = some p) :
    WellFormed text := by
  obtain ⟨terms, hread, -⟩ := Option.map_eq_some_iff.mp h
  exact ⟨terms, hread⟩

theorem asks_of_authorizes {py : Python} {w : Spf.World} {expected : Text}
    (h : Authorizes py w expected) : Asks py expected := by
  cases hparts : simpleSpfParts (normalizeSpf py expected) with
  | some parts =>
    rw [Authorizes, hparts] at h
    obtain ⟨mechanism, hasked, -⟩ := h
    exact .inr ⟨parts, hparts, mechanism, hasked⟩
  | none =>
    rw [Authorizes, hparts] at h
    exact .inl (wellFormed_of_pass h)

/-- Where something is asked for, a sound record follows the grammar. -/
theorem wellFormed_of_sound {py : Python} {expected current : Text} (hsound : Sound py expected current)
    (hasks : Asks py expected) : WellFormed current := by
  rcases hasks with ⟨terms, hexpected⟩ | ⟨parts, hparts, mechanism, hasked⟩
  · obtain ⟨p, hp, -⟩ := hsound.2 _ (congrArg (Spf.policyOf <$> ·) hexpected)
    exact wellFormed_of_policy hp
  · have hauthorizes : Authorizes py ⟨fun _ => .matched, fun _ => .none⟩ expected := by
      rw [Authorizes, hparts]
      exact ⟨mechanism, hasked, rfl⟩
    exact wellFormed_of_pass (hsound.1 _ (by nofun) hauthorizes)

theorem sound_of_simple {py : Python} {expected current : Text} {e c : List Text × Text}
    (hread : WellFormed current) (hsame : SameMacros expected current)
    (he : simpleSpfParts (normalizeSpf py expected) = some e)
    (hc : simpleSpfParts (normalizeSpf py current) = some c) (hfew : c.1.length ≤ 10)
    (hrequired : ∀ m ∈ requiredMechanisms e, m ∈ c.1)
    (hterminal : terminalIsCompatible e.2 c.2 = true) : Sound py expected current := by
  obtain ⟨terms, hread⟩ := hread
  refine ⟨fun w hw hauthorizes => ?_, fun p hp => ?_⟩
  · rw [Authorizes, he] at hauthorizes
    obtain ⟨mechanism, hasked, hmatch⟩ := hauthorizes
    exact pass_of_simple hread hc hfew hrequired hsame hw hasked hmatch
  · obtain ⟨found, hfound⟩ := wellFormed_of_policy hp
    obtain rfl := Option.some.inj (hp.symm.trans (policy_of_simple hfound he))
    exact ⟨_, policy_of_simple hread hc, atLeast_of_compatible hterminal⟩

theorem sound_of_same {py : Python} {expected current : Text} (hread : WellFormed current)
    (hsame : SameMacros expected current)
    (hcomplex : simpleSpfParts (normalizeSpf py expected) = none)
    (hnormal : normalizeSpf py expected = normalizeSpf py current) : Sound py expected current := by
  obtain ⟨terms, hread⟩ := hread
  have hterms : WellFormed expected → Spf.readRecord expected = some terms := by
    rintro ⟨found, hfound⟩
    rw [hfound, readTerms_congr hfound hread hsame hnormal]
  refine ⟨fun w hw hauthorizes => ?_, fun p hp => ?_⟩
  · rw [Authorizes, hcomplex] at hauthorizes
    have hfound := hterms (wellFormed_of_pass hauthorizes)
    rw [Spf.checkHost, (of_readRecord hfound).1, hfound] at hauthorizes
    rw [Spf.checkHost, (of_readRecord hread).1, hread]
    exact hauthorizes
  · rw [Spf.policy, hterms (wellFormed_of_policy hp)] at hp
    exact ⟨p, by rw [Spf.policy, hread, hp], .inl rfl⟩

/-- An accepted record that follows the grammar authorizes what the expected one asks
for; one that does not lets nobody pass. -/
theorem spfMatches_sound (py : Python) (expected current : Text)
    (haccepted : spfMatches py expected current = true) :
    (Sound py expected current → WellFormed current ∨ ¬Asks py expected) ∧
      (SameMacros expected current → WellFormed current ∨ ¬Asks py expected →
        Sound py expected current) := by
  constructor
  · intro hsound
    by_cases hasks : Asks py expected
    · exact .inl (wellFormed_of_sound hsound hasks)
    · exact .inr hasks
  · intro hsame hgrammar
    obtain ⟨hvalid, hshape⟩ := of_spfMatches haccepted
    rcases hgrammar with hread | hnothing
    · rcases hshape with ⟨e, c, he, hc, hrequired, hterminal⟩ | ⟨hcomplex, hnormal⟩
      · have hfew := length_le_of_valid hc hvalid
        exact sound_of_simple hread hsame he hc hfew hrequired hterminal
      · exact sound_of_same hread hsame hcomplex hnormal
    · refine ⟨fun w hw hauthorizes => ?_, fun p hp => ?_⟩
      · exact absurd (asks_of_authorizes hauthorizes) hnothing
      · exact absurd (.inl (wellFormed_of_policy hp)) hnothing

theorem spfMatches_sound_for_relay :
    Sound .asciiOnly "v=spf1 mx a:mail.example.com ~all".toList
      "v=spf1 mx a:relay.example.com -all".toList :=
  (spfMatches_sound .asciiOnly _ _ (by decide +kernel)).2
    (sameMacros_of_plain (by decide) (by decide)) (.inl ⟨_, rfl⟩)

/-- A host without a dot in its name passes the check, and makes receivers refuse the whole
record. -/
theorem spfMatches_not_sound :
    spfMatches .asciiOnly "v=spf1 mx -all".toList "v=spf1 mx a:localhost -all".toList = true ∧
      ¬Sound .asciiOnly "v=spf1 mx -all".toList "v=spf1 mx a:localhost -all".toList := by
  refine ⟨by decide +kernel, fun hsound => ?_⟩
  have hauthorizes : Authorizes .asciiOnly ⟨fun _ => .matched, fun _ => .none⟩
      "v=spf1 mx -all".toList := by
    refine ⟨⟨"mx".toList, none, []⟩, ⟨"mx".toList, ?_, "mx".toList, ?_, ?_, ?_⟩, rfl⟩
    · decide
    · decide
    · decide
    · decide
  have hpass := hsound.1 _ (by nofun) hauthorizes
  exact absurd hpass (by decide +kernel)

end MailCue.Backend.Domains
