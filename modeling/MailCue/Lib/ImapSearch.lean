import MailCue.Lib.Text

/-!
# Search keys of IMAP

The tokens of a SEARCH command, with quoted strings read back, and the text of a key.
What stands in a quoted string is one token, whatever it contains.
-/
namespace MailCue.Lib.Imap

inductive Token
  | word (letters : Text)
  | opening
  | closing
  | quoted (value : Text)
  deriving DecidableEq, Repr

/-! ## Reading tokens -/

/-- Where the reader stands: in a word, in a quoted string, behind a backslash in one,
or behind something closed. -/
inductive Scan
  | plain (letters : Text)
  | inside (value : Text)
  | escape (value : Text)
  | closed

def flush (letters : Text) : List Token := if letters.isEmpty then [] else [.word letters]

/-- In a quoted string a quote and a backslash come escaped, and no line breaks. -/
@[simp]
def lexFrom : Scan → Text → Option (List Token)
  | .plain letters, [] => some (flush letters)
  | .closed, [] => some []
  | _, [] => none
  | .plain letters, c :: rest =>
    if c = ' ' then (flush letters ++ ·) <$> lexFrom (.plain []) rest
    else if c = ')' then (flush letters ++ .closing :: ·) <$> lexFrom .closed rest
    else if c = '(' then
      if letters.isEmpty then (.opening :: ·) <$> lexFrom (.plain []) rest else none
    else if c = '"' then if letters.isEmpty then lexFrom (.inside []) rest else none
    else lexFrom (.plain (letters ++ [c])) rest
  | .inside value, c :: rest =>
    if c = '"' then (.quoted value :: ·) <$> lexFrom .closed rest
    else if c = '\\' then lexFrom (.escape value) rest
    else if c = '\r' ∨ c = '\n' then none
    else lexFrom (.inside (value ++ [c])) rest
  | .escape value, c :: rest =>
    if c = '"' ∨ c = '\\' then lexFrom (.inside (value ++ [c])) rest else none
  | .closed, c :: rest =>
    if c = ' ' then lexFrom (.plain []) rest
    else if c = ')' then (.closing :: ·) <$> lexFrom .closed rest
    else none

def lex (text : Text) : Option (List Token) := lexFrom (.plain []) text

/-! ## Keys -/

inductive SearchKey
  | all
  | field (name : Text) (value : Text)
  | either (first second : SearchKey)
  deriving DecidableEq, Repr

/-- The body of a quoted string. -/
def quote (value : Text) : Text :=
  value.flatMap fun c => if c = '"' ∨ c = '\\' then ['\\', c] else [c]

namespace SearchKey

def isChoice : SearchKey → Bool
  | either _ _ => true
  | _ => false

/-- The first of two alternatives is put in parentheses when it is itself a choice. -/
def text : SearchKey → Text
  | all => "ALL".toList
  | field name value => name ++ ' ' :: '"' :: quote value ++ ['"']
  | either first second =>
    "OR ".toList ++ (if first.isChoice then '(' :: first.text ++ [')'] else first.text) ++
      ' ' :: second.text

def tokens : SearchKey → List Token
  | all => [.word "ALL".toList]
  | field name value => [.word name, .quoted value]
  | either first second =>
    .word "OR".toList ::
      (if first.isChoice then .opening :: first.tokens ++ [.closing] else first.tokens) ++
      second.tokens

/-- What the key has of names and values. -/
def contents : SearchKey → Text
  | all => []
  | field name value => name ++ value
  | either first second => first.contents ++ second.contents

/-- Names are words, and no value contains a break. -/
def Plain : SearchKey → Prop
  | all => True
  | field name value =>
    name ≠ [] ∧ (∀ c ∈ name, c ≠ ' ' ∧ c ≠ ')' ∧ c ≠ '(' ∧ c ≠ '"') ∧ Unbroken value
  | either first second => first.Plain ∧ second.Plain

end SearchKey

/-! ## A key is read as it was written -/

theorem lexFrom_word {name : Text} (h : ∀ c ∈ name, c ≠ ' ' ∧ c ≠ ')' ∧ c ≠ '(' ∧ c ≠ '"')
    (letters rest : Text) :
    lexFrom (.plain letters) (name ++ rest) = lexFrom (.plain (letters ++ name)) rest := by
  induction name generalizing letters with
  | nil => simp
  | cons c name ih =>
    obtain ⟨hspace, hclose, hopen, hquote⟩ := h c List.mem_cons_self
    have hrest := ih (fun d hd => h d (List.mem_cons_of_mem _ hd)) (letters ++ [c])
    simp only [List.cons_append, lexFrom, hspace, hclose, hopen, hquote, if_false, hrest,
      List.append_assoc, List.nil_append]

theorem lexFrom_quote {value : Text} (h : Unbroken value) (before rest : Text) :
    lexFrom (.inside before) (quote value ++ '"' :: rest) =
      (.quoted (before ++ value) :: ·) <$> lexFrom .closed rest := by
  induction value generalizing before with
  | nil => simp [quote, lexFrom]
  | cons c value ih =>
    obtain ⟨hcr, hlf⟩ := h
    simp only [List.mem_cons, not_or] at hcr hlf
    have hrest := ih ⟨hcr.2, hlf.2⟩ (before ++ [c])
    have hhead : quote (c :: value) =
        (if c = '"' ∨ c = '\\' then ['\\', c] else [c]) ++ quote value := by
      simp [quote]
    rw [hhead, List.append_assoc]
    by_cases hspecial : c = '"' ∨ c = '\\'
    · rw [if_pos hspecial]
      simpa [lexFrom, hspecial] using hrest
    · have hplain : c ≠ '"' ∧ c ≠ '\\' := not_or.mp hspecial
      rw [if_neg hspecial]
      simpa [lexFrom, hplain, Ne.symm hcr.1, Ne.symm hlf.1] using hrest

/-- What may follow a key. -/
def Stops (rest : Text) : Prop := rest = [] ∨ ∃ more, rest = ' ' :: more ∨ rest = ')' :: more

theorem lexFrom_stops {rest : Text} (h : Stops rest) (letters : Text) :
    lexFrom (.plain letters) rest = (flush letters ++ ·) <$> lexFrom .closed rest := by
  rcases h with rfl | ⟨more, rfl | rfl⟩
  · simp [lexFrom]
  · simp [lexFrom]
  · simp only [lexFrom, Char.reduceEq, if_false, if_true, Option.map_eq_map, Option.map_map]
    rfl

theorem flush_of_ne_nil {letters : Text} (h : letters ≠ []) : flush letters = [.word letters] := by
  simp [flush, h]

theorem lexFrom_or (rest : Text) :
    lexFrom (.plain []) ("OR ".toList ++ rest) =
      (.word "OR".toList :: ·) <$> lexFrom (.plain []) rest := by
  rfl

theorem lexFrom_field {name value : Text} (h : (SearchKey.field name value).Plain) (rest : Text) :
    lexFrom (.plain []) ((SearchKey.field name value).text ++ rest) =
      ((SearchKey.field name value).tokens ++ ·) <$> lexFrom .closed rest := by
  obtain ⟨hname, hword, hvalue⟩ := h
  have htext : (SearchKey.field name value).text ++ rest =
      name ++ ' ' :: '"' :: (quote value ++ '"' :: rest) := by
    simp [SearchKey.text]
  rw [htext, lexFrom_word hword, List.nil_append]
  simp only [lexFrom, if_true, flush_of_ne_nil hname, List.isEmpty_nil, Char.reduceEq, if_false,
    lexFrom_quote hvalue, List.nil_append, Option.map_eq_map, Option.map_map]
  rfl

/-- A key in front of what may follow one. -/
theorem lexFrom_text {key : SearchKey} (h : key.Plain) {rest : Text} (hrest : Stops rest) :
    lexFrom (.plain []) (key.text ++ rest) = (key.tokens ++ ·) <$> lexFrom .closed rest := by
  induction key generalizing rest with
  | all =>
    have hword : ∀ c ∈ "ALL".toList, c ≠ ' ' ∧ c ≠ ')' ∧ c ≠ '(' ∧ c ≠ '"' :=
      List.forall_iff_forall_mem.mp (by decide)
    rw [SearchKey.text, lexFrom_word hword, lexFrom_stops hrest]
    rfl
  | field name value => exact lexFrom_field h rest
  | either first second ihFirst ihSecond =>
    have hfirst : ∀ {more : Text}, Stops more → lexFrom (.plain []) (first.text ++ more) =
        (first.tokens ++ ·) <$> lexFrom .closed more := ihFirst h.1
    have hsecond := ihSecond h.2 hrest
    have hspace : ∀ more, lexFrom .closed (' ' :: more) = lexFrom (.plain []) more :=
      fun more => by simp [lexFrom]
    by_cases hchoice : first.isChoice = true
    · have htext : (SearchKey.either first second).text ++ rest =
          "OR ".toList ++ '(' :: (first.text ++ ')' :: ' ' :: (second.text ++ rest)) := by
        simp [SearchKey.text, hchoice]
      have hclose : Stops (')' :: ' ' :: (second.text ++ rest)) := .inr ⟨_, .inr rfl⟩
      have hopen : ∀ more, lexFrom (.plain []) ('(' :: more) =
          (.opening :: ·) <$> lexFrom (.plain []) more := fun more => by simp [lexFrom]
      have hparen : ∀ more, lexFrom .closed (')' :: more) =
          (.closing :: ·) <$> lexFrom .closed more := fun more => by simp [lexFrom]
      rw [htext, lexFrom_or, hopen, hfirst hclose, hparen, hspace, hsecond]
      simp only [Option.map_eq_map, Option.map_map]
      congr 1
      funext tokens
      simp [SearchKey.tokens, hchoice]
    · have htext : (SearchKey.either first second).text ++ rest =
          "OR ".toList ++ (first.text ++ ' ' :: (second.text ++ rest)) := by
        simp [SearchKey.text, hchoice]
      rw [htext, lexFrom_or, hfirst (.inr ⟨_, .inl rfl⟩), hspace, hsecond]
      simp only [Option.map_eq_map, Option.map_map]
      congr 1
      funext tokens
      simp [SearchKey.tokens, hchoice]

theorem lex_text {key : SearchKey} (h : key.Plain) : lex key.text = some key.tokens := by
  have hread := lexFrom_text h (.inl rfl : Stops [])
  simpa [lex, lexFrom] using hread

theorem mem_quote {c : Char} {value : Text} (hc : c ∈ quote value) : c ∈ value ∨ c = '\\' := by
  simp only [quote, List.mem_flatMap] at hc
  obtain ⟨d, hd, hmem⟩ := hc
  split at hmem
  · simp only [List.mem_cons, List.not_mem_nil, or_false] at hmem
    rcases hmem with rfl | rfl
    · exact .inr rfl
    · exact .inl hd
  · rw [List.mem_singleton.mp hmem]
    exact .inl hd

theorem subset_quote (value : Text) : value ⊆ quote value := by
  intro c hc
  refine List.mem_flatMap.mpr ⟨c, hc, ?_⟩
  split
  · simp
  · simp

/-! ## The characters of a key -/

theorem subset_text (key : SearchKey) : key.contents ⊆ key.text := by
  induction key with
  | all => simp [SearchKey.contents]
  | field name value =>
    have hvalue := subset_quote value
    simp only [SearchKey.contents, SearchKey.text, List.append_subset]
    exact ⟨by simp, fun c hc => by simp [hvalue hc]⟩
  | either first second ihFirst ihSecond =>
    simp only [SearchKey.contents, List.append_subset]
    constructor
    · refine List.Subset.trans ihFirst fun c hc => ?_
      rw [SearchKey.text]
      split
      · simp [hc]
      · simp [hc]
    · exact List.Subset.trans ihSecond fun c hc => by simp [SearchKey.text, hc]

/-- What the grammar itself puts in. -/
def syntaxChars : Text := "ALL OR ()\"\\".toList

theorem mem_text {key : SearchKey} {c : Char} (hc : c ∈ key.text) :
    c ∈ key.contents ∨ c ∈ syntaxChars := by
  induction key with
  | all =>
    have hall : SearchKey.all.text ⊆ syntaxChars := List.forall_iff_forall_mem.mp (by decide)
    exact .inr (hall hc)
  | field name value =>
    simp only [SearchKey.text, SearchKey.contents, List.mem_append, List.mem_cons] at hc ⊢
    rcases hc with (hname | rfl | rfl | hquote) | rfl | hnone
    · exact .inl (.inl hname)
    · exact .inr (by decide)
    · exact .inr (by decide)
    · rcases mem_quote hquote with hvalue | rfl
      · exact .inl (.inr hvalue)
      · exact .inr (by decide)
    · exact .inr (by decide)
    · cases hnone
  | either first second ihFirst ihSecond =>
    have hor : "OR ".toList ⊆ syntaxChars := List.forall_iff_forall_mem.mp (by decide)
    simp only [SearchKey.text, SearchKey.contents, List.mem_append, List.mem_cons] at hc ⊢
    rcases hc with (hfront | hfirst) | rfl | hsecond
    · exact .inr (hor hfront)
    · have hin : c = '(' ∨ c ∈ first.text ∨ c = ')' := by
        split at hfirst
        · simpa using hfirst
        · exact .inr (.inl hfirst)
      rcases hin with rfl | hin | rfl
      · exact .inr (by decide)
      · exact (ihFirst hin).imp_left .inl
      · exact .inr (by decide)
    · exact .inr (by decide)
    · exact (ihSecond hsecond).imp_left .inr

end MailCue.Lib.Imap
