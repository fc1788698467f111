import MailCue.Lib.Text

/-!
# Backtracking expressions

Regular expressions with groups. At a place of the text, the ways to match in the order
in which a backtracking search tries them; the first of them counts. The class of word
characters, between which `\b` stands, is a parameter.
-/
namespace MailCue.Lib

inductive Pattern where
  | nothing
  | one (accepts : Char → Bool)
  /-- As many characters of a class as there are, then fewer. -/
  | run (accepts : Char → Bool)
  | boundary
  | seq (first second : Pattern)
  | either (first second : Pattern)
  | group (n : Nat) (inner : Pattern)

/-- A place of the text, with what the groups have read so far. -/
structure Place where
  before : Option Char := none
  rest : Text
  groups : List (Nat × Text) := []

namespace Place

def group (place : Place) (n : Nat) : Option Text :=
  (place.groups.find? fun entry => entry.1 == n).map (·.2)

end Place

namespace Pattern

def runs (accepts : Char → Bool) (before : Option Char) : Text → List (Option Char × Text)
  | [] => [(before, [])]
  | c :: rest =>
    if accepts c then runs accepts (some c) rest ++ [(before, c :: rest)] else [(before, c :: rest)]

def ways (isWord : Char → Bool) : Pattern → Place → List Place
  | nothing, place => [place]
  | one accepts, place =>
    match place.rest with
    | [] => []
    | c :: rest => if accepts c then [{ place with before := some c, rest }] else []
  | run accepts, place =>
    (runs accepts place.before place.rest).map fun (before, rest) => { place with before, rest }
  | boundary, place => if place.before.any isWord != place.rest.head?.any isWord then [place] else []
  | seq first second, place => (ways isWord first place).flatMap (ways isWord second)
  | either first second, place => ways isWord first place ++ ways isWord second place
  | group n inner, place =>
    (ways isWord inner place).map fun after =>
      { after with
        groups := (n, place.rest.take (place.rest.length - after.rest.length)) :: after.groups }

def sequence (patterns : List Pattern) : Pattern := patterns.foldr seq nothing

def oneOf : List Pattern → Pattern
  | [] => one fun _ => false
  | [pattern] => pattern
  | pattern :: rest => either pattern (oneOf rest)

def atLeastOne (accepts : Char → Bool) : Pattern := seq (one accepts) (run accepts)

/-- The letters one by one, each as `same` reads it. -/
def word (same : Char → Char → Bool) (letters : Text) : Pattern :=
  sequence (letters.map fun letter => one (same letter))

/-- A match at the start of the text. -/
def atStart (isWord : Char → Bool) (pattern : Pattern) (text : Text) : Option Place :=
  (ways isWord pattern { rest := text }).head?

def searchFrom (isWord : Char → Bool) (pattern : Pattern) (before : Option Char) :
    Text → Option Place
  | [] => (ways isWord pattern { before, rest := [] }).head?
  | c :: rest =>
    match (ways isWord pattern { before, rest := c :: rest }).head? with
    | some place => some place
    | none => searchFrom isWord pattern (some c) rest

/-- The first match in the text. -/
def search (isWord : Char → Bool) (pattern : Pattern) (text : Text) : Option Place :=
  searchFrom isWord pattern none text

def matchesFrom (isWord : Char → Bool) (pattern : Pattern) (before : Option Char) (skip : Nat) :
    Text → List Place
  | [] => []
  | c :: rest =>
    if skip = 0 then
      match (ways isWord pattern { before, rest := c :: rest }).head? with
      | some place =>
        place :: matchesFrom isWord pattern (some c) (rest.length - place.rest.length) rest
      | none => matchesFrom isWord pattern (some c) 0 rest
    else matchesFrom isWord pattern (some c) (skip - 1) rest

/-- The matches one after another, of a pattern that reads something. -/
def allMatches (isWord : Char → Bool) (pattern : Pattern) (text : Text) : List Place :=
  matchesFrom isWord pattern none 0 text

section
variable {isWord : Char → Bool} {before : Option Char} {rest : Text} {c : Char}

theorem ways_boundary (second : Pattern) (place : Place) :
    ways isWord (seq boundary second) place =
      if place.before.any isWord != place.rest.head?.any isWord then ways isWord second place
      else [] := by
  simp only [ways]
  split <;> simp

theorem searchFrom_skip {pattern : Pattern}
    (h : ways isWord pattern { before, rest := c :: rest } = []) :
    searchFrom isWord pattern before (c :: rest) = searchFrom isWord pattern (some c) rest := by
  rw [searchFrom, h]
  rfl

theorem searchFrom_here {pattern : Pattern} {place : Place}
    (h : (ways isWord pattern { before, rest := c :: rest }).head? = some place) :
    searchFrom isWord pattern before (c :: rest) = some place := by
  rw [searchFrom, h]

/-- A pattern that begins at a boundary, in a text that begins with a space before a
word, begins to match there. -/
theorem search_second {second : Pattern} {d : Char} {place : Place} (hc : isWord c = false)
    (hd : isWord d = true)
    (h : (ways isWord second { before := some c, rest := d :: rest }).head? = some place) :
    search isWord (seq boundary second) (c :: d :: rest) = some place := by
  have hskip : ways isWord (seq boundary second) { rest := c :: d :: rest } = [] := by
    rw [ways_boundary]
    simp [hc]
  have hhere : ways isWord (seq boundary second) { before := some c, rest := d :: rest } =
      ways isWord second { before := some c, rest := d :: rest } := by
    rw [ways_boundary]
    simp [hc, hd]
  rw [search, searchFrom_skip hskip]
  exact searchFrom_here (hhere ▸ h)

end

end Pattern

end MailCue.Lib
