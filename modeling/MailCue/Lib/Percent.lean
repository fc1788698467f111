import Mathlib.Tactic.Ring
import MailCue.Lib.Text

/-!
# Percent-decoding

Texts in which `%` and two hexadecimal digits stand for an octet. A stretch of
ASCII is decoded as a whole, escapes and characters together; what is not ASCII
stands as it is. The character decoding is a `Decoder`: any with what it does to
ASCII. A text without escapes decodes to itself; an escape makes it shorter.
-/
namespace MailCue.Lib.Percent

abbrev Octets := List UInt8

def octet (c : Char) : UInt8 := UInt8.ofNat c.toNat

/-- A decoding of octets that leaves ASCII alone. -/
structure Decoder where
  decode : Octets → Text
  ascii : ∀ text : Text, (∀ c ∈ text, Text.ascii c = true) → decode (text.map octet) = text

def hexDigit (c : Char) : Option Nat :=
  if '0'.toNat ≤ c.toNat ∧ c.toNat ≤ '9'.toNat then some (c.toNat - '0'.toNat)
  else if 'a'.toNat ≤ c.toNat ∧ c.toNat ≤ 'f'.toNat then some (c.toNat - 'a'.toNat + 10)
  else if 'A'.toNat ≤ c.toNat ∧ c.toNat ≤ 'F'.toNat then some (c.toNat - 'A'.toNat + 10)
  else none

def hexOctet (a b : Char) : Option UInt8 := do
  let high ← hexDigit a
  let low ← hexDigit b
  return UInt8.ofNat (16 * high + low)

/-- A character as it stands, or an escape. -/
inductive Piece
  | char (c : Char)
  | escape (o : UInt8)
  deriving DecidableEq, Repr

def pieces : Text → List Piece
  | [] => []
  | '%' :: a :: b :: rest =>
    match hexOctet a b with
    | some o => .escape o :: pieces rest
    | none => .char '%' :: pieces (a :: b :: rest)
  | c :: rest => .char c :: pieces rest

/-- The octets waiting are of the stretch of ASCII being read. -/
def join (d : Decoder) (waiting : Octets) : List Piece → Text
  | [] => d.decode waiting
  | .escape o :: rest => join d (waiting ++ [o]) rest
  | .char c :: rest =>
    if Text.ascii c then join d (waiting ++ [octet c]) rest
    else d.decode waiting ++ c :: join d [] rest

def unquote (d : Decoder) (text : Text) : Text := join d [] (pieces text)

def escapes (text : Text) : Nat :=
  (pieces text).countP fun
    | .escape _ => true
    | .char _ => false

section
variable (d : Decoder)

theorem join_chars (waiting text : Text) (h : ∀ c ∈ waiting, Text.ascii c = true) :
    join d (waiting.map octet) (text.map .char) = waiting ++ text := by
  induction text generalizing waiting with
  | nil => simpa [join] using d.ascii waiting h
  | cons c rest ih =>
    rw [List.map_cons, join]
    split
    · rename_i hc
      have hgrow : ∀ x ∈ waiting ++ [c], Text.ascii x = true := by
        simpa [or_imp, forall_and] using ⟨h, hc⟩
      have hrest := ih (waiting ++ [c]) hgrow
      rw [List.map_append] at hrest
      simpa using hrest
    · have hrest := ih [] (by simp)
      rw [d.ascii waiting h]
      simpa using hrest

theorem pieces_cons {c : Char} (hc : c ≠ '%') (text : Text) :
    pieces (c :: text) = .char c :: pieces text := by
  conv_lhs => unfold pieces
  split
  · rename_i heq
    cases heq
  · rename_i heq
    cases heq
    exact absurd rfl hc
  · rename_i heq
    cases heq
    rfl

/-- What a piece stands for. -/
def Piece.octet : Piece → UInt8
  | .char c => Percent.octet c
  | .escape o => o

/-- A stretch of ASCII is decoded as a whole. -/
theorem join_ascii (waiting : Octets) {ps : List Piece}
    (h : ∀ c, Piece.char c ∈ ps → Text.ascii c = true) :
    join d waiting ps = d.decode (waiting ++ ps.map Piece.octet) := by
  induction ps generalizing waiting with
  | nil => simp [join]
  | cons p ps ih =>
    have hrest := fun waiting => ih waiting fun c hc => h c (List.mem_cons_of_mem _ hc)
    cases p with
    | escape o =>
      rw [join, hrest]
      simp [Piece.octet]
    | char c =>
      rw [join, if_pos (h c List.mem_cons_self), hrest]
      simp [Piece.octet]

theorem pieces_of_no_escapes (text : Text) (h : escapes text = 0) :
    pieces text = text.map .char := by
  unfold escapes at h
  fun_induction pieces text with
  | case1 => rfl
  | case2 a b rest o ho ih => simp at h
  | case3 a b rest ho ih =>
    rw [ih (by simpa using h)]
    rfl
  | case4 c rest hnot ih =>
    rw [ih (by simpa using h)]
    rfl

theorem unquote_of_no_escapes {text : Text} (h : escapes text = 0) : unquote d text = text := by
  have hjoin := join_chars d [] text (by simp)
  rw [unquote, pieces_of_no_escapes text h]
  simpa using hjoin

end

section
variable {d : Decoder} {cost : Char → Nat}

/-- What the characters of a text cost. -/
def total (cost : Char → Nat) (text : Text) : Nat := (text.map cost).sum

def pieceCost (cost : Char → Nat) : Piece → Nat
  | .char c => cost c
  | .escape _ => 1

theorem join_cost_le (hdecode : ∀ os, total cost (d.decode os) ≤ os.length)
    (hascii : ∀ c, Text.ascii c = true → 1 ≤ cost c) (waiting : Octets) (ps : List Piece) :
    total cost (join d waiting ps) ≤ waiting.length + (ps.map (pieceCost cost)).sum := by
  induction ps generalizing waiting with
  | nil => simpa [join] using hdecode waiting
  | cons p rest ih =>
    cases p with
    | escape o =>
      have hrest := ih (waiting ++ [o])
      simp only [join, List.length_append, List.length_singleton, List.map_cons, List.sum_cons,
        pieceCost] at hrest ⊢
      omega
    | char c =>
      rw [join]
      split
      · rename_i hc
        have hrest := ih (waiting ++ [octet c])
        have hone := hascii c hc
        simp only [List.length_append, List.length_singleton, List.map_cons, List.sum_cons,
          pieceCost] at hrest ⊢
        omega
      · have hrest := ih []
        have hwaiting := hdecode waiting
        simp only [total, List.map_append, List.map_cons, List.sum_append, List.sum_cons,
          List.length_nil, pieceCost] at hrest hwaiting ⊢
        omega

theorem ascii_of_hexDigit {c : Char} {n : Nat} (h : hexDigit c = some n) :
    Text.ascii c = true := by
  have hle : ∀ top : Char, top.toNat < 128 → c.toNat ≤ top.toNat → Text.ascii c = true := by
    intro top htop hc
    simp only [Text.ascii, decide_eq_true_eq]
    omega
  unfold hexDigit at h
  split at h
  · rename_i hrange
    exact hle '9' (by decide) hrange.2
  · split at h
    · rename_i hrange
      exact hle 'f' (by decide) hrange.2
    · split at h
      · rename_i hrange
        exact hle 'F' (by decide) hrange.2
      · cases h

theorem ascii_of_hexOctet {a b : Char} {o : UInt8} (h : hexOctet a b = some o) :
    Text.ascii a = true ∧ Text.ascii b = true := by
  simp only [hexOctet, Option.bind_eq_bind, Option.bind_eq_some_iff] at h
  obtain ⟨high, ha, low, hb, -⟩ := h
  exact ⟨ascii_of_hexDigit ha, ascii_of_hexDigit hb⟩

/-- An escape is three characters for at most one. -/
theorem pieces_cost (hascii : ∀ c, Text.ascii c = true → 1 ≤ cost c) (text : Text) :
    ((pieces text).map (pieceCost cost)).sum + 2 * escapes text ≤ total cost text := by
  unfold escapes total
  fun_induction pieces text with
  | case1 => simp
  | case2 a b rest o ho ih =>
    obtain ⟨ha, hb⟩ := ascii_of_hexOctet ho
    have hpercent := hascii '%' (by decide)
    have hone := hascii a ha
    have hone' := hascii b hb
    simp only [List.map_cons, List.sum_cons, pieceCost, List.countP_cons, if_true] at ih ⊢
    omega
  | case3 a b rest ho ih =>
    simp only [List.map_cons, List.sum_cons, pieceCost, List.countP_cons] at ih ⊢
    simp
    omega
  | case4 c rest hnot ih =>
    simp only [List.map_cons, List.sum_cons, pieceCost, List.countP_cons] at ih ⊢
    simp
    omega

theorem unquote_cost (hdecode : ∀ os, total cost (d.decode os) ≤ os.length)
    (hascii : ∀ c, Text.ascii c = true → 1 ≤ cost c) (text : Text) :
    total cost (unquote d text) + 2 * escapes text ≤ total cost text := by
  have hjoin := join_cost_le hdecode hascii [] (pieces text)
  have hpieces := pieces_cost hascii text
  unfold unquote
  simp only [List.length_nil] at hjoin
  omega

end

end MailCue.Lib.Percent
