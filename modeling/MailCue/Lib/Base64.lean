import Mathlib.Tactic.Common
import MailCue.Lib.Text

/-!
# Base64

Decoding of padded base64 in groups of four characters. Of the last group, the bits
that belong to no octet are ignored or have to be zero.
-/
namespace MailCue.Lib.Base64

def value (c : Char) : Option Nat :=
  if 'A' ≤ c ∧ c ≤ 'Z' then some (c.toNat - 65)
  else if 'a' ≤ c ∧ c ≤ 'z' then some (c.toNat - 71)
  else if '0' ≤ c ∧ c ≤ '9' then some (c.toNat + 4)
  else if c = '+' then some 62
  else if c = '/' then some 63
  else none

/-- The three octets of four characters. -/
def octet1 (x y : Nat) : UInt8 := UInt8.ofNat (x * 4 + y / 16)

def octet2 (y z : Nat) : UInt8 := UInt8.ofNat (y % 16 * 16 + z / 4)

def octet3 (z w : Nat) : UInt8 := UInt8.ofNat (z % 4 * 64 + w)

/-- A group with two characters of padding. -/
def one (trailing : Bool) (a b : Char) : Option (List UInt8) := do
  let x ← value a
  let y ← value b
  if trailing || y % 16 == 0 then some [octet1 x y] else none

/-- A group with one character of padding. -/
def two (trailing : Bool) (a b c : Char) : Option (List UInt8) := do
  let x ← value a
  let y ← value b
  let z ← value c
  if trailing || z % 4 == 0 then some [octet1 x y, octet2 y z] else none

def three (a b c d : Char) : Option (List UInt8) := do
  let x ← value a
  let y ← value b
  let z ← value c
  let w ← value d
  some [octet1 x y, octet2 y z, octet3 z w]

/-- `trailing` allows bits other than zero behind the last octet. -/
def decode (trailing : Bool) : Text → Option (List UInt8)
  | [] => some []
  | a :: b :: c :: d :: rest =>
    if c = '=' then
      if d = '=' ∧ rest = [] then one trailing a b else none
    else if d = '=' then
      if rest = [] then two trailing a b c else none
    else do
      let octets ← three a b c d
      let more ← decode trailing rest
      some (octets ++ more)
  | _ => none

/-- The bits behind the last octet. -/
def unusedBits : Text → Nat
  | _ :: b :: c :: d :: rest =>
    if c = '=' then (value b).getD 0 % 16
    else if d = '=' then (value c).getD 0 % 4
    else unusedBits rest
  | _ => 0

theorem one_false {a b : Char} {raw : List UInt8} (h : one true a b = some raw) :
    one false a b = if (value b).getD 0 % 16 = 0 then some raw else none := by
  unfold one at h ⊢
  cases hx : value a with
  | none => simp [hx] at h
  | some x =>
    cases hy : value b with
    | none => simp [hx, hy] at h
    | some y =>
      have hraw : [octet1 x y] = raw := by simpa [hx, hy] using h
      subst hraw
      simp

theorem two_false {a b c : Char} {raw : List UInt8} (h : two true a b c = some raw) :
    two false a b c = if (value c).getD 0 % 4 = 0 then some raw else none := by
  unfold two at h ⊢
  cases hx : value a with
  | none => simp [hx] at h
  | some x =>
    cases hy : value b with
    | none => simp [hx, hy] at h
    | some y =>
      cases hz : value c with
      | none => simp [hx, hy, hz] at h
      | some z =>
        have hraw : [octet1 x y, octet2 y z] = raw := by simpa [hx, hy, hz] using h
        subst hraw
        simp

/-- What the strict decoder makes of a text the other one accepts. -/
theorem decode_false {s : Text} {raw : List UInt8} (h : decode true s = some raw) :
    decode false s = if unusedBits s = 0 then some raw else none := by
  fun_induction decode true s generalizing raw with
  | case1 =>
    obtain rfl : [] = raw := by simpa using h
    simp [decode, unusedBits]
  | case2 a b d rest hend =>
    obtain ⟨rfl, rfl⟩ := hend
    simpa [decode, unusedBits] using one_false h
  | case3 a b d rest hend => cases h
  | case4 a b c hc =>
    simpa [decode, unusedBits, hc] using two_false h
  | case5 a b c rest hc hrest => cases h
  | case6 a b c d rest hc hd ih =>
    obtain ⟨octets, hoctets, more, hmore, rfl⟩ : ∃ octets, three a b c d = some octets ∧
        ∃ more, decode true rest = some more ∧ octets ++ more = raw := by
      simpa [Option.bind_eq_some_iff] using h
    rw [decode, if_neg hc, if_neg hd, hoctets, unusedBits, if_neg hc, if_neg hd, ih hmore]
    by_cases hzero : unusedBits rest = 0 <;> simp [hzero]
  | case7 s hnil hgroup => cases h

/-! ## Encoding -/

def digit (n : Nat) : Char :=
  if n < 26 then Char.ofNat (n + 65)
  else if n < 52 then Char.ofNat (n + 71)
  else if n < 62 then Char.ofNat (n - 4)
  else if n = 62 then '+'
  else '/'

def encode : List UInt8 → Text
  | [] => []
  | [a] => [digit (a.toNat / 4), digit (a.toNat % 4 * 16), '=', '=']
  | [a, b] =>
    [digit (a.toNat / 4), digit (a.toNat % 4 * 16 + b.toNat / 16), digit (b.toNat % 16 * 4), '=']
  | a :: b :: c :: rest =>
    digit (a.toNat / 4) :: digit (a.toNat % 4 * 16 + b.toNat / 16) ::
      digit (b.toNat % 16 * 4 + c.toNat / 64) :: digit (c.toNat % 64) :: encode rest

theorem value_digit {n : Nat} (h : n < 64) : value (digit n) = some n := by
  have hall : ∀ n ∈ List.range 64, value (digit n) = some n := by decide
  exact hall n (List.mem_range.mpr h)

theorem digit_ne_pad {n : Nat} (h : n < 64) : digit n ≠ '=' := by
  have hall : ∀ n ∈ List.range 64, digit n ≠ '=' := by decide
  exact hall n (List.mem_range.mpr h)

theorem octet1_digits (a : UInt8) (low : Nat) (h : low < 16) :
    octet1 (a.toNat / 4) (a.toNat % 4 * 16 + low) = a := by
  have hvalue : a.toNat / 4 * 4 + (a.toNat % 4 * 16 + low) / 16 = a.toNat := by omega
  rw [octet1, hvalue, UInt8.ofNat_toNat]

theorem octet2_digits (b : UInt8) (high low : Nat) (h : low < 4) :
    octet2 (high * 16 + b.toNat / 16) (b.toNat % 16 * 4 + low) = b := by
  have hb := b.toNat_lt
  have hvalue : (high * 16 + b.toNat / 16) % 16 * 16 + (b.toNat % 16 * 4 + low) / 4 = b.toNat := by
    omega
  rw [octet2, hvalue, UInt8.ofNat_toNat]

theorem octet3_digits (c : UInt8) (high : Nat) :
    octet3 (high * 4 + c.toNat / 64) (c.toNat % 64) = c := by
  have hc := c.toNat_lt
  have hvalue : (high * 4 + c.toNat / 64) % 4 * 64 + c.toNat % 64 = c.toNat := by omega
  rw [octet3, hvalue, UInt8.ofNat_toNat]

theorem decode_encode (trailing : Bool) (raw : List UInt8) :
    decode trailing (encode raw) = some raw := by
  induction raw using encode.induct with
  | case1 => rfl
  | case2 a =>
    have ha := a.toNat_lt
    have hfirst := octet1_digits a 0 (by omega)
    have hmod : a.toNat % 4 * 16 % 16 = 0 := by omega
    rw [Nat.add_zero] at hfirst
    simp [encode, decode, one, value_digit (show a.toNat / 4 < 64 by omega),
      value_digit (show a.toNat % 4 * 16 < 64 by omega), hfirst, hmod]
  | case3 a b =>
    have ha := a.toNat_lt
    have hb := b.toNat_lt
    have hfirst := octet1_digits a (b.toNat / 16) (by omega)
    have hsecond := octet2_digits b (a.toNat % 4) 0 (by omega)
    have hmod : b.toNat % 16 * 4 % 4 = 0 := by omega
    have hpad := digit_ne_pad (show b.toNat % 16 * 4 < 64 by omega)
    rw [Nat.add_zero] at hsecond
    simp [encode, decode, two, hpad, value_digit (show a.toNat / 4 < 64 by omega),
      value_digit (show a.toNat % 4 * 16 + b.toNat / 16 < 64 by omega),
      value_digit (show b.toNat % 16 * 4 < 64 by omega), hfirst, hsecond, hmod]
  | case4 a b c rest ih =>
    have ha := a.toNat_lt
    have hb := b.toNat_lt
    have hc := c.toNat_lt
    have hfirst := octet1_digits a (b.toNat / 16) (by omega)
    have hsecond := octet2_digits b (a.toNat % 4) (c.toNat / 64) (by omega)
    have hthird := octet3_digits c (b.toNat % 16)
    have hpad := digit_ne_pad (show b.toNat % 16 * 4 + c.toNat / 64 < 64 by omega)
    have hpad' := digit_ne_pad (show c.toNat % 64 < 64 by omega)
    simp [encode, decode, three, hpad, hpad', value_digit (show a.toNat / 4 < 64 by omega),
      value_digit (show a.toNat % 4 * 16 + b.toNat / 16 < 64 by omega),
      value_digit (show b.toNat % 16 * 4 + c.toNat / 64 < 64 by omega),
      value_digit (show c.toNat % 64 < 64 by omega), hfirst, hsecond, hthird, ih]

/-- An encoded text has digits and padding only. -/
theorem mem_encode {raw : List UInt8} {c : Char} (hc : c ∈ encode raw) :
    c = '=' ∨ ∃ n < 64, c = digit n := by
  induction raw using encode.induct with
  | case1 => cases hc
  | case2 a =>
    have ha := a.toNat_lt
    simp only [encode, List.mem_cons, List.not_mem_nil, or_false] at hc
    rcases hc with h | h | h | h
    · exact Or.inr ⟨_, by omega, h⟩
    · exact Or.inr ⟨_, by omega, h⟩
    · exact Or.inl h
    · exact Or.inl h
  | case3 a b =>
    have ha := a.toNat_lt
    have hb := b.toNat_lt
    simp only [encode, List.mem_cons, List.not_mem_nil, or_false] at hc
    rcases hc with h | h | h | h
    · exact Or.inr ⟨_, by omega, h⟩
    · exact Or.inr ⟨_, by omega, h⟩
    · exact Or.inr ⟨_, by omega, h⟩
    · exact Or.inl h
  | case4 a b c' rest ih =>
    have ha := a.toNat_lt
    have hb := b.toNat_lt
    have hc' := c'.toNat_lt
    simp only [encode, List.mem_cons] at hc
    rcases hc with h | h | h | h | h
    · exact Or.inr ⟨_, by omega, h⟩
    · exact Or.inr ⟨_, by omega, h⟩
    · exact Or.inr ⟨_, by omega, h⟩
    · exact Or.inr ⟨_, by omega, h⟩
    · exact ih h

/-- Nothing may follow a group with padding, which ends what is no multiple of three octets. -/
theorem decode_append_of_padded {trailing : Bool} {padded more : Text} {raw : List UInt8}
    (h : decode trailing padded = some raw) (hpad : raw.length % 3 ≠ 0) (hmore : more ≠ []) :
    decode trailing (padded ++ more) = none := by
  fun_induction decode trailing padded generalizing raw with
  | case1 =>
    obtain rfl : [] = raw := by simpa using h
    exact absurd rfl hpad
  | case2 a b d rest hend =>
    obtain ⟨rfl, rfl⟩ := hend
    simp [decode, hmore]
  | case3 a b d rest hend => cases h
  | case4 a b c hc => simp [decode, hc, hmore]
  | case5 a b c rest hc hrest => cases h
  | case6 a b c d rest hc hd ih =>
    obtain ⟨octets, hoctets, raw', hraw', rfl⟩ : ∃ octets, three a b c d = some octets ∧
        ∃ raw', decode trailing rest = some raw' ∧ octets ++ raw' = raw := by
      simpa [Option.bind_eq_some_iff] using h
    have hthree : octets.length = 3 := by
      simp only [three, Option.bind_eq_bind, Option.bind_eq_some_iff, Option.some.injEq] at hoctets
      obtain ⟨_, _, _, _, _, _, _, _, rfl⟩ := hoctets
      rfl
    rw [List.length_append, hthree] at hpad
    have hrest := ih hraw' (by omega)
    simp [decode, hc, hd, hoctets, hrest]
  | case7 s hnil hgroup => cases h

end MailCue.Lib.Base64
