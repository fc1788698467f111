import Mathlib.Algebra.Group.Nat.Defs
import Mathlib.Data.List.Basic
import Mathlib.Tactic.Common

/-!
# Lawful prefix codecs

A `Codec` is an encoder into octets with a decoder that gives the value back
and leaves the octets after it untouched. The law is a field, so a codec that
does not round trip cannot be built. It is asked only of encodings that fit a
64-bit address space: length prefixes are 64-bit numbers.

Numbers use little-endian base-128 groups, every group but the last with its
high bit set, and at most as many groups as the width needs.
-/
namespace MailCue.Lib

abbrev Bytes := List UInt8

structure Codec (α : Type) where
  encode : α → Bytes
  decode : Bytes → Option (α × Bytes)
  decode_encode : ∀ (a : α) (rest : Bytes), (encode a).length < 2 ^ 64 →
    decode (encode a ++ rest) = some (a, rest)

namespace Codec

/-! ## Base-128 groups -/

/-- `more` bounds the groups after the first. -/
def encodeGroups : Nat → Nat → Bytes
  | 0, n => [UInt8.ofNat n]
  | more + 1, n =>
    if n < 128 then [UInt8.ofNat n]
    else UInt8.ofNat (n % 128 + 128) :: encodeGroups more (n / 128)

def decodeGroups : Nat → Bytes → Option (Nat × Bytes)
  | _, [] => none
  | 0, b :: rest => if b.toNat < 128 then some (b.toNat, rest) else none
  | more + 1, b :: rest =>
    if b.toNat < 128 then some (b.toNat, rest)
    else (decodeGroups more rest).map fun p => (b.toNat - 128 + 128 * p.1, p.2)

theorem toNat_ofNat_of_lt (n : Nat) (h : n < 256) : (UInt8.ofNat n).toNat = n := by
  simpa using Nat.mod_eq_of_lt h

theorem decodeGroups_encodeGroups (more n : Nat) (rest : Bytes) (h : n < 128 ^ (more + 1)) :
    decodeGroups more (encodeGroups more n ++ rest) = some (n, rest) := by
  induction more generalizing n with
  | zero =>
    have hn : n < 128 := by simpa using h
    simp [encodeGroups, decodeGroups, toNat_ofNat_of_lt n (by omega), hn]
  | succ more ih =>
    by_cases hn : n < 128
    · simp [encodeGroups, decodeGroups, hn, toNat_ofNat_of_lt n (by omega)]
    · have hq : n / 128 < 128 ^ (more + 1) := by
        rw [Nat.div_lt_iff_lt_mul (by decide)]
        simpa [Nat.pow_succ] using h
      have hb := toNat_ofNat_of_lt (n % 128 + 128) (by omega)
      simp only [encodeGroups, if_neg hn, List.cons_append, decodeGroups, hb, ih _ hq,
        Option.map_some]
      rw [if_neg (by omega)]
      simp only [Option.some.injEq, Prod.mk.injEq, and_true]
      omega

theorem encodeGroups_length_le (more n : Nat) : (encodeGroups more n).length ≤ more + 1 := by
  induction more generalizing n with
  | zero => simp [encodeGroups]
  | succ more ih =>
    unfold encodeGroups
    split
    · simp
    · simpa using ih (n / 128)

theorem encodeGroups_length_pos (more n : Nat) : 0 < (encodeGroups more n).length := by
  cases more with
  | zero => simp [encodeGroups]
  | succ more => unfold encodeGroups; split <;> simp

/-! ## Composition -/

/-- Transport a codec along a retraction. -/
def iso {α β : Type} (c : Codec α) (f : α → β) (g : β → α) (fg : ∀ b, f (g b) = b) : Codec β where
  encode b := c.encode (g b)
  decode bs := (c.decode bs).map fun p => (f p.1, p.2)
  decode_encode b rest h := by
    rw [c.decode_encode _ _ h]
    simp [fg]

/-- Refine a codec by a partial view: the decoder refuses values outside it. -/
def partialIso {α β : Type} (c : Codec α) (f : α → Option β) (g : β → α)
    (fg : ∀ b, f (g b) = some b) : Codec β where
  encode b := c.encode (g b)
  decode bs := (c.decode bs).bind fun p => (f p.1).map fun b => (b, p.2)
  decode_encode b rest h := by
    rw [c.decode_encode _ _ h]
    simp [fg]

def pair {α β : Type} (c : Codec α) (d : Codec β) : Codec (α × β) where
  encode p := c.encode p.1 ++ d.encode p.2
  decode bs := (c.decode bs).bind fun p => (d.decode p.2).map fun q => ((p.1, q.1), q.2)
  decode_encode p rest h := by
    rw [List.length_append] at h
    rw [List.append_assoc, c.decode_encode _ _ (by omega)]
    simp [d.decode_encode _ _ (show (d.encode p.2).length < 2 ^ 64 by omega)]

/-- A number below `2 ^ width`, in at most `more + 1` groups. -/
def number (more width : Nat) (fits : 2 ^ width ≤ 128 ^ (more + 1)) : Codec (Fin (2 ^ width)) where
  encode n := encodeGroups more n.val
  decode bs := (decodeGroups more bs).bind fun p =>
    if h : p.1 < 2 ^ width then some (⟨p.1, h⟩, p.2) else none
  decode_encode n rest _ := by
    rw [decodeGroups_encodeGroups more n.val rest (Nat.lt_of_lt_of_le n.isLt fits)]
    simp

def u16 : Codec UInt16 :=
  (number 2 16 (by decide)).iso (fun n => UInt16.ofFin n) (fun x => x.toFin) (fun x => by simp)

def u32 : Codec UInt32 :=
  (number 4 32 (by decide)).iso (fun n => UInt32.ofFin n) (fun x => x.toFin) (fun x => by simp)

def u64 : Codec UInt64 :=
  (number 9 64 (by decide)).iso (fun n => UInt64.ofFin n) (fun x => x.toFin) (fun x => by simp)

def bool : Codec Bool where
  encode b := [if b then 1 else 0]
  decode
    | [] => none
    | b :: rest => if b = 0 then some (false, rest) else if b = 1 then some (true, rest) else none
  decode_encode b rest _ := by cases b <;> rfl

/-- Length-prefixed octets. -/
def bytes : Codec Bytes where
  encode bs := encodeGroups 9 bs.length ++ bs
  decode input := (decodeGroups 9 input).bind fun p =>
    if p.1 ≤ p.2.length then some (p.2.take p.1, p.2.drop p.1) else none
  decode_encode bs rest h := by
    have hlen : bs.length < 128 ^ (9 + 1) := by
      rw [List.length_append] at h
      omega
    rw [List.append_assoc, decodeGroups_encodeGroups 9 bs.length (bs ++ rest) hlen]
    simp

theorem fromUTF8?_toUTF8 (s : String) :
    String.fromUTF8? (ByteArray.mk s.toByteArray.data.toList.toArray) = some s := by
  have hs : ByteArray.mk s.toByteArray.data.toList.toArray = s.toByteArray := by simp
  rw [hs]
  simp [String.fromUTF8?, s.isValidUTF8, String.fromUTF8]

/-- UTF-8 text; octets that are not valid UTF-8 are refused. -/
def string : Codec String :=
  bytes.partialIso (fun bs => String.fromUTF8? (ByteArray.mk bs.toArray))
    (fun s => s.toByteArray.data.toList) fromUTF8?_toUTF8

def option {α : Type} (c : Codec α) : Codec (Option α) where
  encode
    | none => [0]
    | some a => 1 :: c.encode a
  decode
    | [] => none
    | b :: rest =>
      if b = 0 then some (none, rest)
      else if b = 1 then (c.decode rest).map fun p => (some p.1, p.2)
      else none
  decode_encode o rest h := by
    cases o with
    | none => rfl
    | some a =>
      have ha : (c.encode a).length < 2 ^ 64 := by
        simp only [List.length_cons] at h
        omega
      simp [c.decode_encode a rest ha]

def decodeMany {α : Type} (c : Codec α) : Nat → Bytes → Option (List α × Bytes)
  | 0, bs => some ([], bs)
  | n + 1, bs => (c.decode bs).bind fun p => (decodeMany c n p.2).map fun q => (p.1 :: q.1, q.2)

theorem decodeMany_flatMap {α : Type} (c : Codec α) (as : List α) (rest : Bytes)
    (h : (as.flatMap c.encode).length < 2 ^ 64) :
    decodeMany c as.length (as.flatMap c.encode ++ rest) = some (as, rest) := by
  induction as with
  | nil => rfl
  | cons a as ih =>
    simp only [List.flatMap_cons, List.length_append] at h
    simp only [List.flatMap_cons, List.length_cons, List.append_assoc, decodeMany]
    rw [c.decode_encode a _ (by omega)]
    simp [ih (by omega)]

theorem length_le_flatMap {α : Type} (f : α → Bytes) (pos : ∀ a, 0 < (f a).length) (as : List α) :
    as.length ≤ (as.flatMap f).length := by
  induction as with
  | nil => simp
  | cons a as ih =>
    have := pos a
    simp only [List.flatMap_cons, List.length_cons, List.length_append]
    omega

/-- A counted sequence. Elements take room, so the count fits its prefix. -/
def list {α : Type} (c : Codec α) (pos : ∀ a, 0 < (c.encode a).length) : Codec (List α) where
  encode as := encodeGroups 9 as.length ++ as.flatMap c.encode
  decode bs := (decodeGroups 9 bs).bind fun p => decodeMany c p.1 p.2
  decode_encode as rest h := by
    rw [List.length_append] at h
    have hcount : as.length < 128 ^ (9 + 1) := by
      have := length_le_flatMap c.encode pos as
      omega
    rw [List.append_assoc, decodeGroups_encodeGroups 9 as.length _ hcount]
    simpa using decodeMany_flatMap c as rest (by omega)

/-- A tagged union: the tag's number, then that alternative's fields. -/
def tagged {ι : Type} (fields : ι → Type) (tag : ι → UInt32) (ofTag : UInt32 → Option ι)
    (ofTag_tag : ∀ i, ofTag (tag i) = some i) (c : ∀ i, Codec (fields i)) :
    Codec ((i : ι) × fields i) where
  encode x := u32.encode (tag x.1) ++ (c x.1).encode x.2
  decode bs := (u32.decode bs).bind fun p => (ofTag p.1).bind fun i =>
    ((c i).decode p.2).map fun q => (⟨i, q.1⟩, q.2)
  decode_encode x rest h := by
    rw [List.length_append] at h
    rw [List.append_assoc, u32.decode_encode _ _ (by omega)]
    simp [ofTag_tag, (c x.1).decode_encode x.2 rest (by omega)]

/-! ## Sizes -/

@[simp] theorem pair_encode {α β : Type} (c : Codec α) (d : Codec β) (p : α × β) :
    (c.pair d).encode p = c.encode p.1 ++ d.encode p.2 := rfl

@[simp] theorem iso_encode {α β : Type} (c : Codec α) (f : α → β) (g : β → α)
    (fg : ∀ b, f (g b) = b) (b : β) : (c.iso f g fg).encode b = c.encode (g b) := rfl

theorem u32_length_le (x : UInt32) : (u32.encode x).length ≤ 5 :=
  encodeGroups_length_le 4 _

theorem u64_length_le (x : UInt64) : (u64.encode x).length ≤ 10 :=
  encodeGroups_length_le 9 _

theorem bytes_length_le (bs : Bytes) : (bytes.encode bs).length ≤ bs.length + 10 := by
  have := encodeGroups_length_le 9 bs.length
  simp only [bytes, List.length_append]
  omega

theorem length_le_bytes (bs : Bytes) : bs.length ≤ (bytes.encode bs).length := by
  simp [bytes]

theorem string_length_le (s : String) : (string.encode s).length ≤ s.utf8ByteSize + 10 := by
  have := encodeGroups_length_le 9 s.toByteArray.data.toList.length
  simp only [string, partialIso, bytes, List.length_append, Array.length_toList] at this ⊢
  change _ + s.toByteArray.size ≤ s.toByteArray.size + 10
  omega

theorem option_length_le {α : Type} (c : Codec α) (n : Nat) (h : ∀ a, (c.encode a).length ≤ n)
    (o : Option α) : ((option c).encode o).length ≤ n + 1 := by
  cases o with
  | none => simp [option]
  | some a => simpa [option] using h a

theorem string_length_pos (s : String) : 0 < (string.encode s).length := by
  have := encodeGroups_length_pos 9 s.toByteArray.data.toList.length
  simp only [string, partialIso, bytes, List.length_append]
  omega

theorem utf8ByteSize_le_string (s : String) : s.utf8ByteSize ≤ (string.encode s).length := by
  simp only [string, partialIso, bytes, List.length_append, Array.length_toList]
  change s.toByteArray.size ≤ _ + s.toByteArray.size
  omega

end Codec

end MailCue.Lib
