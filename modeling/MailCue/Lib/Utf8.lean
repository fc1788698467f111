import MailCue.Lib.Codec

/-!
# UTF-8

Octets that encode characters. An ASCII octet never lies inside the encoding of another
character, so an encoding may be cut in front of it and behind it.
-/
namespace MailCue.Lib.Utf8

def encode (text : List Char) : Bytes := text.flatMap String.utf8EncodeChar

def Valid (octets : Bytes) : Prop := ∃ text, octets = encode text

theorem isValidUTF8_iff (octets : Bytes) :
    (ByteArray.mk octets.toArray).IsValidUTF8 ↔ Valid octets := by
  have harray : ∀ l : Bytes, ByteArray.mk l.toArray = l.toByteArray := fun l =>
    ByteArray.ext (by simp)
  have hinj : ∀ l m : Bytes, l.toByteArray = m.toByteArray → l = m := by
    intro l m h
    rw [← harray, ← harray] at h
    simpa using h
  rw [harray]
  constructor
  · rintro ⟨text, h⟩
    exact ⟨text, hinj _ _ h⟩
  · rintro ⟨text, rfl⟩
    exact ⟨text, rfl⟩

theorem valid_nil : Valid [] := ⟨[], rfl⟩

theorem Valid.append {octets more : Bytes} (h : Valid octets) (hmore : Valid more) :
    Valid (octets ++ more) := by
  obtain ⟨text, rfl⟩ := h
  obtain ⟨text', rfl⟩ := hmore
  exact ⟨text ++ text', by simp [encode]⟩

@[simp] theorem encode_append (text more : List Char) :
    encode (text ++ more) = encode text ++ encode more := List.flatMap_append

theorem encode_flatten (texts : List (List Char)) :
    encode texts.flatten = (texts.map encode).flatten := by
  induction texts with
  | nil => rfl
  | cons text texts ih => rw [List.flatten_cons, encode_append, ih, List.map_cons, List.flatten_cons]

theorem encode_injective {text text' : List Char} (h : encode text = encode text') :
    text = text' := by
  have harray : (String.ofList text).toByteArray = (String.ofList text').toByteArray :=
    congrArg List.toByteArray h
  exact String.ofList_injective (String.toByteArray_inj.mp harray)

/-- A character with an ASCII octet in its encoding is that octet. -/
theorem encodeChar_of_ascii_mem {c : Char} {octet : UInt8} (h : octet ∈ String.utf8EncodeChar c)
    (hascii : octet.toNat < 128) : String.utf8EncodeChar c = [octet] := by
  have high : ∀ n : Nat, 128 ≤ n → n < 256 → octet ≠ UInt8.ofNat n := by
    rintro n hn hlt rfl
    rw [UInt8.toNat_ofNat', Nat.mod_eq_of_lt hlt] at hascii
    omega
  revert h
  fun_cases String.utf8EncodeChar c with
  | case1 v hv =>
    intro h
    rw [List.mem_singleton.mp h]
  | case2 v =>
    intro h
    rcases List.mem_cons.mp h with h | h
    · exact absurd h (high _ (by omega) (by omega))
    · exact absurd (List.mem_singleton.mp h) (high _ (by omega) (by omega))
  | case3 v =>
    intro h
    simp only [List.mem_cons, List.not_mem_nil, or_false] at h
    rcases h with h | h | h <;> exact absurd h (high _ (by omega) (by omega))
  | case4 v =>
    intro h
    simp only [List.mem_cons, List.not_mem_nil, or_false] at h
    rcases h with h | h | h | h <;> exact absurd h (high _ (by omega) (by omega))

/-- The highest octets begin no character. -/
theorem toNat_lt_of_mem {octet : UInt8} {text : List Char} (h : octet ∈ encode text) :
    octet.toNat < 248 := by
  obtain ⟨c, -, hc⟩ := List.mem_flatMap.mp h
  have low : ∀ n : Nat, n < 248 → octet = UInt8.ofNat n → octet.toNat < 248 := by
    rintro n hn rfl
    rw [UInt8.toNat_ofNat', Nat.mod_eq_of_lt (by omega)]
    exact hn
  revert hc
  fun_cases String.utf8EncodeChar c with
  | case1 v hv =>
    intro hc
    exact low v (by omega) (List.mem_singleton.mp hc)
  | case2 v =>
    intro hc
    simp only [List.mem_cons, List.not_mem_nil, or_false] at hc
    rcases hc with h | h <;> exact low _ (by omega) h
  | case3 v =>
    intro hc
    simp only [List.mem_cons, List.not_mem_nil, or_false] at hc
    rcases hc with h | h | h <;> exact low _ (by omega) h
  | case4 v =>
    intro hc
    simp only [List.mem_cons, List.not_mem_nil, or_false] at hc
    rcases hc with h | h | h | h <;> exact low _ (by omega) h

/-- An ASCII octet is in the encoding of a text where its own character is in the text. -/
theorem mem_encode_iff {c : Char} {octet : UInt8} (hc : String.utf8EncodeChar c = [octet])
    (hascii : octet.toNat < 128) (text : List Char) : octet ∈ encode text ↔ c ∈ text := by
  constructor
  · intro h
    obtain ⟨c', hmem, hin⟩ := List.mem_flatMap.mp h
    have hsame : encode [c'] = encode [c] := by
      simp only [encode, List.flatMap_singleton]
      rw [encodeChar_of_ascii_mem hin hascii, hc]
    rwa [← List.singleton_inj.mp (encode_injective hsame)]
  · intro h
    exact List.mem_flatMap.mpr ⟨c, h, by rw [hc]; exact List.mem_singleton_self octet⟩

theorem valid_ascii {octet : UInt8} (h : octet.toNat < 128) : Valid [octet] := by
  have hvalid : octet.toNat.isValidChar := .inl (by omega)
  have hscalar : (Char.ofNat octet.toNat).val.toNat = octet.toNat := by
    rw [Char.ofNat, dif_pos hvalid]
    rfl
  refine ⟨[Char.ofNat octet.toNat], ?_⟩
  rw [encode, List.flatMap_singleton, String.utf8EncodeChar, hscalar, if_pos (by omega),
    UInt8.ofNat_toNat]

/-- ASCII is one octet each. -/
theorem encode_of_ascii {text : List Char} (h : ∀ c ∈ text, c.toNat < 128) :
    encode text = text.map fun c => UInt8.ofNat c.toNat := by
  induction text with
  | nil => rfl
  | cons c text ih =>
    obtain ⟨hc, htext⟩ := List.forall_mem_cons.mp h
    have hone : String.utf8EncodeChar c = [UInt8.ofNat c.toNat] := by
      rw [String.utf8EncodeChar, if_pos (by exact Nat.le_of_lt_succ hc)]
      rfl
    change String.utf8EncodeChar c ++ encode text = _
    rw [ih htext, hone]
    rfl

/-- The encoding falls apart at an ASCII octet. -/
theorem valid_cut {octet : UInt8} (h : octet.toNat < 128) (front back : Bytes) :
    Valid (front ++ octet :: back) ↔ Valid front ∧ Valid back := by
  constructor
  · rintro ⟨text, htext⟩
    induction text generalizing front with
    | nil => simp [encode] at htext
    | cons c text ih =>
      change front ++ octet :: back = String.utf8EncodeChar c ++ encode text at htext
      rcases List.append_eq_append_iff.mp htext with ⟨inner, hc, hrest⟩ | ⟨inner, hfront, hrest⟩
      · -- the octet begins a character or is inside one
        cases inner with
        | nil =>
          rw [List.nil_append] at hrest
          rw [List.append_nil] at hc
          have ⟨_, hback⟩ := ih [] hrest
          exact ⟨⟨[c], by simp [encode, hc]⟩, hback⟩
        | cons d inner =>
          obtain ⟨rfl, rfl⟩ := List.cons.inj hrest
          have hmem : octet ∈ String.utf8EncodeChar c := by simp [hc]
          rw [encodeChar_of_ascii_mem hmem h] at hc
          have hlength := congrArg List.length hc
          simp only [List.length_append, List.length_cons, List.length_nil] at hlength
          obtain rfl := List.eq_nil_of_length_eq_zero (show front.length = 0 by omega)
          obtain rfl := List.eq_nil_of_length_eq_zero (show inner.length = 0 by omega)
          exact ⟨valid_nil, text, rfl⟩
      · subst hfront
        obtain ⟨⟨text', htext'⟩, hback⟩ := ih inner hrest.symm
        exact ⟨⟨c :: text', by rw [htext']; rfl⟩, hback⟩
  · rintro ⟨hfront, hback⟩
    exact hfront.append ((valid_ascii h).append hback)

/-! ## Decoding and slicing -/

def decode? (octets : Bytes) : Option (List Char) :=
  (String.fromUTF8? (ByteArray.mk octets.toArray)).map String.toList

theorem toByteArray_ofList (text : List Char) :
    (String.ofList text).toByteArray = ByteArray.mk (encode text).toArray :=
  ByteArray.ext (by simp [String.toByteArray_ofList, List.utf8Encode, encode])

theorem decode?_eq_some_iff {octets : Bytes} {text : List Char} :
    decode? octets = some text ↔ octets = encode text := by
  unfold decode? String.fromUTF8?
  constructor
  · intro h
    obtain ⟨s, hs, rfl⟩ := Option.map_eq_some_iff.mp h
    split at hs
    · have hbytes : s.toByteArray = ByteArray.mk octets.toArray := by
        rw [← Option.some.inj hs]
        rfl
      have hencode := toByteArray_ofList s.toList
      rw [String.ofList_toList, hbytes] at hencode
      simpa using hencode
    · cases hs
  · rintro rfl
    have hvalid : (ByteArray.mk (encode text).toArray).IsValidUTF8 :=
      (isValidUTF8_iff _).mpr ⟨text, rfl⟩
    rw [dif_pos (by simpa using hvalid), Option.map_some]
    refine congrArg some (String.ofList_injective ?_)
    rw [String.ofList_toList]
    exact String.toByteArray_inj.mp (toByteArray_ofList text).symm

/-- The number of octets. -/
def size (text : List Char) : Nat := (encode text).length

@[simp] theorem size_nil : size [] = 0 := rfl

@[simp] theorem size_cons (c : Char) (text : List Char) :
    size (c :: text) = c.utf8Size + size text := by
  simp [size, encode]

@[simp] theorem size_append (text more : List Char) : size (text ++ more) = size text + size more := by
  simp [size]

/-- Cut behind the first octets, where that is between two characters. -/
def splitAt? : Nat → List Char → Option (List Char × List Char)
  | 0, text => some ([], text)
  | _ + 1, [] => none
  | n + 1, c :: text =>
    if c.utf8Size ≤ n + 1 then
      (splitAt? (n + 1 - c.utf8Size) text).map fun p => (c :: p.1, p.2)
    else none

theorem size_of_single {text : List Char} (h : ∀ c ∈ text, c.utf8Size = 1) :
    size text = text.length := by
  induction text with
  | nil => rfl
  | cons c text ih =>
    obtain ⟨hc, htext⟩ := List.forall_mem_cons.mp h
    rw [size_cons, hc, ih htext, List.length_cons, Nat.add_comm]

theorem size_eq_zero_iff (text : List Char) : size text = 0 ↔ text = [] := by
  cases text with
  | nil => simp
  | cons c text =>
    have hpos := c.utf8Size_pos
    simp only [size_cons, reduceCtorEq, iff_false]
    omega

theorem splitAt?_eq_some_iff {n : Nat} {text front back : List Char} :
    splitAt? n text = some (front, back) ↔ text = front ++ back ∧ size front = n := by
  induction text generalizing n front with
  | nil =>
    cases n with
    | zero =>
      rw [splitAt?, Option.some.injEq, Prod.mk.injEq, size_eq_zero_iff]
      constructor
      · rintro ⟨rfl, rfl⟩
        exact ⟨rfl, rfl⟩
      · rintro ⟨happend, rfl⟩
        exact ⟨rfl, happend⟩
    | succ n =>
      rw [splitAt?]
      refine iff_of_false nofun ?_
      rintro ⟨happend, hsize⟩
      rw [(List.append_eq_nil_iff.mp happend.symm).1] at hsize
      cases hsize
  | cons c text ih =>
    have hpos := c.utf8Size_pos
    cases n with
    | zero =>
      rw [splitAt?, Option.some.injEq, Prod.mk.injEq, size_eq_zero_iff]
      constructor
      · rintro ⟨rfl, rfl⟩
        exact ⟨rfl, rfl⟩
      · rintro ⟨happend, rfl⟩
        exact ⟨rfl, happend⟩
    | succ n =>
      rw [splitAt?]
      constructor
      · intro h
        split at h
        · obtain ⟨⟨front', back'⟩, hsplit, heq⟩ := Option.map_eq_some_iff.mp h
          cases heq
          obtain ⟨rfl, hsize⟩ := ih.mp hsplit
          have hfront : size front' = n + 1 - c.utf8Size := hsize
          refine ⟨rfl, ?_⟩
          change size (c :: front') = n + 1
          rw [size_cons]
          omega
        · cases h
      · rintro ⟨happend, hsize⟩
        cases front with
        | nil => cases hsize
        | cons c' front =>
          obtain ⟨rfl, rfl⟩ := List.cons.inj happend
          rw [size_cons] at hsize
          rw [if_pos (by omega), ih.mpr ⟨rfl, by omega⟩]
          rfl

/-! ## Decoding octet by octet -/

/-- The decoder of the Encoding standard: the code point so far, how many octets it still
needs, and between what bounds the next of them lies. -/
structure Decoder where
  codePoint : Nat
  needed : Nat
  lower : Nat
  upper : Nat

namespace Decoder

def start : Decoder := ⟨0, 0, 0x80, 0xBF⟩

def replacement : Char := '\uFFFD'

/-- The first octet of a character. -/
def lead (octet : Nat) : Decoder × List Char :=
  if octet ≤ 0x7F then (start, [Char.ofNat octet])
  else if 0xC2 ≤ octet ∧ octet ≤ 0xDF then (⟨octet % 0x20, 1, 0x80, 0xBF⟩, [])
  else if 0xE0 ≤ octet ∧ octet ≤ 0xEF then
    (⟨octet % 0x10, 2, if octet = 0xE0 then 0xA0 else 0x80,
      if octet = 0xED then 0x9F else 0xBF⟩, [])
  else if 0xF0 ≤ octet ∧ octet ≤ 0xF4 then
    (⟨octet % 8, 3, if octet = 0xF0 then 0x90 else 0x80, if octet = 0xF4 then 0x8F else 0xBF⟩, [])
  else (start, [replacement])

/-- An octet that does not continue a character is read again as the first of one. -/
def step (decoder : Decoder) (octet : UInt8) : Decoder × List Char :=
  if decoder.needed = 0 then lead octet.toNat
  else if decoder.lower ≤ octet.toNat ∧ octet.toNat ≤ decoder.upper then
    if decoder.needed = 1 then
      (start, [Char.ofNat (decoder.codePoint * 64 + octet.toNat % 64)])
    else (⟨decoder.codePoint * 64 + octet.toNat % 64, decoder.needed - 1, 0x80, 0xBF⟩, [])
  else ((lead octet.toNat).1, replacement :: (lead octet.toNat).2)

def run : Decoder → Bytes → Decoder × List Char
  | decoder, [] => (decoder, [])
  | decoder, octet :: octets =>
    let (next, text) := decoder.step octet
    let (last, more) := run next octets
    (last, text ++ more)

theorem run_append (decoder : Decoder) (octets more : Bytes) :
    decoder.run (octets ++ more) =
      (((decoder.run octets).1.run more).1,
        (decoder.run octets).2 ++ ((decoder.run octets).1.run more).2) := by
  induction octets generalizing decoder with
  | nil => rfl
  | cons octet octets ih => simp [run, ih]

/-- An octet within the bounds continues the character. -/
theorem step_continue {codePoint more lower upper n : Nat} (hlower : lower ≤ n) (hupper : n ≤ upper)
    (hn : n < 256) :
    (Decoder.mk codePoint (more + 2) lower upper).step (UInt8.ofNat n) =
      (⟨codePoint * 64 + n % 64, more + 1, 0x80, 0xBF⟩, []) := by
  have htoNat : (UInt8.ofNat n).toNat = n := by rw [UInt8.toNat_ofNat', Nat.mod_eq_of_lt hn]
  rw [step, htoNat, if_neg (by simp), if_pos ⟨hlower, hupper⟩, if_neg (by simp)]
  rfl

theorem step_last {codePoint lower upper n : Nat} (hlower : lower ≤ n) (hupper : n ≤ upper)
    (hn : n < 256) :
    (Decoder.mk codePoint 1 lower upper).step (UInt8.ofNat n) =
      (start, [Char.ofNat (codePoint * 64 + n % 64)]) := by
  have htoNat : (UInt8.ofNat n).toNat = n := by rw [UInt8.toNat_ofNat', Nat.mod_eq_of_lt hn]
  rw [step, htoNat, if_neg (by simp), if_pos ⟨hlower, hupper⟩, if_pos rfl]

theorem step_start {n : Nat} (hn : n < 256) : start.step (UInt8.ofNat n) = lead n := by
  have htoNat : (UInt8.ofNat n).toNat = n := by rw [UInt8.toNat_ofNat', Nat.mod_eq_of_lt hn]
  rw [step, htoNat, start, if_pos rfl]

theorem run_encodeChar (c : Char) : start.run (String.utf8EncodeChar c) = (start, [c]) := by
  have hc : Char.ofNat c.toNat = c := Char.ofNat_toNat c
  have hvalid : c.toNat < 0xD800 ∨ 0xDFFF < c.toNat ∧ c.toNat < 0x110000 := c.valid
  fun_cases String.utf8EncodeChar c with
  | case1 v hv =>
    change c.toNat ≤ 0x7f at hv
    change start.run [UInt8.ofNat c.toNat] = _
    rw [run, step_start (by omega), lead, if_pos hv, hc]
    rfl
  | case2 v hv hv' =>
    change ¬ c.toNat ≤ 0x7f at hv
    change c.toNat ≤ 0x7ff at hv'
    change start.run [UInt8.ofNat (c.toNat / 64 % 0x20 + 0xc0),
      UInt8.ofNat (c.toNat % 0x40 + 0x80)] = _
    have hlead : lead (c.toNat / 64 % 0x20 + 0xc0) = (⟨c.toNat / 64, 1, 0x80, 0xBF⟩, []) := by
      rw [lead, if_neg (by omega), if_pos (by omega)]
      congr 2
      omega
    have hpoint : c.toNat / 64 * 64 + (c.toNat % 0x40 + 0x80) % 64 = c.toNat := by omega
    simp only [run]
    rw [step_start (by omega), hlead, step_last (by omega) (by omega) (by omega), hpoint, hc]
    rfl
  | case3 v hv hv' hv'' =>
    change ¬ c.toNat ≤ 0x7ff at hv'
    change c.toNat ≤ 0xffff at hv''
    change start.run [UInt8.ofNat (c.toNat / 4096 % 0x10 + 0xe0),
      UInt8.ofNat (c.toNat / 64 % 0x40 + 0x80), UInt8.ofNat (c.toNat % 0x40 + 0x80)] = _
    have hlead : lead (c.toNat / 4096 % 0x10 + 0xe0) = (⟨c.toNat / 4096, 2,
        if c.toNat / 4096 % 0x10 + 0xe0 = 0xE0 then 0xA0 else 0x80,
        if c.toNat / 4096 % 0x10 + 0xe0 = 0xED then 0x9F else 0xBF⟩, []) := by
      rw [lead, if_neg (by omega), if_neg (by omega), if_pos (by omega)]
      congr 2
      omega
    have hpoint : (c.toNat / 4096 * 64 + (c.toNat / 64 % 0x40 + 0x80) % 64) * 64 +
        (c.toNat % 0x40 + 0x80) % 64 = c.toNat := by omega
    simp only [run]
    rw [step_start (by omega), hlead]
    -- neither an overlong encoding nor a surrogate
    rw [step_continue (by split <;> omega) (by split <;> omega) (by omega),
      step_last (by omega) (by omega) (by omega), hpoint, hc]
    rfl
  | case4 v hv hv' hv'' =>
    change ¬ c.toNat ≤ 0xffff at hv''
    change start.run [UInt8.ofNat (c.toNat / 262144 % 0x08 + 0xf0),
      UInt8.ofNat (c.toNat / 4096 % 0x40 + 0x80), UInt8.ofNat (c.toNat / 64 % 0x40 + 0x80),
      UInt8.ofNat (c.toNat % 0x40 + 0x80)] = _
    have hlead : lead (c.toNat / 262144 % 0x08 + 0xf0) = (⟨c.toNat / 262144, 3,
        if c.toNat / 262144 % 0x08 + 0xf0 = 0xF0 then 0x90 else 0x80,
        if c.toNat / 262144 % 0x08 + 0xf0 = 0xF4 then 0x8F else 0xBF⟩, []) := by
      rw [lead, if_neg (by omega), if_neg (by omega), if_neg (by omega), if_pos (by omega)]
      congr 2
      omega
    have hpoint : ((c.toNat / 262144 * 64 + (c.toNat / 4096 % 0x40 + 0x80) % 64) * 64 +
        (c.toNat / 64 % 0x40 + 0x80) % 64) * 64 + (c.toNat % 0x40 + 0x80) % 64 = c.toNat := by
      omega
    simp only [run]
    rw [step_start (by omega), hlead]
    -- neither an overlong encoding nor a code point behind the last
    rw [step_continue (by split <;> omega) (by split <;> omega) (by omega),
      step_continue (by omega) (by omega) (by omega),
      step_last (by omega) (by omega) (by omega), hpoint, hc]
    rfl

/-- The decoder gives an encoded text back, and is between two characters then. -/
theorem run_encode (text : List Char) : start.run (encode text) = (start, text) := by
  induction text with
  | nil => rfl
  | cons c text ih =>
    change start.run (String.utf8EncodeChar c ++ encode text) = _
    rw [run_append, run_encodeChar, ih]
    rfl

end Decoder

end MailCue.Lib.Utf8
