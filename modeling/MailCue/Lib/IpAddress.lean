import Mathlib.Tactic.Ring
import MailCue.Lib.Text

/-!
# IP addresses

The texts of IPv4 and IPv6 addresses and of networks, as the module `ipaddress` of the
standard library reads them. How an IPv6 address is abbreviated when it is written
differs between versions; a `Rendering` is any way that is read back.
-/
namespace MailCue.Lib

inductive IpAddress
  | v4 (octets : List Nat)
  | v6 (hextets : List Nat) (scope : Option Text)
  deriving DecidableEq, Repr

inductive IpVersion
  | four | six
  deriving DecidableEq, Repr

namespace IpAddress

def version : IpAddress → IpVersion
  | v4 _ => .four
  | v6 _ _ => .six

/-! ## Numbers -/

def decimalValue (text : Text) : Nat := text.foldl (fun n c => 10 * n + (c.toNat - '0'.toNat)) 0

/-- ASCII digits only. -/
def readDecimal (text : Text) : Option Nat :=
  if text ≠ [] ∧ text.all Char.isDigit then some (decimalValue text) else none

/-- `_parse_octet`: no leading zero. -/
def readOctet (text : Text) : Option Nat := do
  let n ← readDecimal text
  if 3 < text.length ∨ (text ≠ ['0'] ∧ text.head? = some '0') ∨ 255 < n then none else some n

def hexValue (c : Char) : Option Nat :=
  if c.isDigit then some (c.toNat - '0'.toNat)
  else if 'a' ≤ c ∧ c ≤ 'f' then some (c.toNat - 'a'.toNat + 10)
  else if 'A' ≤ c ∧ c ≤ 'F' then some (c.toNat - 'A'.toNat + 10)
  else none

/-- `_parse_hextet` -/
def readHextet (text : Text) : Option Nat :=
  if text = [] ∨ 4 < text.length then none
  else text.foldlM (fun n c => (16 * n + ·) <$> hexValue c) 0

/-! ## Addresses -/

def readV4 (text : Text) : Option (List Nat) :=
  if (text.splitOn '.').length = 4 then (text.splitOn '.').mapM readOctet else none

/-- The parts of an IPv6 text, where an IPv4 address at the end is two of them. -/
def partsV6 (text : Text) : Option (List Text) :=
  let parts := text.splitOn ':'
  if parts.length < 3 then none
  else if '.' ∈ parts.getLastD [] then do
    match ← readV4 (parts.getLastD []) with
    | [a, b, c, d] =>
      return parts.dropLast ++ [Nat.toDigits 16 (256 * a + b), Nat.toDigits 16 (256 * c + d)]
    | _ => none
  else some parts

/-- What stands on one side of a `::`. The part at the edge of the text may be empty, and
then it is the only one. -/
def readSide (edge : Option Text) (parts : List Text) : Option (List Nat) :=
  if edge = some [] then if parts.length = 1 then some [] else none else parts.mapM readHextet

def readV6 (text : Text) : Option (List Nat) := do
  let parts ← partsV6 text
  if 9 < parts.length then none
  else
    match parts.tail.dropLast.findIdx? List.isEmpty with
    | none => if parts.length = 8 then parts.mapM readHextet else none
    | some skip_index =>
      if (parts.drop (skip_index + 2)).dropLast.any List.isEmpty then none
      else do
        let hi ← readSide parts.head? (parts.take (skip_index + 1))
        let lo ← readSide parts.getLast? (parts.drop (skip_index + 2))
        if 8 ≤ hi.length + lo.length then none
        else return hi ++ List.replicate (8 - (hi.length + lo.length)) 0 ++ lo

/-- `_split_scope_id` -/
def splitScope (text : Text) : Option (Text × Option Text) :=
  match text.dropWhile (· != '%') with
  | [] => some (text, none)
  | _ :: scope =>
    if scope = [] ∨ '%' ∈ scope then none else some (text.takeWhile (· != '%'), some scope)

def readScoped (text : Text) : Option IpAddress := do
  let (address, scope) ← splitScope text
  let hextets ← readV6 address
  return .v6 hextets scope

/-- `ipaddress.ip_address` -/
def read (text : Text) : Option IpAddress :=
  if '/' ∈ text then none else (v4 <$> readV4 text) <|> readScoped text

/-! ## Networks -/

def readPrefix (limit : Nat) (text : Text) : Option Nat := do
  let n ← readDecimal text
  if n ≤ limit then some n else none

/-- The prefix length of a netmask or a hostmask. -/
def readMask (text : Text) : Option Nat := do
  let octets ← readV4 text
  let n := octets.foldl (fun n octet => 256 * n + octet) 0
  ((List.range 33).find? fun k => n = 2 ^ 32 - 2 ^ (32 - k)) <|>
    (List.range 33).find? fun k => n = 2 ^ (32 - k) - 1

/-- `ipaddress.ip_network` with `strict=False`, as the address and the prefix length. -/
def readNetwork (text : Text) : Option (IpAddress × Nat) :=
  match text.splitOn '/' with
  | [address] =>
    ((v4 · , 32) <$> readV4 address) <|> ((·, 128) <$> readScoped address)
  | [address, mask] =>
    (do return (v4 (← readV4 address), ← (readPrefix 32 mask <|> readMask mask))) <|>
      do return (← readScoped address, ← readPrefix 128 mask)
  | _ => none

example : readNetwork "2001:DB8::7".toList =
    some (.v6 [0x2001, 0xdb8, 0, 0, 0, 0, 0, 7] none, 128) := by decide

/-! ## Networks that are not public -/

def number : IpAddress → Nat
  | v4 octets => octets.foldl (fun n octet => 256 * n + octet) 0
  | v6 hextets _ => hextets.foldl (fun n hextet => 65536 * n + hextet) 0

def width : IpVersion → Nat
  | .four => 32
  | .six => 128

def inNetwork (address : IpAddress) (text : String) : Bool :=
  match readNetwork text.toList with
  | none => false
  | some (network, bits) =>
    address.version == network.version &&
      address.number >>> (width network.version - bits) ==
        network.number >>> (width network.version - bits)

/-- The registries of special addresses. -/
def privateNetworks : List String :=
  ["0.0.0.0/8", "10.0.0.0/8", "127.0.0.0/8", "169.254.0.0/16", "172.16.0.0/12", "192.0.0.0/24",
    "192.0.0.170/31", "192.0.2.0/24", "192.168.0.0/16", "198.18.0.0/15", "198.51.100.0/24",
    "203.0.113.0/24", "240.0.0.0/4", "255.255.255.255/32", "::1/128", "::/128", "::ffff:0:0/96",
    "64:ff9b:1::/48", "100::/64", "2001::/23", "2001:db8::/32", "2002::/16", "3fff::/20",
    "fc00::/7", "fe80::/10"]

def privateNetworksExceptions : List String :=
  ["192.0.0.9/32", "192.0.0.10/32", "2001:1::1/128", "2001:1::2/128", "2001:3::/32",
    "2001:4:112::/48", "2001:20::/28", "2001:30::/28"]

def isPrivate (address : IpAddress) : Bool :=
  privateNetworks.any (inNetwork address) && !privateNetworksExceptions.any (inNetwork address)

/-- The IPv4 address an IPv6 address stands for. -/
def ipv4Mapped : IpAddress → Option IpAddress
  | v6 [0, 0, 0, 0, 0, 0xffff, high, low] _ =>
    some (v4 [high / 256, high % 256, low / 256, low % 256])
  | _ => none

/-- `is_global` -/
def isGlobal (address : IpAddress) : Bool :=
  let address := address.ipv4Mapped.getD address
  !inNetwork address "100.64.0.0/10" && !isPrivate address

/-! ## Writing -/

def octetText (n : Nat) : Text := Nat.toDigits 10 n

/-- The characters an address is written in. -/
def isPlain (c : Char) : Bool := c.isDigit || ('a' ≤ c && c ≤ 'f') || c == ':' || c == '.'

/-- A way of writing the eight numbers of an IPv6 address, in lower case. -/
structure Rendering where
  text : List Nat → Text
  reads : ∀ hextets : List Nat, hextets.length = 8 → (∀ n ∈ hextets, n < 65536) →
    readV6 (text hextets) = some hextets
  plain : ∀ hextets, ∀ c ∈ text hextets, isPlain c = true

/-- `str` of an address. -/
def write (rendering : Rendering) : IpAddress → Text
  | v4 octets => ['.'].intercalate (octets.map octetText)
  | v6 hextets none => rendering.text hextets
  | v6 hextets (some scope) => rendering.text hextets ++ '%' :: scope

/-! ## What is read -/

/-- Numbers in range, and a scope that stands in one text with them. -/
def Valid : IpAddress → Prop
  | v4 octets => octets.length = 4 ∧ ∀ n ∈ octets, n < 256
  | v6 hextets scope => hextets.length = 8 ∧ (∀ n ∈ hextets, n < 65536) ∧
      ∀ text ∈ scope, text ≠ [] ∧ '%' ∉ text ∧ '/' ∉ text

theorem readOctet_lt {text : Text} {n : Nat} (h : readOctet text = some n) : n < 256 := by
  cases hread : readDecimal text with
  | none => simp [readOctet, hread] at h
  | some m =>
    simp only [readOctet, hread, Option.bind_eq_bind, Option.bind_some] at h
    split at h
    · cases h
    · rename_i hok
      obtain rfl := Option.some.inj h
      omega

theorem forall_of_mapM {read : Text → Option Nat} {limit : Nat}
    (hread : ∀ text n, read text = some n → n < limit) {texts : List Text} {numbers : List Nat}
    (h : texts.mapM read = some numbers) :
    numbers.length = texts.length ∧ ∀ n ∈ numbers, n < limit := by
  obtain ⟨hlength, -, hfound⟩ := Text.of_mapM h
  refine ⟨hlength, fun n hn => ?_⟩
  obtain ⟨text, -, htext⟩ := hfound n hn
  exact hread text n htext

theorem readV4_valid {text : Text} {octets : List Nat} (h : readV4 text = some octets) :
    octets.length = 4 ∧ ∀ n ∈ octets, n < 256 := by
  unfold readV4 at h
  split at h
  · rename_i hfour
    obtain ⟨hlength, hall⟩ := forall_of_mapM (fun _ _ => readOctet_lt) h
    exact ⟨hlength.trans hfour, hall⟩
  · cases h

theorem hexValue_lt {c : Char} {n : Nat} (h : hexValue c = some n) : n < 16 := by
  have hascii : ∀ lo hi : Char, lo ≤ c ∧ c ≤ hi → lo.toNat ≤ c.toNat ∧ c.toNat ≤ hi.toNat :=
    fun lo hi h => h
  unfold hexValue at h
  split at h
  · rename_i hdigit
    have hle : c.toNat ≤ 57 := by
      simp only [Char.isDigit, Bool.and_eq_true, decide_eq_true_eq] at hdigit
      exact hdigit.2
    obtain rfl := Option.some.inj h
    have hzero : '0'.toNat = 48 := rfl
    omega
  · split at h
    · rename_i hlower
      obtain ⟨h1, h2⟩ := hascii _ _ hlower
      obtain rfl := Option.some.inj h
      have ha : 'a'.toNat = 97 := rfl
      have hf : 'f'.toNat = 102 := rfl
      omega
    · split at h
      · rename_i hupper
        obtain ⟨h1, h2⟩ := hascii _ _ hupper
        obtain rfl := Option.some.inj h
        have ha : 'A'.toNat = 65 := rfl
        have hf : 'F'.toNat = 70 := rfl
        omega
      · cases h

/-- Hexadecimal digits behind a number. -/
theorem foldlM_hex_lt {text : Text} {start n : Nat}
    (h : text.foldlM (fun n c => (16 * n + ·) <$> hexValue c) start = some n) :
    n < (start + 1) * 16 ^ text.length := by
  induction text generalizing start with
  | nil =>
    obtain rfl : start = n := by simpa using h
    simp
  | cons c text ih =>
    simp only [List.foldlM_cons, Option.bind_eq_bind, Option.bind_eq_some_iff,
      Option.map_eq_map, Option.map_eq_some_iff] at h
    obtain ⟨-, ⟨digit, hdigit, rfl⟩, hrest⟩ := h
    have hlt := hexValue_lt hdigit
    calc n < (16 * start + digit + 1) * 16 ^ text.length := ih hrest
      _ ≤ (16 * (start + 1)) * 16 ^ text.length := Nat.mul_le_mul_right _ (by omega)
      _ = (start + 1) * 16 ^ (c :: text).length := by
        rw [List.length_cons, Nat.pow_succ]
        ring

theorem readHextet_lt {text : Text} {n : Nat} (h : readHextet text = some n) : n < 65536 := by
  unfold readHextet at h
  split at h
  · cases h
  · rename_i hshort
    have hlt := foldlM_hex_lt h
    have hle : 16 ^ text.length ≤ 16 ^ 4 := Nat.pow_le_pow_right (by decide) (by omega)
    omega

theorem readSide_valid {edge : Option Text} {parts : List Text} {numbers : List Nat}
    (h : readSide edge parts = some numbers) : ∀ n ∈ numbers, n < 65536 := by
  unfold readSide at h
  split at h
  · split at h
    · obtain rfl := Option.some.inj h
      exact fun n hn => by cases hn
    · cases h
  · exact (forall_of_mapM (fun _ _ => readHextet_lt) h).2

theorem readV6_valid {text : Text} {hextets : List Nat} (h : readV6 text = some hextets) :
    hextets.length = 8 ∧ ∀ n ∈ hextets, n < 65536 := by
  simp only [readV6, Option.bind_eq_bind, Option.bind_eq_some_iff] at h
  obtain ⟨parts, -, h⟩ := h
  split at h
  · cases h
  · split at h
    · split at h
      · rename_i height
        obtain ⟨hlength, hall⟩ := forall_of_mapM (fun _ _ => readHextet_lt) h
        exact ⟨hlength.trans height, hall⟩
      · cases h
    · split at h
      · cases h
      · simp only [Option.bind_eq_some_iff] at h
        obtain ⟨hi, hhi, lo, hlo, h⟩ := h
        split at h
        · cases h
        · rename_i hroom
          obtain rfl := Option.some.inj h
          refine ⟨by simp only [List.length_append, List.length_replicate]; omega, fun n hn => ?_⟩
          simp only [List.mem_append] at hn
          rcases hn with (hn | hn) | hn
          · exact readSide_valid hhi n hn
          · rw [List.eq_of_mem_replicate hn]
            decide
          · exact readSide_valid hlo n hn

theorem splitScope_valid {text address : Text} {scope : Option Text}
    (hslash : '/' ∉ text) (h : splitScope text = some (address, scope)) :
    ∀ s ∈ scope, s ≠ [] ∧ '%' ∉ s ∧ '/' ∉ s := by
  unfold splitScope at h
  split at h
  · cases h
    exact fun s hs => by cases hs
  · rename_i c rest hdrop
    split at h
    · cases h
    · rename_i hok
      cases h
      intro s hs
      obtain rfl := Option.some.inj hs
      refine ⟨fun hnil => hok (.inl hnil), fun hpercent => hok (.inr hpercent), fun hmem => hslash ?_⟩
      have hsuffix : c :: rest <:+ text := hdrop ▸ List.dropWhile_suffix _
      exact hsuffix.subset (List.mem_cons_of_mem c hmem)

theorem scope_subset_splitScope {text address scope : Text}
    (h : splitScope text = some (address, some scope)) : scope ⊆ text := by
  unfold splitScope at h
  split at h
  · cases h
  · rename_i c rest hdrop
    split at h
    · cases h
    · cases h
      have hsuffix : c :: scope <:+ text := hdrop ▸ List.dropWhile_suffix _
      exact fun d hd => hsuffix.subset (List.mem_cons_of_mem c hd)

/-- How an IPv6 address was read. -/
theorem splitScope_of_read {text : Text} {hextets : List Nat} {scope : Option Text}
    (h : read text = some (v6 hextets scope)) : ∃ address, splitScope text = some (address, scope) := by
  unfold read at h
  split at h
  · cases h
  · cases hfour : readV4 text with
    | some octets => simp [hfour] at h
    | none =>
      simp only [hfour, Option.map_eq_map, Option.map_none, Option.orElse_eq_orElse,
        Option.orElse_none, readScoped, Option.bind_eq_bind, Option.bind_eq_some_iff,
        Option.pure_def, Option.some.injEq, Prod.exists] at h
      obtain ⟨front, found, hsplit, hextets', -, heq⟩ := h
      cases heq
      exact ⟨front, hsplit⟩

theorem read_valid {text : Text} {address : IpAddress} (h : read text = some address) :
    address.Valid := by
  unfold read at h
  split at h
  · cases h
  · rename_i hslash
    cases hfour : readV4 text with
    | some octets =>
      obtain rfl : v4 octets = address := by simpa [hfour] using h
      exact readV4_valid hfour
    | none =>
      simp only [hfour, Option.map_eq_map, Option.map_none, Option.orElse_eq_orElse,
        Option.orElse_none, readScoped, Option.bind_eq_bind, Option.bind_eq_some_iff,
        Option.pure_def, Option.some.injEq, Prod.exists] at h
      obtain ⟨front, scope, hsplit, hextets, hread, rfl⟩ := h
      obtain ⟨hlength, hall⟩ := readV6_valid hread
      exact ⟨hlength, hall, splitScope_valid hslash hsplit⟩

/-! ## What is written is read back -/

/-- The address with its scope in lower case. -/
def lowered : IpAddress → IpAddress
  | v4 octets => v4 octets
  | v6 hextets scope => v6 hextets (scope.map Text.asciiLower)

theorem readOctet_octetText : ∀ n < 256, readOctet (octetText n) = some n := by
  decide +kernel

theorem octetText_digits (n : Nat) : (octetText n).all Char.isDigit = true :=
  List.all_eq_true.mpr fun _ hc => Nat.isDigit_of_mem_toDigits (by decide) (by decide) hc

theorem isPlain_of_isDigit {c : Char} (h : c.isDigit = true) : isPlain c = true := by
  simp [isPlain, h]

theorem not_isPlain_of_mem {c : Char} (h : c ∈ ['/', '%', '=', ' ']) : isPlain c = false := by
  simp only [List.mem_cons, List.not_mem_nil, or_false] at h
  rcases h with rfl | rfl | rfl | rfl
  · decide
  · decide
  · decide
  · decide

/-- What is written in lower case is ASCII and no space. -/
theorem ascii_of_isPlain {c : Char} (h : isPlain c = true) :
    Text.ascii c = true ∧ c.toLower = c ∧ Text.isSpace c = false := by
  have hrange : c.toNat < 128 := by
    simp only [isPlain, Char.isDigit, Bool.or_eq_true, Bool.and_eq_true, decide_eq_true_eq,
      beq_iff_eq] at h
    rcases h with ((h | h) | rfl) | rfl
    · have hle : c.toNat ≤ 57 := h.2
      omega
    · have hle : c.toNat ≤ 102 := h.2
      omega
    · decide
    · decide
  have hall : ∀ n < 128, isPlain (Char.ofNat n) = true → Text.ascii (Char.ofNat n) = true ∧
      (Char.ofNat n).toLower = Char.ofNat n ∧ Text.isSpace (Char.ofNat n) = false := by decide
  have hone := hall c.toNat hrange
  rw [Char.ofNat_toNat] at hone
  exact hone h

theorem mapM_map {α : Type} {write : α → Text} {read : Text → Option α} {numbers : List α}
    (h : ∀ n ∈ numbers, read (write n) = some n) : (numbers.map write).mapM read = some numbers := by
  induction numbers with
  | nil => rfl
  | cons n numbers ih =>
    obtain ⟨hn, hrest⟩ := List.forall_mem_cons.mp h
    simp [List.mapM_cons, hn, ih hrest]

section
variable {rendering : Rendering} {address : IpAddress}

theorem plain_writeV4 {octets : List Nat} :
    ∀ c ∈ write rendering (v4 octets), isPlain c = true := by
  intro c hc
  rcases Text.mem_intercalate hc with rfl | ⟨part, hpart, hmem⟩
  · decide
  · obtain ⟨n, hn, rfl⟩ := List.mem_map.mp hpart
    exact isPlain_of_isDigit (List.all_eq_true.mp (octetText_digits n) c hmem)

theorem readV4_write {octets : List Nat} (hfour : octets.length = 4) (h : ∀ n ∈ octets, n < 256) :
    readV4 (write rendering (v4 octets)) = some octets := by
  have hsplit : (write rendering (v4 octets)).splitOn '.' = octets.map octetText := by
    refine List.splitOn_intercalate _ ?_ ?_
    · intro part hpart hdot
      obtain ⟨n, hn, rfl⟩ := List.mem_map.mp hpart
      have hdigit := List.all_eq_true.mp (octetText_digits n) _ hdot
      exact absurd hdigit (by decide)
    · rintro hnil
      rw [List.map_eq_nil_iff.mp hnil] at hfour
      cases hfour
  rw [readV4, hsplit, if_pos (by simpa using hfour)]
  exact mapM_map fun n hn => readOctet_octetText n (h n hn)

/-- A text with a colon is no IPv4 address. -/
theorem readV4_of_colon {text : Text} (h : ':' ∈ text) : readV4 text = none := by
  cases hread : readV4 text with
  | none => rfl
  | some octets =>
    unfold readV4 at hread
    split at hread
    · rcases Text.mem_splitOn '.' h with heq | ⟨piece, hpiece, hmem⟩
      · exact absurd heq (by decide)
      · obtain ⟨n, -, hn⟩ := (Text.of_mapM hread).2.1 piece hpiece
        have hdigits : piece.all Char.isDigit = true := by
          cases hdecimal : readDecimal piece with
          | none => simp [readOctet, hdecimal] at hn
          | some m =>
            unfold readDecimal at hdecimal
            split at hdecimal
            · rename_i hok
              exact hok.2
            · cases hdecimal
        exact absurd (List.all_eq_true.mp hdigits _ hmem) (by decide)
    · cases hread

theorem colon_of_readV6 {text : Text} {hextets : List Nat} (h : readV6 text = some hextets) :
    ':' ∈ text := by
  by_contra hnot
  have hone : text.splitOn ':' = [text] := List.splitOn_eq_singleton hnot
  simp [readV6, partsV6, hone] at h

theorem splitScope_write {text : Text} (h : '%' ∉ text) {scope : Option Text}
    (hscope : ∀ s ∈ scope, s ≠ [] ∧ '%' ∉ s ∧ '/' ∉ s) :
    splitScope (text ++ scope.elim [] fun s => '%' :: s) = some (text, scope) := by
  have hbefore : ∀ c ∈ text, (c != '%') = true := fun c hc => Text.bne_of_not_mem h hc
  cases scope with
  | none =>
    have hdrop : text.dropWhile (· != '%') = [] := List.dropWhile_eq_nil_iff.mpr hbefore
    simp only [Option.elim_none, splitScope, List.append_nil, hdrop]
  | some s =>
    obtain ⟨hne, hpercent, -⟩ := hscope s rfl
    have hdrop : (text ++ '%' :: s).dropWhile (· != '%') = '%' :: s := by
      rw [List.dropWhile_append_of_pos hbefore, List.dropWhile_cons_of_neg (by decide)]
    have htake : (text ++ '%' :: s).takeWhile (· != '%') = text := by
      rw [List.takeWhile_append_of_pos hbefore, List.takeWhile_cons_of_neg (by decide),
        List.append_nil]
    simp only [Option.elim_some, splitScope, hdrop, htake]
    rw [if_neg fun h => h.elim hne hpercent]

theorem write_v6 (hextets : List Nat) (scope : Option Text) :
    write rendering (v6 hextets scope) =
      rendering.text hextets ++ scope.elim [] fun s => '%' :: s := by
  cases scope with
  | none => rw [write, Option.elim_none, List.append_nil]
  | some s => rfl

/-- What an address is written with is plain, the sign of a scope, or of the scope. -/
theorem mem_write (h : address.Valid) {c : Char} (hc : c ∈ write rendering address) :
    isPlain c = true ∨ ∃ hextets scope, address = v6 hextets (some scope) ∧ (c = '%' ∨ c ∈ scope) := by
  cases address with
  | v4 octets => exact .inl (plain_writeV4 c hc)
  | v6 hextets scope =>
    rw [write_v6] at hc
    rcases List.mem_append.mp hc with hc | hc
    · exact .inl (rendering.plain hextets c hc)
    · cases scope with
      | none => cases hc
      | some scope => exact .inr ⟨hextets, scope, rfl, List.mem_cons.mp hc⟩

theorem slash_not_mem_write (h : address.Valid) : '/' ∉ write rendering address := by
  intro hc
  rcases mem_write h hc with hplain | ⟨hextets, scope, rfl, heq | hmem⟩
  · exact absurd hplain (by decide)
  · exact absurd heq (by decide)
  · exact (h.2.2 scope rfl).2.2 hmem

/-- An address as it is written is a network of one address. -/
theorem readNetwork_write (h : address.Valid) :
    ∃ len, readNetwork (write rendering address) = some (address, len) := by
  have hone : (write rendering address).splitOn '/' = [write rendering address] :=
    List.splitOn_eq_singleton (slash_not_mem_write h)
  cases address with
  | v4 octets =>
    refine ⟨32, ?_⟩
    simp only [readNetwork, hone, readV4_write h.1 h.2]
    rfl
  | v6 hextets scope =>
    refine ⟨128, ?_⟩
    obtain ⟨hlength, hall, hscope⟩ := h
    have hread := rendering.reads hextets hlength hall
    have hcolon : ':' ∈ write rendering (v6 hextets scope) := by
      rw [write_v6]
      exact List.mem_append_left _ (colon_of_readV6 hread)
    have hpercent : '%' ∉ rendering.text hextets := by
      intro hmem
      exact absurd (rendering.plain hextets _ hmem) (by decide)
    have hscoped : readScoped (write rendering (v6 hextets scope)) = some (v6 hextets scope) := by
      rw [readScoped, write_v6, splitScope_write hpercent hscope]
      simp [hread]
    simp only [readNetwork, hone, readV4_of_colon hcolon, hscoped]
    rfl

theorem asciiLower_of_plain {text : Text} (h : ∀ c ∈ text, isPlain c = true) :
    Text.asciiLower text = text := by
  have hmap : text.map Char.toLower = text.map id :=
    List.map_congr_left fun c hc => (ascii_of_isPlain (h c hc)).2.1
  rw [Text.asciiLower, hmap, List.map_id]

theorem asciiLower_write (h : address.Valid) :
    Text.asciiLower (write rendering address) = write rendering address.lowered := by
  cases address with
  | v4 octets => exact asciiLower_of_plain plain_writeV4
  | v6 hextets scope =>
    have htext := asciiLower_of_plain (rendering.plain hextets)
    rw [lowered, write_v6, write_v6]
    cases scope with
    | none => simpa [Text.asciiLower] using htext
    | some scope =>
      have hpercent : ('%' : Char).toLower = '%' := by decide
      simpa [Text.asciiLower, hpercent] using htext

theorem Valid.lowered (h : address.Valid) : address.lowered.Valid := by
  cases address with
  | v4 octets => exact h
  | v6 hextets scope =>
    refine ⟨h.1, h.2.1, ?_⟩
    intro s hs
    obtain ⟨scope, rfl, rfl⟩ := Option.map_eq_some_iff.mp hs
    obtain ⟨hne, hpercent, hslash⟩ := h.2.2 scope rfl
    refine ⟨fun hnil => hne (List.map_eq_nil_iff.mp hnil), fun hmem => ?_, fun hmem => ?_⟩
    · obtain ⟨c, hc, heq⟩ := List.mem_map.mp hmem
      exact hpercent (Text.toLower_eq_of_not_alpha (by decide) heq ▸ hc)
    · obtain ⟨c, hc, heq⟩ := List.mem_map.mp hmem
      exact hslash (Text.toLower_eq_of_not_alpha (by decide) heq ▸ hc)

end

/-! ## Without abbreviation -/

def hexDigit (n : Nat) : Char := if n < 10 then Char.ofNat (48 + n) else Char.ofNat (87 + n)

def hexGroup (n : Nat) : Text :=
  [n / 4096 % 16, n / 256 % 16, n / 16 % 16, n % 16].map hexDigit

theorem hexDigit_reads : ∀ n < 16, hexValue (hexDigit n) = some n ∧ isPlain (hexDigit n) = true ∧
    hexDigit n ≠ ':' ∧ hexDigit n ≠ '.' := by decide

theorem readHextet_hexGroup {n : Nat} (h : n < 65536) : readHextet (hexGroup n) = some n := by
  have hread : ∀ m, hexValue (hexDigit (m % 16)) = some (m % 16) := fun m =>
    (hexDigit_reads _ (Nat.mod_lt _ (by decide))).1
  simp only [readHextet, hexGroup, List.map_cons, List.map_nil, List.length_cons, List.length_nil,
    List.foldlM_cons, List.foldlM_nil, hread, reduceCtorEq, Option.map_eq_map, Option.map_some,
    Option.bind_eq_bind, Option.bind_some, Option.pure_def]
  norm_num
  omega

theorem mem_hexGroup {n : Nat} {c : Char} (hc : c ∈ hexGroup n) :
    isPlain c = true ∧ c ≠ ':' ∧ c ≠ '.' := by
  obtain ⟨m, hm, rfl⟩ := List.mem_map.mp hc
  have hlt : m < 16 := by
    simp only [List.mem_cons, List.not_mem_nil, or_false] at hm
    omega
  exact (hexDigit_reads m hlt).2

/-- Eight groups of four digits. -/
def Rendering.exploded : Rendering where
  text hextets := [':'].intercalate (hextets.map hexGroup)
  reads hextets hlength hall := by
    have hsplit : ([':'].intercalate (hextets.map hexGroup)).splitOn ':' = hextets.map hexGroup := by
      refine List.splitOn_intercalate _ ?_ ?_
      · intro part hpart hcolon
        obtain ⟨n, -, rfl⟩ := List.mem_map.mp hpart
        exact (mem_hexGroup hcolon).2.1 rfl
      · rintro hnil
        rw [List.map_eq_nil_iff.mp hnil] at hlength
        cases hlength
    have hgroup : ∀ part ∈ hextets.map hexGroup, part.isEmpty = false ∧ '.' ∉ part := by
      intro part hpart
      obtain ⟨n, -, rfl⟩ := List.mem_map.mp hpart
      exact ⟨rfl, fun hdot => (mem_hexGroup hdot).2.2 rfl⟩
    have hnumber : (hextets.map hexGroup).length = 8 := by simpa using hlength
    have hlast : '.' ∉ (hextets.map hexGroup).getLastD [] := by
      rw [List.getLastD_eq_getLast?]
      cases hget : (hextets.map hexGroup).getLast? with
      | none => simp
      | some part => exact (hgroup part (List.mem_of_getLast? hget)).2
    have hparts : partsV6 ([':'].intercalate (hextets.map hexGroup)) =
        some (hextets.map hexGroup) := by
      simp only [partsV6, hsplit, hnumber]
      rw [if_neg (by decide), if_neg hlast]
    have hskip : (hextets.map hexGroup).tail.dropLast.findIdx? List.isEmpty = none := by
      refine List.findIdx?_eq_none_iff.mpr fun part hpart => (hgroup part ?_).1
      exact List.mem_of_mem_tail (List.mem_of_mem_dropLast hpart)
    simp only [readV6, hparts, Option.bind_eq_bind, Option.bind_some, hnumber, hskip]
    exact mapM_map fun n hn => readHextet_hexGroup (hall n hn)
  plain hextets c hc := by
    rcases Text.mem_intercalate hc with rfl | ⟨part, hpart, hmem⟩
    · decide
    · obtain ⟨n, -, rfl⟩ := List.mem_map.mp hpart
      exact (mem_hexGroup hmem).1

/-! ## Letters of either case -/

theorem isDigit_toLower (c : Char) : c.toLower.isDigit = c.isDigit :=
  Text.toLower_cases (P := fun d c => d.isDigit = c.isDigit) (fun _ => rfl) (by decide) c

theorem toLower_of_isDigit {c : Char} (h : c.isDigit = true) : c.toLower = c :=
  Text.toLower_cases (P := fun d c => c.isDigit = true → d = c) (fun _ _ => rfl)
    (by decide) c h

theorem hexValue_toLower (c : Char) : hexValue c.toLower = hexValue c :=
  Text.toLower_cases (P := fun d c => hexValue d = hexValue c) (fun _ => rfl)
    (by decide) c

theorem asciiLower_of_digits {text : Text} (h : ∀ c ∈ text, c.isDigit = true) :
    Text.asciiLower text = text := by
  conv_rhs => rw [← List.map_id text]
  exact List.map_congr_left fun c hc => toLower_of_isDigit (h c hc)

theorem all_isDigit_asciiLower (text : Text) :
    (Text.asciiLower text).all Char.isDigit = text.all Char.isDigit := by
  rw [Text.asciiLower, List.all_map]
  exact congrArg text.all (funext isDigit_toLower)

theorem readOctet_asciiLower (text : Text) : readOctet (Text.asciiLower text) = readOctet text := by
  cases hdigits : text.all Char.isDigit with
  | true => rw [asciiLower_of_digits (List.all_eq_true.mp hdigits)]
  | false =>
    have hnone : ∀ t : Text, t.all Char.isDigit = false → readOctet t = none := by
      intro t ht
      simp [readOctet, readDecimal, ht]
    rw [hnone text hdigits, hnone _ ((all_isDigit_asciiLower text).trans hdigits)]

theorem readV4_asciiLower (text : Text) : readV4 (Text.asciiLower text) = readV4 text := by
  unfold readV4
  rw [Text.splitOn_asciiLower (by decide), List.length_map]
  split
  · rw [List.mapM_map]
    exact congrArg (List.mapM · _) (funext readOctet_asciiLower)
  · rfl

theorem readHextet_asciiLower (text : Text) :
    readHextet (Text.asciiLower text) = readHextet text := by
  simp only [readHextet, Text.asciiLower, List.map_eq_nil_iff, List.length_map, List.foldlM_map,
    hexValue_toLower]

/-- Digits are written in lower case. -/
theorem asciiLower_toDigits (n : Nat) :
    Text.asciiLower (Nat.toDigits 16 n) = Nat.toDigits 16 n := by
  have hdigit : ∀ d < 16, d.digitChar.toLower = d.digitChar := by decide
  induction n using Nat.strong_induction_on with
  | _ n ih =>
    rw [Nat.toDigits_eq_if (by decide)]
    split
    · rename_i hsmall
      rw [Text.asciiLower, List.map_singleton, hdigit n hsmall]
    · rename_i hlarge
      have hhigh := ih (n / 16) (Nat.div_lt_self (by omega) (by decide))
      rw [Text.asciiLower] at hhigh ⊢
      rw [List.map_append, hhigh, List.map_singleton, hdigit _ (Nat.mod_lt _ (by decide))]

theorem dot_mem_asciiLower {text : Text} : '.' ∈ Text.asciiLower text ↔ '.' ∈ text := by
  constructor
  · intro h
    obtain ⟨c, hc, hdot⟩ := List.mem_map.mp h
    exact Text.toLower_eq_of_not_alpha (by decide) hdot ▸ hc
  · intro h
    exact List.mem_map.mpr ⟨'.', h, by decide⟩

theorem partsV6_asciiLower (text : Text) :
    partsV6 (Text.asciiLower text) = (partsV6 text).map (·.map Text.asciiLower) := by
  have hlast : ∀ parts : List Text, (parts.map Text.asciiLower).getLastD [] =
      Text.asciiLower (parts.getLastD []) := by
    intro parts
    rw [List.getLastD_eq_getLast?, List.getLastD_eq_getLast?, List.getLast?_map]
    cases parts.getLast? with
    | none => rfl
    | some part => rfl
  unfold partsV6
  rw [Text.splitOn_asciiLower (by decide)]
  simp only [List.length_map, hlast, dot_mem_asciiLower, readV4_asciiLower]
  split
  · rfl
  · split
    · cases readV4 ((text.splitOn ':').getLastD []) with
      | none => rfl
      | some octets =>
        simp only [Option.bind_eq_bind, Option.bind_some]
        split
        · simp [List.map_dropLast, asciiLower_toDigits]
        · rfl
    · rfl

theorem readSide_asciiLower (edge : Option Text) (parts : List Text) :
    readSide (edge.map Text.asciiLower) (parts.map Text.asciiLower) = readSide edge parts := by
  have hedge : edge.map Text.asciiLower = some [] ↔ edge = some [] := by
    cases edge with
    | none => simp
    | some text => simp [Text.asciiLower]
  simp only [readSide, hedge, List.length_map, List.mapM_map]
  split
  · rfl
  · exact congrArg (List.mapM · parts) (funext readHextet_asciiLower)

/-- An IPv6 address is the same in lower case. -/
theorem readV6_asciiLower (text : Text) : readV6 (Text.asciiLower text) = readV6 text := by
  have hempty : List.isEmpty ∘ Text.asciiLower = List.isEmpty := by
    funext part
    simp [Text.asciiLower]
  unfold readV6
  rw [partsV6_asciiLower]
  cases partsV6 text with
  | none => rfl
  | some parts =>
    simp only [Option.map_some, Option.bind_eq_bind, Option.bind_some, List.length_map]
    split
    · rfl
    · rw [← List.map_tail, ← List.map_dropLast, List.findIdx?_map, hempty]
      cases parts.tail.dropLast.findIdx? List.isEmpty with
      | none =>
        simp only [List.mapM_map]
        split
        · exact congrArg (List.mapM · parts) (funext readHextet_asciiLower)
        · rfl
      | some skip_index =>
        simp only [← List.map_drop, ← List.map_take, ← List.map_dropLast, List.any_map, hempty,
          List.head?_map, List.getLast?_map, readSide_asciiLower]

/-! ## What an address is written with -/

theorem percent_not_mem_of_readHextet {text : Text} {n : Nat} (h : readHextet text = some n) :
    '%' ∉ text := by
  have hfold : ∀ {text : Text} {start n : Nat},
      text.foldlM (fun n c => (16 * n + ·) <$> hexValue c) start = some n → '%' ∉ text := by
    intro text
    induction text with
    | nil => exact fun _ => List.not_mem_nil
    | cons c text ih =>
      intro start n h
      rw [List.foldlM_cons, Option.bind_eq_bind, Option.bind_eq_some_iff] at h
      obtain ⟨m, hc, hrest⟩ := h
      rintro (_ | ⟨_, hmem⟩)
      · cases hc
      · exact ih hrest hmem
  unfold readHextet at h
  split at h
  · cases h
  · exact hfold h

theorem percent_not_mem_of_readV4 {text : Text} {octets : List Nat} (h : readV4 text = some octets) :
    '%' ∉ text := by
  unfold readV4 at h
  split at h
  · intro hmem
    rcases Text.mem_splitOn '.' hmem with hdot | ⟨piece, hpiece, hmem⟩
    · cases hdot
    · obtain ⟨n, -, hread⟩ := (Text.of_mapM h).2.1 piece hpiece
      have hdigits : piece.all Char.isDigit = true := by
        by_contra hnot
        simp [readOctet, readDecimal, hnot] at hread
      exact absurd (List.all_eq_true.mp hdigits _ hmem) (by decide)
  · cases h

theorem percent_not_mem_of_readSide {edge : Option Text} {parts : List Text}
    {numbers : List Nat} (h : readSide edge parts = some numbers)
    (hedge : ∀ part, parts = [part] → edge = some [] → part = []) :
    ∀ part ∈ parts, '%' ∉ part := by
  unfold readSide at h
  split at h
  · rename_i hempty
    split at h
    · rename_i hone
      obtain ⟨part, rfl⟩ := List.length_eq_one_iff.mp hone
      rw [hedge part rfl hempty]
      simp
    · cases h
  · intro part hpart
    obtain ⟨n, -, hread⟩ := (Text.of_mapM h).2.1 part hpart
    exact percent_not_mem_of_readHextet hread

/-- An IPv6 address has no scope in it. -/
theorem percent_not_mem_of_readV6 {text : Text} {hextets : List Nat}
    (h : readV6 text = some hextets) : '%' ∉ text := by
  simp only [readV6, Option.bind_eq_bind, Option.bind_eq_some_iff] at h
  obtain ⟨parts, hparts, h⟩ := h
  have hall : ∀ part ∈ parts, '%' ∉ part := by
    split at h
    · cases h
    · split at h
      · split at h
        · intro part hpart
          obtain ⟨n, -, hread⟩ := (Text.of_mapM h).2.1 part hpart
          exact percent_not_mem_of_readHextet hread
        · cases h
      · rename_i skip_index hskip
        split at h
        · cases h
        · simp only [Option.bind_eq_some_iff] at h
          obtain ⟨hi, hhi, lo, hlo, -⟩ := h
          obtain ⟨hskip, hempty, -⟩ := List.findIdx?_eq_some_iff_getElem.mp hskip
          rw [List.length_dropLast, List.length_tail] at hskip
          have hsplit : parts = parts.take (skip_index + 1) ++ parts[skip_index + 1] ::
              parts.drop (skip_index + 2) := by
            rw [← List.drop_eq_getElem_cons, List.take_append_drop]
          have hnone : parts[skip_index + 1] = [] := by simpa using hempty
          intro part hpart
          rw [hsplit, List.mem_append, List.mem_cons, hnone] at hpart
          rcases hpart with hpart | rfl | hpart
          · refine percent_not_mem_of_readSide hhi (fun first hfirst hedge => ?_) part hpart
            have hhead := congrArg List.head? hfirst
            rw [List.head?_take, if_neg (Nat.succ_ne_zero _), hedge] at hhead
            exact (Option.some.inj hhead).symm
          · exact List.not_mem_nil
          · refine percent_not_mem_of_readSide hlo (fun last hlast hedge => ?_) part hpart
            have hend := congrArg List.getLast? hlast
            rw [List.getLast?_drop, hedge] at hend
            split at hend
            · cases hend
            · exact (Option.some.inj hend).symm
  intro hmem
  rcases Text.mem_splitOn ':' hmem with hcolon | ⟨piece, hpiece, hmem⟩
  · cases hcolon
  · unfold partsV6 at hparts
    simp only at hparts
    split at hparts
    · cases hparts
    · split at hparts
      · obtain ⟨octets, hoctets, hparts⟩ := Option.bind_eq_some_iff.mp hparts
        split at hparts
        · obtain rfl := Option.some.inj hparts
          have hne := List.splitOn_ne_nil ':' text
          rw [← List.dropLast_append_getLast hne, List.mem_append, List.mem_singleton] at hpiece
          rcases hpiece with hpiece | rfl
          · exact hall piece (List.mem_append_left _ hpiece) hmem
          · rw [List.getLastD_eq_getLast?, List.getLast?_eq_some_getLast hne] at hoctets
            exact percent_not_mem_of_readV4 hoctets hmem
        · cases hparts
      · obtain rfl := Option.some.inj hparts
        exact hall piece hpiece hmem

/-! ## What a network is written with -/

theorem dot_mem_of_readMask {text : Text} {n : Nat} (h : readMask text = some n) : '.' ∈ text := by
  by_contra hdot
  have hone : text.splitOn '.' = [text] := List.splitOn_eq_singleton hdot
  simp [readMask, readV4, hone] at h

theorem version_of_readScoped {text : Text} {address : IpAddress}
    (h : readScoped text = some address) : address.version = .six := by
  obtain ⟨parts, -, h⟩ := Option.bind_eq_some_iff.mp h
  obtain ⟨hextets, -, h⟩ := Option.bind_eq_some_iff.mp h
  rw [← Option.some.inj h]
  rfl

/-- Without a percent sign there is no scope. -/
theorem readV6_of_readScoped {text : Text} {address : IpAddress} (hplain : '%' ∉ text)
    (h : readScoped text = some address) : (readV6 text).isSome = true := by
  have hnone : text.dropWhile (· != '%') = [] :=
    List.dropWhile_eq_nil_iff.mpr fun c hc => by simpa using fun heq : c = '%' => hplain (heq ▸ hc)
  rw [readScoped, splitScope, hnone] at h
  obtain ⟨parts, hparts, h⟩ := Option.bind_eq_some_iff.mp h
  obtain rfl := Option.some.inj hparts
  obtain ⟨hextets, hread, -⟩ := Option.bind_eq_some_iff.mp h
  exact Option.isSome_iff_exists.mpr ⟨hextets, hread⟩

/-- How the networks of one version are written. -/
theorem of_readNetwork {text : Text} {address : IpAddress} {n : Nat}
    (h : readNetwork text = some (address, n)) :
    ∃ front, (text.splitOn '/' = [front] ∨ ∃ mask, text.splitOn '/' = [front, mask] ∧
        (readPrefix (width address.version) mask = some n ∨ readMask mask = some n)) ∧
      match address.version with
      | .four => (readV4 front).isSome = true
      | .six => readScoped front = some address := by
  unfold readNetwork at h
  split at h
  · rename_i front hsplit
    refine ⟨front, .inl hsplit, ?_⟩
    cases hfour : readV4 front with
    | some octets =>
      rw [hfour] at h
      cases h
      rfl
    | none =>
      rw [hfour] at h
      obtain ⟨found, hfound, h⟩ := Option.map_eq_some_iff.mp h
      cases h
      rw [version_of_readScoped hfound]
      exact hfound
  · rename_i front mask hsplit
    rcases (Option.orElse_eq_some _ _ _).mp h with hfour | ⟨-, hsix⟩
    · obtain ⟨octets, hoctets, h⟩ := Option.bind_eq_some_iff.mp hfour
      obtain ⟨m, hmask, h⟩ := Option.bind_eq_some_iff.mp h
      cases h
      refine ⟨front, .inr ⟨mask, hsplit, ?_⟩, Option.isSome_iff_exists.mpr ⟨octets, hoctets⟩⟩
      rcases (Option.orElse_eq_some _ _ _).mp hmask with hprefix | ⟨-, hmask⟩
      · exact .inl hprefix
      · exact .inr hmask
    · obtain ⟨found, hfound, h⟩ := Option.bind_eq_some_iff.mp hsix
      obtain ⟨m, hprefix, h⟩ := Option.bind_eq_some_iff.mp h
      cases h
      refine ⟨front, .inr ⟨mask, hsplit, .inl ?_⟩, ?_⟩
      · rw [version_of_readScoped hfound]
        exact hprefix
      · rw [version_of_readScoped hfound]
        exact hfound
  · cases h

end IpAddress

end MailCue.Lib
