import Mathlib.Data.List.Sort
import MailCue.Lib.Percent
import MailCue.Lib.Utf8

/-!
# Form fields

Names with values: in the order of their names, and as `application/x-www-form-urlencoded`
writes them and reads them back.
-/
namespace MailCue.Lib.Form

/-! ## The order of the names -/

/-- By code points, and a text in front of its continuations. -/
def textLe : Text → Text → Bool
  | [], _ => true
  | _ :: _, [] => false
  | c :: s, d :: t => c.toNat < d.toNat || (c == d && textLe s t)

theorem textLe_cons {c d : Char} {s t : Text} :
    textLe (c :: s) (d :: t) = true ↔ c.toNat < d.toNat ∨ c = d ∧ textLe s t = true := by
  simp [textLe]

theorem textLe_total (s t : Text) : textLe s t = true ∨ textLe t s = true := by
  induction s generalizing t with
  | nil => exact .inl rfl
  | cons c s ih =>
    cases t with
    | nil => exact .inr rfl
    | cons d t =>
      rw [textLe_cons, textLe_cons]
      rcases Nat.lt_trichotomy c.toNat d.toNat with hlt | heq | hgt
      · exact .inl (.inl hlt)
      · obtain rfl : c = d := Char.toNat_inj.mp heq
        exact (ih t).imp (fun h => .inr ⟨rfl, h⟩) fun h => .inr ⟨rfl, h⟩
      · exact .inr (.inl hgt)

theorem textLe_trans {s t u : Text} (hst : textLe s t = true) (htu : textLe t u = true) :
    textLe s u = true := by
  induction s generalizing t u with
  | nil => rfl
  | cons c s ih =>
    cases t with
    | nil => cases hst
    | cons d t =>
      cases u with
      | nil => cases htu
      | cons e u =>
        rw [textLe_cons] at hst htu ⊢
        rcases hst with hlt | ⟨rfl, hst⟩
        · rcases htu with hlt' | ⟨rfl, -⟩
          · exact .inl (hlt.trans hlt')
          · exact .inl hlt
        · rcases htu with hlt | ⟨rfl, htu⟩
          · exact .inl hlt
          · exact .inr ⟨rfl, ih hst htu⟩

theorem textLe_antisymm {s t : Text} (hst : textLe s t = true) (hts : textLe t s = true) :
    s = t := by
  induction s generalizing t with
  | nil =>
    cases t with
    | nil => rfl
    | cons d t => cases hts
  | cons c s ih =>
    cases t with
    | nil => cases hst
    | cons d t =>
      rw [textLe_cons] at hst hts
      rcases hst with hlt | ⟨rfl, hst⟩
      · rcases hts with hlt' | ⟨rfl, -⟩
        · omega
        · omega
      · rcases hts with hlt | ⟨-, hts⟩
        · omega
        · rw [ih hst hts]

section
variable {α β : Type}

def NameLe (a b : Text × α) : Prop := textLe a.1 b.1 = true

instance : DecidableRel (NameLe (α := α)) := fun _ _ => inferInstanceAs (Decidable (_ = true))

instance : Std.Total (NameLe (α := α)) := ⟨fun a b => textLe_total a.1 b.1⟩

instance : IsTrans (Text × α) NameLe := ⟨fun _ _ _ => textLe_trans⟩

def names (fields : List (Text × α)) : List Text := fields.map Prod.fst

@[simp] theorem names_append (fields more : List (Text × α)) :
    names (fields ++ more) = names fields ++ names more := List.map_append

theorem pairwise_nameLe_iff {fields : List (Text × α)} :
    fields.Pairwise NameLe ↔ (names fields).Pairwise fun s t => textLe s t = true := by
  rw [names, List.pairwise_map]
  rfl

/-- The fields in the order of their names. -/
def byName (fields : List (Text × α)) : List (Text × α) := fields.insertionSort NameLe

theorem perm_byName (fields : List (Text × α)) : (byName fields).Perm fields :=
  List.perm_insertionSort _ fields

theorem pairwise_byName (fields : List (Text × α)) : (byName fields).Pairwise NameLe :=
  List.pairwise_insertionSort _ fields

/-- Fields of different names have one such order. -/
theorem byName_eq {fields sorted : List (Text × α)} (hnames : (names fields).Nodup)
    (hperm : sorted.Perm fields) (hsorted : sorted.Pairwise NameLe) : byName fields = sorted := by
  refine List.Perm.eq_of_pairwise (fun a b ha hb hab hba => ?_) (pairwise_byName fields) hsorted
    ((perm_byName fields).trans hperm.symm)
  have hmem : a ∈ fields ∧ b ∈ fields := ⟨(perm_byName fields).subset ha, hperm.subset hb⟩
  exact List.inj_on_of_nodup_map hnames hmem.1 hmem.2 (textLe_antisymm hab hba)

theorem nodup_names_filterMap {fields : List (Text × α)} (hnames : (names fields).Nodup)
    {f : Text × α → Option (Text × β)} (hf : ∀ a b, f a = some b → b.1 = a.1) :
    (names (fields.filterMap f)).Nodup := by
  rw [names, List.Nodup, List.pairwise_map] at hnames ⊢
  rw [List.pairwise_filterMap]
  refine hnames.imp fun {a a'} hne b hb b' hb' heq => hne ?_
  rw [← hf a b hb, ← hf a' b' hb', heq]

/-- What keeps the names keeps the order. -/
theorem byName_filterMap {fields : List (Text × α)} (hnames : (names fields).Nodup)
    {f : Text × α → Option (Text × β)} (hf : ∀ a b, f a = some b → b.1 = a.1) :
    byName (fields.filterMap f) = (byName fields).filterMap f := by
  refine byName_eq (nodup_names_filterMap hnames hf) ((perm_byName fields).filterMap f) ?_
  rw [List.pairwise_filterMap]
  refine (pairwise_byName fields).imp fun {a a'} hle b hb b' hb' => ?_
  rw [NameLe, hf a b hb, hf a' b' hb']
  exact hle

theorem byName_map {fields : List (Text × α)} (hnames : (names fields).Nodup)
    {f : Text × α → Text × β} (hf : ∀ a, (f a).1 = a.1) :
    byName (fields.map f) = (byName fields).map f := by
  have hsome : ∀ l : List (Text × α), l.filterMap (fun a => some (f a)) = l.map f :=
    congrFun List.filterMap_eq_map'
  rw [← hsome, byName_filterMap hnames (fun a b hb => by rw [← Option.some.inj hb, hf]), hsome]

/-! ## Pairs of texts -/

/-- Pairs by their names, and by their values where the names are one. -/
def PairLe (a b : Text × Text) : Prop :=
  a.1 ≠ b.1 ∧ textLe a.1 b.1 = true ∨ a.1 = b.1 ∧ textLe a.2 b.2 = true

instance : DecidableRel PairLe := fun _ _ => inferInstanceAs (Decidable (_ ∨ _))

instance : Std.Total PairLe := by
  refine ⟨fun a b => ?_⟩
  by_cases heq : a.1 = b.1
  · exact (textLe_total a.2 b.2).imp (fun h => .inr ⟨heq, h⟩) fun h => .inr ⟨heq.symm, h⟩
  · exact (textLe_total a.1 b.1).imp (fun h => .inl ⟨heq, h⟩) fun h => .inl ⟨Ne.symm heq, h⟩

theorem PairLe.nameLe {a b : Text × Text} (h : PairLe a b) : NameLe a b := by
  rcases h with ⟨-, hle⟩ | ⟨heq, -⟩
  · exact hle
  · rw [NameLe, heq]
    exact (textLe_total b.1 b.1).elim id id

instance : IsTrans (Text × Text) PairLe := by
  refine ⟨fun a b c hab hbc => ?_⟩
  have hac := textLe_trans hab.nameLe hbc.nameLe
  by_cases heq : a.1 = c.1
  · have hsame : a.1 = b.1 := textLe_antisymm hab.nameLe (heq ▸ hbc.nameLe)
    rcases hab with ⟨hne, -⟩ | ⟨-, hab⟩
    · exact absurd hsame hne
    · rcases hbc with ⟨hne, -⟩ | ⟨-, hbc⟩
      · exact absurd (hsame.symm.trans heq) hne
      · exact .inr ⟨heq, textLe_trans hab hbc⟩
  · exact .inl ⟨heq, hac⟩

/-- `sorted(fields)` -/
def sortedPairs (fields : List (Text × Text)) : List (Text × Text) := fields.insertionSort PairLe

/-- Where no two names are one the values do not matter. -/
theorem sortedPairs_eq {fields : List (Text × Text)} (hnames : (names fields).Nodup) :
    sortedPairs fields = byName fields :=
  (byName_eq hnames (List.perm_insertionSort _ fields)
    ((List.pairwise_insertionSort PairLe fields).imp PairLe.nameLe)).symm

end

/-! ## Writing -/

/-- What stands for itself. -/
def isSafe (octet : UInt8) : Bool :=
  let c := Char.ofNat octet.toNat
  c.isAlphanum || c == '_' || c == '.' || c == '-' || c == '~'

def hexDigit (n : Nat) : Char := if n < 10 then Char.ofNat (48 + n) else Char.ofNat (55 + n)

def quoteOctet (octet : UInt8) : Text :=
  if isSafe octet then [Char.ofNat octet.toNat]
  else if octet = 32 then ['+']
  else ['%', hexDigit (octet.toNat / 16), hexDigit (octet.toNat % 16)]

/-- `quote_plus(text)` -/
def quotePlus (text : Text) : Text := (Utf8.encode text).flatMap quoteOctet

def writeField (field : Text × Text) : Text := quotePlus field.1 ++ '=' :: quotePlus field.2

/-- `urlencode(fields)` -/
def urlencode (fields : List (Text × Text)) : Text := ['&'].intercalate (fields.map writeField)

/-! ## Reading -/

/-- A character decoding that is UTF-8 where the octets are. -/
structure Utf8Decoder extends Percent.Decoder where
  utf8 : ∀ text, decode (Utf8.encode text) = text

def unplus (c : Char) : Char := if c = '+' then ' ' else c

section
variable (d : Utf8Decoder)

def unquotePlus (text : Text) : Text :=
  Percent.unquote d.toDecoder (text.map unplus)

def readField (piece : Text) : Text × Text :=
  (unquotePlus d (piece.takeWhile (· != '=')),
    unquotePlus d ((piece.dropWhile (· != '=')).drop 1))

/-- `parse_qsl(body, keep_blank_values=True)` -/
def parse (body : Text) : List (Text × Text) :=
  ((body.splitOn '&').filter (!·.isEmpty)).map (readField d)

/-! ## What is written is read back -/

/-- How an octet is read back. -/
def piece (octet : UInt8) : Percent.Piece :=
  if isSafe octet ∨ octet = 32 then .char (Char.ofNat octet.toNat) else .escape octet

theorem forall_octet {P : UInt8 → Prop} (h : ∀ n < 256, P (UInt8.ofNat n)) (octet : UInt8) :
    P octet := by
  have hone := h octet.toNat octet.toNat_lt
  rwa [UInt8.ofNat_toNat] at hone

theorem of_isSafe : ∀ octet, isSafe octet = true →
    Char.ofNat octet.toNat ≠ '+' ∧ Char.ofNat octet.toNat ≠ '%' :=
  forall_octet (by decide +kernel)

theorem hexOctet_hexDigit : ∀ octet : UInt8,
    Percent.hexOctet (hexDigit (octet.toNat / 16)) (hexDigit (octet.toNat % 16)) = some octet :=
  forall_octet (by decide +kernel)

theorem octet_piece : ∀ octet, (piece octet).octet = octet := forall_octet (by decide +kernel)

theorem ascii_of_piece : ∀ octet,
    (match piece octet with | .char c => Text.ascii c | .escape _ => true) = true :=
  forall_octet (by decide +kernel)

theorem not_mem_quoteOctet : ∀ octet,
    (quoteOctet octet).all (fun c => c != '&' && c != '=') = true :=
  forall_octet (by decide +kernel)

theorem pieces_quoteOctet (octet : UInt8) (rest : Text) :
    Percent.pieces ((quoteOctet octet).map unplus ++ rest) =
      piece octet :: Percent.pieces rest := by
  unfold quoteOctet piece
  split
  · rename_i hsafe
    obtain ⟨hplus, hpercent⟩ := of_isSafe octet hsafe
    rw [List.map_singleton, unplus, if_neg hplus, List.singleton_append,
      Percent.pieces_cons hpercent, if_pos (.inl hsafe)]
  · rename_i hsafe
    split
    · rename_i hspace
      rw [hspace]
      exact Percent.pieces_cons (by decide) rest
    · rename_i hspace
      have hdigits : ∀ octet : UInt8, unplus (hexDigit (octet.toNat / 16)) =
          hexDigit (octet.toNat / 16) ∧ unplus (hexDigit (octet.toNat % 16)) =
          hexDigit (octet.toNat % 16) := forall_octet (by decide +kernel)
      rw [if_neg (by simp [hsafe, hspace]), List.map_cons, List.map_cons, List.map_singleton,
        (hdigits octet).1, (hdigits octet).2]
      change Percent.pieces ('%' :: _ :: _ :: rest) = _
      rw [Percent.pieces, hexOctet_hexDigit]

theorem pieces_quotePlus (text : Text) :
    Percent.pieces ((quotePlus text).map unplus) = (Utf8.encode text).map piece := by
  unfold quotePlus
  induction Utf8.encode text with
  | nil => rfl
  | cons octet octets ih =>
    rw [List.flatMap_cons, List.map_append, pieces_quoteOctet, ih, List.map_cons]

theorem unquotePlus_quotePlus (text : Text) : unquotePlus d (quotePlus text) = text := by
  have hascii : ∀ c, Percent.Piece.char c ∈ (Utf8.encode text).map piece →
      Text.ascii c = true := by
    intro c hc
    obtain ⟨octet, -, hoctet⟩ := List.mem_map.mp hc
    have hone := ascii_of_piece octet
    rwa [hoctet] at hone
  have hoctets : ((Utf8.encode text).map piece).map Percent.Piece.octet = Utf8.encode text := by
    rw [List.map_map]
    exact (List.map_congr_left fun octet _ => octet_piece octet).trans (List.map_id _)
  rw [unquotePlus, Percent.unquote, pieces_quotePlus, Percent.join_ascii _ _ hascii, hoctets,
    List.nil_append, d.utf8]

theorem not_mem_quotePlus (text : Text) : '&' ∉ quotePlus text ∧ '=' ∉ quotePlus text := by
  have hall : ∀ c ∈ quotePlus text, (c != '&' && c != '=') = true := by
    intro c hc
    obtain ⟨octet, -, hc⟩ := List.mem_flatMap.mp hc
    exact List.all_eq_true.mp (not_mem_quoteOctet octet) c hc
  exact ⟨fun hmem => absurd (hall _ hmem) (by decide), fun hmem => absurd (hall _ hmem) (by decide)⟩

theorem readField_writeField (field : Text × Text) : readField d (writeField field) = field := by
  have hname : ∀ c ∈ quotePlus field.1, (c != '=') = true := by
    intro c hc
    simpa using fun heq : c = '=' => (not_mem_quotePlus field.1).2 (heq ▸ hc)
  rw [readField, writeField, List.takeWhile_append_of_pos hname, List.dropWhile_append_of_pos hname]
  simp [unquotePlus_quotePlus]

/-- A receiver reads the fields that were written. -/
theorem parse_urlencode (fields : List (Text × Text)) : parse d (urlencode fields) = fields := by
  have hreads : (fields.map writeField).map (readField d) = fields := by
    rw [List.map_map]
    exact (List.map_congr_left fun field _ => readField_writeField d field).trans (List.map_id _)
  have hkeep : (fields.map writeField).filter (!·.isEmpty) = fields.map writeField := by
    refine List.filter_eq_self.mpr fun piece hpiece => ?_
    obtain ⟨field, -, rfl⟩ := List.mem_map.mp hpiece
    simp [writeField]
  cases hfields : fields with
  | nil => rfl
  | cons first rest =>
    have hsplit : (urlencode fields).splitOn '&' = fields.map writeField := by
      refine List.splitOn_intercalate '&' (fun piece hpiece => ?_) (by simp [hfields])
      obtain ⟨field, -, rfl⟩ := List.mem_map.mp hpiece
      simp [writeField, not_mem_quotePlus]
    rw [parse, ← hfields, hsplit, hkeep, hreads]

/-- UTF-8, with one replacement for all octets that are none. -/
def Utf8Decoder.replacing : Utf8Decoder where
  decode octets := (Utf8.decode? octets).getD ['\ufffd']
  ascii text h := by
    have hencode : text.map Percent.octet = Utf8.encode text :=
      (Utf8.encode_of_ascii fun c hc => by simpa [Text.ascii] using h c hc).symm
    rw [Utf8.decode?_eq_some_iff.mpr hencode, Option.getD_some]
  utf8 text := by rw [Utf8.decode?_eq_some_iff.mpr rfl, Option.getD_some]

end

end MailCue.Lib.Form
