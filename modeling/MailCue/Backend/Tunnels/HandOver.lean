import MailCue.Backend.Tunnels.Service
import MailCue.Tunnel.Sidecar.TunnelsFile

/-!
# Tunnels handed over to the sidecar

The rows that the requests of the backend leave, through the document it writes, to
the view the sidecar loads. The two sides check a key alike but for the bits behind
its last octet: Python ignores them, the sidecar wants them to be zero.
-/
namespace MailCue.Backend.Tunnels
open MailCue.Lib
open MailCue.Tunnel.Sidecar

/-! ## The two decoders -/

/-- Behind padding that did not begin in a group, nothing is read any more. -/
theorem a2bFrom_padded {quad_pos leftchar pads : Nat} {s : Text} {raw : List UInt8}
    (hquad : quad_pos < 2) (h : a2bFrom quad_pos leftchar pads true s = some raw) :
    quad_pos = 0 ∧ raw = [] := by
  induction s with
  | nil =>
    rw [a2bFrom] at h
    split at h
    · rename_i hzero
      exact ⟨hzero, by simpa using h.symm⟩
    · cases h
  | cons c rest ih =>
    rw [a2bFrom] at h
    split at h
    · rw [if_neg (by omega)] at h
      exact ih h
    · split at h
      · cases h
      · cases h

theorem a2bFrom_quad0 {leftchar pads : Nat} {s : Text} {raw : List UInt8}
    (h : a2bFrom 0 leftchar pads false s = some raw) :
    raw = [] ∨ ∃ a rest x, s = a :: rest ∧ Base64.value a = some x ∧
      a2bFrom 1 x 0 false rest = some raw := by
  cases s with
  | nil => exact .inl (by simpa [a2bFrom] using h.symm)
  | cons a rest =>
    rw [a2bFrom] at h
    split at h
    · rw [if_neg (by omega)] at h
      exact .inl (a2bFrom_padded (by omega) h).2
    · split at h
      · cases h
      · rename_i x hx
        exact .inr ⟨a, rest, x, rfl, hx, h⟩

theorem a2bFrom_quad1 {x pads : Nat} {s : Text} {raw : List UInt8}
    (h : a2bFrom 1 x pads false s = some raw) :
    ∃ b rest y more, s = b :: rest ∧ Base64.value b = some y ∧
      a2bFrom 2 y 0 false rest = some more ∧ raw = Base64.octet1 x y :: more := by
  cases s with
  | nil => cases h
  | cons b rest =>
    rw [a2bFrom] at h
    split at h
    · rw [if_neg (by omega)] at h
      have hzero := (a2bFrom_padded (by omega) h).1
      omega
    · split at h
      · cases h
      · rename_i y hy
        obtain ⟨more, hmore, rfl⟩ := Option.map_eq_some_iff.mp h
        exact ⟨b, rest, y, more, rfl, hy, hmore, rfl⟩

theorem a2bFrom_quad2 {y : Nat} {s : Text} {raw : List UInt8}
    (h : a2bFrom 2 y 0 false s = some raw) :
    (s = ['=', '='] ∧ raw = []) ∨
      ∃ c rest z more, s = c :: rest ∧ Base64.value c = some z ∧
        a2bFrom 3 z 0 false rest = some more ∧ raw = Base64.octet2 y z :: more := by
  cases s with
  | nil => cases h
  | cons c rest =>
    rw [a2bFrom] at h
    split at h
    · rename_i hc
      rw [if_pos (by omega), if_neg (by omega)] at h
      cases rest with
      | nil => cases h
      | cons d rest =>
        rw [a2bFrom] at h
        split at h
        · rename_i hd
          rw [if_pos (by omega), if_pos (by omega)] at h
          split at h
          · rename_i hrest
            subst hc hd hrest
            exact .inl ⟨rfl, by simpa using h.symm⟩
          · cases h
        · split at h
          · cases h
          · cases h
    · split at h
      · cases h
      · rename_i z hz
        obtain ⟨more, hmore, rfl⟩ := Option.map_eq_some_iff.mp h
        exact .inr ⟨c, rest, z, more, rfl, hz, hmore, rfl⟩

theorem a2bFrom_quad3 {z : Nat} {s : Text} {raw : List UInt8}
    (h : a2bFrom 3 z 0 false s = some raw) :
    (s = ['='] ∧ raw = []) ∨
      ∃ d rest w more, s = d :: rest ∧ Base64.value d = some w ∧
        a2bFrom 0 0 0 false rest = some more ∧ raw = Base64.octet3 z w :: more := by
  cases s with
  | nil => cases h
  | cons d rest =>
    rw [a2bFrom] at h
    split at h
    · rename_i hd
      rw [if_pos (by omega), if_pos (by omega)] at h
      split at h
      · rename_i hrest
        subst hd hrest
        exact .inl ⟨rfl, by simpa using h.symm⟩
      · cases h
    · split at h
      · cases h
      · rename_i w hw
        obtain ⟨more, hmore, rfl⟩ := Option.map_eq_some_iff.mp h
        exact .inr ⟨d, rest, w, more, rfl, hw, hmore, rfl⟩

theorem ne_pad_of_value {c : Char} {v : Nat} (h : Base64.value c = some v) : c ≠ '=' := by
  intro hc
  subst hc
  have hnone : Base64.value '=' = none := by decide
  cases hnone.symm.trans h

/-- Padding behind a whole group, which Python passes over, leaves a multiple of three
octets; any other text it accepts is in groups. -/
theorem decode_of_a2bFrom (n : Nat) {leftchar pads : Nat} {s : Text} {raw : List UInt8}
    (hlength : s.length ≤ n) (h : a2bFrom 0 leftchar pads false s = some raw)
    (hraw : raw.length % 3 ≠ 0) : Base64.decode true s = some raw := by
  induction n generalizing leftchar pads s raw with
  | zero =>
    obtain rfl : s = [] := List.eq_nil_of_length_eq_zero (by omega)
    have hnil : [] = raw := by simpa [a2bFrom] using h
    subst hnil
    simp at hraw
  | succ n ih =>
    rcases a2bFrom_quad0 h with hnil | ⟨a, s1, x, rfl, hx, h1⟩
    · subst hnil
      simp at hraw
    · obtain ⟨b, s2, y, more, rfl, hy, h2, rfl⟩ := a2bFrom_quad1 h1
      rcases a2bFrom_quad2 h2 with ⟨rfl, rfl⟩ | ⟨c, s3, z, more, rfl, hz, h3, rfl⟩
      · simp [Base64.decode, Base64.one, hx, hy]
      · have hc := ne_pad_of_value hz
        rcases a2bFrom_quad3 h3 with ⟨rfl, rfl⟩ | ⟨d, rest, w, more, rfl, hw, h4, rfl⟩
        · simp [Base64.decode, Base64.two, hx, hy, hz, hc]
        · have hd := ne_pad_of_value hw
          have hmore : Base64.decode true rest = some more := by
            refine ih ?_ h4 ?_
            · simp only [List.length_cons] at hlength
              omega
            · simp only [List.length_cons] at hraw
              omega
          simp [Base64.decode, Base64.three, hx, hy, hz, hw, hc, hd, hmore]

/-! ## One key -/

/-- A character of an encoded text is no white space. -/
theorem not_whitespace_of_value {c : Char} (h : c = '=' ∨ (Base64.value c).isSome) :
    isWhitespace c = false := by
  have hrange : 43 ≤ c.toNat ∧ c.toNat ≤ 122 := by
    rcases h with rfl | hvalue
    · decide
    · unfold Base64.value at hvalue
      simp only [Char.le_def, UInt32.le_iff_toNat_le] at hvalue
      change (if 65 ≤ c.toNat ∧ c.toNat ≤ 90 then _ else
        if 97 ≤ c.toNat ∧ c.toNat ≤ 122 then _ else
        if 48 ≤ c.toNat ∧ c.toNat ≤ 57 then _ else _ : Option Nat).isSome = true at hvalue
      split at hvalue
      · omega
      · split at hvalue
        · omega
        · split at hvalue
          · omega
          · split at hvalue
            · rename_i hplus
              subst hplus
              decide
            · split at hvalue
              · rename_i hslash
                subst hslash
                decide
              · cases hvalue
  unfold isWhitespace
  simp only [Bool.or_eq_false_iff, Bool.and_eq_false_iff, decide_eq_false_iff_not]
  omega

theorem chars_of_decode {s : Text} {raw : List UInt8} (h : Base64.decode true s = some raw) :
    ∀ c ∈ s, c = '=' ∨ (Base64.value c).isSome := by
  fun_induction Base64.decode true s generalizing raw with
  | case1 =>
    intro c hc
    cases hc
  | case2 a b d rest hend =>
    obtain ⟨rfl, rfl⟩ := hend
    simp only [Base64.one, Option.bind_eq_bind, Option.bind_eq_some_iff] at h
    obtain ⟨x, hx, y, hy, -⟩ := h
    simp [hx, hy]
  | case3 a b d rest hend => cases h
  | case4 a b c hc =>
    simp only [Base64.two, Option.bind_eq_bind, Option.bind_eq_some_iff] at h
    obtain ⟨x, hx, y, hy, z, hz, -⟩ := h
    simp [hx, hy, hz]
  | case5 a b c rest hc hrest => cases h
  | case6 a b c d rest hc hd ih =>
    simp only [Base64.three, Option.bind_eq_bind, Option.bind_eq_some_iff] at h
    obtain ⟨octets, ⟨x, hx, y, hy, z, hz, w, hw, -⟩, more, hmore, -⟩ := h
    have hrest := ih hmore
    simp [hx, hy, hz, hw]
    exact hrest
  | case7 s hnil hgroup => cases h

/-- What a key that passed its check decodes to, for either decoder. -/
theorem decode_of_validatePubkeyB64 {value : Text} (h : validatePubkeyB64 value = none) :
    ∃ raw, b64decode value = some raw ∧ raw.length = 32 ∧ Base64.decode true value = some raw := by
  unfold validatePubkeyB64 at h
  split at h
  · cases h
  · split at h
    · cases h
    · rename_i raw hraw
      split at h
      · cases h
      · rename_i hlength
        have hlength : raw.length = 32 := by simpa using hlength
        refine ⟨raw, hraw, hlength, ?_⟩
        unfold b64decode at hraw
        split at hraw
        · cases hraw
        · exact decode_of_a2bFrom value.length le_rfl hraw (by omega)

/-! ## One entry -/

theorem trim_ne_nil {text : Text} {c : Char} (hc : c ∈ text)
    (h : isWhitespace c = false) : trim text ≠ [] := by
  intro hnil
  unfold trim trimStart at hnil
  have hall := List.dropWhile_eq_nil_iff.mp (List.reverse_eq_nil_iff.mp hnil)
  have hmem : c ∈ text.dropWhile isWhitespace := by
    rcases List.mem_append.mp (List.takeWhile_append_dropWhile (p := isWhitespace) ▸ hc :
      c ∈ text.takeWhile isWhitespace ++ text.dropWhile isWhitespace) with htake | hdrop
    · have hspace := List.mem_takeWhile_imp htake
      rw [h] at hspace
      cases hspace
    · exact hdrop
  have hspace := hall c (List.mem_reverse.mpr hmem)
  rw [h] at hspace
  cases hspace

/-- Python's white space contains that of Rust. -/
theorem isSpace_of_isWhitespace {c : Char} (h : isWhitespace c = true) :
    Text.isSpace c = true := by
  simp only [isWhitespace, Bool.or_eq_true, Bool.and_eq_true, decide_eq_true_eq] at h
  simp only [Text.isSpace, Bool.or_eq_true, Bool.and_eq_true, decide_eq_true_eq, beq_iff_eq]
  omega

theorem trim_id_ne_nil {id : Text} (h : isUuidHex id = true) : trim id ≠ [] := by
  simp only [isUuidHex, Bool.and_eq_true, beq_iff_eq, List.all_eq_true, Bool.or_eq_true,
    decide_eq_true_eq, Char.le_def, UInt32.le_iff_toNat_le] at h
  obtain ⟨hlength, hall⟩ := h
  cases id with
  | nil => cases hlength
  | cons c rest =>
    refine trim_ne_nil List.mem_cons_self ?_
    have hc : (48 ≤ c.toNat ∧ c.toNat ≤ 57) ∨ (97 ≤ c.toNat ∧ c.toNat ≤ 102) :=
      hall c List.mem_cons_self
    unfold isWhitespace
    simp only [Bool.or_eq_false_iff, Bool.and_eq_false_iff, decide_eq_false_iff_not]
    omega

theorem trim_host_ne_nil {host : Text} (h : validateHost host = none) : trim host ≠ [] := by
  unfold validateHost at h
  split at h
  · cases h
  · rename_i hlength
    split at h
    · cases h
    · rename_i hspace
      cases host with
      | nil => simp at hlength
      | cons c rest =>
        refine trim_ne_nil List.mem_cons_self ?_
        by_contra hwhite
        have hc : Text.isSpace c = true := isSpace_of_isWhitespace (by simpa using hwhite)
        simp [hc] at hspace

/-- The entry of a row, as the sidecar reads it. -/
def raw (t : Tunnel) : Registry.RawTunnel where
  id := t.id
  name := some t.name
  host := t.endpoint_host
  port := t.endpoint_port.toNat
  edge_pubkey := t.server_pubkey
  weight := t.weight.toNat
  enabled := t.enabled

theorem read_entry {t : Tunnel} (ht : t.Accepted) :
    Registry.RawTunnel.read (entry t) = some (raw t) := by
  have hport : Json.unsigned 16 (.num t.endpoint_port) = some t.endpoint_port.toNat :=
    Json.unsigned_num (by have := ht.endpoint_port; omega)
  have hweight : Json.unsigned 32 (.num t.weight) = some t.weight.toNat :=
    Json.unsigned_num (by have := ht.weight; omega)
  simp [Registry.RawTunnel.read, entry, Json.object, Json.required, Json.optional,
    Json.withDefault, Json.field, Json.text, Json.boolean, hport, hweight, raw]

theorem read_entries {tunnels : List Tunnel} (h : ∀ t ∈ tunnels, t.Accepted) :
    (tunnels.map entry).mapM Registry.RawTunnel.read = some (tunnels.map raw) := by
  induction tunnels with
  | nil => rfl
  | cons t ts ih =>
    have hrest := ih fun u hu => h u (List.mem_cons_of_mem t hu)
    rw [List.map_cons, List.mapM_cons, read_entry (h t List.mem_cons_self), hrest]
    rfl

theorem read_payload {tunnels : List Tunnel} (h : ∀ t ∈ tunnels, t.Accepted) :
    Registry.RawDoc.read (buildTunnelsPayload tunnels) =
      some ⟨1, .orderedFailover, (inOrder tunnels).map raw⟩ := by
  have haccepted : ∀ t ∈ inOrder tunnels, t.Accepted := fun t ht =>
    h t ((List.mergeSort_perm tunnels _).mem_iff.mp ht)
  have hordered := read_entries haccepted
  have hselection : Registry.SelectionStrategy.read (.str "ordered_failover".toList) =
      some .orderedFailover := by
    unfold Registry.SelectionStrategy.read
    exact if_pos rfl
  unfold buildTunnelsPayload Registry.RawDoc.read
  generalize "/var/lib/mailcue-sidecar/client.key".toList = path
  generalize "ordered_failover".toList = selection at hselection ⊢
  simp only [Json.object, Json.withDefault, Json.field, Json.array, Json.unsigned]
  simp [hordered, hselection]

/-- What the sidecar makes of a row whose key it can decode. -/
def converted (t : Tunnel) : Registry.Tunnel where
  id := t.id
  name := t.name
  host := t.endpoint_host
  port := t.endpoint_port.toNat
  edge_pubkey := (b64decode t.server_pubkey).getD []
  weight := t.weight.toNat
  enabled := t.enabled

/-- Of the rows the backend accepts, the sidecar skips those with bits behind the last
octet of the key. -/
theorem validate_raw {t : Tunnel} (ht : t.Accepted) :
    Registry.validate (raw t) =
      if Base64.unusedBits t.server_pubkey = 0 then .ok (converted t)
      else .error (.keyBase64 t.id) := by
  obtain ⟨octets, hpython, hlength, hdecode⟩ := decode_of_validatePubkeyB64 ht.server_pubkey
  have htrim : trim t.server_pubkey = t.server_pubkey :=
    Registry.trim_of_no_whitespace fun c hc => not_whitespace_of_value (chars_of_decode hdecode c hc)
  have hid := trim_id_ne_nil ht.id
  have hhost := trim_host_ne_nil ht.endpoint_host
  have hport : t.endpoint_port.toNat ≠ 0 := by
    have := ht.endpoint_port
    omega
  have hweight : max t.weight.toNat 1 = t.weight.toNat := by
    have := ht.weight
    omega
  unfold Registry.validate
  simp only [raw, htrim, Base64.decode_false hdecode]
  rw [if_neg hid, if_neg hhost, if_neg hport]
  by_cases hzero : Base64.unusedBits t.server_pubkey = 0
  · rw [if_pos hzero, if_pos hzero]
    simp [hlength, hweight, converted, hpython]
  · rw [if_neg hzero, if_neg hzero]

/-! ## The file -/

/-- The row and the sidecar's tunnel agree. -/
structure Same (t : Tunnel) (t' : Registry.Tunnel) : Prop where
  id : t'.id = t.id
  name : t'.name = t.name
  host : t'.host = t.endpoint_host
  port : (t'.port : Int) = t.endpoint_port
  key : some t'.edge_pubkey = b64decode t.server_pubkey
  weight : (t'.weight : Int) = t.weight
  enabled : t'.enabled = t.enabled

/-- By weight downwards, then by name. -/
def Precedes (a b : Tunnel) : Prop := b.weight < a.weight ∨ (a.weight = b.weight ∧ a.name ≤ b.name)

/-- The sidecar visits these rows, in the order the backend means. -/
def Visits (rows : List Tunnel) (visited : List Registry.Tunnel) : Prop :=
  ∃ order, order.Perm rows ∧ order.Pairwise Precedes ∧ List.Forall₂ Same order visited

def HandedOver (rows : List Tunnel) : Prop :=
  ∃ view, Registry.loadTunnelsFile (.document (buildTunnelsPayload rows)) = .ok view ∧
    (∃ kept, kept.Perm rows ∧ List.Forall₂ Same kept view.tunnels) ∧
    ∀ healthy_ids, Visits (rows.filter fun t => t.enabled && healthy_ids.contains t.id)
      (Registry.pickAll view healthy_ids)

theorem same_converted {t : Tunnel} (ht : t.Accepted) : Same t (converted t) := by
  obtain ⟨octets, hpython, -, -⟩ := decode_of_validatePubkeyB64 ht.server_pubkey
  have hport := ht.endpoint_port
  have hweight := ht.weight
  exact ⟨rfl, rfl, rfl, by simp only [converted]; omega, by simp [converted, hpython],
    by simp only [converted]; omega, rfl⟩

theorem Precedes.trans {a b c : Tunnel} (hab : Precedes a b) (hbc : Precedes b c) :
    Precedes a c := by
  rcases hab with hab | ⟨hab, hname⟩
  · rcases hbc with hbc | ⟨hbc, -⟩
    · exact .inl (by omega)
    · exact .inl (by omega)
  · rcases hbc with hbc | ⟨hbc, hname'⟩
    · exact .inl (by omega)
    · exact .inr ⟨by omega, le_trans hname hname'⟩

theorem Precedes.total (a b : Tunnel) : Precedes a b ∨ Precedes b a := by
  rcases lt_trichotomy a.weight b.weight with h | h | h
  · exact .inr (.inl h)
  · rcases le_total a.name b.name with hname | hname
    · exact .inl (.inr ⟨h, hname⟩)
    · exact .inr (.inr ⟨h.symm, hname⟩)
  · exact .inl (.inl h)

theorem precedes_inOrder (rows : List Tunnel) : (inOrder rows).Pairwise Precedes := by
  have hle : ∀ a b : Tunnel, (decide (b.weight < a.weight) ||
      (decide (a.weight = b.weight) && decide (a.name ≤ b.name))) = true ↔ Precedes a b := by
    intro a b
    simp only [Bool.or_eq_true, Bool.and_eq_true, decide_eq_true_eq]
    rfl
  refine (List.pairwise_mergeSort ?_ ?_ rows).imp fun h => (hle _ _).mp h
  · intro a b c hab hbc
    exact (hle a c).mpr (((hle a b).mp hab).trans ((hle b c).mp hbc))
  · intro a b
    rw [Bool.or_eq_true]
    exact (Precedes.total a b).imp (hle a b).mpr (hle b a).mpr

theorem inOrder_perm (rows : List Tunnel) : (inOrder rows).Perm rows := List.mergeSort_perm rows _

theorem load_payload {rows : List Tunnel} (h : ∀ t ∈ rows, t.Accepted) :
    Registry.loadTunnelsFile (.document (buildTunnelsPayload rows)) =
      .ok ⟨.orderedFailover,
        (inOrder rows).filterMap fun t => (Registry.validate (raw t)).toOption⟩ := by
  simp [Registry.loadTunnelsFile, read_payload h, List.filterMap_map]

theorem forall₂_converted {rows : List Tunnel} (h : ∀ t ∈ rows, t.Accepted) :
    List.Forall₂ Same rows (rows.map converted) := by
  induction rows with
  | nil => exact .nil
  | cons t rows ih =>
    exact .cons (same_converted (h t List.mem_cons_self))
      (ih fun u hu => h u (List.mem_cons_of_mem t hu))

/-- Rows in order are visited as they stand. -/
theorem visits_converted {rows : List Tunnel} (haccepted : ∀ t ∈ rows, t.Accepted)
    (hsorted : rows.Pairwise Precedes) : Registry.ordered (rows.map converted) =
      rows.map converted := by
  refine Registry.ordered_of_pairwise (List.pairwise_map.mpr ?_)
  refine hsorted.imp_of_mem fun {a b} ha hb hab => ?_
  have hweight := (haccepted a ha).weight
  have hweight' := (haccepted b hb).weight
  show b.weight.toNat ≤ a.weight.toNat
  rcases hab with hlt | ⟨heq, -⟩ <;> omega

theorem handedOver_of_keys {rows : List Tunnel} (haccepted : ∀ t ∈ rows, t.Accepted)
    (hkeys : ∀ t ∈ rows, Base64.unusedBits t.server_pubkey = 0) : HandedOver rows := by
  have hperm := inOrder_perm rows
  have haccepted' : ∀ t ∈ inOrder rows, t.Accepted := fun t ht =>
    haccepted t (hperm.mem_iff.mp ht)
  have hview : (inOrder rows).filterMap (fun t => (Registry.validate (raw t)).toOption) =
      (inOrder rows).map converted := by
    rw [← List.filterMap_eq_map]
    refine List.filterMap_congr fun t ht => ?_
    rw [validate_raw (haccepted' t ht), if_pos (hkeys t (hperm.mem_iff.mp ht))]
    rfl
  refine ⟨_, load_payload haccepted, ⟨inOrder rows, hperm, ?_⟩, ?_⟩
  · rw [hview]
    exact forall₂_converted haccepted'
  · intro healthy_ids
    let chosen := (inOrder rows).filter fun t => t.enabled && healthy_ids.contains t.id
    have hchosen : ∀ t ∈ chosen, t.Accepted := fun t ht =>
      haccepted' t (List.mem_of_mem_filter ht)
    have hsorted : chosen.Pairwise Precedes :=
      (precedes_inOrder rows).sublist List.filter_sublist
    refine ⟨chosen, hperm.filter _, hsorted, ?_⟩
    have hpicked : Registry.pickAll ⟨.orderedFailover, (inOrder rows).filterMap
        fun t => (Registry.validate (raw t)).toOption⟩ healthy_ids = chosen.map converted := by
      rw [hview]
      unfold Registry.pickAll
      rw [List.filter_map]
      exact visits_converted hchosen hsorted
    rw [hpicked]
    exact forall₂_converted hchosen

theorem keys_of_handedOver {rows : List Tunnel} (haccepted : ∀ t ∈ rows, t.Accepted)
    (h : HandedOver rows) : ∀ t ∈ rows, Base64.unusedBits t.server_pubkey = 0 := by
  obtain ⟨view, hload, ⟨kept, hkept, hsame⟩, -⟩ := h
  rw [load_payload haccepted] at hload
  cases hload
  have hlength : ((inOrder rows).filterMap fun t =>
      (Registry.validate (raw t)).toOption).length = (inOrder rows).length := by
    rw [← hsame.length_eq, hkept.length_eq, (inOrder_perm rows).length_eq]
  have hsome := List.filterMap_length_eq_length.mp hlength
  intro t ht
  have hvalid := hsome t ((inOrder_perm rows).mem_iff.mpr ht)
  rw [validate_raw (haccepted t ht)] at hvalid
  by_contra hbits
  rw [if_neg hbits] at hvalid
  cases hvalid

/-- The sidecar takes over every tunnel that the requests have left, and visits them in
the order the backend means, just when no key has bits behind its last octet. -/
theorem hand_over_iff (ops : List Op) (listed : List Tunnel)
    (hlisted : listed.Perm (table.run ops)) :
    HandedOver listed ↔ ∀ t ∈ listed, Base64.unusedBits t.server_pubkey = 0 := by
  have haccepted : ∀ t ∈ listed, t.Accepted := fun t ht =>
    accepted_run ops t (hlisted.mem_iff.mp ht)
  exact ⟨keys_of_handedOver haccepted, handedOver_of_keys haccepted⟩

/-- One tunnel, its key the zeros before the last character. -/
def oneTunnel (last : Char) : Op :=
  .create (List.replicate 32 '0') {
    name := "edge-1".toList
    endpoint_host := "edge.example".toList
    server_pubkey := List.replicate 42 'A' ++ [last, '='] }

theorem hand_over_one : HandedOver (table.run [oneTunnel 'A']) :=
  (hand_over_iff [oneTunnel 'A'] _ (List.Perm.refl _)).mpr (by decide)

/-- A key that both requests take and the sidecar skips. -/
theorem loose_key_not_handed_over :
    (table.run [oneTunnel 'B']).length = 1 ∧ ¬ HandedOver (table.run [oneTunnel 'B']) := by
  refine ⟨by decide, fun h => ?_⟩
  have hkeys := keys_of_handedOver (accepted_run [oneTunnel 'B']) h
  revert hkeys
  decide

end MailCue.Backend.Tunnels
