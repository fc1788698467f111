import MailCue.Backend.Domains.Spf

/-!
# The recommended record against the check

`_build_spf_expected` has a mechanism for every endpoint, `_validate_spf_record` allows ten
that are looked up. What is recommended passes the check, as it is and as the comparison
normalizes it, up to nine endpoints that are named and not numbered.
-/
namespace MailCue.Backend.Domains
open MailCue.Lib

/-! ## The check of a list of terms -/

section
variable (py : Python)

/-- The term is in order wherever it stands and has so many lookups. -/
def Counts (term : Text) (lookups : Nat) : Prop :=
  ∀ state : SpfState, checkTerm py state term =
    .ok { state with lookup_terms := state.lookup_terms + lookups }

variable {py}

theorem foldlM_checkTerm {terms : List (Text × Nat)} (h : ∀ t ∈ terms, Counts py t.1 t.2)
    (state : SpfState) :
    (terms.map (·.1)).foldlM (checkTerm py) state =
      .ok { state with lookup_terms := state.lookup_terms + (terms.map (·.2)).sum } := by
  induction terms generalizing state with
  | nil => rfl
  | cons term terms ih =>
    obtain ⟨hterm, hrest⟩ := List.forall_mem_cons.mp h
    rw [List.map_cons, List.foldlM_cons, hterm state]
    change List.foldlM _ _ _ = _
    rw [ih hrest, List.map_cons, List.sum_cons, Nat.add_assoc]

/-- A record of such terms passes the check where the lookups are ten at most. -/
theorem validateSpfRecord_iff {value version : Text} {terms : List (Text × Nat)}
    (hwords : words value = version :: terms.map (·.1))
    (hversion : py.lower version = "v=spf1".toList) (hne : terms ≠ [])
    (h : ∀ t ∈ terms, Counts py t.1 t.2) :
    validateSpfRecord py value = .ok () ↔ (terms.map (·.2)).sum ≤ 10 := by
  have hsome : (terms.map (·.1)).isEmpty = false := by simpa using hne
  rw [validateSpfRecord, hwords]
  simp only [hversion, ne_eq, not_true_eq_false, if_false, hsome, Bool.false_eq_true,
    foldlM_checkTerm h]
  change (if 10 < 0 + (terms.map (·.2)).sum then _ else _) = _ ↔ _
  rw [Nat.zero_add]
  split
  · rename_i hmany
    constructor
    · intro herror
      cases herror
    · intro hfew
      omega
  · rename_i hfew
    exact ⟨fun _ => by omega, fun _ => rfl⟩

/-! ## The terms that are recommended -/

/-- What may stand in a term: ASCII, and nothing that ends a term, a host or makes a
modifier of it. -/
def isTermChar (c : Char) : Bool :=
  Text.ascii c && !Text.isSpace c && c != '/' && c != '='

theorem lower_of_termChars {text : Text} (h : ∀ c ∈ text, isTermChar c = true) :
    py.lower text = Text.asciiLower text := by
  refine py.ascii_lower text fun c hc => ?_
  have hterm := h c hc
  simp only [isTermChar, Bool.and_eq_true] at hterm
  exact hterm.1.1.1

theorem isTermChar_toLower {c : Char} (h : isTermChar c = true) : isTermChar c.toLower = true := by
  have hall : ∀ n < 128, isTermChar (Char.ofNat n) = true →
      isTermChar (Char.ofNat n).toLower = true := by decide +kernel
  have hrange : c.toNat < 128 := by
    simp only [isTermChar, Bool.and_eq_true] at h
    simpa [Text.ascii] using h.1.1.1
  have hone := hall c.toNat hrange
  rw [Char.ofNat_toNat] at hone
  exact hone h

/-- A host name or an address, as far as its characters go. -/
def IsHost (text : Text) : Prop := text ≠ [] ∧ ∀ c ∈ text, isTermChar c = true

theorem IsHost.isWord {text : Text} (h : IsHost text) : IsWord text := by
  refine ⟨h.1, fun c hc => ?_⟩
  have hterm := h.2 c hc
  simp only [isTermChar, Bool.and_eq_true, Bool.not_eq_true'] at hterm
  exact hterm.1.1.2

theorem IsHost.asciiLower {text : Text} (h : IsHost text) : IsHost (Text.asciiLower text) := by
  refine ⟨fun hnil => h.1 (List.map_eq_nil_iff.mp hnil), fun c hc => ?_⟩
  obtain ⟨d, hd, rfl⟩ := List.mem_map.mp hc
  exact isTermChar_toLower (h.2 d hd)

theorem IsHost.append {front text : Text} (hfront : IsHost front)
    (h : ∀ c ∈ text, isTermChar c = true) : IsHost (front ++ text) := by
  refine ⟨by simp [hfront.1], fun c hc => ?_⟩
  rcases List.mem_append.mp hc with hc | hc
  · exact hfront.2 c hc
  · exact h c hc

theorem isHost_of_all {text : Text} (hne : text ≠ []) (h : text.all isTermChar = true) :
    IsHost text :=
  ⟨hne, List.all_eq_true.mp h⟩

theorem equals_not_mem {text : Text} (h : ∀ c ∈ text, isTermChar c = true) : '=' ∉ text := by
  intro hmem
  exact absurd (h _ hmem) (by decide)

/-- A term without an equals sign is checked as a mechanism. -/
theorem checkTerm_mechanism {state : SpfState} {raw_term term : Text}
    (hwhole : withoutQualifier raw_term = term) (hterm : IsHost term) {mechanism_name : String}
    (hname : Text.asciiLower (mechanismText term) = mechanism_name.toList)
    (hok : checkMechanism py mechanism_name raw_term term = .ok ()) :
    checkTerm py state raw_term = .ok { state with lookup_terms := state.lookup_terms +
      if mechanism_name ∈ spfDnsMechanisms then 1 else 0 } := by
  have hlower : py.lower (mechanismText term) = mechanism_name.toList := by
    rw [← hname]
    exact lower_of_termChars fun c hc => hterm.2 c ((List.takeWhile_prefix _).subset hc)
  have hnonempty : term.isEmpty = false := by simpa using hterm.1
  simp only [checkTerm, hwhole, hnonempty, Bool.false_eq_true, if_false,
    equals_not_mem hterm.2, hlower, String.ofList_toList, hok]
  rfl

theorem afterHost_host {host : Text} (h : IsHost host) : afterHost host = some [] := by
  have hall : ∀ c ∈ host, (c != '/' && !Text.isSpace c) = true := by
    intro c hc
    have hterm := h.2 c hc
    simp only [isTermChar, Bool.and_eq_true] at hterm ⊢
    exact ⟨hterm.1.2, hterm.1.1.2⟩
  have htake : host.takeWhile (fun c => c != '/' && !Text.isSpace c) = host :=
    List.takeWhile_eq_self_iff.mpr hall
  simp [afterHost, htake, h.1]

theorem counts_host {host : Text} (h : IsHost host) : Counts py ("a:".toList ++ host) 1 := by
  intro state
  have hterm : IsHost ("a:".toList ++ host) :=
    (isHost_of_all (by decide) (by decide)).append h.2
  have hwhole : withoutQualifier ("a:".toList ++ host) = "a:".toList ++ host := rfl
  have hmatch : matchHost py "a".toList ("a:".toList ++ host) = some (none, none) := by
    change (do cidrs py (← afterHost host)) = _
    rw [afterHost_host h]
    rfl
  have hok : checkMechanism py "a" ("a:".toList ++ host) ("a:".toList ++ host) = .ok () := by
    unfold checkMechanism
    rw [if_neg (by decide), if_pos (.inl rfl), hmatch]
    rfl
  exact checkTerm_mechanism hwhole hterm rfl hok

theorem counts_mx : Counts py "mx".toList 1 := by
  intro state
  have hterm : IsHost "mx".toList := isHost_of_all (by decide) (by decide)
  have hwhole : withoutQualifier "mx".toList = "mx".toList := rfl
  have hok : checkMechanism py "mx" "mx".toList "mx".toList = .ok () := rfl
  exact checkTerm_mechanism hwhole hterm rfl hok

theorem counts_all {term : Text} (h : term = "-all".toList ∨ term = "~all".toList) :
    Counts py term 0 := by
  intro state
  have hterm : IsHost "all".toList := isHost_of_all (by decide) (by decide)
  have hlower : py.lower "all".toList = "all".toList := lower_of_termChars hterm.2
  have hok : checkMechanism py "all" term "all".toList = .ok () := by
    unfold checkMechanism
    rw [if_pos rfl, hlower]
    rfl
  have hwhole : withoutQualifier term = "all".toList := by
    rcases h with rfl | rfl
    · rfl
    · rfl
  exact checkTerm_mechanism hwhole hterm rfl hok

/-- The check of a network of the family that the mechanism names. -/
theorem checkMechanism_network {mechanism_name : String} {term : Text} {address : IpAddress}
    {len : Nat}
    (hname : mechanism_name = if address.version = .four then "ip4" else "ip6")
    (hnamed : (mechanism_name.toList ++ [':']).isPrefixOf (py.lower term) = true)
    (hread : IpAddress.readNetwork (term.drop (mechanism_name.toList ++ [':']).length) =
      some (address, len)) :
    checkMechanism py mechanism_name term term = .ok () := by
  cases hversion : address.version with
  | four =>
    obtain rfl : mechanism_name = "ip4" := by simpa [hversion] using hname
    unfold checkMechanism
    rw [if_neg (by decide), if_neg (by decide), if_neg (by decide), if_neg (by decide),
      if_pos (.inl rfl), hnamed, hread]
    simp [hversion]
  | six =>
    obtain rfl : mechanism_name = "ip6" := by simpa [hversion] using hname
    unfold checkMechanism
    rw [if_neg (by decide), if_neg (by decide), if_neg (by decide), if_neg (by decide),
      if_pos (.inr rfl), hnamed, hread]
    simp [hversion]

theorem counts_address {address : IpAddress} (h : address.Valid)
    (hchars : ∀ c ∈ address.write py.ipv6, isTermChar c = true) :
    Counts py (ipMechanism py address) 0 := by
  intro state
  obtain ⟨len, hread⟩ := @IpAddress.readNetwork_write py.ipv6 _ h
  have hterm : IsHost (ipMechanism py address) := by
    unfold ipMechanism
    cases address.version with
    | four => exact (isHost_of_all (by decide) (by decide)).append hchars
    | six => exact (isHost_of_all (by decide) (by decide)).append hchars
  have hlower := @lower_of_termChars py _ hterm.2
  cases address with
  | v4 octets =>
    have hwhole : withoutQualifier (ipMechanism py (.v4 octets)) =
        ipMechanism py (.v4 octets) := rfl
    have hnamed : ("ip4".toList ++ [':']).isPrefixOf (py.lower (ipMechanism py (.v4 octets))) =
        true := by
      rw [hlower]
      rfl
    have hname : Text.asciiLower (mechanismText (ipMechanism py (.v4 octets))) = "ip4".toList := rfl
    exact checkTerm_mechanism hwhole hterm hname
      (@checkMechanism_network py "ip4" _ (.v4 octets) len rfl hnamed hread)
  | v6 hextets scope =>
    have hwhole : withoutQualifier (ipMechanism py (.v6 hextets scope)) =
        ipMechanism py (.v6 hextets scope) := rfl
    have hnamed : ("ip6".toList ++ [':']).isPrefixOf
        (py.lower (ipMechanism py (.v6 hextets scope))) = true := by
      rw [hlower]
      rfl
    have hname : Text.asciiLower (mechanismText (ipMechanism py (.v6 hextets scope))) =
        "ip6".toList := rfl
    exact checkTerm_mechanism hwhole hterm hname
      (@checkMechanism_network py "ip6" _ (.v6 hextets scope) len rfl hnamed hread)

/-! ## The recommended record -/

/-- The terms that are recommended, with the lookups of each. -/
def expectedTerms (py : Python) (hostname : Text) (tunnel_hosts : List Text) : List (Text × Nat) :=
  if tunnel_hosts.isEmpty then
    [("mx".toList, 1), ("a:".toList ++ hostname, 1), ("~all".toList, 0)]
  else
    ("mx".toList, 1) :: tunnel_hosts.map (fun host =>
      (tunnelMechanism py host, if (IpAddress.read host).isNone then 1 else 0)) ++ [("-all".toList, 0)]

theorem buildSpfExpected_eq (hostname : Text) (tunnel_hosts : List Text) :
    buildSpfExpected py hostname tunnel_hosts =
      joinWords ("v=spf1".toList :: (expectedTerms py hostname tunnel_hosts).map (·.1)) := by
  unfold buildSpfExpected expectedTerms
  cases tunnel_hosts with
  | nil =>
    simp only [List.isEmpty_nil, if_true, List.map_cons, List.map_nil, joinWords_cons]
    simp [joinWords, List.intercalate]
  | cons host tunnel_hosts =>
    have hterms : ∀ mechanisms : List Text, mechanisms ≠ [] →
        joinWords ("v=spf1".toList :: "mx".toList :: (mechanisms ++ ["-all".toList])) =
          "v=spf1 mx ".toList ++ joinWords mechanisms ++ " -all".toList := by
      intro mechanisms hne
      obtain ⟨first, rest, rfl⟩ := List.exists_cons_of_ne_nil hne
      have hconcat := joinWords_concat (first :: rest) hne "-all".toList
      rw [List.cons_append] at hconcat
      rw [joinWords_cons, List.cons_append, joinWords_cons, hconcat]
      simp
    have hmap : (fun t : Text × Nat => t.1) ∘ (fun host => (tunnelMechanism py host,
        if (IpAddress.read host).isNone then 1 else 0)) = tunnelMechanism py := rfl
    simp only [List.isEmpty_cons, Bool.false_eq_true, if_false, List.cons_append, List.map_cons,
      List.map_append, List.map_map, List.map_nil, hmap]
    exact (hterms (tunnelMechanism py host :: tunnel_hosts.map (tunnelMechanism py)) (by simp)).symm

theorem isTermChar_of_isPlain {c : Char} (h : IpAddress.isPlain c = true) :
    isTermChar c = true := by
  obtain ⟨hascii, -, hspace⟩ := IpAddress.ascii_of_isPlain h
  have hne : ∀ d ∈ ['/', '%', '=', ' '], c ≠ d := by
    rintro d hd rfl
    rw [IpAddress.not_isPlain_of_mem hd] at h
    cases h
  simp [isTermChar, hascii, hspace, hne '/' (by decide), hne '=' (by decide)]

/-- An address that a host was read as is written with characters of a host. -/
theorem termChars_write {host : Text} (h : IsHost host) {address : IpAddress}
    (hread : IpAddress.read host = some address) :
    ∀ c ∈ address.write py.ipv6, isTermChar c = true := by
  intro c hc
  rcases IpAddress.mem_write (IpAddress.read_valid hread) hc with hplain | ⟨hextets, scope, rfl, hscope⟩
  · exact isTermChar_of_isPlain hplain
  · obtain ⟨front, hsplit⟩ := IpAddress.splitScope_of_read hread
    rcases hscope with rfl | hmem
    · decide
    · exact h.2 c (IpAddress.scope_subset_splitScope hsplit hmem)

theorem asciiLower_ipMechanism {address : IpAddress} (h : address.Valid) :
    Text.asciiLower (ipMechanism py address) = ipMechanism py address.lowered := by
  have hwrite := @IpAddress.asciiLower_write py.ipv6 _ h
  cases address with
  | v4 octets =>
    change Text.asciiLower ("ip4:".toList ++ _) = "ip4:".toList ++ _
    rw [← hwrite, Text.asciiLower, List.map_append]
    rfl
  | v6 hextets scope =>
    change Text.asciiLower ("ip6:".toList ++ _) = "ip6:".toList ++ _
    rw [← hwrite, Text.asciiLower, List.map_append]
    rfl

/-- The mechanism of an endpoint is in order as it is and in lower case. -/
theorem counts_tunnelMechanism {host : Text} (h : IsHost host) :
    Counts py (tunnelMechanism py host) (if (IpAddress.read host).isNone then 1 else 0) ∧
      Counts py (Text.asciiLower (tunnelMechanism py host))
        (if (IpAddress.read host).isNone then 1 else 0) ∧ IsHost (tunnelMechanism py host) := by
  unfold tunnelMechanism
  cases hread : IpAddress.read host with
  | none =>
    refine ⟨counts_host h, ?_, (isHost_of_all (by decide) (by decide)).append h.2⟩
    have hlower : Text.asciiLower ("a:".toList ++ host) = "a:".toList ++ Text.asciiLower host := by
      rw [Text.asciiLower, List.map_append]
      rfl
    simp only [hlower]
    exact counts_host h.asciiLower
  | some address =>
    have hvalid := IpAddress.read_valid hread
    have hchars := @termChars_write py _ h _ hread
    have hterm : IsHost (ipMechanism py address) := by
      unfold ipMechanism
      cases address.version with
      | four => exact (isHost_of_all (by decide) (by decide)).append hchars
      | six => exact (isHost_of_all (by decide) (by decide)).append hchars
    refine ⟨counts_address hvalid hchars, ?_, hterm⟩
    simp only [asciiLower_ipMechanism hvalid]
    refine counts_address hvalid.lowered fun c hc => ?_
    rw [← IpAddress.asciiLower_write hvalid] at hc
    obtain ⟨d, hd, rfl⟩ := List.mem_map.mp hc
    exact isTermChar_toLower (hchars d hd)

/-- Every term that is recommended is in order, as it is and in lower case. -/
theorem counts_expectedTerms {hostname : Text} {tunnel_hosts : List Text} (hname : IsHost hostname)
    (hhosts : ∀ host ∈ tunnel_hosts, IsHost host) :
    ∀ t ∈ expectedTerms py hostname tunnel_hosts,
      Counts py t.1 t.2 ∧ Counts py (Text.asciiLower t.1) t.2 ∧ IsHost t.1 := by
  have hmx : Counts py "mx".toList 1 ∧ Counts py (Text.asciiLower "mx".toList) 1 ∧
      IsHost "mx".toList := ⟨counts_mx, counts_mx, isHost_of_all (by decide) (by decide)⟩
  intro t ht
  unfold expectedTerms at ht
  split at ht
  · simp only [List.mem_cons, List.not_mem_nil, or_false] at ht
    rcases ht with rfl | rfl | rfl
    · exact hmx
    · refine ⟨counts_host hname, ?_, (isHost_of_all (by decide) (by decide)).append hname.2⟩
      rw [Text.asciiLower, List.map_append]
      exact counts_host hname.asciiLower
    · exact ⟨counts_all (.inr rfl), counts_all (.inr rfl), isHost_of_all (by decide) (by decide)⟩
  · simp only [List.cons_append, List.mem_cons, List.mem_append, List.mem_map, List.not_mem_nil,
      or_false] at ht
    rcases ht with rfl | ⟨host, hhost, rfl⟩ | rfl
    · exact hmx
    · exact counts_tunnelMechanism (hhosts host hhost)
    · exact ⟨counts_all (.inl rfl), counts_all (.inl rfl), isHost_of_all (by decide) (by decide)⟩

/-- The endpoints that are no addresses. -/
def namedHosts (tunnel_hosts : List Text) : Nat :=
  tunnel_hosts.countP fun host => (IpAddress.read host).isNone

theorem sum_expectedTerms (hostname : Text) (tunnel_hosts : List Text) :
    ((expectedTerms py hostname tunnel_hosts).map (·.2)).sum ≤ 10 ↔
      namedHosts tunnel_hosts ≤ 9 := by
  have hsum : ∀ hosts : List Text, (hosts.map fun host =>
      if (IpAddress.read host).isNone then 1 else 0).sum = namedHosts hosts := by
    intro hosts
    induction hosts with
    | nil => rfl
    | cons host hosts ih =>
      rw [List.map_cons, List.sum_cons, ih, namedHosts, namedHosts, List.countP_cons, Nat.add_comm]
  unfold expectedTerms
  cases tunnel_hosts with
  | nil => simp [namedHosts]
  | cons host tunnel_hosts =>
    have hone := hsum (host :: tunnel_hosts)
    rw [List.map_cons, List.sum_cons] at hone
    simp only [List.isEmpty_cons, Bool.false_eq_true, if_false, List.cons_append, List.map_cons,
      List.map_append, List.map_map, List.map_nil, List.sum_cons, List.sum_append, List.sum_nil,
      Function.comp_def]
    omega

/-- A record matches itself where it passes the check when normalized. -/
theorem spfMatches_self (value : Text) :
    spfMatches py value value = (validateSpfRecord py (normalizeSpf py value)).isOk := by
  unfold spfMatches
  cases hvalid : (validateSpfRecord py (normalizeSpf py value)).isOk with
  | false => simp [hvalid]
  | true =>
    simp only [hvalid, Bool.not_true, Bool.or_self, Bool.false_eq_true, if_false]
    cases simpleSpfParts (normalizeSpf py value) with
    | none => simp
    | some parts =>
      have hrequired : ∀ m ∈ requiredMechanisms parts, m ∈ parts.1 := by
        intro m hm
        unfold requiredMechanisms at hm
        split at hm
        · exact List.mem_of_mem_filter hm
        · exact hm
      simp [terminalIsCompatible, List.all_eq_true]
      exact hrequired

end

/-- A record of terms in order passes the check and matches itself up to ten lookups. -/
theorem joined_verified_iff {py : Python} {terms : List (Text × Nat)} (hne : terms ≠ [])
    (h : ∀ t ∈ terms, Counts py t.1 t.2 ∧ Counts py (Text.asciiLower t.1) t.2 ∧ IsHost t.1) :
    (validateSpfRecord py (joinWords ("v=spf1".toList :: terms.map (·.1))) = .ok () ↔
      (terms.map (·.2)).sum ≤ 10) ∧
    (validateSpfRecord py (normalizeSpf py (joinWords ("v=spf1".toList :: terms.map (·.1)))) =
      .ok () ↔ (terms.map (·.2)).sum ≤ 10) := by
  have hversion : py.lower "v=spf1".toList = "v=spf1".toList :=
    py.ascii_lower _ (List.all_eq_true.mp (by decide))
  have htokens : ∀ token ∈ "v=spf1".toList :: terms.map (·.1),
      IsWord token ∧ ∀ c ∈ token, Text.ascii c = true := by
    have hspaces : ∀ c ∈ "v=spf1".toList, Text.isSpace c = false := by
      intro c hc
      have hall : "v=spf1".toList.all (!Text.isSpace ·) = true := by decide
      simpa using List.all_eq_true.mp hall c hc
    have hascii : ∀ c ∈ "v=spf1".toList, Text.ascii c = true := List.all_eq_true.mp (by decide)
    refine List.forall_mem_cons.mpr ⟨⟨⟨by decide, hspaces⟩, hascii⟩, ?_⟩
    intro token htoken
    obtain ⟨t, ht, rfl⟩ := List.mem_map.mp htoken
    have hhost := (h t ht).2.2
    refine ⟨hhost.isWord, fun c hc => ?_⟩
    have hterm := hhost.2 c hc
    simp only [isTermChar, Bool.and_eq_true] at hterm
    exact hterm.1.1.1
  constructor
  · exact validateSpfRecord_iff (words_joinWords fun token ht => (htokens token ht).1) hversion hne
      fun t ht => (h t ht).1
  · rw [normalizeSpf_joinWords htokens]
    have hmap : ("v=spf1".toList :: terms.map (·.1)).map Text.asciiLower =
        "v=spf1".toList :: (terms.map fun t => (Text.asciiLower t.1, t.2)).map (·.1) := by
      simp only [List.map_cons, List.map_map]
      rfl
    have hwords : ∀ token ∈ ("v=spf1".toList :: terms.map (·.1)).map Text.asciiLower,
        IsWord token := by
      intro token htoken
      obtain ⟨t, ht, rfl⟩ := List.mem_map.mp htoken
      exact isWord_asciiLower (htokens t ht).1 (htokens t ht).2
    have hcounts : ∀ t ∈ terms.map fun t => (Text.asciiLower t.1, t.2), Counts py t.1 t.2 := by
      intro t ht
      obtain ⟨u, hu, rfl⟩ := List.mem_map.mp ht
      exact (h u hu).2.1
    have hsum : ((terms.map fun t => (Text.asciiLower t.1, t.2)).map (·.2)) = terms.map (·.2) := by
      rw [List.map_map]
      rfl
    have hsplit := words_joinWords hwords
    rw [hmap] at hsplit ⊢
    rw [validateSpfRecord_iff hsplit hversion (by simpa using hne) hcounts, hsum]

/-- A host name or the text of an address. -/
structure Host where
  text : Text
  isHost : IsHost text

/-- The recommended record passes the check and matches itself where nine endpoints at
most are named, and there only. -/
theorem recommended_verified_iff (py : Python) (hostname : Host) (tunnel_hosts : List Host) :
    (validateSpfRecord py (buildSpfExpected py hostname.text (tunnel_hosts.map (·.text))) = .ok () ∧
      spfMatches py (buildSpfExpected py hostname.text (tunnel_hosts.map (·.text)))
        (buildSpfExpected py hostname.text (tunnel_hosts.map (·.text))) = true) ↔
      namedHosts (tunnel_hosts.map (·.text)) ≤ 9 := by
  have hhosts : ∀ host ∈ tunnel_hosts.map (·.text), IsHost host := by
    intro host hhost
    obtain ⟨h, -, rfl⟩ := List.mem_map.mp hhost
    exact h.isHost
  generalize tunnel_hosts.map (·.text) = texts at hhosts
  have hne : expectedTerms py hostname.text texts ≠ [] := by
    unfold expectedTerms
    split
    · exact List.cons_ne_nil _ _
    · exact List.cons_ne_nil _ _
  obtain ⟨hvalid, hnormalized⟩ :=
    joined_verified_iff hne (counts_expectedTerms hostname.isHost hhosts)
  rw [sum_expectedTerms] at hvalid hnormalized
  have hok : ∀ check : Except String Unit, check.isOk = true ↔ check = .ok () := by
    intro check
    cases check with
    | error e => simp [Except.isOk, Except.toBool]
    | ok u => simp [Except.isOk, Except.toBool]
  rw [buildSpfExpected_eq, spfMatches_self, hok, hvalid, hnormalized, and_self]

/-- The relays `relay0.example.com` to `relay9.example.com`. -/
def tenRelays : List Text :=
  (List.range 10).map fun n => "relay".toList ++ Nat.toDigits 10 n ++ ".example.com".toList

/-- `mx` and ten named relays are eleven lookups. -/
theorem recommended_fails_for_ten_relays :
    validateSpfRecord .asciiOnly (buildSpfExpected .asciiOnly "mail.example.com".toList tenRelays) =
        .error "SPF uses 11 DNS lookups; the limit is 10" ∧
      spfMatches .asciiOnly (buildSpfExpected .asciiOnly "mail.example.com".toList tenRelays)
        (buildSpfExpected .asciiOnly "mail.example.com".toList tenRelays) = false := by
  decide +kernel

end MailCue.Backend.Domains
