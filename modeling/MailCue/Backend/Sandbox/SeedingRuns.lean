import MailCue.Backend.Sandbox.ProviderSeeding

/-!
# Seeding twice

Over settled specs each identity keeps to one row, so that a second call finds every row
again and merges into it what is there already.
-/
namespace MailCue.Backend.Sandbox.Seeding
open MailCue.Lib
open Voice.Ncco (truthy)

/-! ## Runs over settled specs -/

section
variable {str : Json → Text} {owner_id : String} {stored : List SandboxProvider}
  {specs : List SeedProviderSpec}

theorem identity_eq_iff {spec other : SeedProviderSpec} :
    identity str spec = identity str other ↔
      spec.provider_type = other.provider_type ∧ identityKey str spec = identityKey str other :=
  Prod.mk.injEq .. ▸ Iff.rfl

theorem ofOwner_congr {spec other : SeedProviderSpec}
    (h : identity str spec = identity str other) (row : SandboxProvider) :
    ofOwner owner_id spec row = ofOwner owner_id other row := by
  rw [ofOwner, ofOwner, (identity_eq_iff.mp h).1]

/-- The row is what it was when it was stored, or empty, with its specs merged into it. -/
structure Traced (str : Json → Text) (owner_id : String) (stored : List SandboxProvider)
    (log : List (SeedProviderSpec × String)) (base row : SandboxProvider) : Prop where
  merged : row = (mine log row.id).foldl merge base
  owned : ∀ spec ∈ mine log row.id, ofOwner owner_id spec row = true
  source : base ∈ stored ∧ (∀ spec ∈ mine log row.id,
      hasIdentity str base.credentials (identityKey str spec) = true) ∨
    base ∉ stored ∧ base.credentials = [] ∧ mine log row.id ≠ [] ∧
      ∀ spec ∈ mine log row.id, ∀ other ∈ stored, ofOwner owner_id spec other = true →
        hasIdentity str other.credentials (identityKey str spec) = false

structure Inv (str : Json → Text) (owner_id : String) (stored : List SandboxProvider)
    (specs : List SeedProviderSpec) (log : List (SeedProviderSpec × String))
    (rows : List SandboxProvider) : Prop where
  traced : ∀ row ∈ rows, ∃ base, Traced str owner_id stored log base row
  lasting : ∀ base ∈ stored, ∃ row ∈ rows, Traced str owner_id stored log base row
  known : ∀ entry ∈ log, entry.1 ∈ specs
  present : ∀ entry ∈ log, ∃ row ∈ rows, row.id = entry.2
  keyed : ∀ a ∈ log, ∀ b ∈ log, identity str a.1 = identity str b.1 ↔ a.2 = b.2

theorem Traced.base_id {log : List (SeedProviderSpec × String)} {base row : SandboxProvider}
    (h : Traced str owner_id stored log base row) : row.id = base.id := by
  have hid := congrArg SandboxProvider.id h.merged
  rwa [foldl_merge_id] at hid

theorem Traced.ofOwner_eq {log : List (SeedProviderSpec × String)} {base row : SandboxProvider}
    (h : Traced str owner_id stored log base row) (spec : SeedProviderSpec) :
    ofOwner owner_id spec row = ofOwner owner_id spec base := by
  have howner := congrArg (ofOwner owner_id spec) h.merged
  rwa [ofOwner_foldl_merge] at howner

theorem Traced.credentials_eq {log : List (SeedProviderSpec × String)} {base row : SandboxProvider}
    (h : Traced str owner_id stored log base row) :
    row.credentials =
      Dict.update base.credentials ((mine log row.id).flatMap SeedProviderSpec.credentials) := by
  have hcredentials := congrArg SandboxProvider.credentials h.merged
  rwa [foldl_merge_credentials] at hcredentials

theorem Inv.initial (rows : List SandboxProvider) : Inv str owner_id rows specs [] rows := by
  have htraced : ∀ row ∈ rows, Traced str owner_id rows [] row row := fun row hrow =>
    ⟨rfl, fun _ h => (List.not_mem_nil h).elim, .inl ⟨hrow, fun _ h => (List.not_mem_nil h).elim⟩⟩
  exact ⟨fun row hrow => ⟨row, htraced row hrow⟩,
    fun base hbase => ⟨base, hbase, htraced base hbase⟩,
    fun _ h => (List.not_mem_nil h).elim, fun _ h => (List.not_mem_nil h).elim,
    fun _ h => (List.not_mem_nil h).elim⟩

variable {log : List (SeedProviderSpec × String)} {rows : List SandboxProvider}
  {spec : SeedProviderSpec} {row : SandboxProvider}

/-- The specs of one row have one identity. -/
theorem Inv.mine_identity (hinv : Inv str owner_id stored specs log rows) {id : String}
    {a b : SeedProviderSpec} (ha : a ∈ mine log id) (hb : b ∈ mine log id) :
    identity str a = identity str b :=
  (hinv.keyed _ (mem_mine.mp ha) _ (mem_mine.mp hb)).mpr rfl

/-- A row holds the identity of the specs that went into it. -/
theorem Inv.holds (hsettled : Settled str owner_id stored specs)
    (hinv : Inv str owner_id stored specs log rows) (hspec : spec ∈ specs) (hrow : row ∈ rows)
    {logged : SeedProviderSpec} (hlogged : logged ∈ mine log row.id)
    (hidentity : identity str logged = identity str spec) :
    ofOwner owner_id spec row = true ∧
      hasIdentity str row.credentials (identityKey str spec) = true := by
  obtain ⟨base, htraced⟩ := hinv.traced row hrow
  have howned := htraced.owned logged hlogged
  rw [ofOwner_congr hidentity] at howned
  refine ⟨howned, ?_⟩
  rw [htraced.credentials_eq]
  have hsame : ∀ t ∈ mine log row.id, identity str t = identity str spec := fun t ht =>
    (hinv.mine_identity ht hlogged).trans hidentity
  have hkey := (identity_eq_iff.mp hidentity).2
  apply hsettled.kept spec hspec
  · rcases htraced.source with ⟨hbase, hholds⟩ | ⟨_, hnil, _, hnone⟩
    · refine .inl ⟨base, hbase, ?_, ?_, rfl⟩
      · rw [← htraced.ofOwner_eq spec]
        exact howned
      · rw [← hkey]
        exact hholds logged hlogged
    · refine .inr ⟨hnil, fun other hother howner => ?_⟩
      rw [← hkey]
      rw [← ofOwner_congr hidentity] at howner
      exact hnone logged hlogged other hother howner
  · exact List.ne_nil_of_mem hlogged
  · exact fun t ht => ⟨hinv.known _ (mem_mine.mp ht), hsame t ht⟩

/-- A row that holds an identity has got the specs of no other one. -/
theorem Inv.of_holds (hsettled : Settled str owner_id stored specs)
    (hinv : Inv str owner_id stored specs log rows) (hspec : spec ∈ specs) (hrow : row ∈ rows)
    (howner : ofOwner owner_id spec row = true)
    (hholds : hasIdentity str row.credentials (identityKey str spec) = true)
    {logged : SeedProviderSpec} (hlogged : logged ∈ mine log row.id) :
    identity str logged = identity str spec := by
  obtain ⟨base, htraced⟩ := hinv.traced row hrow
  have hknown {t : SeedProviderSpec} (ht : t ∈ mine log row.id) : t ∈ specs :=
    hinv.known _ (mem_mine.mp ht)
  have htype {t : SeedProviderSpec} (ht : t ∈ mine log row.id) :
      t.provider_type = spec.provider_type := by
    have howned := htraced.owned t ht
    rw [ofOwner, Bool.and_eq_true, beq_iff_eq, beq_iff_eq] at howned howner
    exact howned.2.symm.trans howner.2
  have hspec_of {t : SeedProviderSpec} (ht : t ∈ mine log row.id)
      (h : hasIdentity str t.credentials (identityKey str spec) = true) :
      identity str logged = identity str spec := by
    have hkey := hsettled.apart spec hspec t (hknown ht) (htype ht).symm h
    exact (hinv.mine_identity hlogged ht).trans (identity_eq_iff.mpr ⟨htype ht, hkey⟩)
  rw [htraced.credentials_eq] at hholds
  rcases hasIdentity_of_update hholds with ⟨hbase, hfresh⟩ | ⟨t, ht, hfield⟩
  · rcases htraced.source with ⟨hstored, hlogs⟩ | ⟨_, hnil, _, _⟩
    · refine identity_eq_iff.mpr ⟨htype hlogged, ?_⟩
      refine hsettled.one_identity base hstored spec hspec logged (hknown hlogged) ?_ ?_ hbase
        (hlogs logged hlogged)
      · rw [← htraced.ofOwner_eq]
        exact howner
      · rw [← htraced.ofOwner_eq]
        exact htraced.owned logged hlogged
    · exact hspec_of hlogged (hfresh hnil logged hlogged)
  · exact hspec_of ht hfield

/-- It is the row the specs of its identity have gone into. -/
theorem Inv.id_of_holds (hsettled : Settled str owner_id stored specs)
    (hinv : Inv str owner_id stored specs log rows) (hspec : spec ∈ specs) (hrow : row ∈ rows)
    (howner : ofOwner owner_id spec row = true)
    (hholds : hasIdentity str row.credentials (identityKey str spec) = true)
    {entry : SeedProviderSpec × String} (hentry : entry ∈ log)
    (hidentity : identity str entry.1 = identity str spec) : row.id = entry.2 := by
  cases hmine : mine log row.id with
  | cons logged rest =>
    have hlogged : logged ∈ mine log row.id := hmine ▸ List.mem_cons_self ..
    have hsame := hinv.of_holds hsettled hspec hrow howner hholds hlogged
    exact (hinv.keyed _ (mem_mine.mp hlogged) _ hentry).mp (hsame.trans hidentity.symm)
  | nil =>
    obtain ⟨base, htraced⟩ := hinv.traced row hrow
    have hbase : base = row := by
      have hmerged := htraced.merged
      rw [hmine] at hmerged
      exact hmerged.symm
    obtain ⟨other, hother, hid⟩ := hinv.present entry hentry
    obtain ⟨source, hsource⟩ := hinv.traced other hother
    have hlogged : entry.1 ∈ mine log other.id := mem_mine.mpr (hid ▸ hentry)
    have hkey := (identity_eq_iff.mp hidentity).2
    rcases htraced.source with ⟨hstored, _⟩ | ⟨_, _, hsome, _⟩
    · rw [hbase] at hstored
      rcases hsource.source with ⟨hfound, hclaimed⟩ | ⟨_, _, _, hnone⟩
      · have howned := hsource.owned entry.1 hlogged
        rw [hsource.ofOwner_eq, ofOwner_congr hidentity] at howned
        have hsame := hsettled.one_row spec hspec source hfound row hstored howned howner
          (hkey ▸ hclaimed entry.1 hlogged) hholds
        rw [hsame, ← hsource.base_id, hid]
      · have hfree := hnone entry.1 hlogged row hstored (ofOwner_congr hidentity row ▸ howner)
        rw [hkey] at hfree
        cases hfree.symm.trans hholds
    · exact absurd hmine hsome

theorem existing_eq_some {session : Session} {n : Nat} {found : SandboxProvider}
    (h : existing str session owner_id n rows spec = some found) :
    found ∈ rows ∧ ofOwner owner_id spec found = true ∧
      hasIdentity str found.credentials (identityKey str spec) = true := by
  have hmem := (session.perm n _).mem_iff.mp (List.mem_of_find?_eq_some h)
  exact ⟨(List.mem_filter.mp hmem).1, (List.mem_filter.mp hmem).2, by simpa using List.find?_some h⟩

theorem existing_eq_none {session : Session} {n : Nat}
    (h : existing str session owner_id n rows spec = none) (hrow : row ∈ rows)
    (howner : ofOwner owner_id spec row = true) :
    hasIdentity str row.credentials (identityKey str spec) = false := by
  have hmem := (session.perm n _).mem_iff.mpr (List.mem_filter.mpr ⟨hrow, howner⟩)
  simpa using List.find?_eq_none.mp h row hmem

/-- Where the row of a spec is there, it is the one that is found. -/
theorem Inv.existing_id (hsettled : Settled str owner_id stored specs)
    (hinv : Inv str owner_id stored specs log rows) (hspec : spec ∈ specs) (session : Session)
    (n : Nat) {entry : SeedProviderSpec × String} (hentry : entry ∈ log)
    (hidentity : identity str entry.1 = identity str spec) :
    ∃ found, existing str session owner_id n rows spec = some found ∧ found.id = entry.2 := by
  obtain ⟨row, hrow, hid⟩ := hinv.present entry hentry
  have hlogged : entry.1 ∈ mine log row.id := mem_mine.mpr (hid ▸ hentry)
  obtain ⟨howner, hholds⟩ := hinv.holds hsettled hspec hrow hlogged hidentity
  cases hfound : existing str session owner_id n rows spec with
  | none => cases (existing_eq_none hfound hrow howner).symm.trans hholds
  | some found =>
    obtain ⟨hmem, hof, hhas⟩ := existing_eq_some hfound
    exact ⟨found, rfl, hinv.id_of_holds hsettled hspec hmem hof hhas hentry hidentity⟩

theorem traced_of_other {base : SandboxProvider} {id : String} (hne : id ≠ row.id)
    (h : Traced str owner_id stored log base row) :
    Traced str owner_id stored (log ++ [(spec, id)]) base row := by
  have hmine : mine (log ++ [(spec, id)]) row.id = mine log row.id := by
    rw [mine_append, mine_singleton_of_ne spec hne, List.append_nil]
  refine ⟨?_, ?_, ?_⟩
  · rw [hmine]
    exact h.merged
  · rw [hmine]
    exact h.owned
  · rw [hmine]
    exact h.source

/-- A spec goes into a row that holds its identity. -/
theorem Inv.merged (hsettled : Settled str owner_id stored specs)
    (hinv : Inv str owner_id stored specs log rows) (hspec : spec ∈ specs)
    (hids : (rows.map SandboxProvider.id).Nodup) {found : SandboxProvider} (hfound : found ∈ rows)
    (howner : ofOwner owner_id spec found = true)
    (hholds : hasIdentity str found.credentials (identityKey str spec) = true) :
    Inv str owner_id stored specs (log ++ [(spec, found.id)])
      (rows.map fun old => if old.id = found.id then merge found spec else old) := by
  have hsame {row : SandboxProvider} (hrow : row ∈ rows) (hid : row.id = found.id) : row = found :=
    List.inj_on_of_nodup_map hids hrow hfound hid
  have hmine : mine (log ++ [(spec, found.id)]) found.id = mine log found.id ++ [spec] := by
    rw [mine_append, mine_singleton]
  have hlogged : ∀ t ∈ mine log found.id, identity str t = identity str spec := fun t ht =>
    hinv.of_holds hsettled hspec hfound howner hholds ht
  have hmerged {base : SandboxProvider} (h : Traced str owner_id stored log base found) :
      Traced str owner_id stored (log ++ [(spec, found.id)]) base (merge found spec) := by
    have hid : (merge found spec).id = found.id := rfl
    refine ⟨?_, ?_, ?_⟩
    · rw [hid, hmine, List.foldl_append, ← h.merged]
      rfl
    · rw [hid, hmine]
      intro t ht
      rcases List.mem_append.mp ht with hold | hnew
      · exact h.owned t hold
      · cases List.mem_singleton.mp hnew
        exact howner
    · rw [hid, hmine]
      rcases h.source with ⟨hstored, hclaimed⟩ | ⟨hnew, hnil, hsome, hnone⟩
      · refine .inl ⟨hstored, fun t ht => ?_⟩
        rcases List.mem_append.mp ht with hold | hnew
        · exact hclaimed t hold
        · cases List.mem_singleton.mp hnew
          cases hfirst : mine log found.id with
          | nil =>
            have hbase : found = base := by
              have hmerged := h.merged
              rwa [hfirst] at hmerged
            rw [← hbase]
            exact hholds
          | cons first rest =>
            have hmem : first ∈ mine log found.id := hfirst ▸ List.mem_cons_self ..
            rw [← (identity_eq_iff.mp (hlogged first hmem)).2]
            exact hclaimed first hmem
      · refine .inr ⟨hnew, hnil, by simp, fun t ht other hother hof => ?_⟩
        rcases List.mem_append.mp ht with hold | hnew
        · exact hnone t hold other hother hof
        · cases List.mem_singleton.mp hnew
          obtain ⟨first, hmem⟩ := List.exists_mem_of_ne_nil _ hsome
          rw [← (identity_eq_iff.mp (hlogged first hmem)).2]
          rw [← ofOwner_congr (hlogged first hmem)] at hof
          exact hnone first hmem other hother hof
  have hstep {row base : SandboxProvider} (hrow : row ∈ rows)
      (h : Traced str owner_id stored log base row) :
      ∃ row' ∈ rows.map fun old => if old.id = found.id then merge found spec else old,
        row'.id = row.id ∧ Traced str owner_id stored (log ++ [(spec, found.id)]) base row' := by
    refine ⟨_, List.mem_map_of_mem hrow, ?_⟩
    split
    · next hid =>
      cases hsame hrow hid
      exact ⟨rfl, hmerged h⟩
    · next hid => exact ⟨rfl, traced_of_other (Ne.symm hid) h⟩
  refine ⟨fun row' hrow' => ?_, fun base hbase => ?_, fun entry hentry => ?_,
    fun entry hentry => ?_, fun a ha b hb => ?_⟩
  · obtain ⟨row, hrow, rfl⟩ := List.mem_map.mp hrow'
    obtain ⟨base, h⟩ := hinv.traced row hrow
    split
    · next hid =>
      cases hsame hrow hid
      exact ⟨base, hmerged h⟩
    · next hid => exact ⟨base, traced_of_other (Ne.symm hid) h⟩
  · obtain ⟨row, hrow, h⟩ := hinv.lasting base hbase
    obtain ⟨row', hrow', _, htraced⟩ := hstep hrow h
    exact ⟨row', hrow', htraced⟩
  · rcases List.mem_append.mp hentry with hold | hnew
    · exact hinv.known entry hold
    · cases List.mem_singleton.mp hnew
      exact hspec
  · have hrow : ∃ row ∈ rows, row.id = entry.2 := by
      rcases List.mem_append.mp hentry with hold | hnew
      · exact hinv.present entry hold
      · cases List.mem_singleton.mp hnew
        exact ⟨found, hfound, rfl⟩
    obtain ⟨row, hmem, hid⟩ := hrow
    obtain ⟨base, h⟩ := hinv.traced row hmem
    obtain ⟨row', hrow', hsame', _⟩ := hstep hmem h
    exact ⟨row', hrow', hsame'.trans hid⟩
  · have hnewest {entry : SeedProviderSpec × String} (hentry : entry ∈ log) :
        identity str entry.1 = identity str spec ↔ entry.2 = found.id := by
      constructor
      · intro hidentity
        exact (hinv.id_of_holds hsettled hspec hfound howner hholds hentry hidentity).symm
      · intro hid
        exact hlogged entry.1 (mem_mine.mpr (hid ▸ hentry))
    rcases List.mem_append.mp ha with hola | hnewa
    · rcases List.mem_append.mp hb with holb | hnewb
      · exact hinv.keyed a hola b holb
      · cases List.mem_singleton.mp hnewb
        exact hnewest hola
    · cases List.mem_singleton.mp hnewa
      rcases List.mem_append.mp hb with holb | hnewb
      · rw [eq_comm, hnewest holb, eq_comm]
      · cases List.mem_singleton.mp hnewb
        exact iff_of_true rfl rfl

/-- A spec whose identity no row holds gets a row of its own. -/
theorem Inv.created (hsettled : Settled str owner_id stored specs)
    (hinv : Inv str owner_id stored specs log rows) (hspec : spec ∈ specs)
    (hnone : ∀ row ∈ rows, ofOwner owner_id spec row = true →
      hasIdentity str row.credentials (identityKey str spec) = false)
    {id : String} (hid : id ∉ rows.map SandboxProvider.id) (now : Int) :
    Inv str owner_id stored specs (log ++ [(spec, id)])
      (rows ++ [newRow id owner_id now spec]) := by
  have hne {row : SandboxProvider} (hrow : row ∈ rows) : id ≠ row.id := fun heq =>
    hid (List.mem_map.mpr ⟨row, hrow, heq.symm⟩)
  have hnew {entry : SeedProviderSpec × String} (hentry : entry ∈ log) :
      identity str entry.1 ≠ identity str spec ∧ entry.2 ≠ id := by
    obtain ⟨row, hrow, hrowid⟩ := hinv.present entry hentry
    refine ⟨fun hidentity => ?_, fun heq => hne hrow (hrowid.trans heq).symm⟩
    have hlogged : entry.1 ∈ mine log row.id := mem_mine.mpr (hrowid ▸ hentry)
    obtain ⟨howner, hholds⟩ := hinv.holds hsettled hspec hrow hlogged hidentity
    cases (hnone row hrow howner).symm.trans hholds
  have hmine : mine (log ++ [(spec, id)]) id = [spec] := by
    have hempty : mine log id = [] := by
      apply List.eq_nil_iff_forall_not_mem.mpr
      exact fun t ht => (hnew (mem_mine.mp ht)).2 rfl
    rw [mine_append, mine_singleton, hempty, List.nil_append]
  have hfree : ∀ other ∈ stored, ofOwner owner_id spec other = true →
      hasIdentity str other.credentials (identityKey str spec) = false := by
    intro other hother hof
    obtain ⟨row, hrow, h⟩ := hinv.lasting other hother
    cases hlogs : mine log row.id with
    | nil =>
      have hbase : row = other := by
        have hmerged := h.merged
        rwa [hlogs] at hmerged
      rw [← hbase] at hof ⊢
      exact hnone row hrow hof
    | cons first rest =>
      have hmem : first ∈ mine log row.id := hlogs ▸ List.mem_cons_self ..
      have hfirst := mem_mine.mp hmem
      cases hholds : hasIdentity str other.credentials (identityKey str spec) with
      | false => rfl
      | true =>
        exfalso
        have howned := h.owned first hmem
        rw [h.ofOwner_eq] at howned
        have hclaimed : hasIdentity str other.credentials (identityKey str first) = true := by
          rcases h.source with ⟨_, hclaimed⟩ | ⟨hstranger, _⟩
          · exact hclaimed first hmem
          · exact absurd hother hstranger
        have hkey := hsettled.one_identity other hother spec hspec first (hinv.known _ hfirst) hof
          howned hholds hclaimed
        refine (hnew hfirst).1 (identity_eq_iff.mpr ⟨?_, hkey⟩)
        rw [ofOwner, Bool.and_eq_true, beq_iff_eq, beq_iff_eq] at hof howned
        exact howned.2.symm.trans hof.2
  have hadded : Traced str owner_id stored (log ++ [(spec, id)])
      { newRow id owner_id now spec with credentials := [] } (newRow id owner_id now spec) := by
    have hrowid : (newRow id owner_id now spec).id = id := rfl
    refine ⟨?_, ?_, ?_⟩
    · rw [hrowid, hmine, List.foldl_cons, List.foldl_nil, merge, Dict.update_nil spec.nodup]
      rfl
    · rw [hrowid, hmine]
      intro t ht
      cases List.mem_singleton.mp ht
      simp [ofOwner, newRow]
    · rw [hrowid, hmine]
      refine .inr ⟨fun hold => ?_, rfl, List.cons_ne_nil _ _, fun t ht => ?_⟩
      · obtain ⟨row, hrow, h⟩ := hinv.lasting _ hold
        exact hne hrow h.base_id.symm
      · cases List.mem_singleton.mp ht
        exact hfree
  refine ⟨fun row hrow => ?_, fun base hbase => ?_, fun entry hentry => ?_, fun entry hentry => ?_,
    fun a ha b hb => ?_⟩
  · rcases List.mem_append.mp hrow with hold | hlast
    · obtain ⟨base, h⟩ := hinv.traced row hold
      exact ⟨base, traced_of_other (hne hold) h⟩
    · cases List.mem_singleton.mp hlast
      exact ⟨_, hadded⟩
  · obtain ⟨row, hrow, h⟩ := hinv.lasting base hbase
    exact ⟨row, List.mem_append_left _ hrow, traced_of_other (hne hrow) h⟩
  · rcases List.mem_append.mp hentry with hold | hlast
    · exact hinv.known entry hold
    · cases List.mem_singleton.mp hlast
      exact hspec
  · rcases List.mem_append.mp hentry with hold | hlast
    · obtain ⟨row, hrow, hrowid⟩ := hinv.present entry hold
      exact ⟨row, List.mem_append_left _ hrow, hrowid⟩
    · cases List.mem_singleton.mp hlast
      exact ⟨_, List.mem_append_right _ (List.mem_singleton_self _), rfl⟩
  · rcases List.mem_append.mp ha with hola | hnewa
    · rcases List.mem_append.mp hb with holb | hnewb
      · exact hinv.keyed a hola b holb
      · cases List.mem_singleton.mp hnewb
        exact iff_of_false (hnew hola).1 (hnew hola).2
    · cases List.mem_singleton.mp hnewa
      rcases List.mem_append.mp hb with holb | hnewb
      · exact iff_of_false (Ne.symm (hnew holb).1) (Ne.symm (hnew holb).2)
      · cases List.mem_singleton.mp hnewb
        exact iff_of_true rfl rfl

/-! ## One spec -/

/-- `f"{spec.provider_type}:{ident}"` -/
def idKey (str : Json → Text) (spec : SeedProviderSpec) : Text :=
  spec.provider_type.toList ++ ':' :: identityKey str spec

variable {session : Session} {n : Nat} {progress : Progress}
  {done : List (SeedProviderSpec × String)}

theorem upsert_of_none (progress : Progress)
    (h : existing str session owner_id n progress.providers.rows spec = none) :
    ∃ id, id ∉ progress.providers.rows.map SandboxProvider.id ∧
      (upsert str session owner_id n progress spec).providers.rows =
        progress.providers.rows ++ [newRow id owner_id (session.now n) spec] ∧
      (upsert str session owner_id n progress spec).log = progress.log ++ [(spec, id)] := by
  refine ⟨_, session.fresh n _, ?_⟩
  rw [upsert, h]
  exact ⟨rfl, rfl⟩

theorem upsert_of_some (progress : Progress) {found : SandboxProvider}
    (h : existing str session owner_id n progress.providers.rows spec = some found) :
    (upsert str session owner_id n progress spec).providers.rows =
        progress.providers.rows.map (fun old =>
          if old.id = found.id then merge found spec else old) ∧
      (upsert str session owner_id n progress spec).log = progress.log ++ [(spec, found.id)] := by
  rw [upsert, h]
  exact ⟨rfl, rfl⟩

variable (str owner_id) in
theorem upsert_ids (session : Session) (n : Nat) (progress : Progress) (spec : SeedProviderSpec) :
    ∃ id,
    (upsert str session owner_id n progress spec).log = progress.log ++ [(spec, id)] ∧
    (upsert str session owner_id n progress spec).ids =
      Dict.set progress.ids (idKey str spec) id := by
  unfold upsert
  split
  · exact ⟨_, rfl, rfl⟩
  · exact ⟨_, rfl, rfl⟩

theorem Inv.upsert (hsettled : Settled str owner_id stored specs)
    (hinv : Inv str owner_id stored specs (done ++ progress.log) progress.providers.rows)
    (hspec : spec ∈ specs) (session : Session) (n : Nat) :
    Inv str owner_id stored specs
      (done ++ (Seeding.upsert str session owner_id n progress spec).log)
      (Seeding.upsert str session owner_id n progress spec).providers.rows := by
  cases h : existing str session owner_id n progress.providers.rows spec with
  | none =>
    obtain ⟨id, hid, hrows, hlog⟩ := upsert_of_none _ h
    rw [hrows, hlog, ← List.append_assoc]
    exact hinv.created hsettled hspec (fun row hrow => existing_eq_none h hrow) hid _
  | some found =>
    obtain ⟨hrows, hlog⟩ := upsert_of_some _ h
    obtain ⟨hfound, howner, hholds⟩ := existing_eq_some h
    rw [hrows, hlog, ← List.append_assoc]
    exact hinv.merged hsettled hspec progress.providers.nodup hfound howner hholds

/-! ## All specs -/

theorem Inv.upsertAll (hsettled : Settled str owner_id stored specs) (session : Session)
    {rest : List SeedProviderSpec} (hrest : ∀ spec ∈ rest, spec ∈ specs) (n : Nat)
    (hinv : Inv str owner_id stored specs (done ++ progress.log) progress.providers.rows) :
    Inv str owner_id stored specs
      (done ++ (Seeding.upsertAll str session owner_id n rest progress).log)
      (Seeding.upsertAll str session owner_id n rest progress).providers.rows := by
  induction rest generalizing n progress with
  | nil => exact hinv
  | cons spec rest ih =>
    rw [List.forall_mem_cons] at hrest
    exact ih hrest.2 (n + 1) (hinv.upsert hsettled hrest.1 session n)

variable (str owner_id) in
theorem upsertAll_ids (session : Session) (n : Nat) (rest : List SeedProviderSpec)
    (progress : Progress) :
    ∃ more, (upsertAll str session owner_id n rest progress).log = progress.log ++ more ∧
      more.map Prod.fst = rest ∧
      (upsertAll str session owner_id n rest progress).ids =
        Dict.update progress.ids (more.map fun entry => (idKey str entry.1, entry.2)) := by
  induction rest generalizing n progress with
  | nil => exact ⟨[], (List.append_nil _).symm, rfl, rfl⟩
  | cons spec rest ih =>
    obtain ⟨id, hlog, hids⟩ := upsert_ids str owner_id session n progress spec
    obtain ⟨more, hmore, hfst, hdict⟩ := ih (n + 1) (upsert str session owner_id n progress spec)
    refine ⟨(spec, id) :: more, ?_, ?_, ?_⟩
    · rw [upsertAll, hmore, hlog, List.append_assoc, List.singleton_append]
    · rw [List.map_cons, hfst]
    · rw [upsertAll, hdict, hids]
      rfl

/-- A run in which each spec has its row already only merges. -/
theorem upsertAll_rows (hsettled : Settled str owner_id stored specs) (session : Session)
    {rest : List SeedProviderSpec} (hrest : ∀ spec ∈ rest, spec ∈ specs)
    (hdone : ∀ spec ∈ rest, ∃ entry ∈ done, identity str entry.1 = identity str spec) (n : Nat)
    (hinv : Inv str owner_id stored specs (done ++ progress.log) progress.providers.rows) :
    ∃ more, (upsertAll str session owner_id n rest progress).log = progress.log ++ more ∧
      (upsertAll str session owner_id n rest progress).providers.rows =
        progress.providers.rows.map fun row => (mine more row.id).foldl merge row := by
  induction rest generalizing n progress with
  | nil => exact ⟨[], (List.append_nil _).symm, (List.map_id _).symm⟩
  | cons spec rest ih =>
    rw [List.forall_mem_cons] at hrest hdone
    obtain ⟨entry, hentry, hidentity⟩ := hdone.1
    obtain ⟨found, hfound, _⟩ := hinv.existing_id hsettled hrest.1 session n
      (List.mem_append_left _ hentry) hidentity
    obtain ⟨hrows, hlog⟩ := upsert_of_some _ hfound
    obtain ⟨more, hmore, hall⟩ := ih hrest.2 hdone.2 (n + 1)
      (hinv.upsert hsettled hrest.1 session n)
    refine ⟨(spec, found.id) :: more, ?_, ?_⟩
    · rw [upsertAll, hmore, hlog, List.append_assoc, List.singleton_append]
    · rw [upsertAll, hall, hrows, List.map_map]
      refine List.map_congr_left fun row hrow => ?_
      have hsplit : mine ((spec, found.id) :: more) row.id =
          mine [(spec, found.id)] row.id ++ mine more row.id :=
        mine_append [(spec, found.id)] more row.id
      show (mine more (if row.id = found.id then merge found spec else row).id).foldl merge
        (if row.id = found.id then merge found spec else row) = _
      rw [hsplit]
      split
      · next hid =>
        have hsame : row = found := List.inj_on_of_nodup_map progress.providers.nodup hrow
          (existing_eq_some hfound).1 hid
        subst hsame
        rw [mine_singleton]
        rfl
      · next hid => rw [mine_singleton_of_ne spec (Ne.symm hid), List.nil_append]

/-! ## Two calls -/

theorem log_eq {log more : List (SeedProviderSpec × String)}
    (hfst : log.map Prod.fst = more.map Prod.fst)
    (h : ∀ a ∈ log, ∀ b ∈ more, a.1 = b.1 → a.2 = b.2) : log = more := by
  induction log generalizing more with
  | nil =>
    cases more with
    | nil => rfl
    | cons b more => cases hfst
  | cons a log ih =>
    cases more with
    | nil => cases hfst
    | cons b more =>
      rw [List.map_cons, List.map_cons, List.cons.injEq] at hfst
      rw [ih hfst.2 fun x hx y hy => h x (List.mem_cons_of_mem _ hx) y (List.mem_cons_of_mem _ hy),
        Prod.ext hfst.1 (h a (List.mem_cons_self ..) b (List.mem_cons_self ..) hfst.1)]

theorem Inv.apart (hinv : Inv str owner_id stored specs log rows)
    {part : List (SeedProviderSpec × String)} (hpart : ∀ entry ∈ part, entry ∈ log) :
    Apart str part := fun a ha b hb =>
  (hinv.keyed a (hpart a ha) b (hpart b hb)).mpr

theorem upsertAll_twice (providers : Table SandboxProvider.id)
    (hsettled : Settled str owner_id providers.rows specs) (first second : Session) :
    let once := upsertAll str first owner_id 0 specs { providers }
    let twice := upsertAll str second owner_id 0 specs { providers := once.providers }
    twice.providers = once.providers ∧ twice.ids = once.ids ∧ Apart str once.log ∧
      Apart str twice.log := by
  intro once twice
  have hall : ∀ spec ∈ specs, spec ∈ specs := fun _ h => h
  obtain ⟨log, hlog, hfst, hids⟩ := upsertAll_ids str owner_id first 0 specs { providers }
  obtain ⟨more, hmore, hfst', hids'⟩ :=
    upsertAll_ids str owner_id second 0 specs { providers := once.providers }
  have hlog : once.log = log := hlog
  have hmore : twice.log = more := hmore
  have hstart : Inv str owner_id providers.rows specs ([] ++ ({ providers } : Progress).log)
      ({ providers } : Progress).providers.rows := Inv.initial _
  have honce : Inv str owner_id providers.rows specs log once.providers.rows :=
    hlog ▸ hstart.upsertAll hsettled first hall 0
  have hagain : Inv str owner_id providers.rows specs
      (log ++ ({ providers := once.providers } : Progress).log)
      ({ providers := once.providers } : Progress).providers.rows := by
    rw [show ({ providers := once.providers } : Progress).log = [] from rfl, List.append_nil]
    exact honce
  have htwice : Inv str owner_id providers.rows specs (log ++ more) twice.providers.rows :=
    hmore ▸ hagain.upsertAll hsettled second hall 0
  have hsame : log = more := log_eq (hfst.trans hfst'.symm) fun a ha b hb hab =>
    (htwice.keyed a (List.mem_append_left _ ha) b (List.mem_append_right _ hb)).mp (by rw [hab])
  have hdone : ∀ spec ∈ specs, ∃ entry ∈ log, identity str entry.1 = identity str spec := by
    intro spec hspec
    rw [← hfst] at hspec
    obtain ⟨entry, hentry, rfl⟩ := List.mem_map.mp hspec
    exact ⟨entry, hentry, rfl⟩
  obtain ⟨merged, hmerged, hrows⟩ := upsertAll_rows hsettled second hall hdone 0 hagain
  have hmerged : twice.log = merged := hmerged
  refine ⟨Table.ext (hrows.trans ?_), ?_, ?_, ?_⟩
  · refine (List.map_congr_left fun row hrow => ?_).trans (List.map_id _)
    obtain ⟨base, h⟩ := honce.traced row hrow
    rw [← hmerged, hmore, ← hsame]
    show (mine log row.id).foldl merge row = row
    have hbase := foldl_merge_merged base (mine log row.id)
    rwa [← h.merged] at hbase
  · exact hids'.trans (hsame ▸ hids.symm)
  · rw [hlog]
    exact honce.apart fun _ h => h
  · rw [hmore]
    exact htwice.apart fun _ h => List.mem_append_right _ h

end

section
variable {str : Json → Text} {findOwner : String → Option String} {body : SeedProvidersRequest}

theorem seedProviders_of_none (howner : findOwner body.owner_email = none) (session : Session)
    (db : Database) : seedProviders str findOwner session db body =
      { response := .error ("Mailcue user '".toList ++ body.owner_email.toList ++
          "' not found".toList)
        db, log := [] } := by
  rw [seedProviders, howner]

theorem seedProviders_of_some {owner_id : String}
    (howner : findOwner body.owner_email = some owner_id) (session : Session) (db : Database) :
    seedProviders str findOwner session db body =
      let progress := upsertAll str session owner_id 0 body.providers { providers := db.providers }
      { response := .ok {
          created := progress.created, updated := progress.updated, provider_ids := progress.ids }
        db := { db with providers := progress.providers }
        log := progress.log } := by
  rw [seedProviders, howner]

theorem idempotent_of_settled {db : Database}
    (hsettled : ∀ owner_id, findOwner body.owner_email = some owner_id →
      Settled str owner_id db.providers.rows body.providers) :
    Idempotent str findOwner db body := by
  intro first second once twice
  cases howner : findOwner body.owner_email with
  | none =>
    have honce : once = _ := seedProviders_of_none howner first db
    have htwice : twice = _ := seedProviders_of_none howner second once.db
    rw [htwice, honce]
    exact ⟨rfl, rfl, fun a ha => (List.not_mem_nil ha).elim, fun a ha => (List.not_mem_nil ha).elim⟩
  | some owner_id =>
    obtain ⟨hrows, hids, hfirst, hsecond⟩ :=
      upsertAll_twice db.providers (hsettled owner_id howner) first second
    have honce : once = _ := seedProviders_of_some howner first db
    have htwice : twice = _ := seedProviders_of_some howner second once.db
    rw [honce] at htwice
    rw [htwice, honce]
    exact ⟨congrArg (fun providers => { db with providers }) hrows, congrArg some hids, hfirst,
      hsecond⟩

end

/-! ## One spec, twice -/

/-- The row with this id comes first. -/
def Session.favouring (id : String) : Session where
  order _ rows := rows.filter (fun row => row.id == id) ++ rows.filter fun row => !(row.id == id)
  perm _ rows := List.filter_append_perm _ rows
  uuid _ taken := Dict.newKey taken
  fresh _ taken := Dict.newKey_not_mem taken
  now _ := 0

section
variable {str : Json → Text} {owner_id : String} {spec : SeedProviderSpec}

theorem existing_favouring {rows : List SandboxProvider} {row : SandboxProvider} (hrow : row ∈ rows)
    (howner : ofOwner owner_id spec row = true)
    (hholds : hasIdentity str row.credentials (identityKey str spec) = true) (n : Nat) :
    ∃ found, existing str (.favouring row.id) owner_id n rows spec = some found ∧
      found.id = row.id := by
  have hfirst : row ∈ (rows.filter (ofOwner owner_id spec)).filter fun other =>
      other.id == row.id :=
    List.mem_filter.mpr ⟨List.mem_filter.mpr ⟨hrow, howner⟩, beq_self_eq_true _⟩
  rw [existing, Session.favouring, List.find?_append]
  cases hfind : ((rows.filter (ofOwner owner_id spec)).filter fun other => other.id == row.id).find?
      fun other => hasIdentity str other.credentials (identityKey str spec) with
  | none => exact absurd hholds (List.find?_eq_none.mp hfind row hfirst)
  | some found =>
    exact ⟨found, rfl, beq_iff_eq.mp (List.mem_filter.mp (List.mem_of_find?_eq_some hfind)).2⟩

/-- Two calls with one spec. -/
theorem upsert_of_idempotent {findOwner : String → Option String} {db : Database}
    {body : SeedProvidersRequest} (howner : findOwner body.owner_email = some owner_id)
    (hbody : body.providers = [spec]) (h : Idempotent str findOwner db body)
    (first second : Session) :
    let once := upsert str first owner_id 0 { providers := db.providers } spec
    let twice := upsert str second owner_id 0 { providers := once.providers } spec
    twice.providers = once.providers ∧ twice.ids = once.ids := by
  obtain ⟨hrows, hids, _⟩ := h first second
  rw [seedProviders_of_some howner second, seedProviders_of_some howner first, hbody] at hrows hids
  exact ⟨congrArg Database.providers hrows, Option.some.inj hids⟩

/-- Two calls with one spec answer one id. -/
theorem found_id_eq {providers : Table SandboxProvider.id} {first second : Session}
    (h : let once := upsert str first owner_id 0 { providers } spec
      (upsert str second owner_id 0 { providers := once.providers } spec).ids = once.ids)
    {found again : SandboxProvider}
    (hfound : existing str first owner_id 0 providers.rows spec = some found)
    (hagain : existing str second owner_id 0
      (upsert str first owner_id 0 { providers } spec).providers.rows spec = some again) :
    again.id = found.id := by
  have honce : (upsert str first owner_id 0 { providers } spec).ids =
      [(idKey str spec, found.id)] := by
    rw [upsert]
    simp only [hfound]
    rfl
  have htwice : (upsert str second owner_id 0
      { providers := (upsert str first owner_id 0 { providers } spec).providers } spec).ids =
      [(idKey str spec, again.id)] := by
    rw [upsert]
    simp only [hagain]
    rfl
  have hsame := htwice.symm.trans (h.trans honce)
  simpa using hsame

/-- Every call that adds a row leaves more rows. -/
theorem existing_isSome {providers : Table SandboxProvider.id} {session : Session}
    (h : (upsert str session owner_id 0 { providers } spec).providers = providers) :
    ∃ found, existing str session owner_id 0 providers.rows spec = some found := by
  cases hfound : existing str session owner_id 0 providers.rows spec with
  | some found => exact ⟨found, rfl⟩
  | none =>
    obtain ⟨id, _, hrows, _⟩ := upsert_of_none { providers } hfound
    rw [h] at hrows
    have hlength := congrArg List.length hrows
    simp at hlength

section
variable {providers : Table SandboxProvider.id}
  (htwice : ∀ first second : Session,
    let once := upsert str first owner_id 0 { providers } spec
    let twice := upsert str second owner_id 0 { providers := once.providers } spec
    twice.providers = once.providers ∧ twice.ids = once.ids)
include htwice

theorem one_row_of_twice {row other : SandboxProvider} (hrow : row ∈ providers.rows)
    (hother : other ∈ providers.rows) (howner : ofOwner owner_id spec row = true)
    (howner' : ofOwner owner_id spec other = true)
    (hholds : hasIdentity str row.credentials (identityKey str spec) = true)
    (hholds' : hasIdentity str other.credentials (identityKey str spec) = true) : other = row := by
  by_contra hne
  obtain ⟨found, hfound, hid⟩ := existing_favouring hrow howner hholds 0
  have hrows := (upsert_of_some { providers } hfound).1
  have hid' : other.id ≠ found.id := fun heq =>
    hne (List.inj_on_of_nodup_map providers.nodup hother hrow (heq.trans hid))
  have hkept : other ∈
      (upsert str (.favouring row.id) owner_id 0 { providers } spec).providers.rows := by
    rw [hrows]
    exact List.mem_map.mpr ⟨other, hother, if_neg hid'⟩
  obtain ⟨again, hagain, hsame⟩ := existing_favouring hkept howner' hholds' 0
  have hboth := found_id_eq (htwice (.favouring row.id) (.favouring other.id)).2 hfound hagain
  exact hid' (hsame.symm.trans hboth)

/-- What a spec is merged into holds its identity afterwards. -/
theorem holds_of_twice {credentials : Json.Fields}
    (hbase : Base str owner_id providers.rows spec credentials) :
    hasIdentity str (Dict.update credentials spec.credentials) (identityKey str spec) = true := by
  let session := Session.favouring ""
  obtain ⟨again, hagain⟩ := existing_isSome (htwice session session).1
  obtain ⟨hmem, howner, hholds⟩ := existing_eq_some hagain
  cases hfound : existing str session owner_id 0 providers.rows spec with
  | none =>
    obtain ⟨id, _, hrows, _⟩ := upsert_of_none { providers } hfound
    rw [hrows] at hmem
    rcases hbase with ⟨row, hrow, hof, hhas, _⟩ | ⟨rfl, _⟩
    · cases (existing_eq_none hfound hrow hof).symm.trans hhas
    · rw [Dict.update_nil spec.nodup]
      rcases List.mem_append.mp hmem with hold | hnew
      · cases (existing_eq_none hfound hold howner).symm.trans hholds
      · cases List.mem_singleton.mp hnew
        exact hholds
  | some found =>
    obtain ⟨hin, hof, hhas⟩ := existing_eq_some hfound
    have hrows := (upsert_of_some { providers } hfound).1
    have hid := found_id_eq (htwice session session).2 hfound hagain
    rw [hrows] at hmem
    obtain ⟨old, hold, hmade⟩ := List.mem_map.mp hmem
    have hmerged : again = merge found spec := by
      split at hmade
      · exact hmade.symm
      · next hne => exact absurd (hmade ▸ hid) hne
    rcases hbase with ⟨row, hrow, hof', hhas', rfl⟩ | ⟨_, hnone⟩
    · rw [one_row_of_twice htwice hin hrow hof hof' hhas hhas']
      rw [hmerged] at hholds
      exact hholds
    · cases (hnone found hin hof).symm.trans hhas

end

theorem update_repeated (credentials : Json.Fields) {merged : List SeedProviderSpec}
    (hsome : merged ≠ []) (hall : ∀ t ∈ merged, t = spec) :
    Dict.update credentials (merged.flatMap SeedProviderSpec.credentials) =
      Dict.update credentials spec.credentials := by
  induction merged generalizing credentials with
  | nil => exact absurd rfl hsome
  | cons first rest ih =>
    rw [List.forall_mem_cons] at hall
    cases hall.1
    rw [List.flatMap_cons, Dict.update_append]
    cases rest with
    | nil => rfl
    | cons next rest => rw [ih _ (List.cons_ne_nil next rest) hall.2, Dict.update_update]

theorem settled_of_idempotent {findOwner : String → Option String} {db : Database}
    {body : SeedProvidersRequest} (howner : findOwner body.owner_email = some owner_id)
    (hbody : body.providers = [spec]) (h : Idempotent str findOwner db body) :
    Settled str owner_id db.providers.rows body.providers := by
  have htwice := upsert_of_idempotent howner hbody h
  rw [hbody]
  refine ⟨?_, ?_, ?_, ?_⟩
  · intro t ht credentials hbase merged hsome hall
    cases List.mem_singleton.mp ht
    rw [update_repeated credentials hsome fun t ht => List.mem_singleton.mp (hall t ht).1]
    exact holds_of_twice htwice hbase
  · intro t ht other hother _ _
    rw [List.mem_singleton.mp ht, List.mem_singleton.mp hother]
  · intro row _ t ht other hother _ _ _ _
    rw [List.mem_singleton.mp ht, List.mem_singleton.mp hother]
  · intro t ht row hrow other hother hof hof' hhas hhas'
    cases List.mem_singleton.mp ht
    exact one_row_of_twice htwice hrow hother hof hof' hhas hhas'

end

/-! ## Specs with an identity field -/

/-- One of the identity fields says who the spec is for. -/
def identified (spec : SeedProviderSpec) : Bool :=
  identityFields.any fun key => ((Dict.get spec.credentials key).filter truthy).isSome

section
variable {str : Json → Text} {spec : SeedProviderSpec}

variable (str) in
theorem identityKey_of_identified (h : identified spec = true) :
    ∃ key ∈ identityFields, ∃ value, Dict.get spec.credentials key = some value ∧
      str value = identityKey str spec := by
  cases hfind : identityFields.findSome? fun key =>
      (Dict.get spec.credentials key).filter truthy with
  | none =>
    obtain ⟨key, hkey, hsome⟩ := List.any_eq_true.mp h
    rw [List.findSome?_eq_none_iff.mp hfind key hkey] at hsome
    cases hsome
  | some value =>
    obtain ⟨key, hkey, hvalue⟩ := List.exists_of_findSome?_eq_some hfind
    refine ⟨key, hkey, value, (Option.filter_eq_some_iff.mp hvalue).1, ?_⟩
    rw [identityKey, hfind]

/-- The identity field of the last spec is there after a merge. -/
theorem hasIdentity_of_last {credentials : Json.Fields} {merged : List SeedProviderSpec}
    (hsome : merged ≠ []) (h : identified (merged.getLast hsome) = true) :
    hasIdentity str (Dict.update credentials (merged.flatMap SeedProviderSpec.credentials))
      (identityKey str (merged.getLast hsome)) = true := by
  obtain ⟨key, hkey, value, hget, hvalue⟩ := identityKey_of_identified str h
  refine List.any_eq_true.mpr ⟨key, hkey, ?_⟩
  have hsplit : merged.flatMap SeedProviderSpec.credentials =
      merged.dropLast.flatMap SeedProviderSpec.credentials ++
        (merged.getLast hsome).credentials := by
    conv_lhs => rw [← List.dropLast_append_getLast hsome]
    rw [List.flatMap_append, List.flatMap_singleton]
  have hlast : Dict.get (merged.getLast hsome).credentials.reverse key = some value := by
    apply Dict.get_of_nodup
    · rw [List.map_reverse]
      exact List.nodup_reverse.mpr (merged.getLast hsome).nodup
    · exact List.mem_reverse.mpr (Dict.mem_of_get hget)
  rw [Dict.get_update, hsplit, List.reverse_append, Dict.get_append, hlast]
  exact beq_iff_eq.mpr hvalue

theorem kept_of_identified {specs : List SeedProviderSpec}
    (h : ∀ spec ∈ specs, identified spec = true)
    (credentials : Json.Fields) {merged : List SeedProviderSpec} (hsome : merged ≠ [])
    (hall : ∀ t ∈ merged, t ∈ specs ∧ identity str t = identity str spec) :
    hasIdentity str (Dict.update credentials (merged.flatMap SeedProviderSpec.credentials))
      (identityKey str spec) = true := by
  obtain ⟨hmem, hsame⟩ := hall _ (List.getLast_mem hsome)
  rw [← (identity_eq_iff.mp hsame).2]
  exact hasIdentity_of_last hsome (h _ hmem)

end

/-! ## The seeding of a request -/

/-- Settled specs are seeded once and for all, and of a request with one spec no others. -/
theorem seedProviders_idempotent (str : Json → Text) (findOwner : String → Option String)
    (db : Database) (body : SeedProvidersRequest) :
    ((∀ owner_id, findOwner body.owner_email = some owner_id →
        Settled str owner_id db.providers.rows body.providers) →
      Idempotent str findOwner db body) ∧
    ∀ spec, body.providers = [spec] →
      (Idempotent str findOwner db body ↔
        ∀ owner_id, findOwner body.owner_email = some owner_id →
          Settled str owner_id db.providers.rows body.providers) :=
  ⟨idempotent_of_settled, fun _ hbody =>
    ⟨fun h _ howner => settled_of_idempotent howner hbody h, idempotent_of_settled⟩⟩

namespace Sample

def str (value : Json) : Text := value.text.getD []

def findOwner (email : String) : Option String := if email = "admin@a.test" then some "u" else none

def database : Database where
  providers := .empty
  conversations := .empty
  messages := .empty
  endpoints := .empty
  deliveries := .empty
  resources := .empty

def spec (provider_type key value : String) : SeedProviderSpec where
  provider_type := provider_type
  name := "Main"
  credentials := [(key, .str value.toList)]
  nodup := List.nodup_singleton _

def request (providers : List SeedProviderSpec) : SeedProvidersRequest where
  owner_email := "admin@a.test"
  providers := providers

end Sample

theorem accounts_seeded_once :
    Idempotent Sample.str Sample.findOwner Sample.database
      (Sample.request [Sample.spec "twilio" "account_sid" "AC1",
        Sample.spec "twilio" "account_sid" "AC2"]) := by
  refine (seedProviders_idempotent _ _ _ _).1 fun owner_id _ => ⟨?_, ?_, ?_, ?_⟩
  · exact fun spec _ credentials _ merged hsome hall =>
      kept_of_identified (by decide) credentials hsome hall
  · decide
  · exact fun row hrow => (List.not_mem_nil hrow).elim
  · exact fun spec _ row hrow => (List.not_mem_nil hrow).elim

/-- A spec that has no identity field is added by every call. -/
theorem token_seeded_twice :
    ¬ Idempotent Sample.str Sample.findOwner Sample.database
      (Sample.request [Sample.spec "telegram" "bot_token" "t"]) := by
  intro h
  have hrows := (h (.favouring "") (.favouring "")).1
  have hlength := congrArg (fun db => db.providers.rows.length) hrows
  revert hlength
  decide

end MailCue.Backend.Sandbox.Seeding
