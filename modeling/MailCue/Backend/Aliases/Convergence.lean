import MailCue.Backend.Aliases.Service

/-!
# What the map says in the end

Every request queries behind its own commit, so of the requests that have committed the
last to query knows the rows as they are; but any of them may be the last to write. What
is kept, where no outdated snapshot is written by a request that no other corrects: the
file lists the enabled aliases, or some request that will make it do so is under way.
-/
namespace MailCue.Backend.Aliases
open MailCue.Lib

/-- Exactly the enabled aliases, one line each. -/
def Lists (file : Text) (enabled : List Alias) : Prop :=
  (fileLines file).Perm (enabled.map aliasLine)

instance (file : Text) (enabled : List Alias) : Decidable (Lists file enabled) :=
  inferInstanceAs (Decidable (List.Perm _ _))

/-- The request has committed and not written. -/
def Request.owes : Request → Bool
  | .committed _ | .rebuilding _ | .writing _ => true
  | .creating _ | .updating _ _ | .deleting _ | .done => false

/-- The request will write the enabled aliases as they are now: it has not queried yet, or
what it has is not outdated. -/
def Request.Corrects (enabled : List Alias) : Request → Prop
  | .committed _ | .rebuilding _ => True
  | .writing aliases => (aliases.map aliasLine).Perm (enabled.map aliasLine)
  | .creating _ | .updating _ _ | .deleting _ | .done => False

/-- Another request will correct the file. -/
def Covered (s : State) (r : Nat) : Prop :=
  ∃ other request, other ≠ r ∧ s.requests[other]? = some request ∧ request.Corrects s.enabled

/-- No outdated snapshot is written, nor is a row of the session's outdated when it is queried
or gone when it is refreshed, without another request to correct the file. -/
def Timely (s : State) : Event → Prop
  | .write r => ∀ aliases, s.requests[r]? = some (.writing aliases) →
      (aliases.map aliasLine).Perm (s.enabled.map aliasLine) ∨ Covered s r
  | .query r rows => ∀ own, s.requests[r]? = some (.rebuilding own) →
      (∀ row ∈ rows, aliasLine (State.held own row) = aliasLine row) ∨
        Lists s.file s.enabled ∨ Covered s r
  | .refresh r => ∀ id, s.requests[r]? = some (.committed id) →
      (s.db.find id).isSome = true ∨ Lists s.file s.enabled ∨ Covered s r
  | _ => True

/-! ## The file's lines -/

theorem ne_newline_of_isAddressChar {c : Char} (h : isAddressChar c = true) : c ≠ '\n' := by
  rintro rfl
  exact absurd h (by decide)

theorem aliasLine_ne_nil (a : Alias) : aliasLine a ≠ [] := by
  simp [aliasLine]

theorem newline_notin_aliasLine (a : Alias) : '\n' ∉ aliasLine a := by
  have haddress : ∀ address : Address, '\n' ∉ address.text := fun address hmem =>
    ne_newline_of_isAddressChar (List.all_eq_true.mp address.plain _ hmem) rfl
  intro hmem
  rw [aliasLine, List.append_assoc] at hmem
  rcases List.mem_append.mp hmem with hsource | hmem
  · exact haddress _ hsource
  · rcases List.mem_append.mp hmem with hspace | hdestination
    · exact absurd hspace (by decide)
    · exact haddress _ hdestination

theorem takeWhile_line {line : Text} (h : '\n' ∉ line) :
    (line ++ ['\n']).takeWhile (· != '\n') = line := by
  rw [List.takeWhile_append_of_pos]
  · simp
  · exact fun c hc => Text.bne_of_not_mem h hc

theorem splitLines_line {line rest : Text} (h : '\n' ∉ line) :
    Lines.splitLines (· == '\n') (line ++ '\n' :: rest) =
      (line ++ ['\n']) :: Lines.splitLines (· == '\n') rest := by
  have hended : Lines.Ended (· == '\n') (line ++ ['\n']) := by
    refine ⟨line, '\n', rfl, rfl, fun c hc => ?_⟩
    exact beq_eq_false_iff_ne.mpr fun heq => h (heq ▸ hc)
  rw [← Lines.splitLines_ended hended rest, List.append_assoc]
  rfl

theorem fileLines_line {line rest : Text} (hne : line ≠ []) (h : '\n' ∉ line) :
    fileLines (line ++ '\n' :: rest) = line :: fileLines rest := by
  rw [fileLines, splitLines_line h, List.map_cons, takeWhile_line h, List.filter_cons,
    if_pos (decide_eq_true hne)]
  rfl

/-- A file read back is the lines it was written from. -/
theorem fileLines_virtualAliases (aliases : List Alias) :
    fileLines (virtualAliases aliases) = aliases.map aliasLine := by
  induction aliases with
  | nil => rfl
  | cons a rest ih =>
    cases rest with
    | nil =>
      have hone : virtualAliases [a] = aliasLine a ++ '\n' :: [] := by
        simp [virtualAliases, List.intercalate]
      rw [hone, fileLines_line (aliasLine_ne_nil a) (newline_notin_aliasLine a)]
      rfl
    | cons b rest =>
      have hmore : virtualAliases (a :: b :: rest) =
          aliasLine a ++ '\n' :: virtualAliases (b :: rest) := by
        simp [virtualAliases, List.intercalate]
      rw [hmore, fileLines_line (aliasLine_ne_nil a) (newline_notin_aliasLine a), ih]
      rfl

/-! ## What a step leaves -/

/-- The file is right, or a request will make it right. -/
def Right (s : State) : Prop :=
  Lists s.file s.enabled ∨ ∃ request ∈ s.requests, request.Corrects s.enabled

/-- Some request has written the file, or is to. -/
def Begun (labels : List Event) (s : State) : Prop :=
  (∃ r, .write r ∈ labels) ∨ ∃ request ∈ s.requests, request.owes = true

theorem not_corrects_of_owes {request : Request} {enabled : List Alias}
    (h : request.owes = false) : ¬ request.Corrects enabled := by
  cases request with
  | committed id | rebuilding own | writing aliases => cases h
  | creating body | updating before body | deleting row | done => exact id

theorem mem_set {s : State} {r : Nat} {old request : Request} (h : s.requests[r]? = some old) :
    request ∈ (s.set r request).requests := by
  have hroom : r < s.requests.length := (List.getElem?_eq_some_iff.mp h).1
  exact List.mem_of_getElem? (List.getElem?_set_self hroom)

/-- Whatever a request becomes, the others still correct the file. -/
theorem right_of_covered {s s' : State} {r : Nat} {request : Request}
    (hrequests : s'.requests = s.requests.set r request) (hdb : s'.db = s.db)
    (h : Covered s r) : Right s' := by
  obtain ⟨other, correct, hne, hother, hcorrects⟩ := h
  refine .inr ⟨correct, ?_, ?_⟩
  · rw [hrequests]
    exact List.mem_of_getElem? ((List.getElem?_set_ne (Ne.symm hne)).trans hother)
  · rw [State.enabled, hdb]
    exact hcorrects

theorem right_set {s : State} {r : Nat} (request : Request)
    (h : Lists s.file s.enabled ∨ Covered s r) : Right (s.set r request) := by
  rcases h with hlists | hcovered
  · exact .inl hlists
  · exact right_of_covered rfl rfl hcovered

theorem begun_of_label {labels : List Event} {s s' : State} {e : Event} (hlabel : ∀ r, e ≠ .write r)
    (hrequests : ∀ request ∈ s'.requests, request.owes = true → request ∈ s.requests)
    (h : Begun (labels ++ [e]) s') : Begun labels s := by
  rcases h with ⟨r, hr⟩ | ⟨request, hrequest, howes⟩
  · rcases List.mem_append.mp hr with hin | hlast
    · exact .inl ⟨r, hin⟩
    · exact absurd (List.mem_singleton.mp hlast).symm (hlabel r)
  · exact .inr ⟨request, hrequests request hrequest howes, howes⟩

/-- A request that comes in changes nothing. -/
theorem right_receive {labels : List Event} {s : State} {e : Event} {request : Option Request}
    (hlabel : ∀ r, e ≠ .write r) (hnew : (request.getD .done).owes = false)
    (h : Begun labels s → Right s) :
    Begun (labels ++ [e]) (s.receive request) → Right (s.receive request) := by
  intro hbegun
  have hold : ∀ q ∈ (s.receive request).requests, q.owes = true → q ∈ s.requests := by
    intro q hq howes
    rcases List.mem_append.mp hq with hin | hlast
    · exact hin
    · rw [List.mem_singleton.mp hlast, hnew] at howes
      cases howes
  rcases h (begun_of_label hlabel hold hbegun) with hlists | ⟨q, hq, hcorrects⟩
  · exact .inl hlists
  · exact .inr ⟨q, List.mem_append_left _ hq, hcorrects⟩

/-- Nor does one whose commit the database refuses. -/
theorem right_refused {labels : List Event} {s : State} {r : Nat} {e : Event} {old : Request}
    (hlabel : ∀ r, e ≠ .write r) (hr : s.requests[r]? = some old) (hbefore : old.owes = false)
    (h : Begun labels s → Right s) :
    Begun (labels ++ [e]) (s.set r .done) → Right (s.set r .done) := by
  intro hbegun
  have hold : ∀ q ∈ (s.set r .done).requests, q.owes = true → q ∈ s.requests := by
    intro q hq howes
    rcases List.mem_or_eq_of_mem_set hq with hin | rfl
    · exact hin
    · cases howes
  rcases h (begun_of_label hlabel hold hbegun) with hlists | ⟨q, hq, hcorrects⟩
  · exact .inl hlists
  · obtain ⟨other, hother⟩ := List.mem_iff_getElem?.mp hq
    refine right_set _ (.inr ⟨other, q, ?_, hother, hcorrects⟩)
    rintro rfl
    rw [hr] at hother
    cases hother
    exact not_corrects_of_owes hbefore hcorrects

theorem create_owes {lowering : Text.Lowering} {s : State} {source_address destination_address : Text} :
    ((s.create lowering source_address destination_address).getD .done).owes = false := by
  unfold State.create
  split
  · rfl
  · split <;> rfl

theorem update_owes {lowering : Text.Lowering} {s : State} {alias_id : Nat}
    {destination_address : Option Text} {enabled : Option Bool} :
    ((s.update lowering alias_id destination_address enabled).getD .done).owes = false := by
  unfold State.update
  split
  · rfl
  · cases s.db.find alias_id <;> rfl

theorem delete_owes {s : State} {alias_id : Nat} :
    ((s.delete alias_id).getD .done).owes = false := by
  unfold State.delete
  cases s.db.find alias_id <;> rfl

/-- A commit is refused by the database, or is to be followed by a rebuild. -/
theorem commit_spec {s s' : State} {r id : Nat} (h : s.commit r id = some s') :
    (∃ old, s.requests[r]? = some old ∧ old.owes = false ∧ s' = s.set r .done) ∨
      ∃ request ∈ s'.requests, request.Corrects s'.enabled := by
  unfold State.commit at h
  split at h
  · rename_i body hrequest
    split at h
    · cases h
      exact .inl ⟨_, hrequest, rfl, rfl⟩
    · obtain ⟨db, -, rfl⟩ := Option.map_eq_some_iff.mp h
      exact .inr ⟨.committed id, mem_set hrequest, trivial⟩
  · rename_i before body hrequest
    dsimp only at h
    split at h
    · cases h
      exact .inr ⟨.committed before.id, mem_set hrequest, trivial⟩
    · split at h
      · cases h
        exact .inl ⟨_, hrequest, rfl, rfl⟩
      · cases h
        exact .inr ⟨.committed before.id, mem_set hrequest, trivial⟩
  · rename_i row hrequest
    cases h
    exact .inr ⟨.rebuilding none, mem_set hrequest, trivial⟩
  · cases h

theorem refresh_spec {s s' : State} {r : Nat} (h : s.refresh r = some s') :
    ∃ id, s.requests[r]? = some (.committed id) ∧
      ((s.db.find id = none ∧ s' = s.set r .done) ∨
        ∃ row, s.db.find id = some row ∧ s' = s.set r (.rebuilding (some row))) := by
  unfold State.refresh at h
  split at h
  · rename_i id hrequest
    refine ⟨id, hrequest, ?_⟩
    split at h
    · rename_i hgone
      cases h
      exact .inl ⟨hgone, rfl⟩
    · rename_i row hfound
      cases h
      exact .inr ⟨row, hfound, rfl⟩
  · cases h

theorem query_spec {s s' : State} {r : Nat} {rows : List Alias} (h : s.query r rows = some s') :
    ∃ own, s.requests[r]? = some (.rebuilding own) ∧ rows.Perm s.enabled ∧
      s' = s.set r (.writing (rows.map (State.held own))) := by
  unfold State.query at h
  split at h
  · rename_i own hrequest
    split at h
    · rename_i hrows
      cases h
      exact ⟨own, hrequest, hrows, rfl⟩
    · cases h
  · cases h

theorem write_spec {s s' : State} {r : Nat} (h : s.write r = some s') :
    ∃ aliases, s.requests[r]? = some (.writing aliases) ∧
      s' = { s.set r .done with file := virtualAliases aliases } := by
  unfold State.write at h
  split at h
  · rename_i aliases hrequest
    cases h
    exact ⟨aliases, hrequest, rfl⟩
  · cases h

/-! ## Runs -/

theorem right_step {lowering : Text.Lowering} {labels : List Event} {s s' : State} {e : Event}
    (h : Begun labels s → Right s) (hstep : s.step lowering e = some s') (htimely : Timely s e) :
    Begun (labels ++ [e]) s' → Right s' := by
  cases e with
  | create source_address destination_address =>
    cases hstep
    exact right_receive (fun _ => nofun) create_owes h
  | update alias_id destination_address enabled =>
    cases hstep
    exact right_receive (fun _ => nofun) update_owes h
  | delete alias_id =>
    cases hstep
    exact right_receive (fun _ => nofun) delete_owes h
  | commit r id =>
    rcases commit_spec hstep with ⟨old, hrequest, howes, rfl⟩ | hcorrects
    · exact right_refused (fun _ => nofun) hrequest howes h
    · exact fun _ => .inr hcorrects
  | refresh r =>
    intro _
    obtain ⟨id, hrequest, ⟨hgone, rfl⟩ | ⟨row, -, rfl⟩⟩ := refresh_spec hstep
    · refine right_set _ ((htimely id hrequest).resolve_left ?_)
      rw [hgone]
      exact nofun
    · exact .inr ⟨_, mem_set hrequest, trivial⟩
  | query r rows =>
    intro _
    obtain ⟨own, hrequest, hrows, rfl⟩ := query_spec hstep
    rcases htimely own hrequest with hheld | hright
    · refine .inr ⟨_, mem_set hrequest, ?_⟩
      have hlines : (rows.map (State.held own)).map aliasLine = rows.map aliasLine := by
        rw [List.map_map]
        exact List.map_congr_left hheld
      show ((rows.map (State.held own)).map aliasLine).Perm (s.enabled.map aliasLine)
      rw [hlines]
      exact hrows.map aliasLine
    · exact right_set _ hright
  | write r =>
    intro _
    obtain ⟨aliases, hrequest, rfl⟩ := write_spec hstep
    rcases htimely aliases hrequest with hcurrent | hcovered
    · left
      show (fileLines (virtualAliases aliases)).Perm (s.enabled.map aliasLine)
      rw [fileLines_virtualAliases]
      exact hcurrent
    · exact right_of_covered rfl rfl hcovered

def infoAt (id : Nat) : Alias :=
  (⟨⟨"info@x.io".toList, by decide⟩, ⟨"ann@x.io".toList, by decide⟩⟩ : AliasCreateRequest).row id

def salesAt (id : Nat) : Alias :=
  (⟨⟨"sales@x.io".toList, by decide⟩, ⟨"bob@x.io".toList, by decide⟩⟩ : AliasCreateRequest).row id

/-- Two aliases are created, each queried before the first of the two writes. -/
private def twoCreated : List Event :=
  [.create "info@x.io".toList "ann@x.io".toList, .commit 0 1, .refresh 0, .query 0 [infoAt 1],
    .create "sales@x.io".toList "bob@x.io".toList, .commit 1 2, .refresh 1,
    .query 1 [infoAt 1, salesAt 2]]

private def noAliases : State := ⟨.empty, [], []⟩

private def bothKept (file : String) : State :=
  ⟨⟨[infoAt 1, salesAt 2], by decide⟩, file.toList, [.done, .done]⟩

/-- Every write is of a snapshot that is not outdated, every row is there and as it was. -/
private def Unhurried (s : State) : Event → Bool
  | .write r =>
    match s.requests[r]? with
    | some (.writing aliases) => (aliases.map aliasLine).Perm (s.enabled.map aliasLine)
    | _ => true
  | .query r rows =>
    match s.requests[r]? with
    | some (.rebuilding own) => rows.all fun row => aliasLine (State.held own row) == aliasLine row
    | _ => true
  | .refresh r =>
    match s.requests[r]? with
    | some (.committed id) => (s.db.find id).isSome
    | _ => true
  | _ => true

private theorem timely_of_unhurried {s : State} {e : Event} (h : Unhurried s e = true) :
    Timely s e := by
  cases e with
  | write r =>
    intro aliases hrequest
    rw [Unhurried, hrequest] at h
    exact .inl (by simpa using h)
  | query r rows =>
    intro own hrequest
    rw [Unhurried, hrequest] at h
    exact .inl (by simpa using h)
  | refresh r =>
    intro id hrequest
    rw [Unhurried, hrequest] at h
    exact .inl h
  | create | update | delete | commit => trivial

end MailCue.Backend.Aliases
