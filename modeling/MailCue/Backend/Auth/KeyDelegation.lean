import MailCue.Backend.Auth.ApiKeys
import MailCue.Lib.Transition

/-!
# Keys that make and patch keys

Requests by one key and by the keys such requests have made or patched. None of
them comes to grant what the first did not, as long as none is left with an empty
list of mailboxes that a patch has kept.
-/
namespace MailCue.Backend.Auth
open MailCue.Lib

/-- The scope on the mailbox. -/
def APIKey.grants (l : Lowercase) (key : APIKey) (scope : String) (address : Text) : Bool :=
  scopeSatisfied (key.scopes.getD []) scope &&
    (key.mailboxes l).all fun allowed => allowed.contains (l.lower address)

/-- It is what `AuthContext` decides. -/
theorem grants_eq (l : Lowercase) (user : User) (key : APIKey) (scope : String) (address : Text) :
    key.grants l scope address = ((⟨user, some key⟩ : AuthContext).hasScope scope &&
      (⟨user, some key⟩ : AuthContext).mailboxAllowed l address) := rfl

/-! ## Runs -/

/-- A request, with the key in its header and the addresses of the user's mailboxes. -/
structure KeyCall where
  raw_key : Text
  owned : List Text
  request : KeyRequest

structure Delegated where
  db : Database
  /-- The ids of the first key and of those made or patched since. -/
  reached : List String

/-- Requests by other keys are not among those the run is about. -/
def Delegated.step (l : Lowercase) (a : Argon2) (s : Delegated) (call : KeyCall) : Delegated :=
  match validateApiKey a s.db call.raw_key with
  | none => s
  | some (user, caller) =>
    if caller.id ∈ s.reached then
      match call.request.serve l a call.owned ⟨user, some caller⟩ s.db.api_keys with
      | .error _ => s
      | .ok (made, api_keys) =>
        { db := { s.db with api_keys }, reached := s.reached ++ (made.map APIKey.id).toList }
    else s

def delegation (l : Lowercase) (a : Argon2) (db : Database) (first : APIKey) :
    Machine Delegated KeyCall where
  start := ⟨db, [first.id]⟩
  step := Delegated.step l a

/-- Every key reached grants what the first granted, and no more. -/
def Bounded (l : Lowercase) (first : APIKey) (s : Delegated) : Prop :=
  ∀ key ∈ s.db.api_keys.rows, key.id ∈ s.reached →
    ∀ scope address, key.grants l scope address = true → first.grants l scope address = true

/-- A patch that leaves the list of mailboxes out, of a key whose list is there and
empty, with scopes the caller may give, and some of them. -/
def KeepsEmptyList (user : User) (caller : APIKey) (keys : Table APIKey.id) (request : KeyRequest) :
    Prop :=
  ∃ key_id body old scopes, request = .update key_id body ∧ body.allowed_mailboxes = none ∧
    ownKey keys user key_id = some old ∧ old.allowed_mailboxes = some [] ∧
    effectiveScopes old body = .ok scopes ∧ scopes ≠ [] ∧
    scopeSatisfied (caller.scopes.getD []) apikeyManage = true ∧
    isSubset scopes (caller.scopes.getD []) = true

/-- Where the first key is restricted to mailboxes, no key reached makes such a patch. -/
def SparesEmptyLists (l : Lowercase) (a : Argon2) (first : APIKey) (s : Delegated)
    (call : KeyCall) : Prop :=
  ∀ user caller, validateApiKey a s.db call.raw_key = some (user, caller) →
    caller.id ∈ s.reached → (first.mailboxes l).isSome →
    ¬ KeepsEmptyList user caller s.db.api_keys call.request

/-! ## One request -/

section
variable {l : Lowercase} {a : Argon2} {owned : List Text} {user : User} {caller : APIKey}
  {keys keys' : Table APIKey.id} {request : KeyRequest} {made : Option APIKey}

theorem serve_made {key : APIKey}
    (h : request.serve l a owned ⟨user, some caller⟩ keys = .ok (some key, keys')) :
    (∀ id, keys'.find id = if id = key.id then some key else keys.find id) ∧
      ∃ scopes, Stored l user caller keys request key scopes := by
  cases request with
  | create id raw_key body =>
    obtain ⟨⟨made, table⟩, hcreate, hresult⟩ := ok_of_map h
    cases hresult
    obtain ⟨hinsert, hstored⟩ := createApiKey_ok hcreate
    exact ⟨Table.find_insert hinsert, hstored⟩
  | update key_id body =>
    obtain ⟨⟨made, table⟩, hupdate, hresult⟩ := ok_of_map h
    cases hresult
    obtain ⟨⟨old, hold⟩, rfl, hstored⟩ := updateApiKey_ok hupdate
    exact ⟨Table.find_replace hold, hstored⟩
  | revoke key_id =>
    obtain ⟨table, -, hresult⟩ := ok_of_map h
    cases hresult

theorem serve_revoked
    (h : request.serve l a owned ⟨user, some caller⟩ keys = .ok (none, keys')) :
    ∃ gone, keys' = keys.erase gone := by
  cases request with
  | create id raw_key body =>
    obtain ⟨⟨made, table⟩, -, hresult⟩ := ok_of_map h
    cases hresult
  | update key_id body =>
    obtain ⟨⟨made, table⟩, -, hresult⟩ := ok_of_map h
    cases hresult
  | revoke key_id =>
    obtain ⟨table, hrevoke, hresult⟩ := ok_of_map h
    cases hresult
    obtain ⟨_, -, hfound⟩ := ok_of_bind hrevoke
    split at hfound
    · cases hfound
    · next key hkey =>
      cases hfound
      exact ⟨key.id, rfl⟩

/-- A key that has passed the guard, with a list that is not empty, grants what the
caller grants. -/
theorem grants_of_within {key : APIKey} {scopes : List String} {scope : String} {address : Text}
    (hscopes : key.scopes = some scopes) (hsubset : isSubset scopes (caller.scopes.getD []) = true)
    (hwithin : mailboxesWithin l ⟨user, some caller⟩ key.allowed_mailboxes = true)
    (hlist : key.allowed_mailboxes ≠ some []) (h : key.grants l scope address = true) :
    caller.grants l scope address = true := by
  unfold APIKey.grants at h ⊢
  rw [Bool.and_eq_true] at h ⊢
  obtain ⟨hscope, hmailbox⟩ := h
  rw [hscopes] at hscope
  refine ⟨scopeSatisfied_of_isSubset hsubset hscope, ?_⟩
  cases hparent : caller.mailboxes l with
  | none => rfl
  | some parent =>
    have hall : ∃ child, key.allowed_mailboxes = some child ∧ ∀ m ∈ child, m ∈ parent := by
      unfold mailboxesWithin AuthContext.allowedMailboxes at hwithin
      simp only [Option.bind_some, hparent, Option.all_some] at hwithin
      split at hwithin
      · cases hwithin
      · next child hchild =>
        exact ⟨child, hchild, fun m hm =>
          List.contains_iff_mem.mp (List.all_eq_true.mp hwithin m hm)⟩
    obtain ⟨child, hchild, hall⟩ := hall
    obtain ⟨m, hm, hlower⟩ : ∃ m ∈ child, l.lower m = l.lower address := by
      unfold APIKey.mailboxes at hmailbox
      cases child with
      | nil => exact absurd hchild hlist
      | cons m ms =>
        simp only [hchild, Option.all_some] at hmailbox
        exact List.mem_map.mp (List.contains_iff_mem.mp hmailbox)
    -- what the parent's list has is lowered already
    have hlowered : ∃ m', m = l.lower m' := by
      have hmem := hall m hm
      unfold APIKey.mailboxes at hparent
      split at hparent
      · cases hparent
      · cases hparent
      · cases hparent
        obtain ⟨m', -, hm'⟩ := List.mem_map.mp hmem
        exact ⟨m', hm'.symm⟩
    obtain ⟨m', rfl⟩ := hlowered
    rw [l.lower_lower] at hlower
    show parent.contains (l.lower address) = true
    rw [← hlower]
    exact List.contains_iff_mem.mpr (hall _ hm)

/-- A key that grants a scope somewhere grants it on some mailbox. -/
theorem exists_granted {scope : String} (h : scopeSatisfied (caller.scopes.getD []) scope = true) :
    ∃ address, caller.grants l scope address = true := by
  cases hmailboxes : caller.mailboxes l with
  | none => exact ⟨[], by simp [APIKey.grants, h, hmailboxes]⟩
  | some allowed =>
    unfold APIKey.mailboxes at hmailboxes
    split at hmailboxes
    · cases hmailboxes
    · cases hmailboxes
    · next m ms hlist =>
      refine ⟨m, ?_⟩
      cases hmailboxes
      simp [APIKey.grants, APIKey.mailboxes, h, hlist]

/-- A patch that keeps an empty list goes through, and its key is restricted to no
mailbox. -/
theorem serve_keepsEmptyList (l : Lowercase) (a : Argon2) (owned : List Text)
    (h : KeepsEmptyList user caller keys request) :
    ∃ key keys', request.serve l a owned ⟨user, some caller⟩ keys = .ok (some key, keys') ∧
      key ∈ keys'.rows ∧ key.mailboxes l = none ∧
      ∃ scope, scopeSatisfied (key.scopes.getD []) scope = true := by
  obtain ⟨key_id, body, old, scopes, rfl, hbody, hold, hempty, hscopes, hsome, hmanage,
    hsubset⟩ := h
  have hguard : enforceGrantWithinCaller l ⟨user, some caller⟩ scopes old.allowed_mailboxes =
      .ok () := by
    refine enforceGrant_ok.mpr ⟨hsubset, ?_⟩
    rw [hempty]
    cases hparent : AuthContext.allowedMailboxes l ⟨user, some caller⟩ with
    | none => simp [mailboxesWithin, hparent]
    | some parent => simp [mailboxesWithin, hparent]
  let key : APIKey := { old with name := body.name.join.getD old.name, scopes := some scopes }
  have hupdate : updateApiKey l owned ⟨user, some caller⟩ key_id body keys =
      .ok (key, keys.replace key) := by
    have hmanage' : AuthContext.requireScope ⟨user, some caller⟩ apikeyManage = .ok () := by
      unfold AuthContext.requireScope AuthContext.hasScope
      exact if_pos hmanage
    have hmailboxes : effectiveMailboxes l owned old body = .ok old.allowed_mailboxes := by
      simp [effectiveMailboxes, hbody]
    unfold updateApiKey
    simp only [hmanage', hold, hscopes, hmailboxes, hguard, bind, Except.bind]
    rw [effectiveScopes_kept hscopes, hbody]
    rfl
  obtain ⟨hfind, -⟩ := ownKey_eq_some.mp hold
  obtain ⟨-, hid⟩ := Table.find_eq_some_iff.mp hfind
  have hkept : (keys.replace key).find key.id = some key := by
    rw [Table.find_replace (hid ▸ hfind), if_pos rfl]
  refine ⟨key, keys.replace key, ?_, (Table.find_eq_some_iff.mp hkept).1, ?_, ?_⟩
  · show (updateApiKey l owned ⟨user, some caller⟩ key_id body keys).map _ = _
    rw [hupdate]
    rfl
  · show APIKey.mailboxes l key = none
    simp [APIKey.mailboxes, key, hempty]
  · obtain ⟨scope, rest, rfl⟩ := List.exists_cons_of_ne_nil hsome
    exact ⟨scope, by simp [key, scopeSatisfied]⟩

/-- What the caller may pass on is what the first key granted, but for an empty list
that a patch keeps. -/
theorem granted_of_made {first key : APIKey}
    (h : request.serve l a owned ⟨user, some caller⟩ keys = .ok (some key, keys'))
    (hmanage : scopeSatisfied (caller.scopes.getD []) apikeyManage = true)
    (hspares : (first.mailboxes l).isSome → ¬ KeepsEmptyList user caller keys request)
    (hcaller : ∀ scope address, caller.grants l scope address = true →
      first.grants l scope address = true) {scope : String} {address : Text}
    (hkey : key.grants l scope address = true) : first.grants l scope address = true := by
  obtain ⟨-, scopes, hstored⟩ := serve_made h
  by_cases hlist : key.allowed_mailboxes = some []
  · obtain ⟨body, old, rfl, hbody, hfind, howner, hempty, heffective⟩ := hstored.kept hlist
    unfold APIKey.grants at hkey
    rw [hstored.scopes_eq, Bool.and_eq_true] at hkey
    have hunrestricted : first.mailboxes l = none := by
      by_contra hrestricted
      refine hspares (Option.isSome_iff_ne_none.mpr hrestricted) ⟨key.id, body, old, scopes, rfl,
        hbody, ownKey_eq_some.mpr ⟨hfind, howner⟩, hempty, heffective, ?_, hmanage,
        hstored.subset⟩
      intro hnil
      rw [hnil] at hkey
      simp [scopeSatisfied] at hkey
    have hscope := scopeSatisfied_of_isSubset hstored.subset hkey.1
    obtain ⟨somewhere, hsomewhere⟩ := exists_granted (l := l) hscope
    have hfirst := hcaller scope somewhere hsomewhere
    unfold APIKey.grants at hfirst ⊢
    rw [Bool.and_eq_true] at hfirst ⊢
    exact ⟨hfirst.1, by simp [hunrestricted]⟩
  · exact hcaller scope address
      (grants_of_within hstored.scopes_eq hstored.subset hstored.within hlist hkey)

/-- Whoever is served may manage keys. -/
theorem manages_of_serve {result : Option APIKey × Table APIKey.id}
    (h : request.serve l a owned ⟨user, some caller⟩ keys = .ok result) :
    scopeSatisfied (caller.scopes.getD []) apikeyManage = true := by
  have hrequire : ∃ u, AuthContext.requireScope ⟨user, some caller⟩ apikeyManage = .ok u := by
    cases request with
    | create id raw_key body =>
      obtain ⟨result, hcreate, -⟩ := ok_of_map h
      obtain ⟨u, hu, -⟩ := ok_of_bind hcreate
      exact ⟨u, hu⟩
    | update key_id body =>
      obtain ⟨result, hupdate, -⟩ := ok_of_map h
      obtain ⟨u, hu, -⟩ := ok_of_bind hupdate
      exact ⟨u, hu⟩
    | revoke key_id =>
      obtain ⟨result, hrevoke, -⟩ := ok_of_map h
      obtain ⟨u, hu, -⟩ := ok_of_bind hrevoke
      exact ⟨u, hu⟩
  obtain ⟨u, hu⟩ := hrequire
  by_contra hnot
  unfold AuthContext.requireScope AuthContext.hasScope at hu
  simp [hnot] at hu

end

/-! ## The run -/

section
variable {l : Lowercase} {a : Argon2} {first : APIKey} {s : Delegated} {call : KeyCall}

theorem bounded_step (h : Bounded l first s) (hspares : SparesEmptyLists l a first s call) :
    Bounded l first (s.step l a call) := by
  unfold Delegated.step
  split
  · exact h
  · next user caller hauth =>
    split
    · next hreached =>
      have hcaller := h caller (mem_of_validateApiKey hauth).1 hreached
      split
      · exact h
      · next made api_keys hserve =>
        cases made with
        | none =>
          obtain ⟨gone, rfl⟩ := serve_revoked hserve
          intro key hkey hmember
          have hold : key ∈ s.db.api_keys.rows := List.mem_of_mem_filter hkey
          exact h key hold (by simpa using hmember)
        | some made =>
          obtain ⟨hfind, -⟩ := serve_made hserve
          intro key hkey hmember
          have hrow := Table.find_eq_some_iff.mpr ⟨hkey, rfl⟩
          rw [hfind key.id] at hrow
          split at hrow
          · cases hrow
            exact fun scope address hgrants => granted_of_made hserve (manages_of_serve hserve)
              (hspares user caller hauth hreached) hcaller hgrants
          · next hother =>
            have hold := (Table.find_eq_some_iff.mp hrow).1
            refine h key hold ?_
            rcases List.mem_append.mp hmember with hbefore | hnew
            · exact hbefore
            · exact absurd (by simpa using hnew) hother
    · exact h

theorem sparesEmptyLists_of_bounded (h : Bounded l first (s.step l a call)) :
    SparesEmptyLists l a first s call := by
  intro user caller hauth hreached hrestricted hkeeps
  obtain ⟨key, keys', hserve, hkey, hunrestricted, scope, hscope⟩ :=
    serve_keepsEmptyList l a call.owned hkeeps
  have hstep : s.step l a call =
      { db := { s.db with api_keys := keys' }, reached := s.reached ++ [key.id] } := by
    unfold Delegated.step
    simp [hauth, hreached, hserve]
  rw [hstep] at h
  obtain ⟨allowed, hallowed⟩ := Option.isSome_iff_exists.mp hrestricted
  obtain ⟨address, haddress⟩ := l.exists_not_mem allowed
  have hfirst := h key hkey (by simp) scope address (by
    simp [APIKey.grants, hscope, hunrestricted])
  unfold APIKey.grants at hfirst
  simp [hallowed] at hfirst
  exact haddress hfirst.2

end

def keyOwner : User :=
  { id := "u", username := "ann".toList, email := "ann@corp.test".toList, hashed_password := [] }

/-- A key for one mailbox. -/
def oneMailboxKey : APIKey :=
  { id := "k", user_id := "u", key_hash := "mc_first".toList, name := "ci".toList,
    key_prefix := "mc_first".toList, allowed_mailboxes := some ["a@corp.test".toList] }

/-- A key that reads every mailbox, its list empty. -/
def readingKey : APIKey :=
  { id := "r", user_id := "u", key_hash := "mc_reads".toList, name := "reader".toList,
    key_prefix := "mc_reads".toList, scopes := some ["email:read"], allowed_mailboxes := some [] }

def twoKeys : Database :=
  { users := ⟨[keyOwner], by decide⟩, api_keys := ⟨[oneMailboxKey, readingKey], by decide⟩ }

/-- The first key makes a key for its own mailbox. -/
def makesKey : KeyCall :=
  { raw_key := "mc_first".toList, owned := ["a@corp.test".toList],
    request := .create "n" "mc_newer".toList
      { name := "new".toList, allowed_mailboxes := some ["A@corp.test ".toList] } }

/-- The first key gives the other one a scope. -/
def givesSending : KeyCall :=
  { raw_key := "mc_first".toList, owned := ["a@corp.test".toList],
    request := .update "r" { scopes := some (some ["email:send"]) } }

end MailCue.Backend.Auth
