import Mathlib.Data.List.Sort
import Mathlib.Data.String.Basic

/-!
# Scopes of API keys

backend/app/auth/scopes.py. What the catalogue says of a scope beside its name is
left out.
-/
namespace MailCue.Backend.Auth

def wildcard : String := "*"

def apikeyManage : String := "apikey:manage"

def apikeyRead : String := "apikey:read"

/-- `ALL_SCOPES`, in the order of the catalogue. -/
def allScopes : List String :=
  ["email:read", "email:send", "email:delete", "email:validate", "mailbox:read", "mailbox:manage",
    "gpg:read", "gpg:manage", "forwarding:read", "forwarding:manage", apikeyRead, apikeyManage,
    "domain:read", "domain:manage", "alias:read", "alias:manage", "system:read", "system:manage",
    "tunnel:read", "tunnel:manage", "warmup:read", "warmup:manage"]

def isValidScope (scope : String) : Bool := scope == wildcard || allScopes.contains scope

/-- The message of the `ValueError`, or the scopes. -/
def normalizeScopes (scopes : Option (List String)) : Except String (List String) :=
  let requested := scopes.getD []
  if requested = [] then .ok [wildcard]
  else
    let unknown := ((requested.filter fun s => !isValidScope s).dedup).insertionSort (· ≤ ·)
    if unknown ≠ [] then .error ("Unknown scope(s): " ++ ", ".intercalate unknown)
    else if wildcard ∈ requested then .ok [wildcard]
    else .ok (allScopes.filter fun s => requested.contains s)

def scopeSatisfied (granted : List String) (required : String) : Bool :=
  granted.contains wildcard || granted.contains required

def isSubset (child parent : List String) : Bool :=
  if wildcard ∈ parent then true
  else if wildcard ∈ child then false
  else child.all fun s => parent.contains s

/-- What the child satisfies, the parent does. -/
theorem scopeSatisfied_of_isSubset {child parent : List String} (h : isSubset child parent = true)
    {required : String} (hchild : scopeSatisfied child required = true) :
    scopeSatisfied parent required = true := by
  unfold isSubset at h
  simp only [scopeSatisfied, Bool.or_eq_true, List.contains_iff_mem] at hchild ⊢
  split at h
  · next hparent => exact .inl hparent
  · split at h
    · cases h
    · next hwild =>
      rcases hchild with hstar | hscope
      · exact absurd hstar hwild
      · have hall := List.all_eq_true.mp h required hscope
        exact .inr (List.contains_iff_mem.mp hall)

end MailCue.Backend.Auth
