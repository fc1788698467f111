import MailCue.Lib.Expansion
import MailCue.Lib.Spf

/-!
# The lookups of a record

The terms that query the DNS in the whole expansion of a record, where no mechanism matches:
those of the record, and those of the policies its `include` and `redirect` lead to, again where
a policy is led to again. RFC 7208 section 4.6.4 allows ten.
-/
namespace MailCue.Lib.Spf

/-! ## The terms that are evaluated -/

def Term.isAll : Term → Bool
  | directive _ m => m.isAll
  | modifier _ _ => false

/-- Whether a mechanism comes first, or else the end of the record. -/
def Term.isModifier : Term → Bool
  | directive _ _ => false
  | modifier _ _ => true

/-- Terms, each with whether the evaluation comes to it: nothing behind an `all`, and no
modifier beside one. -/
def marks (beside_all : Bool) : List Term → List (Term × Bool)
  | [] => []
  | term :: rest =>
    if term.isAll then (term, true) :: rest.map (·, false)
    else (term, !(beside_all && term.isModifier)) :: marks beside_all rest

def marked (terms : List Term) : List (Term × Bool) := marks (terms.any Term.isAll) terms

/-- A term that the evaluation comes to and that queries the DNS. -/
def isQuery (mark : Term × Bool) : Bool := mark.2 && mark.1.looksUp

/-- The terms that query the DNS. -/
def queries (terms : List Term) : List Term := ((marked terms).filter isQuery).map (·.1)

/-- The domain whose policy a term leads to. -/
def Term.target : Term → Option Text
  | directive _ m => if m.name = "include".toList then m.domain else none
  | modifier name value => if name = "redirect".toList then some value else none

def targets (terms : List Term) : List Text := (queries terms).filterMap Term.target

/-! ## What terms are written with -/

/-- A text that starts so when it is folded, up to the first percent sign. -/
theorem exists_of_foldCase {front rest text : Text} (hfront : '%' ∉ front)
    (h : foldCase text = front ++ rest) :
    ∃ start back, text = start ++ back ∧ Text.asciiLower start = front ∧
      foldCase back = rest := by
  induction front generalizing text with
  | nil => exact ⟨[], text, rfl, rfl, h⟩
  | cons d front ih =>
    have hfolds := folds_foldCase text
    cases text with
    | nil => cases h
    | cons c text =>
      have hc : c ≠ '%' := by
        rintro rfl
        rw [h, List.cons_append] at hfolds
        obtain rfl : d = '%' := by
          rcases (List.forall₂_cons.mp hfolds).1 with hd | hd
          · exact hd
          · exact hd.trans (by decide)
        exact hfront List.mem_cons_self
      rw [foldCase_cons hc, List.cons_append, List.cons.injEq] at h
      obtain ⟨rfl, h⟩ := h
      obtain ⟨start, back, rfl, rfl, hback⟩ :=
        ih (fun hmem => hfront (List.mem_cons_of_mem _ hmem)) h
      exact ⟨c :: start, back, rfl, rfl, hback⟩

/-- The ways to write a mechanism. -/
inductive Written : Text → Mechanism → Prop
  | bare {name : String} (hname : name ∈ ["all", "a", "mx", "ptr"]) :
      Written name.toList ⟨name.toList, none, []⟩
  | host {name : String} (hname : name ∈ ["a", "mx"]) (value domain rest : Text) :
      Written (name.toList ++ ':' :: value) ⟨name.toList, some domain, rest⟩
  | domain {name : String} (hname : name ∈ ["ptr", "include", "exists"]) {spec : Text}
      (hspec : isDomainSpec spec = true) :
      Written (name.toList ++ ':' :: spec) ⟨name.toList, some (dropDot spec), []⟩
  | network {name : String} (hname : name ∈ ["ip4", "ip6"]) (network : Text) :
      Written (name.toList ++ ':' :: network) ⟨name.toList, none, network⟩
  | lengths {name : String} (hname : name ∈ ["a", "mx"]) (rest : Text) :
      Written (name.toList ++ '/' :: rest) ⟨name.toList, none, '/' :: rest⟩

/-- `a` and `mx` alone, or with prefix lengths. -/
theorem Written.of_isDualCidr {name : String} (hname : name ∈ ["a", "mx"]) {rest : Text}
    (h : isDualCidr rest = true) : Written (name.toList ++ rest) ⟨name.toList, none, rest⟩ := by
  cases rest with
  | nil =>
    rw [List.append_nil]
    exact .bare (List.mem_cons_of_mem _ (List.mem_append_left ["ptr"] hname))
  | cons c rest =>
    obtain rfl : c = '/' := by
      by_contra hc
      unfold isDualCidr at h
      split at h
      all_goals simp_all
    exact .lengths hname rest

theorem written_of_readMechanism {text : Text} {m : Mechanism} (h : readMechanism text = some m) :
    Written text m := by
  have hjoin : ∀ {name : String}, String.ofList (text.takeWhile (!isNameEnd ·)) = name →
      text.takeWhile (!isNameEnd ·) = name.toList ∧
        text = name.toList ++ text.dropWhile (!isNameEnd ·) := by
    rintro name rfl
    rw [String.toList_ofList]
    exact ⟨rfl, List.takeWhile_append_dropWhile.symm⟩
  have hif : ∀ {b : Bool} {found : Mechanism}, (if b then some found else none) = some m →
      b = true ∧ found = m := by
    intro b found h
    split at h
    · rename_i hb
      exact ⟨hb, Option.some.inj h⟩
    · cases h
  unfold readMechanism at h
  simp only at h
  split at h
  case h_1 hname hafter | h_6 hname hafter =>
    obtain ⟨hname, htext⟩ := hjoin hname
    rw [hname] at h
    rw [htext, hafter, List.append_nil, ← Option.some.inj h]
    exact .bare (by decide)
  case h_2 hname hafter | h_3 hname hafter =>
    obtain ⟨-, rfl⟩ := hif h
    obtain ⟨hname, htext⟩ := hjoin hname
    rw [hname]
    conv_lhs => rw [htext, hafter]
    exact .host (by decide) _ _ _
  case h_4 hname _ | h_5 hname _ =>
    obtain ⟨hrest, rfl⟩ := hif h
    obtain ⟨hname, htext⟩ := hjoin hname
    rw [hname]
    conv_lhs => rw [htext]
    exact .of_isDualCidr (by decide) hrest
  case h_7 hname hafter | h_8 hname hafter | h_9 hname hafter =>
    obtain ⟨hspec, rfl⟩ := hif h
    obtain ⟨hname, htext⟩ := hjoin hname
    rw [hname]
    conv_lhs => rw [htext, hafter]
    exact .domain (by decide) hspec
  case h_10 hname hafter | h_11 hname hafter =>
    obtain ⟨-, rfl⟩ := hif h
    obtain ⟨hname, htext⟩ := hjoin hname
    rw [hname]
    conv_lhs => rw [htext, hafter]
    exact .network (by decide) _
  case h_12 => cases h

/-! ## The expansion -/

section
variable (zone : Text → List Text)

/-- The only policy at a domain, which is none where it has a macro. -/
def policyAt (domain : Text) : Option Text :=
  if '%' ∈ domain then none
  else
    match (zone domain).filter hasVersion with
    | [record] => some record
    | _ => none

/-- The policies that a record leads to. -/
def ledTo (record : Text) : Option (List Text) := do
  (targets (← readRecord record)).mapM (policyAt zone)

def queryCount (record : Text) : Nat :=
  match readRecord record with
  | some terms => (queries terms).length
  | none => 0

/-- The terms that query the DNS in the expansion of a record. -/
def Lookups (record : Text) (n : Nat) : Prop := Expansion.Sum (ledTo zone) queryCount record n

/-- Those in the expansion of the policy at a domain. -/
def LookupsAt (domain : Text) (n : Nat) : Prop :=
  ∃ record, policyAt zone domain = some record ∧ Lookups zone record n

end

variable {zone : Text → List Text} {record : Text} {n m : Nat}

theorem Lookups.unique (h : Lookups zone record n) (h' : Lookups zone record m) : n = m :=
  Expansion.Sum.unique h h'

/-- A record's own terms, and those at the domains it leads to. -/
theorem lookups_iff : Lookups zone record n ↔
    ∃ terms counts, readRecord record = some terms ∧
      List.Forall₂ (LookupsAt zone) (targets terms) counts ∧
      n = (queries terms).length + counts.sum := by
  rw [Lookups, Expansion.sum_iff]
  constructor
  · rintro ⟨policies, counts, hled, hcounts, hn⟩
    obtain ⟨terms, hread, hpolicies⟩ := Option.bind_eq_some_iff.mp hled
    refine ⟨terms, counts, hread, Expansion.forall₂_comp.mp ⟨policies, ?_, hcounts⟩, ?_⟩
    · exact Expansion.mapM_some_iff.mp hpolicies
    · rw [hn, queryCount, hread]
  · rintro ⟨terms, counts, hread, hat, hn⟩
    obtain ⟨policies, hpolicies, hcounts⟩ := Expansion.forall₂_comp.mpr hat
    refine ⟨policies, counts, ?_, hcounts, ?_⟩
    · rw [ledTo, hread]
      exact Expansion.mapM_some_iff.mpr hpolicies
    · rw [hn, queryCount, hread]

end MailCue.Lib.Spf
