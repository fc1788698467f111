import MailCue.Lib.OuterJoin
import MailCue.Lib.Rounding
import Mathlib.Data.Finset.Card
import Mathlib.Data.String.Basic

/-!
# Comparing reports

backend/app/deliverability/service.py: `compare_reports`, with the reports of
backend/app/emails/schemas.py as far as it reads them and the comparison of
backend/app/deliverability/schemas.py.
-/
namespace MailCue.Backend.Deliverability
open MailCue.Lib

/-! ## Reports -/

inductive CategoryId
  | authentication | content | headers | transport | spam_filter | attachments | dns
  | reputation | links | visual | placement | client_previews | ai_analysis
  deriving DecidableEq, Repr

def CategoryId.text : CategoryId → String
  | authentication => "authentication"
  | content => "content"
  | headers => "headers"
  | transport => "transport"
  | spam_filter => "spam_filter"
  | attachments => "attachments"
  | dns => "dns"
  | reputation => "reputation"
  | links => "links"
  | visual => "visual"
  | placement => "placement"
  | client_previews => "client_previews"
  | ai_analysis => "ai_analysis"

theorem CategoryId.text_injective : Function.Injective CategoryId.text := by
  intro a b h
  cases a <;> cases b <;> first | rfl | (exact absurd h (by decide))

/-- Categories are sorted by their texts. -/
instance : LinearOrder CategoryId := LinearOrder.lift' CategoryId.text CategoryId.text_injective

inductive CheckStatus
  | pass | warning | fail | info
  deriving DecidableEq, Repr

structure Check (F : Type) where
  id : String
  title : String
  status : CheckStatus
  points : F
  deriving DecidableEq, Repr

structure Category (F : Type) where
  id : CategoryId
  title : String
  score : Option Int
  checks : List (Check F)
  deriving DecidableEq, Repr

/-- A stored report with its record's id. -/
structure Report (F : Type) where
  id : String
  score : Int
  categories : List (Category F)
  deriving DecidableEq, Repr

structure CheckChange (F : Type) where
  id : String
  title : String
  before_status : Option CheckStatus
  after_status : Option CheckStatus
  before_points : Option F
  after_points : Option F
  points_delta : F
  deriving DecidableEq, Repr

structure CategoryChange (F : Type) where
  id : CategoryId
  title : String
  before_score : Option Int
  after_score : Option Int
  score_delta : Option Int
  check_changes : List (CheckChange F)
  deriving DecidableEq, Repr

structure Comparison (F : Type) where
  before_report_id : String
  after_report_id : String
  before_score : Int
  after_score : Int
  score_delta : Int
  improved : Nat
  regressed : Nat
  unchanged : Nat
  categories : List (CategoryChange F)
  deriving DecidableEq, Repr

/-! ## Points -/

/-- What is used of floating-point numbers, where those that compare equal are one:
differences and their signs, and `round(x, 1)`. -/
structure Arithmetic (F : Type) where
  zero : F
  sub : F → F → F
  neg : F → F
  positive : F → Bool
  negative : F → Bool
  round : F → F
  neg_sub : ∀ a b, neg (sub a b) = sub b a
  positive_neg : ∀ a, positive (neg a) = negative a
  negative_neg : ∀ a, negative (neg a) = positive a
  not_negative : ∀ a, positive a = true → negative a = false
  round_neg : ∀ a, round (neg a) = neg (round a)

/-- Exact numbers. -/
def Arithmetic.exact : Arithmetic ℚ where
  zero := 0
  sub a b := a - b
  neg a := -a
  positive a := 0 < a
  negative a := a < 0
  round := Rounding.roundDigits 1
  neg_sub a b := by ring
  positive_neg a := by simp
  negative_neg a := by simp
  not_negative a h := by
    have hpos : 0 < a := of_decide_eq_true h
    simpa using hpos.le
  round_neg a := Rounding.roundDigits_neg 1 a

/-! ## The comparison -/

structure Tally where
  improved : Nat
  regressed : Nat
  unchanged : Nat
  deriving DecidableEq, Repr

section
variable {F : Type} (ar : Arithmetic F)

def delta (old new : Option (Check F)) : F :=
  ar.sub (new.elim ar.zero Check.points) (old.elim ar.zero Check.points)

def Tally.count (tally : Tally) (delta : F) : Tally :=
  if ar.positive delta then { tally with improved := tally.improved + 1 }
  else if ar.negative delta then { tally with regressed := tally.regressed + 1 }
  else { tally with unchanged := tally.unchanged + 1 }

def checkChange (check_id : String) (old new : Option (Check F)) : CheckChange F where
  id := check_id
  title := (new.or old).elim check_id Check.title
  before_status := old.map Check.status
  after_status := new.map Check.status
  before_points := old.map Check.points
  after_points := new.map Check.points
  points_delta := ar.round (delta ar old new)

/-- The inner loop. -/
def compareChecks (old_checks new_checks : List (Check F)) (tally : Tally) :
    Tally × List (CheckChange F) :=
  (OuterJoin.join Check.id old_checks new_checks).foldl
    (fun state entry => (state.1.count ar (delta ar entry.2.1 entry.2.2),
      state.2 ++ [checkChange ar entry.1 entry.2.1 entry.2.2]))
    (tally, [])

def checksOf (category : Option (Category F)) : List (Check F) := category.elim [] Category.checks

def categoryChange (category_id : CategoryId) (old_category new_category : Option (Category F))
    (changes : List (CheckChange F)) : CategoryChange F where
  id := category_id
  title := (new_category.or old_category).elim category_id.text Category.title
  before_score := old_category.bind Category.score
  after_score := new_category.bind Category.score
  score_delta := do
    let new_score ← new_category.bind Category.score
    let old_score ← old_category.bind Category.score
    return new_score - old_score
  check_changes := changes

/-- The outer loop. -/
def compareCategories (before after : List (Category F)) : Tally × List (CategoryChange F) :=
  (OuterJoin.join Category.id before after).foldl
    (fun state entry =>
      let (tally, changes) :=
        compareChecks ar (checksOf entry.2.1) (checksOf entry.2.2) state.1
      (tally, state.2 ++ [categoryChange entry.1 entry.2.1 entry.2.2 changes]))
    (⟨0, 0, 0⟩, [])

/-- `compare_reports` -/
def compareReports (before after : Report F) : Comparison F :=
  let (tally, categories) := compareCategories ar before.categories after.categories
  { before_report_id := before.id
    after_report_id := after.id
    before_score := before.score
    after_score := after.score
    score_delta := after.score - before.score
    improved := tally.improved
    regressed := tally.regressed
    unchanged := tally.unchanged
    categories := categories }

end

end MailCue.Backend.Deliverability
