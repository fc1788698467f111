import MailCue.Lib.Dict
import MailCue.Lib.Table
import MailCue.Lib.Transition
import Mathlib.Data.List.Infix

/-!
# The pool of phone numbers

backend/app/sandbox/seeds/available_numbers.py, and the endpoints of the five providers
that buy and release numbers: providers/twilio/numbers.py, and the router.py of vonage,
bandwidth, plivo and telnyx. A request is one step, for a provider it has been
authenticated as; what it answers is left out but for the numbers of a search.
-/
namespace MailCue.Backend.Sandbox.Numbers
open MailCue.Lib

structure Capabilities where
  voice : Bool
  sms : Bool
  mms : Bool
  fax : Bool
  deriving DecidableEq

structure AvailableNumber where
  e164 : String
  iso_country : String
  number_type : String
  area_code : String
  locality : String
  region : String
  capabilities : Capabilities
  deriving DecidableEq

/-! ## The pool -/

def usLocalAreas : List (String × String × String) :=
  [("415", "San Francisco", "CA"), ("212", "New York", "NY"), ("305", "Miami", "FL"),
    ("312", "Chicago", "IL"), ("206", "Seattle", "WA")]

def usMobileAreas : List (String × String × String) :=
  [("917", "New York", "NY"), ("650", "San Jose", "CA")]

def usTollfree : List String := ["800", "833", "844", "855", "866", "877", "888"]

def localCaps : Capabilities := { voice := true, sms := true, mms := true, fax := true }

def mobileCaps : Capabilities := { voice := true, sms := true, mms := true, fax := false }

def tollfreeCaps : Capabilities := { voice := true, sms := true, mms := false, fax := false }

/-- `count` numbers of an area, from a first subscriber on. -/
def block (code iso_country number_type area_code locality region : String)
    (capabilities : Capabilities) (first count : Nat) : List AvailableNumber :=
  (List.range count).map fun idx =>
    { e164 := code ++ toString (first + idx), iso_country, number_type, area_code, locality, region
      capabilities }

def buildPool : List AvailableNumber :=
  (usLocalAreas.flatMap fun (area, locality, region) =>
    block ("+1" ++ area) "US" "local" area locality region localCaps 5550000 50) ++
  (usMobileAreas.flatMap fun (area, locality, region) =>
    block ("+1" ++ area) "US" "mobile" area locality region mobileCaps 5554000 20) ++
  (usTollfree.flatMap fun area =>
    block ("+1" ++ area) "US" "tollfree" area "Toll Free" "US" tollfreeCaps 5550100 10) ++
  block "+1416" "CA" "local" "416" "Toronto" "ON" localCaps 5550000 50 ++
  block "+4420" "GB" "local" "20" "London" "England" localCaps 30000000 40

/-- The parameters of `get_available_numbers`. -/
structure Search where
  iso_country : String := "US"
  number_type : Option String := none
  area_code : Option String := none
  contains : Option String := none
  page_size : Int := 50
  sms_enabled : Option Bool := none
  mms_enabled : Option Bool := none
  voice_enabled : Option Bool := none

def Search.finds (search : Search) (entry : AvailableNumber) : Bool :=
  entry.iso_country == search.iso_country &&
    search.number_type.all (entry.number_type == ·) &&
    search.area_code.all (entry.area_code == ·) &&
    search.contains.all (fun text => decide (text.toList <:+: entry.e164.toList)) &&
    (search.sms_enabled != some true || entry.capabilities.sms) &&
    (search.mms_enabled != some true || entry.capabilities.mms) &&
    (search.voice_enabled != some true || entry.capabilities.voice)

/-- The loop ends at the page size behind the entry it has just taken. -/
def getAvailableNumbers (consumed : List String) (search : Search) : List AvailableNumber :=
  (buildPool.filter fun entry => !consumed.contains entry.e164 && search.finds entry).take
    (max 1 search.page_size.toNat)

/-- `True` where the number is consumed now. -/
def markConsumed (consumed : List String) (e164 : String) : Bool × List String :=
  if e164 ∈ consumed then (false, consumed) else (true, e164 :: consumed)

/-- `True` where it was consumed. -/
def releaseConsumed (consumed : List String) (e164 : String) : Bool × List String :=
  if e164 ∈ consumed then (true, consumed.filter (· != e164)) else (false, consumed)

/-! ## The rows -/

structure NumberFields where
  provider_id : String
  external_id : String
  e164 : String
  iso_country : String := "US"
  number_type : String := "local"
  locality : Option String := none
  region : Option String := none
  capabilities : Capabilities := { voice := true, sms := true, mms := true, fax := false }

structure SandboxPhoneNumber extends NumberFields where
  id : String
  released : Bool := false

structure State where
  numbers : Table SandboxPhoneNumber.id
  consumed : List String

/-- An empty table and a new process. -/
def State.initial : State := ⟨.empty, []⟩

/-- New ids, and what else the providers name a number by. -/
structure World where
  uuid : List String → String
  fresh : ∀ taken, uuid taken ∉ taken
  sid : List String → String

/-- The number is marked, whatever `mark_consumed` answers, and a row is added. -/
def State.purchase (world : World) (s : State) (fields : NumberFields) : State where
  numbers := s.numbers.add
    { fields with id := world.uuid (s.numbers.rows.map SandboxPhoneNumber.id) } (world.fresh _)
  consumed := (markConsumed s.consumed fields.e164).2

/-- `pn.released = True`, and the number goes back into the pool. -/
def State.release (s : State) (pn : SandboxPhoneNumber) : State where
  numbers := s.numbers.replace { pn with released := true }
  consumed := (releaseConsumed s.consumed pn.e164).2

/-- `scalar_one_or_none`: several rows raise, and so leave all as it is like none. -/
def scalarOneOrNone {α : Type} : List α → Option α
  | [row] => some row
  | _ => none

def State.releaseFound (s : State) (found : SandboxPhoneNumber → Bool) : State :=
  match scalarOneOrNone (s.numbers.rows.filter found) with
  | none => s
  | some pn => s.release pn

def State.newSid (world : World) (s : State) : String :=
  world.sid (s.numbers.rows.map fun row => row.external_id)

/-- The fields with what the pool says about the number. -/
def NumberFields.ofEntry (fields : NumberFields) (entry : AvailableNumber) : NumberFields :=
  { fields with
    iso_country := entry.iso_country
    number_type := entry.number_type
    locality := some entry.locality
    region := some entry.region
    capabilities := entry.capabilities }

/-- The loop that looks up the number in the pool. -/
def State.lookedUp (s : State) (fields : NumberFields) : NumberFields :=
  match (getAvailableNumbers s.consumed { page_size := 500 }).find? (·.e164 == fields.e164) with
  | none => fields
  | some entry => fields.ofEntry entry

/-! ## The endpoints -/

/-- `"+" + number.lstrip("+")` -/
def plus (number : String) : String := "+" ++ String.ofList (number.toList.dropWhile (· == '+'))

/-- `"+1" + tn if not tn.startswith("+") else tn` -/
def northAmerican (tn : String) : String :=
  if tn.toList.head? = some '+' then tn else "+1" ++ tn

namespace Twilio

def purchaseNumber (world : World) (s : State) (provider_id : String)
    (phone_number area_code : Option String) : State :=
  let fields (e164 : String) : NumberFields :=
    { provider_id, external_id := s.newSid world, e164 }
  match phone_number, area_code with
  | some e164, _ => s.purchase world (s.lookedUp (fields e164))
  | none, some area_code =>
    match getAvailableNumbers s.consumed { area_code := some area_code, page_size := 1 } with
    | [] => s
    | entry :: _ => s.purchase world ((fields entry.e164).ofEntry entry)
  | none, none => s

def releaseIncoming (s : State) (provider_id sid : String) : State :=
  s.releaseFound fun row => row.provider_id == provider_id && row.external_id == sid

end Twilio

namespace Vonage

/-- A row of the provider for the number, released or not. -/
def owned (s : State) (provider_id e164 : String) : Bool :=
  s.numbers.rows.any fun row => row.provider_id == provider_id && row.e164 == e164

def buyNumber (world : World) (s : State) (provider_id country msisdn : String) : State :=
  let e164 := plus msisdn
  if owned s provider_id e164 then { s with consumed := (markConsumed s.consumed e164).2 }
  else
    s.purchase world
      { provider_id, external_id := "vn-" ++ String.ofList (e164.toList.dropWhile (· == '+')), e164
        iso_country := country }

def cancelNumber (s : State) (provider_id msisdn : String) : State :=
  s.releaseFound fun row => row.provider_id == provider_id && row.e164 == plus msisdn

end Vonage

namespace Bandwidth

def orderNumbers (world : World) (s : State) (provider_id : String) (numbers : List String) :
    State :=
  numbers.foldl (fun s e164 =>
    s.purchase world { provider_id, external_id := "N" ++ s.newSid world, e164 }) s

def releaseNumber (s : State) (provider_id tn : String) : State :=
  s.releaseFound fun row => row.provider_id == provider_id && row.e164 == northAmerican tn

end Bandwidth

namespace Plivo

def buyNumber (world : World) (s : State) (provider_id number : String) : State :=
  let e164 := plus number
  s.purchase world (s.lookedUp
    { provider_id, external_id := "PN-" ++ String.ofList (e164.toList.dropWhile (· == '+')), e164 })

def releaseOwned (s : State) (provider_id number : String) : State :=
  s.releaseFound fun row => row.provider_id == provider_id && row.e164 == plus number

end Plivo

namespace Telnyx

def createNumberOrder (world : World) (s : State) (provider_id : String) (numbers : List String) :
    State :=
  (numbers.filter (· != "")).foldl (fun s e164 =>
    s.purchase world { provider_id, external_id := s.newSid world, e164 }) s

def deleteOwned (s : State) (provider_id phone_number_id : String) : State :=
  s.releaseFound fun row => row.provider_id == provider_id && row.external_id == phone_number_id

end Telnyx

/-! ## Histories -/

inductive Event
  | search (search : Search)
  | twilioPurchase (provider_id : String) (phone_number area_code : Option String)
  | twilioRelease (provider_id sid : String)
  | vonageBuy (provider_id country msisdn : String)
  | vonageCancel (provider_id msisdn : String)
  | bandwidthOrder (provider_id : String) (numbers : List String)
  | bandwidthRelease (provider_id tn : String)
  | plivoBuy (provider_id number : String)
  | plivoRelease (provider_id number : String)
  | telnyxOrder (provider_id : String) (numbers : List String)
  | telnyxDelete (provider_id phone_number_id : String)
  | restart

def State.step (world : World) (s : State) : Event → State
  | .search _ => s
  | .twilioPurchase provider_id phone_number area_code =>
    Twilio.purchaseNumber world s provider_id phone_number area_code
  | .twilioRelease provider_id sid => Twilio.releaseIncoming s provider_id sid
  | .vonageBuy provider_id country msisdn => Vonage.buyNumber world s provider_id country msisdn
  | .vonageCancel provider_id msisdn => Vonage.cancelNumber s provider_id msisdn
  | .bandwidthOrder provider_id numbers => Bandwidth.orderNumbers world s provider_id numbers
  | .bandwidthRelease provider_id tn => Bandwidth.releaseNumber s provider_id tn
  | .plivoBuy provider_id number => Plivo.buyNumber world s provider_id number
  | .plivoRelease provider_id number => Plivo.releaseOwned s provider_id number
  | .telnyxOrder provider_id numbers => Telnyx.createNumberOrder world s provider_id numbers
  | .telnyxDelete provider_id phone_number_id => Telnyx.deleteOwned s provider_id phone_number_id
  | .restart => { s with consumed := [] }

def pool (world : World) : Machine State Event where
  start := .initial
  step := State.step world

/-- No number is in two unreleased rows, and no search offers one that is in one. -/
structure Exclusive (s : State) : Prop where
  one_row : ∀ row ∈ s.numbers.rows, ∀ other ∈ s.numbers.rows,
    row.released = false → other.released = false → row.e164 = other.e164 → row = other
  not_offered : ∀ search, ∀ entry ∈ getAvailableNumbers s.consumed search,
    ∀ row ∈ s.numbers.rows, row.released = false → row.e164 ≠ entry.e164

/-- An unreleased row holds the number. -/
def State.Held (s : State) (e164 : String) : Prop :=
  ∃ row ∈ s.numbers.rows, row.released = false ∧ row.e164 = e164

def pooled (e164 : String) : Prop := ∃ entry ∈ buildPool, entry.e164 = e164

/-! ## What a search can find -/

theorem finds_all (entry : AvailableNumber) (page_size : Int) :
    ({ iso_country := entry.iso_country, page_size } : Search).finds entry = true := by
  simp [Search.finds]

/-- Any number of the pool that is not consumed. -/
theorem offered_iff (consumed : List String) (e164 : String) :
    (∃ search, ∃ entry ∈ getAvailableNumbers consumed search, entry.e164 = e164) ↔
      pooled e164 ∧ e164 ∉ consumed := by
  constructor
  · rintro ⟨search, entry, hentry, rfl⟩
    obtain ⟨hpool, hpicked⟩ := List.mem_filter.mp (List.mem_of_mem_take hentry)
    rw [Bool.and_eq_true] at hpicked
    exact ⟨⟨entry, hpool, rfl⟩, by simpa using hpicked.1⟩
  · rintro ⟨⟨entry, hpool, rfl⟩, hfree⟩
    refine ⟨{ iso_country := entry.iso_country, page_size := buildPool.length }, entry, ?_, rfl⟩
    rw [getAvailableNumbers, List.take_of_length_le]
    · refine List.mem_filter.mpr ⟨hpool, ?_⟩
      rw [Bool.and_eq_true]
      exact ⟨by simpa using hfree, finds_all entry _⟩
    · exact (List.length_filter_le _ _).trans (le_max_right _ _)

theorem exclusive_iff (s : State) :
    Exclusive s ↔
      (∀ row ∈ s.numbers.rows, ∀ other ∈ s.numbers.rows, row.released = false →
        other.released = false → row.e164 = other.e164 → row = other) ∧
      ∀ e164, s.Held e164 → pooled e164 → e164 ∈ s.consumed := by
  constructor
  · intro h
    refine ⟨h.one_row, fun e164 hheld hpooled => ?_⟩
    by_contra hfree
    obtain ⟨search, entry, hentry, hsame⟩ := (offered_iff _ _).mpr ⟨hpooled, hfree⟩
    obtain ⟨row, hrow, hunreleased, rfl⟩ := hheld
    exact h.not_offered search entry hentry row hrow hunreleased hsame.symm
  · intro ⟨hone, hreserved⟩
    refine ⟨hone, fun search entry hentry row hrow hunreleased hsame => ?_⟩
    obtain ⟨hpooled, hfree⟩ := (offered_iff _ _).mp ⟨search, entry, hentry, hsame.symm⟩
    exact hfree (hreserved _ ⟨row, hrow, hunreleased, rfl⟩ hpooled)

/-! ## One step -/

theorem mem_markConsumed {consumed : List String} {e164 other : String} :
    other ∈ (markConsumed consumed e164).2 ↔ other = e164 ∨ other ∈ consumed := by
  unfold markConsumed
  split
  · next h =>
    constructor
    · exact .inr
    · rintro (rfl | hmem)
      · exact h
      · exact hmem
  · exact List.mem_cons

theorem mem_releaseConsumed {consumed : List String} {e164 other : String} :
    other ∈ (releaseConsumed consumed e164).2 ↔ other ∈ consumed ∧ other ≠ e164 := by
  unfold releaseConsumed
  split
  · simp
  · next h =>
    constructor
    · exact fun hmem => ⟨hmem, fun heq => h (heq ▸ hmem)⟩
    · exact And.left

section
variable {world : World} {s : State}

/-- The row a purchase adds. -/
def State.bought (world : World) (s : State) (fields : NumberFields) : SandboxPhoneNumber :=
  { fields with id := world.uuid (s.numbers.rows.map SandboxPhoneNumber.id) }

theorem rows_purchase (fields : NumberFields) :
    (s.purchase world fields).numbers.rows = s.numbers.rows ++ [s.bought world fields] := rfl

theorem bought_not_mem (fields : NumberFields) : s.bought world fields ∉ s.numbers.rows := by
  intro h
  have hid : (s.bought world fields).id ∈ s.numbers.rows.map SandboxPhoneNumber.id :=
    List.mem_map_of_mem h
  exact world.fresh _ hid

theorem held_purchase (fields : NumberFields) (e164 : String) :
    (s.purchase world fields).Held e164 ↔ s.Held e164 ∨ fields.e164 = e164 := by
  constructor
  · rintro ⟨row, hrow, hunreleased, rfl⟩
    rw [rows_purchase, List.mem_append, List.mem_singleton] at hrow
    rcases hrow with hold | rfl
    · exact .inl ⟨row, hold, hunreleased, rfl⟩
    · exact .inr rfl
  · rintro (⟨row, hrow, hunreleased, rfl⟩ | rfl)
    · exact ⟨row, List.mem_append_left _ hrow, hunreleased, rfl⟩
    · exact ⟨s.bought world fields, List.mem_append_right _ (List.mem_singleton_self _), rfl, rfl⟩

theorem exclusive_purchase (fields : NumberFields) :
    Exclusive (s.purchase world fields) ↔ Exclusive s ∧ ¬ s.Held fields.e164 := by
  rw [exclusive_iff, exclusive_iff]
  have hnew : s.bought world fields ∈ (s.purchase world fields).numbers.rows :=
    List.mem_append_right _ (List.mem_singleton_self _)
  have hold {row : SandboxPhoneNumber} (hrow : row ∈ s.numbers.rows) :
      row ∈ (s.purchase world fields).numbers.rows := List.mem_append_left _ hrow
  constructor
  · intro ⟨hone, hreserved⟩
    have hfree : ¬ s.Held fields.e164 := by
      rintro ⟨row, hrow, hunreleased, hsame⟩
      have heq := hone row (hold hrow) _ hnew hunreleased rfl hsame
      exact bought_not_mem fields (heq ▸ hrow)
    refine ⟨⟨fun row hrow other hother => hone row (hold hrow) other (hold hother), ?_⟩, hfree⟩
    intro e164 hheld hpooled
    have hmem := hreserved e164 ((held_purchase fields e164).mpr (.inl hheld)) hpooled
    rcases mem_markConsumed.mp hmem with rfl | hconsumed
    · exact absurd hheld hfree
    · exact hconsumed
  · intro ⟨⟨hone, hreserved⟩, hfree⟩
    refine ⟨fun row hrow other hother hunreleased hunreleased' hsame => ?_,
      fun e164 hheld hpooled => ?_⟩
    · rw [rows_purchase, List.mem_append, List.mem_singleton] at hrow hother
      rcases hrow with hrow | rfl
      · rcases hother with hother | rfl
        · exact hone row hrow other hother hunreleased hunreleased' hsame
        · exact absurd ⟨row, hrow, hunreleased, hsame⟩ hfree
      · rcases hother with hother | rfl
        · exact absurd ⟨other, hother, hunreleased', hsame.symm⟩ hfree
        · rfl
    · rcases (held_purchase fields e164).mp hheld with hheld | rfl
      · exact mem_markConsumed.mpr (.inr (hreserved e164 hheld hpooled))
      · exact mem_markConsumed.mpr (.inl rfl)

/-- An order is one purchase after the other. -/
theorem exclusive_order (fields : State → String → NumberFields)
    (hfields : ∀ s e164, (fields s e164).e164 = e164) (numbers : List String) :
    Exclusive (numbers.foldl (fun s e164 => s.purchase world (fields s e164)) s) ↔
      Exclusive s ∧ numbers.Nodup ∧ ∀ e164 ∈ numbers, ¬ s.Held e164 := by
  induction numbers generalizing s with
  | nil => simp
  | cons first rest ih =>
    rw [List.foldl_cons, ih, exclusive_purchase, hfields, List.nodup_cons, List.forall_mem_cons]
    have hrest : (∀ e164 ∈ rest, ¬ (s.purchase world (fields s first)).Held e164) ↔
        (∀ e164 ∈ rest, ¬ s.Held e164) ∧ first ∉ rest := by
      constructor
      · intro h
        constructor
        · exact fun e164 hmem hheld => h e164 hmem ((held_purchase _ _).mpr (.inl hheld))
        · exact fun hmem => h first hmem ((held_purchase _ _).mpr (.inr (hfields s first)))
      · intro ⟨hfree, hnew⟩ e164 hmem hheld
        rcases (held_purchase _ _).mp hheld with hheld | hsame
        · exact hfree e164 hmem hheld
        · rw [hfields] at hsame
          exact hnew (hsame ▸ hmem)
    rw [hrest]
    constructor
    · rintro ⟨⟨hs, hfirst⟩, hnodup, hfree, hnew⟩
      exact ⟨hs, ⟨hnew, hnodup⟩, hfirst, hfree⟩
    · rintro ⟨hs, ⟨hnew, hnodup⟩, hfirst, hfree⟩
      exact ⟨⟨hs, hfirst⟩, hnodup, hfree, hnew⟩

/-- The row that a release puts back is unreleased, or its number is nobody's or none of
the pool. -/
def Releasable (s : State) (pn : SandboxPhoneNumber) : Prop :=
  pn.released = false ∨ ¬ s.Held pn.e164 ∨ ¬ pooled pn.e164

theorem mem_rows_release {pn row : SandboxPhoneNumber} (hpn : pn ∈ s.numbers.rows) :
    row ∈ (s.release pn).numbers.rows ∧ row.released = false ↔
      row ∈ s.numbers.rows ∧ row.released = false ∧ row ≠ pn := by
  have hrows : (s.release pn).numbers.rows =
      s.numbers.rows.map fun old =>
        if old.id = pn.id then { pn with released := true } else old := rfl
  have hsame {old : SandboxPhoneNumber} (hold : old ∈ s.numbers.rows) (hid : old.id = pn.id) :
      old = pn := List.inj_on_of_nodup_map s.numbers.nodup hold hpn hid
  rw [hrows]
  constructor
  · intro ⟨hmem, hunreleased⟩
    obtain ⟨old, hold, rfl⟩ := List.mem_map.mp hmem
    split at hunreleased
    · cases hunreleased
    · next hid =>
      rw [if_neg hid]
      exact ⟨hold, hunreleased, fun heq => hid (congrArg _ heq)⟩
  · intro ⟨hmem, hunreleased, hne⟩
    exact ⟨List.mem_map.mpr ⟨row, hmem, if_neg fun hid => hne (hsame hmem hid)⟩, hunreleased⟩

theorem exclusive_release_of {pn : SandboxPhoneNumber} (hs : Exclusive s)
    (hpn : pn ∈ s.numbers.rows) (h : Releasable s pn) : Exclusive (s.release pn) := by
  rw [exclusive_iff] at hs ⊢
  obtain ⟨hone, hreserved⟩ := hs
  refine ⟨fun row hrow other hother hunreleased hunreleased' => ?_, fun e164 hheld hpooled => ?_⟩
  · have hold := (mem_rows_release hpn).mp ⟨hrow, hunreleased⟩
    have hold' := (mem_rows_release hpn).mp ⟨hother, hunreleased'⟩
    exact hone row hold.1 other hold'.1 hunreleased hunreleased'
  · obtain ⟨row, hrow, hunreleased, rfl⟩ := hheld
    obtain ⟨hold, _, hne⟩ := (mem_rows_release hpn).mp ⟨hrow, hunreleased⟩
    have hheld : s.Held row.e164 := ⟨row, hold, hunreleased, rfl⟩
    refine mem_releaseConsumed.mpr ⟨hreserved _ hheld hpooled, fun hsame => ?_⟩
    rcases h with hpnunreleased | hfree | hoff
    · exact hne (hone row hold pn hpn hunreleased hpnunreleased hsame)
    · exact hfree (hsame ▸ hheld)
    · exact hoff (hsame ▸ hpooled)

theorem releasable_of_exclusive {pn : SandboxPhoneNumber} (hpn : pn ∈ s.numbers.rows)
    (hs : Exclusive (s.release pn)) : Releasable s pn := by
  by_contra hnot
  unfold Releasable at hnot
  push Not at hnot
  obtain ⟨hreleased, ⟨row, hrow, hunreleased, hsame⟩, hpooled⟩ := hnot
  have hne : row ≠ pn := fun heq => hreleased (heq ▸ hunreleased)
  have hkept := (mem_rows_release hpn).mpr ⟨hrow, hunreleased, hne⟩
  have hmem := ((exclusive_iff _).mp hs).2 pn.e164 ⟨row, hkept.1, hkept.2, hsame⟩ hpooled
  exact (mem_releaseConsumed.mp hmem).2 rfl

/-- What a release by this condition finds may be released. -/
def ReleasableFound (s : State) (found : SandboxPhoneNumber → Bool) : Prop :=
  ∀ pn, scalarOneOrNone (s.numbers.rows.filter found) = some pn → Releasable s pn

theorem mem_of_scalarOneOrNone {found : SandboxPhoneNumber → Bool} {pn : SandboxPhoneNumber}
    (h : scalarOneOrNone (s.numbers.rows.filter found) = some pn) : pn ∈ s.numbers.rows := by
  unfold scalarOneOrNone at h
  split at h
  · next row hrows =>
    cases h
    have hmem : pn ∈ s.numbers.rows.filter found := by
      rw [hrows]
      exact List.mem_singleton_self _
    exact (List.mem_filter.mp hmem).1
  · cases h

theorem exclusive_releaseFound_of (found : SandboxPhoneNumber → Bool) (hs : Exclusive s)
    (h : ReleasableFound s found) : Exclusive (s.releaseFound found) := by
  unfold State.releaseFound
  split
  · exact hs
  · next pn hpn => exact exclusive_release_of hs (mem_of_scalarOneOrNone hpn) (h pn hpn)

theorem releasableFound_of_exclusive (found : SandboxPhoneNumber → Bool)
    (hs : Exclusive (s.releaseFound found)) : ReleasableFound s found := by
  intro pn hpn
  rw [State.releaseFound, hpn] at hs
  exact releasable_of_exclusive (mem_of_scalarOneOrNone hpn) hs

theorem exclusive_restart :
    Exclusive { s with consumed := [] } ↔
      (∀ row ∈ s.numbers.rows, ∀ other ∈ s.numbers.rows, row.released = false →
        other.released = false → row.e164 = other.e164 → row = other) ∧
      ∀ e164, s.Held e164 → ¬ pooled e164 := by
  rw [exclusive_iff]
  refine and_congr_right fun _ => forall₂_congr fun e164 _ => ?_
  exact ⟨fun h hpooled => List.not_mem_nil (h hpooled), fun h hpooled => absurd hpooled h⟩

/-- A number that is bought again by who has it only stays consumed. -/
theorem exclusive_marked (hs : Exclusive s) (e164 : String) :
    Exclusive { s with consumed := (markConsumed s.consumed e164).2 } := by
  rw [exclusive_iff] at hs ⊢
  exact ⟨hs.1, fun other hheld hpooled => mem_markConsumed.mpr (.inr (hs.2 other hheld hpooled))⟩

/-! ## Histories that keep numbers apart -/

/-- A number that is bought by its name is in no unreleased row, nor twice in an order; a row
is released once, or when nobody has its number; and no number of the pool is held at a
restart. -/
def Careful (s : State) : Event → Prop
  | .search _ => True
  | .twilioPurchase _ (some e164) _ => ¬ s.Held e164
  | .twilioPurchase _ none _ => True
  | .twilioRelease provider_id sid =>
    ReleasableFound s fun row => row.provider_id == provider_id && row.external_id == sid
  | .vonageBuy provider_id _ msisdn =>
    Vonage.owned s provider_id (plus msisdn) = true ∨ ¬ s.Held (plus msisdn)
  | .vonageCancel provider_id msisdn =>
    ReleasableFound s fun row => row.provider_id == provider_id && row.e164 == plus msisdn
  | .bandwidthOrder _ numbers => numbers.Nodup ∧ ∀ e164 ∈ numbers, ¬ s.Held e164
  | .bandwidthRelease provider_id tn =>
    ReleasableFound s fun row => row.provider_id == provider_id && row.e164 == northAmerican tn
  | .plivoBuy _ number => ¬ s.Held (plus number)
  | .plivoRelease provider_id number =>
    ReleasableFound s fun row => row.provider_id == provider_id && row.e164 == plus number
  | .telnyxOrder _ numbers =>
    (numbers.filter (· != "")).Nodup ∧ ∀ e164 ∈ numbers.filter (· != ""), ¬ s.Held e164
  | .telnyxDelete provider_id phone_number_id =>
    ReleasableFound s fun row =>
      row.provider_id == provider_id && row.external_id == phone_number_id
  | .restart => ∀ e164, s.Held e164 → ¬ pooled e164

theorem lookedUp_e164 (fields : NumberFields) : (s.lookedUp fields).e164 = fields.e164 := by
  unfold State.lookedUp
  split
  · rfl
  · rfl

theorem exclusive_purchase_lookedUp (fields : NumberFields) :
    Exclusive (s.purchase world (s.lookedUp fields)) ↔ Exclusive s ∧ ¬ s.Held fields.e164 := by
  rw [exclusive_purchase, lookedUp_e164]

theorem exclusive_step_of (hs : Exclusive s) (event : Event) (h : Careful s event) :
    Exclusive (s.step world event) := by
  cases event with
  | search search => exact hs
  | twilioPurchase provider_id phone_number area_code =>
    cases phone_number with
    | some e164 => exact (exclusive_purchase_lookedUp _).mpr ⟨hs, h⟩
    | none =>
      cases area_code with
      | none => exact hs
      | some area_code =>
        show Exclusive (Twilio.purchaseNumber world s provider_id none (some area_code))
        unfold Twilio.purchaseNumber
        split
        · next heq => cases heq
        · split
          · exact hs
          · next entry rest hfound =>
            refine (exclusive_purchase _).mpr ⟨hs, ?_⟩
            rintro ⟨row, hrow, hunreleased, hsame⟩
            exact hs.not_offered _ entry (hfound ▸ List.mem_cons_self ..) row hrow hunreleased hsame
        · exact hs
  | twilioRelease provider_id sid => exact exclusive_releaseFound_of _ hs h
  | vonageBuy provider_id country msisdn =>
    show Exclusive (Vonage.buyNumber world s provider_id country msisdn)
    dsimp only [Vonage.buyNumber]
    split
    · exact exclusive_marked hs _
    · next howned => exact (exclusive_purchase _).mpr ⟨hs, h.resolve_left howned⟩
  | vonageCancel provider_id msisdn => exact exclusive_releaseFound_of _ hs h
  | bandwidthOrder provider_id numbers =>
    exact (exclusive_order _ (fun _ _ => rfl) numbers).mpr ⟨hs, h⟩
  | bandwidthRelease provider_id tn => exact exclusive_releaseFound_of _ hs h
  | plivoBuy provider_id number => exact (exclusive_purchase_lookedUp _).mpr ⟨hs, h⟩
  | plivoRelease provider_id number => exact exclusive_releaseFound_of _ hs h
  | telnyxOrder provider_id numbers =>
    exact (exclusive_order _ (fun _ _ => rfl) _).mpr ⟨hs, h⟩
  | telnyxDelete provider_id phone_number_id => exact exclusive_releaseFound_of _ hs h
  | restart => exact exclusive_restart.mpr ⟨hs.one_row, h⟩

theorem careful_of_exclusive (event : Event) (hs : Exclusive (s.step world event)) :
    Careful s event := by
  cases event with
  | search search => trivial
  | twilioPurchase provider_id phone_number area_code =>
    cases phone_number with
    | some e164 => exact ((exclusive_purchase_lookedUp _).mp hs).2
    | none => trivial
  | twilioRelease provider_id sid => exact releasableFound_of_exclusive _ hs
  | vonageBuy provider_id country msisdn =>
    have hs : Exclusive (Vonage.buyNumber world s provider_id country msisdn) := hs
    dsimp only [Vonage.buyNumber] at hs
    split at hs
    · next howned => exact .inl howned
    · exact .inr ((exclusive_purchase _).mp hs).2
  | vonageCancel provider_id msisdn => exact releasableFound_of_exclusive _ hs
  | bandwidthOrder provider_id numbers =>
    exact ((exclusive_order _ (fun _ _ => rfl) numbers).mp hs).2
  | bandwidthRelease provider_id tn => exact releasableFound_of_exclusive _ hs
  | plivoBuy provider_id number => exact ((exclusive_purchase_lookedUp _).mp hs).2
  | plivoRelease provider_id number => exact releasableFound_of_exclusive _ hs
  | telnyxOrder provider_id numbers => exact ((exclusive_order _ (fun _ _ => rfl) _).mp hs).2
  | telnyxDelete provider_id phone_number_id => exact releasableFound_of_exclusive _ hs
  | restart => exact (exclusive_restart.mp hs).2

end

theorem exclusive_initial : Exclusive .initial :=
  ⟨fun _ h => (List.not_mem_nil h).elim, fun _ _ _ _ h => (List.not_mem_nil h).elim⟩

/-- Numbers are held apart all along just where every step is careful. -/
theorem numbers_exclusive_iff (world : World) (history : List Event) :
    (pool world).Always (fun _ s => Exclusive s) history ↔
      (pool world).EveryStep (fun _ s event => Careful s event) history := by
  have hinv : (pool world).Always (fun _ _ => True) history := fun _ _ => trivial
  refine Machine.always_iff_everyStep hinv exclusive_initial
    (fun pre event _ hs hcareful => ?_) fun pre event _ hs => ?_
  · rw [Machine.run_snoc]
    exact exclusive_step_of hs event hcareful
  · rw [Machine.run_snoc] at hs
    exact careful_of_exclusive event hs

/-- Ids by their length. -/
def World.plain : World where
  uuid := Dict.newKey
  fresh := Dict.newKey_not_mem
  sid := Dict.newKey

/-- Two accounts buy one number, one after the other. -/
theorem bought_twice :
    ¬ (pool .plain).Always (fun _ s => Exclusive s)
      [.plivoBuy "p" "14155550000", .bandwidthOrder "b" ["+14155550000"]] := by
  intro h
  have hend := h _ (List.prefix_refl _)
  have hcareful := careful_of_exclusive (.bandwidthOrder "b" ["+14155550000"]) hend
  have hheld : (State.initial.step .plain (.plivoBuy "p" "14155550000")).Held "+14155550000" := by
    refine (held_purchase _ _).mpr (.inr ?_)
    rw [lookedUp_e164]
    decide
  exact hcareful.2 _ (List.mem_singleton_self _) hheld

end MailCue.Backend.Sandbox.Numbers
