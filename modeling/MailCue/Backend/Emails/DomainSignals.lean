import MailCue.Backend.Emails.SmtpReply
import MailCue.Lib.Dict
import MailCue.Lib.Json
import MailCue.Lib.Pattern
import MailCue.Lib.Transition
import MailCue.Lib.Utf8

/-!
# Passive signals of a recipient domain

backend/app/emails/domain_signals.py, with the resolver of dns_resolver.py. Risks are in
tenths. Decoded bytes, the text of a JSON value and the reading of a timestamp are
parameters.
-/
namespace MailCue.Backend.Emails.Signals
open MailCue.Lib

def PARKING_NAMESERVERS : List String :=
  ["sedoparking.com", "parkingcrew.net", "bodis.com", "above.com", "afternic.com", "dan.com",
    "undeveloped.com", "sav.com", "parklogic.com", "parkingpanel.com", "voodoo.com",
    "domaincntrol.com", "fabulous.com"]

def BACKEND_SPF_HINTS : List (String × String) :=
  [("spf.protection.outlook.com", "microsoft365"),
    ("protection.office365.us", "microsoft365"),
    ("_spf.google.com", "google_workspace"),
    ("spf.zoho.com", "zoho"),
    ("spf.messagingengine.com", "fastmail"),
    ("_spf.protonmail.ch", "proton"),
    ("spf.mail.yandex.net", "yandex"),
    ("amazonses.com", "amazon_workmail")]

/-- The time on the clock in microseconds, and what it is ahead of UTC. -/
structure Datetime where
  clock : Int
  utcoffset : Option Int
  deriving DecidableEq

def Datetime.instant (d : Datetime) : Int := d.clock - d.utcoffset.getD 0

/-- `timedelta.days` of a difference in microseconds. -/
def days (micros : Int) : Int := micros / 86400000000

structure World where
  py : PyText
  /-- Letters that `re.IGNORECASE` takes for one. -/
  same : Char → Char → Bool
  /-- `bytes.decode("utf-8", errors="replace")` -/
  decode : Bytes → Text
  /-- `str` of a value that is not one. -/
  str : Json → Text
  fromisoformat : Text → Option Datetime
  validation_rdap_enabled : Bool

def World.lower (world : World) : Text → Text := world.py.lowering.lower

def World.startswith (world : World) (opening : String) (record : Text) : Bool :=
  opening.toList.isPrefixOf (world.lower record)

structure DomainSignals where
  domain : Text
  age_days : Option Int := none
  registered_at : Option Datetime := none
  expires_at : Option Datetime := none
  expires_in_days : Option Int := none
  has_spf : Bool := false
  spf_record : Option Text := none
  has_dmarc : Bool := false
  dmarc_policy : Option Text := none
  has_mta_sts : Bool := false
  has_tls_rpt : Bool := false
  wildcard_dns : Bool := false
  parked : Bool := false
  inferred_backend : Option String := none
  risk_delta : Int := 0
  notes : List String := []

/-! ## Lookups -/

inductive ResolverError
  | noAnswer
  | nxdomain
  | noNameservers
  /-- A timeout, or anything else. -/
  | other
  deriving DecidableEq

inductive Outcome (α : Type)
  | answers (rdata : List α)
  | raised (error : ResolverError)
  /-- Not back before the time of the whole collection is up. -/
  | hanging

/-- `resolve`: nothing that is raised gets out. -/
def resolve {α : Type} : Outcome α → List α
  | .answers rdata => rdata
  | .raised _ => []
  | .hanging => []

structure TxtRdata where
  strings : List Bytes
  /-- `str(rdata)` -/
  shown : Text

def resolveTxt (world : World) (outcome : Outcome TxtRdata) : List Text :=
  (resolve outcome).map fun rdata =>
    if rdata.strings.isEmpty then Text.strip (· == '"') rdata.shown
    else world.decode rdata.strings.flatten

inductive RdapOutcome
  /-- With the JSON of the body, if it is any. -/
  | response (status_code : Nat) (json : Option Json)
  | raised
  | hanging

/-- `value.get(name)` of a dictionary: the last field of a name counts. -/
def member (fields : Json.Fields) (name : String) : Option Json := Dict.get fields.reverse name

/-- `payload.get("events", []) or []`; nothing where that raises or cannot be iterated as
dictionaries. -/
def rdapEvents : Json → Option (List Json)
  | .obj fields =>
    match member fields "events" with
    | none => some []
    | some (.arr events) => some events
    | some .null => some []
    | some (.bool false) => some []
    | some (.num 0) => some []
    | some (.str []) => some []
    | some (.obj []) => some []
    | some _ => none
  | _ => none

def parseRdapTimestamp (world : World) (value : Text) : Option Datetime :=
  let text := Text.strip Text.isSpace value
  let text := if text.getLast? = some 'Z' then text.dropLast ++ "+00:00".toList else text
  (world.fromisoformat text).map fun parsed =>
    if parsed.utcoffset = none then { parsed with utcoffset := some 0 } else parsed

abbrev Dates := Option Datetime × Option Datetime

/-- One event; nothing where it is no dictionary. -/
def readEvent (world : World) (dates : Dates) : Json → Option Dates
  | .obj fields =>
    let action := match member fields "eventAction" with
      | none => []
      | some (.str s) => s
      | some value => world.str value
    match member fields "eventDate" with
    | some (.str stamp) =>
      match parseRdapTimestamp world stamp with
      | none => some dates
      | some parsed =>
        if world.lower action = "registration".toList ∧ dates.1 = none then
          some (some parsed, dates.2)
        else if world.lower action = "expiration".toList ∧ dates.2 = none then
          some (dates.1, some parsed)
        else some dates
    | _ => some dates
  | _ => none

/-- `_fetch_rdap`; nothing where it raises. -/
def fetchRdap (world : World) (outcome : RdapOutcome) : Option Dates :=
  if world.validation_rdap_enabled then
    match outcome with
    | .response status_code json =>
      if status_code = 200 then
        match json with
        | none => some (none, none)
        | some payload => do
          let events ← rdapEvents payload
          events.foldlM (readEvent world) (none, none)
      else some (none, none)
    | .raised => some (none, none)
    | .hanging => some (none, none)
  else some (none, none)

/-! ## Collection -/

/-- What the lookups of a domain come to. -/
structure Evidence where
  spf : Outcome TxtRdata
  dmarc : Outcome TxtRdata
  mta_sts : Outcome TxtRdata
  tls_rpt : Outcome TxtRdata
  /-- The targets. -/
  ns : Outcome Text
  /-- The addresses of a name that nobody registers. -/
  wildcard : Outcome Text
  rdap : RdapOutcome

def Outcome.hangs {α : Type} : Outcome α → Bool
  | .hanging => true
  | _ => false

def RdapOutcome.hangs : RdapOutcome → Bool
  | .hanging => true
  | _ => false

def Evidence.hangs (world : World) (evidence : Evidence) : Bool :=
  evidence.spf.hangs || evidence.dmarc.hangs || evidence.mta_sts.hangs || evidence.tls_rpt.hangs ||
    evidence.ns.hangs || evidence.wildcard.hangs ||
    (world.validation_rdap_enabled && evidence.rdap.hangs)

def DomainSignals.readSpf (world : World) (signals : DomainSignals) (spf_txt : List Text) :
    DomainSignals :=
  match spf_txt.find? (world.startswith "v=spf1") with
  | none => signals
  | some record =>
    let found := BACKEND_SPF_HINTS.find? fun hint =>
      Text.contains (world.lower record) hint.1.toList
    { signals with
      has_spf := true
      spf_record := some (record.take 512)
      inferred_backend := found.map Prod.snd }

/-- `\bp\s*=\s*(none|quarantine|reject)\b` -/
def dmarcPolicyPattern (world : World) : Pattern :=
  .sequence [.boundary, .word world.same "p".toList, .run Text.isSpace, .one (· == '='),
    .run Text.isSpace,
    .group 1 (.oneOf (["none", "quarantine", "reject"].map fun policy =>
      .word world.same policy.toList)),
    .boundary]

def DomainSignals.readDmarc (world : World) (signals : DomainSignals) (dmarc_txt : List Text) :
    DomainSignals :=
  match dmarc_txt.find? (world.startswith "v=dmarc1") with
  | none => signals
  | some record =>
    let found := (dmarcPolicyPattern world).search world.py.isWord record
    { signals with
      has_dmarc := true
      dmarc_policy := (found.bind (·.group 1)).map world.lower }

def isParked (world : World) (ns_answers : List Text) : Bool :=
  ns_answers.any fun target =>
    PARKING_NAMESERVERS.any fun parking =>
      let ns := world.lower (target.rdropWhile (· == '.'))
      parking.toList.isSuffixOf ns || ns == parking.toList

def ageDelta : Option Int → Int
  | none => 0
  | some age_days =>
    if age_days < 30 then 14
    else if age_days < 180 then 6
    else if age_days > 3650 then -2
    else 0

def expiryDelta : Option Int → Int
  | none => 0
  | some expires_in_days => if expires_in_days < 30 then 8 else 0

/-- `delta` of `_score`. -/
def DomainSignals.delta (signals : DomainSignals) : Int :=
  (if signals.parked then 25 else 0) + ageDelta signals.age_days +
    expiryDelta signals.expires_in_days + (if signals.has_spf then 0 else 6) +
    (if signals.wildcard_dns && !signals.has_dmarc then 3 else 0)

def ageNotes : Option Int → List String
  | none => []
  | some age_days =>
    if age_days < 30 then [s!"Domain was registered {age_days} days ago."]
    else if age_days < 180 then [s!"Domain is {age_days} days old."]
    else if age_days > 3650 then ["Domain has been registered for over ten years."]
    else []

def expiryNotes : Option Int → List String
  | none => []
  | some expires_in_days =>
    if expires_in_days < 30 then [s!"Domain registration expires in {expires_in_days} days."]
    else []

/-- `notes` of `_score`. -/
def DomainSignals.remarks (signals : DomainSignals) : List String :=
  (if signals.parked then ["Domain uses parking nameservers."] else []) ++
    ageNotes signals.age_days ++ expiryNotes signals.expires_in_days ++
    (if signals.has_spf then [] else ["Domain publishes no SPF record."]) ++
    (if signals.has_dmarc then ["Domain publishes DMARC."] else []) ++
    (if signals.has_mta_sts then ["Domain publishes MTA-STS."] else []) ++
    (if signals.wildcard_dns && !signals.has_dmarc then ["Domain resolves wildcard hostnames."]
      else []) ++
    match signals.inferred_backend with
    | none => []
    | some backend => [s!"SPF indicates a {backend} mailbox backend."]

def DomainSignals.score (signals : DomainSignals) : DomainSignals :=
  { signals with risk_delta := signals.delta, notes := signals.remarks }

def DomainSignals.readDates (signals : DomainSignals) (dates : Dates) (now : Int) :
    DomainSignals :=
  { signals with
    registered_at := dates.1
    expires_at := dates.2
    age_days := dates.1.map fun registered => max (days (now - registered.instant)) 0
    expires_in_days := dates.2.map fun expires => days (expires.instant - now) }

/-- Before `_score`. -/
def gathered (world : World) (domain : Text) (evidence : Evidence) (dates : Dates) (now : Int) :
    DomainSignals :=
  let signals : DomainSignals := { domain }
  let signals := signals.readSpf world (resolveTxt world evidence.spf)
  let signals := signals.readDmarc world (resolveTxt world evidence.dmarc)
  let signals :=
    { signals with
      has_mta_sts := (resolveTxt world evidence.mta_sts).any (world.startswith "v=stsv1")
      has_tls_rpt := (resolveTxt world evidence.tls_rpt).any (world.startswith "v=tlsrptv1")
      wildcard_dns := !(resolve evidence.wildcard).isEmpty
      parked := isParked world (resolve evidence.ns) }
  signals.readDates dates now

/-- `_collect` in the time it has; nothing where it raises or its time is up. -/
def collect (world : World) (domain : Text) (evidence : Evidence) (now : Int) :
    Option DomainSignals :=
  if evidence.hangs world then none
  else (fetchRdap world evidence.rdap).map fun dates =>
    (gathered world domain evidence dates now).score

/-- What an answer is made of: the default where there is nothing. -/
def collected (world : World) (domain : Text) (evidence : Evidence) (now : Int) : DomainSignals :=
  (collect world domain evidence now).getD { domain }

/-! ## The cache -/

/-- Nanoseconds. -/
def CACHE_TTL : Int := 3600 * 10 ^ 9
def CACHE_MAX_ENTRIES : Nat := 4096

/-- A call that is collecting. -/
structure Task where
  key : Text
  started : Int

structure State (α : Type) where
  cache : List (Text × Int × α) := []
  tasks : List Task := []
  /-- Every answer given. -/
  served : List α := []

inductive Event
  | call (domain : Text) (now : Int)
  /-- The collection of a task ends, at this time of the day. -/
  | finish (task : Nat) (evidence : Evidence) (now : Int)
  | cancel (task : Nat)
  | clear_cache

/-- `_cache.get(key)`, where it has not expired. -/
def fresh {α : Type} (cache : List (Text × Int × α)) (key : Text) (now : Int) : Option α :=
  match Dict.get cache key with
  | some (expires, signals) => if expires > now then some signals else none
  | none => none

def stored {α : Type} (cache : List (Text × Int × α)) (task : Task) (signals : α) :
    List (Text × Int × α) :=
  Dict.set (if cache.length ≥ CACHE_MAX_ENTRIES then [] else cache) task.key
    (task.started + CACHE_TTL, signals)

section
variable {α : Type} (world : World) (unknown : Text → α) (answer : Text → Evidence → Int → α)

/-- `collect_domain_signals`, up to the collection. -/
def State.call (s : State α) (domain : Text) (now : Int) : State α :=
  let key := world.lower (Text.strip Text.isSpace domain)
  if key.isEmpty then { s with served := s.served ++ [unknown key] }
  else
    match fresh s.cache key now with
    | some signals => { s with served := s.served ++ [signals] }
    | none => { s with tasks := s.tasks ++ [{ key, started := now }] }

/-- The rest of it. -/
def State.finish (s : State α) (i : Nat) (evidence : Evidence) (now : Int) : State α :=
  match s.tasks[i]? with
  | none => s
  | some task =>
    let signals := answer task.key evidence now
    { cache := stored s.cache task signals
      tasks := s.tasks.eraseIdx i
      served := s.served ++ [signals] }

def State.step (s : State α) : Event → State α
  | .call domain now => s.call world unknown domain now
  | .finish i evidence now => s.finish answer i evidence now
  | .cancel i => { s with tasks := s.tasks.eraseIdx i }
  | .clear_cache => { s with cache := [] }

/-- Calls in any order, for answers of any kind. -/
def service : Machine (State α) Event where
  start := {}
  step := State.step world unknown answer

end

/-- Calls of `collect_domain_signals`. -/
def collectDomainSignals (world : World) : Machine (State DomainSignals) Event :=
  service world (fun domain => { domain }) (collected world)

/-! ## Failures are no evidence -/

/-- What a lookup tells: nothing where it fails. -/
def Outcome.known {α : Type} : Outcome α → Option (List α)
  | .answers rdata => some rdata
  | .raised .noAnswer => some []
  | .raised .nxdomain => some []
  | .raised .noNameservers => none
  | .raised .other => none
  | .hanging => none

def Outcome.Failed {α : Type} (outcome : Outcome α) : Prop := outcome.known = none

instance {α : Type} (outcome : Outcome α) : Decidable outcome.Failed :=
  decidable_of_iff (outcome.known.isNone = true) Option.isNone_iff_eq_none

theorem resolve_eq {α : Type} (outcome : Outcome α) : resolve outcome = outcome.known.getD [] := by
  cases outcome with
  | answers rdata => rfl
  | raised error => cases error <;> rfl
  | hanging => rfl

/-- Some record of a TXT lookup opens like this. -/
def publishes (world : World) (opening : String) (outcome : Outcome TxtRdata) : Bool :=
  (resolveTxt world outcome).any (world.startswith opening)

def wildcardFound (evidence : Evidence) : Bool := !(resolve evidence.wildcard).isEmpty

/-- The dates of a lookup that tells any. -/
def registration (world : World) (evidence : Evidence) (now : Int) : DomainSignals :=
  let dates := (fetchRdap world evidence.rdap).getD (none, none)
  DomainSignals.readDates { domain := [] } dates now

/-- Risk of the dates and the nameservers. -/
def registrationDelta (world : World) (evidence : Evidence) (now : Int) : Int :=
  (if isParked world (resolve evidence.ns) then 25 else 0) +
    ageDelta (registration world evidence now).age_days +
    expiryDelta (registration world evidence now).expires_in_days

/-- The risk where a rule counts only if no lookup that it reads failed. -/
def provenDelta (world : World) (evidence : Evidence) (now : Int) : Int :=
  registrationDelta world evidence now +
    (if ¬ evidence.spf.Failed ∧ publishes world "v=spf1" evidence.spf = false then 6 else 0) +
    (if wildcardFound evidence = true ∧ ¬ evidence.dmarc.Failed ∧
      publishes world "v=dmarc1" evidence.dmarc = false then 3 else 0)

/-- `collectDomainSignals`, with that risk for an answer. -/
def provenRisks (world : World) : Machine (State Int) Event :=
  service world (fun _ => 0) fun _ => provenDelta world

section
variable {world : World} {evidence : Evidence} {domain : Text} {dates : Dates} {now : Int}

theorem not_publishes_of_failed {outcome : Outcome TxtRdata} (h : outcome.Failed)
    (opening : String) : publishes world opening outcome = false := by
  have hnone : resolve outcome = [] := by
    rw [resolve_eq, h]
    rfl
  unfold publishes resolveTxt
  rw [hnone]
  rfl

theorem has_spf_readSpf (signals : DomainSignals) (spf_txt : List Text) :
    (signals.readSpf world spf_txt).has_spf =
      (signals.has_spf || spf_txt.any (world.startswith "v=spf1")) := by
  rw [← List.isSome_find?]
  unfold DomainSignals.readSpf
  cases spf_txt.find? (world.startswith "v=spf1") with
  | none => exact (Bool.or_false _).symm
  | some record => exact (Bool.or_true _).symm

theorem has_dmarc_readDmarc (signals : DomainSignals) (dmarc_txt : List Text) :
    (signals.readDmarc world dmarc_txt).has_dmarc =
      (signals.has_dmarc || dmarc_txt.any (world.startswith "v=dmarc1")) := by
  rw [← List.isSome_find?]
  unfold DomainSignals.readDmarc
  cases dmarc_txt.find? (world.startswith "v=dmarc1") with
  | none => exact (Bool.or_false _).symm
  | some record => exact (Bool.or_true _).symm

@[simp] theorem has_dmarc_readSpf (signals : DomainSignals) (spf_txt : List Text) :
    (signals.readSpf world spf_txt).has_dmarc = signals.has_dmarc := by
  unfold DomainSignals.readSpf
  split <;> rfl

@[simp] theorem has_spf_readDmarc (signals : DomainSignals) (dmarc_txt : List Text) :
    (signals.readDmarc world dmarc_txt).has_spf = signals.has_spf := by
  unfold DomainSignals.readDmarc
  split <;> rfl

theorem has_spf_gathered (domain : Text) (dates : Dates) (now : Int) :
    (gathered world domain evidence dates now).has_spf = publishes world "v=spf1" evidence.spf := by
  show ((_ : DomainSignals).readDmarc world _).has_spf = _
  rw [has_spf_readDmarc, has_spf_readSpf]
  rfl

theorem has_dmarc_gathered (domain : Text) (dates : Dates) (now : Int) :
    (gathered world domain evidence dates now).has_dmarc =
      publishes world "v=dmarc1" evidence.dmarc := by
  show ((_ : DomainSignals).readDmarc world _).has_dmarc = _
  rw [has_dmarc_readDmarc, has_dmarc_readSpf]
  rfl

/-- The SPF record and the DMARC record are what a failure takes away. -/
theorem delta_gathered (hdates : fetchRdap world evidence.rdap = some dates) :
    (gathered world domain evidence dates now).delta =
      registrationDelta world evidence now +
        (if publishes world "v=spf1" evidence.spf = false then 6 else 0) +
        (if wildcardFound evidence = true ∧ publishes world "v=dmarc1" evidence.dmarc = false then 3
          else 0) := by
  have hknown : registration world evidence now =
      DomainSignals.readDates { domain := [] } dates now := by
    rw [registration, hdates]
    rfl
  have hparked : (gathered world domain evidence dates now).parked =
      isParked world (resolve evidence.ns) := rfl
  have hwildcard : (gathered world domain evidence dates now).wildcard_dns =
      wildcardFound evidence := rfl
  unfold DomainSignals.delta
  rw [has_spf_gathered, has_dmarc_gathered, hparked, hwildcard, registrationDelta, hknown]
  congr 1
  · cases publishes world "v=spf1" evidence.spf <;> rfl
  · cases wildcardFound evidence <;> cases publishes world "v=dmarc1" evidence.dmarc <;> rfl

/-- No SPF lookup that failed, and no DMARC lookup where a wildcard is found. -/
def Telling (evidence : Evidence) : Prop :=
  ¬ evidence.spf.Failed ∧ ¬ (evidence.dmarc.Failed ∧ wildcardFound evidence = true)

theorem delta_gathered_eq_iff (hdates : fetchRdap world evidence.rdap = some dates) :
    (gathered world domain evidence dates now).delta = provenDelta world evidence now ↔
      Telling evidence := by
  rw [delta_gathered hdates]
  unfold provenDelta Telling
  by_cases hspf : evidence.spf.Failed
  · have hle : (if wildcardFound evidence = true ∧ ¬ evidence.dmarc.Failed ∧
        publishes world "v=dmarc1" evidence.dmarc = false then 3 else 0 : Int) ≤
        if wildcardFound evidence = true ∧ publishes world "v=dmarc1" evidence.dmarc = false then 3
        else 0 := by
      split
      · next h => rw [if_pos ⟨h.1, h.2.2⟩]
      · split <;> decide
    have hcounted : ¬ (¬ evidence.spf.Failed ∧ publishes world "v=spf1" evidence.spf = false) :=
      fun h => h.1 hspf
    rw [if_pos (not_publishes_of_failed hspf _), if_neg hcounted]
    refine iff_of_false (fun heq => ?_) fun h => h.1 hspf
    omega
  · simp only [hspf, not_false_eq_true, true_and]
    by_cases hdmarc : evidence.dmarc.Failed
    · simp [hdmarc, not_publishes_of_failed hdmarc]
    · simp [hdmarc]

/-- No rule counts. -/
structure Quiet (world : World) (evidence : Evidence) (now : Int) : Prop where
  not_parked : isParked world (resolve evidence.ns) = false
  age : ageDelta (registration world evidence now).age_days = 0
  expiry : expiryDelta (registration world evidence now).expires_in_days = 0
  spf : evidence.spf.Failed ∨ publishes world "v=spf1" evidence.spf = true
  wildcard : wildcardFound evidence = true → evidence.dmarc.Failed ∨
    publishes world "v=dmarc1" evidence.dmarc = true

theorem ageDelta_mem (age_days : Option Int) : ageDelta age_days ∈ [0, 14, 6, -2] := by
  unfold ageDelta
  repeat' split
  all_goals decide

theorem expiryDelta_mem (expires_in_days : Option Int) : expiryDelta expires_in_days ∈ [0, 8] := by
  unfold expiryDelta
  repeat' split
  all_goals decide

/-- The only rule that lowers the risk lowers it by less than any other raises it. -/
theorem rules_eq_zero_iff {parked age expiry spf wildcard : Int}
    (hparked : parked = 25 ∨ parked = 0) (hage : age ∈ [0, 14, 6, -2])
    (hexpiry : expiry ∈ [0, 8]) (hspf : spf = 6 ∨ spf = 0)
    (hwildcard : wildcard = 3 ∨ wildcard = 0) :
    parked + age + expiry + spf + wildcard = 0 ↔
      parked = 0 ∧ age = 0 ∧ expiry = 0 ∧ spf = 0 ∧ wildcard = 0 := by
  simp only [List.mem_cons, List.not_mem_nil, or_false] at hage hexpiry
  omega

theorem provenDelta_eq_zero_iff :
    provenDelta world evidence now = 0 ↔ Quiet world evidence now := by
  unfold provenDelta registrationDelta
  rw [rules_eq_zero_iff (ite_eq_or_eq ..) (ageDelta_mem _) (expiryDelta_mem _) (ite_eq_or_eq ..)
    (ite_eq_or_eq ..)]
  simp only [ite_eq_right_iff]
  constructor
  · intro ⟨hparked, hage, hexpiry, hspf, hwildcard⟩
    refine ⟨?_, hage, hexpiry, ?_, fun hfound => ?_⟩
    · exact Bool.eq_false_iff.mpr fun h => absurd (hparked h) (by decide)
    · by_contra hnot
      rw [not_or, Bool.not_eq_true] at hnot
      exact absurd (hspf hnot) (by decide)
    · by_contra hnot
      rw [not_or, Bool.not_eq_true] at hnot
      exact absurd (hwildcard ⟨hfound, hnot⟩) (by decide)
  · intro h
    refine ⟨fun hparked => ?_, h.age, h.expiry, fun hspf => ?_, fun hwildcard => ?_⟩
    · rw [h.not_parked] at hparked
      cases hparked
    · rcases h.spf with hfailed | hpublished
      · exact absurd hfailed hspf.1
      · cases hpublished.symm.trans hspf.2
    · rcases h.wildcard hwildcard.1 with hfailed | hpublished
      · exact absurd hfailed hwildcard.2.1
      · cases hpublished.symm.trans hwildcard.2.2

/-- The failures that a collection does not count: where it comes to nothing as a whole, nothing
that it found would count, and else there are none that a rule reads. -/
def Uncounted (world : World) (evidence : Evidence) (now : Int) : Prop :=
  if evidence.hangs world = true ∨ fetchRdap world evidence.rdap = none then
    Quiet world evidence now
  else Telling evidence

theorem risk_collected_iff :
    (collected world domain evidence now).risk_delta = provenDelta world evidence now ↔
      Uncounted world evidence now := by
  unfold collected collect Uncounted
  split
  · next hhangs => rw [if_pos (.inl hhangs), ← provenDelta_eq_zero_iff, eq_comm]; rfl
  · next hhangs =>
    cases hdates : fetchRdap world evidence.rdap with
    | none => rw [if_pos (.inr rfl), ← provenDelta_eq_zero_iff, eq_comm]; rfl
    | some dates =>
      rw [if_neg (not_or.mpr ⟨hhangs, Option.some_ne_none dates⟩)]
      exact delta_gathered_eq_iff hdates

end

/-! ## Answers of another kind -/

section Map
variable {α β : Type} (f : α → β)

def State.map (s : State α) : State β where
  cache := s.cache.map (Prod.map id (Prod.map id f))
  tasks := s.tasks
  served := s.served.map f

theorem fresh_map (cache : List (Text × Int × α)) (key : Text) (now : Int) :
    fresh (cache.map (Prod.map id (Prod.map id f))) key now = (fresh cache key now).map f := by
  unfold fresh
  rw [Dict.get_map]
  cases Dict.get cache key with
  | none => rfl
  | some entry =>
    dsimp only [Option.map_some, Prod.map, id]
    by_cases h : entry.1 > now
    · rw [if_pos h, if_pos h]
      rfl
    · rw [if_neg h, if_neg h]
      rfl

theorem stored_map (cache : List (Text × Int × α)) (task : Task) (signals : α) :
    stored (cache.map (Prod.map id (Prod.map id f))) task (f signals) =
      (stored cache task signals).map (Prod.map id (Prod.map id f)) := by
  unfold stored
  rw [← Dict.set_map, List.length_map]
  split <;> rfl

variable (world : World) (unknown : Text → α) (answer : Text → Evidence → Int → α)

theorem map_call (s : State α) (domain : Text) (now : Int) :
    (s.call world unknown domain now).map f =
      (s.map f).call world (fun key => f (unknown key)) domain now := by
  unfold State.call
  dsimp only
  have hfresh := fresh_map f s.cache (world.lower (Text.strip Text.isSpace domain)) now
  split
  · simp [State.map]
  · show _ = match fresh (s.cache.map (Prod.map id (Prod.map id f))) _ now with
      | some signals => _
      | none => _
    rw [hfresh]
    cases fresh s.cache (world.lower (Text.strip Text.isSpace domain)) now with
    | none => rfl
    | some signals => simp [State.map]

theorem map_finish (s : State α) (i : Nat) (evidence : Evidence) (now : Int) :
    (s.finish answer i evidence now).map f =
      (s.map f).finish (fun key evidence now => f (answer key evidence now)) i evidence now := by
  unfold State.finish
  show _ = match s.tasks[i]? with
    | none => _
    | some task => _
  cases s.tasks[i]? with
  | none => rfl
  | some task => simp [State.map, stored_map]

theorem map_step (s : State α) (event : Event) :
    (s.step world unknown answer event).map f =
      (s.map f).step world (fun key => f (unknown key))
        (fun key evidence now => f (answer key evidence now)) event := by
  cases event with
  | call domain now => exact map_call f world unknown s domain now
  | finish i evidence now => exact map_finish f answer s i evidence now
  | cancel i => rfl
  | clear_cache => rfl

/-- What is answered has no influence on which calls collect. -/
theorem map_run (history : List Event) :
    ((service world unknown answer).run history).map f =
      (service world (fun key => f (unknown key))
        fun key evidence now => f (answer key evidence now)).run history := by
  induction history using List.reverseRecOn with
  | nil => rfl
  | append_singleton history event ih =>
    rw [Machine.run_snoc, Machine.run_snoc, ← ih]
    exact map_step f world unknown answer _ event

end Map

theorem tasks_eq (world : World) (history : List Event) :
    ((collectDomainSignals world).run history).tasks = ((provenRisks world).run history).tasks :=
  congrArg State.tasks ((map_run (fun _ => ()) world _ _ history).trans
    (map_run (fun _ => ()) world _ _ history).symm)

/-! ## Every answer, from the cache or not -/

/-- A collection that ends counts no failure. -/
def CountsNone (world : World) (s : State DomainSignals) : Event → Prop
  | .finish i evidence now => i < s.tasks.length → Uncounted world evidence now
  | _ => True

theorem finish_of_task {α : Type} {s : State α} {i : Nat} {task : Task}
    (h : s.tasks[i]? = some task) (answer : Text → Evidence → Int → α) (evidence : Evidence)
    (now : Int) :
    s.finish answer i evidence now =
      { cache := stored s.cache task (answer task.key evidence now)
        tasks := s.tasks.eraseIdx i
        served := s.served ++ [answer task.key evidence now] } := by
  rw [State.finish, h]

theorem finish_of_none {α : Type} {s : State α} {i : Nat} (h : s.tasks[i]? = none)
    (answer : Text → Evidence → Int → α) (evidence : Evidence) (now : Int) :
    s.finish answer i evidence now = s := by
  rw [State.finish, h]

theorem step_eq_of_countsNone {world : World} {s : State DomainSignals} {event : Event}
    (h : CountsNone world s event) :
    ((collectDomainSignals world).step s event).map (·.risk_delta) =
      (provenRisks world).step (s.map (·.risk_delta)) event := by
  refine (map_step (·.risk_delta) world _ _ s event).trans ?_
  cases event with
  | call domain now => rfl
  | cancel i => rfl
  | clear_cache => rfl
  | finish i evidence now =>
    unfold provenRisks service
    dsimp only [State.step]
    have hsame : (s.map (·.risk_delta)).tasks = s.tasks := rfl
    cases htask : s.tasks[i]? with
    | none => rw [finish_of_none (hsame ▸ htask), finish_of_none (hsame ▸ htask)]
    | some task =>
      have hrisk : (collected world task.key evidence now).risk_delta =
          provenDelta world evidence now :=
        risk_collected_iff.mpr (h (List.getElem?_eq_some_iff.mp htask).1)
      rw [finish_of_task (hsame ▸ htask), finish_of_task (hsame ▸ htask), hrisk]

/-- Answered and cached risks are the proven ones all along just where no collection counts a
failure. -/
theorem risks_proven_iff (world : World) (history : List Event) :
    (collectDomainSignals world).Always
        (fun pre s => s.map (·.risk_delta) = (provenRisks world).run pre) history ↔
      (collectDomainSignals world).EveryStep (fun _ s event => CountsNone world s event)
        history := by
  have hinv : (collectDomainSignals world).Always
      (fun pre s => s.tasks = ((provenRisks world).run pre).tasks) history :=
    fun pre _ => tasks_eq world pre
  refine Machine.always_iff_everyStep hinv rfl (fun pre event _ hs hcounts => ?_)
    fun pre event htasks hs => ?_
  · rw [Machine.run_snoc, Machine.run_snoc, ← hs]
    exact step_eq_of_countsNone hcounts
  · cases event with
    | call domain now => trivial
    | cancel i => trivial
    | clear_cache => trivial
    | finish i evidence now =>
      intro hi
      obtain ⟨task, htask⟩ : ∃ task, ((collectDomainSignals world).run pre).tasks[i]? = some task :=
        ⟨_, List.getElem?_eq_getElem hi⟩
      have hproven := htask
      rw [htasks] at hproven
      rw [Machine.run_snoc, Machine.run_snoc] at hs
      have hserved := congrArg State.served hs
      change (State.finish _ _ i evidence now).served.map _ =
        (State.finish _ _ i evidence now).served at hserved
      rw [finish_of_task htask, finish_of_task hproven, List.map_append] at hserved
      have hlast := (List.append_inj' hserved rfl).2
      exact risk_collected_iff.mp (List.singleton_inj.mp hlast)

/-- Nothing but the resolver of the SPF record fails. -/
def unreachableSpf : Evidence where
  spf := .raised .noNameservers
  dmarc := .raised .nxdomain
  mta_sts := .raised .nxdomain
  tls_rpt := .raised .nxdomain
  ns := .raised .noAnswer
  wildcard := .raised .nxdomain
  rdap := .response 404 none

def World.plain : World where
  py := .asciiOnly
  same := fun c d => c.toLower == d.toLower
  decode := fun bytes => bytes.map fun b => Char.ofNat b.toNat
  str := fun _ => []
  fromisoformat := fun _ => none
  validation_rdap_enabled := true

/-- A failed lookup raises the risk. -/
theorem failure_counted :
    ¬ (collectDomainSignals .plain).Always
      (fun pre s => s.map (·.risk_delta) = (provenRisks .plain).run pre)
      [.call "a.example".toList 0, .finish 0 unreachableSpf 0] := by
  intro h
  have hserved := congrArg State.served (h _ (List.prefix_refl _))
  revert hserved
  decide

end MailCue.Backend.Emails.Signals
