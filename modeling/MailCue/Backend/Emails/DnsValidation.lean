import MailCue.Backend.Emails.Syntax
import MailCue.Tunnel.Edge.Dns

/-!
# The DNS check of an address, and the null MX

backend/app/emails/validation.py, `validate_dns`. The resolver's answers to the four
lookups are arguments, with the order in which the lookups end; how its library writes a
name is a `Rendering`. The check and the edge's `resolve_mx` look at the same zones: they
agree that a domain takes no mail only where neither finds the root among the MX records.
-/
namespace MailCue.Backend.Emails
open MailCue.Lib

/-- How one lookup ends; any other exception is given by its text. -/
inductive DnsLookup (α : Type)
  | answers (rdata : List α)
  | noAnswer
  | nxdomain
  | failed (exc : Text)

namespace DnsLookup
variable {α : Type}

def rdata : DnsLookup α → List α
  | answers rdata => rdata
  | _ => []

def error? : DnsLookup α → Option Text
  | failed exc => some exc
  | _ => none

end DnsLookup

inductive RecordType
  | mx | ns | a | aaaa
  deriving DecidableEq

structure DnsAnswers where
  mx : DnsLookup (Nat × Name)
  ns : DnsLookup Name
  a : DnsLookup Text
  aaaa : DnsLookup Text
  /-- The lookups run side by side; this is the order in which they end. -/
  finished : List RecordType

def DnsAnswers.errors (answers : DnsAnswers) : List Text :=
  answers.finished.filterMap fun
    | .mx => answers.mx.error?
    | .ns => answers.ns.error?
    | .a => answers.a.error?
    | .aaaa => answers.aaaa.error?

inductive DnsStatus
  | valid | invalid | undetermined
  deriving DecidableEq

structure EmailValidationDns where
  is_valid : Bool
  has_mx : Bool
  has_ns : Bool
  has_a : Bool
  has_aaaa : Bool
  null_mx : Bool
  mx_records : List Text
  ns_records : List Text
  a_records : List Text
  aaaa_records : List Text
  status : DnsStatus
  error_code : Option String
  error : Option Text
  deriving DecidableEq

/-- The order of the pairs: by preference, then by name. -/
def recordLe (r s : Nat × Text) : Bool :=
  r.1 < s.1 || (r.1 == s.1 && !decide (String.ofList s.2 < String.ofList r.2))

/-- The exchanges that are not the root, in order. -/
def mxRecords (toText : Rendering) (rdata : List (Nat × Name)) : List (Nat × Text) :=
  (rdata.filterMap fun r =>
    let raw_exchange := toText.text r.2
    if raw_exchange = ['.'] then none
    else
      let exchange := stripDots raw_exchange
      if exchange = [] then none else some (r.1, exchange)).mergeSort recordLe

def nsRecords (toText : Rendering) (rdata : List Name) : List Text :=
  (rdata.map fun target => stripDots (toText.text target)).filter (· ≠ [])

def addressRecords (rdata : List Text) : List Text := rdata.filter (· ≠ [])

/-- A record `.` among the answers. -/
def hasNullMx (toText : Rendering) (rdata : List (Nat × Name)) : Bool :=
  rdata.any fun r => toText.text r.2 = ['.']

/-- The status with its code and message. -/
def dnsVerdict (null_mx is_valid : Bool) (errors : List Text) :
    DnsStatus × Option String × Option Text :=
  let status := if is_valid then .valid else .invalid
  if null_mx then
    (status, some "null_mx",
      some "Domain publishes a null MX and does not accept email".toList)
  else if is_valid then (status, none, none)
  else
    match errors with
    | first :: _ =>
      (.undetermined, some "dns_temporary_failure",
        some ("DNS lookup temporarily failed: ".toList ++ first))
    | [] =>
      (status, some "no_mail_route",
        some "No MX, A, or AAAA records found; domain cannot receive mail".toList)

/-- The IDNA form, or the domain itself where it has none. -/
def asciiDomain (py : Python) (domain : Text) : Text :=
  (py.idna.encode domain).toOption.getD domain

def validateDns (py : Python) (toText : Rendering) (resolve : Text → DnsAnswers)
    (domain : Text) : EmailValidationDns :=
  let answers := resolve (asciiDomain py domain)
  let null_mx := hasNullMx toText answers.mx.rdata
  let mx_records := mxRecords toText answers.mx.rdata
  let ns_records := nsRecords toText answers.ns.rdata
  let a_records := addressRecords answers.a.rdata
  let aaaa_records := addressRecords answers.aaaa.rdata
  let has_mx := !mx_records.isEmpty
  let has_a := !a_records.isEmpty
  let has_aaaa := !aaaa_records.isEmpty
  let is_valid := !null_mx && (has_mx || has_a || has_aaaa)
  let verdict := dnsVerdict null_mx is_valid answers.errors
  { is_valid, has_mx, has_ns := !ns_records.isEmpty, has_a, has_aaaa, null_mx
    mx_records := mx_records.map fun r => (toString r.1).toList ++ ' ' :: r.2 ++ ['.']
    ns_records := ns_records.map (· ++ ['.'])
    a_records, aaaa_records
    status := verdict.1
    error_code := verdict.2.1
    error := verdict.2.2 }

/-! ## Null MX -/

theorem hasNullMx_iff (toText : Rendering) (rdata : List (Nat × Name)) :
    hasNullMx toText rdata = true ↔ ∃ r ∈ rdata, r.2 = [] := by
  simp [hasNullMx, toText.text_eq_dot_iff]

theorem validateDns_null_mx (py : Python) (toText : Rendering) (resolve : Text → DnsAnswers)
    (domain : Text) : (validateDns py toText resolve domain).null_mx = true ↔
      ∃ r ∈ (resolve (asciiDomain py domain)).mx.rdata, r.2 = [] :=
  hasNullMx_iff toText _

/-- A null MX is a definitive failure, whatever the other lookups give. -/
theorem null_mx_invalid {py : Python} {toText : Rendering} {resolve : Text → DnsAnswers}
    {domain : Text} (h : (validateDns py toText resolve domain).null_mx = true) :
    (validateDns py toText resolve domain).is_valid = false ∧
      (validateDns py toText resolve domain).status = .invalid ∧
      (validateDns py toText resolve domain).error_code = some "null_mx" := by
  have hnull : hasNullMx toText
      (resolve (asciiDomain py domain)).mx.rdata = true := h
  unfold validateDns
  dsimp only
  rw [hnull]
  exact ⟨rfl, rfl, rfl⟩

/-- The backend's resolver returns the records of the zone, where it does not fail. -/
def ServesMx (zone : Tunnel.Edge.Dns.Zone) : DnsLookup (Nat × Name) → Prop
  | .answers rdata => rdata.Perm (zone.map fun r => (r.1.toNat, r.2))
  | .noAnswer => zone = []
  | .nxdomain => zone = []
  | .failed _ => True

theorem ServesMx.named {zone : Tunnel.Edge.Dns.Zone} {answer : DnsLookup (Nat × Name)}
    (hserves : ServesMx zone answer) (h : ∀ r ∈ zone, r.2 ≠ []) :
    ∀ r ∈ answer.rdata, r.2 ≠ [] := by
  intro r hr
  cases answer with
  | answers rdata =>
    obtain ⟨s, hs, rfl⟩ := List.mem_map.mp (List.Perm.subset hserves hr)
    exact h s hs
  | noAnswer => cases hr
  | nxdomain => cases hr
  | failed exc => cases hr

/-- Where the check reports a null MX, the edge connects nowhere for the domain. -/
def AgreeOnNullMx (toText toUtf8 : Rendering) (zone : Tunnel.Edge.Dns.Zone)
    (domain : String) : Prop :=
  ∀ (py : Python) (resolve : Text → DnsAnswers) (lookup : Tunnel.Edge.Dns.Lookup),
    ServesMx zone (resolve (asciiDomain py domain.toList)).mx → Tunnel.Edge.Dns.Serves zone lookup →
    (validateDns py toText resolve domain.toList).null_mx = true →
      Tunnel.Edge.Dns.NoSession (Tunnel.Edge.Dns.resolveMx toUtf8 lookup domain) domain

/-- The root among the records is reported, and the edge connects somewhere all the same. -/
theorem AgreeOnNullMx.named {toText toUtf8 : Rendering} {zone : Tunnel.Edge.Dns.Zone}
    {rcpt domain : String} (hrcpt : Tunnel.Edge.isValidMailbox rcpt = true)
    (hdomain : Tunnel.Edge.domainOf rcpt = some domain)
    (hagree : AgreeOnNullMx toText toUtf8 zone domain) : ∀ r ∈ zone, r.2 ≠ [] := by
  intro r hr hroot
  let answers : DnsAnswers :=
    ⟨.answers (zone.map fun r => (r.1.toNat, r.2)), .noAnswer, .noAnswer, .noAnswer, []⟩
  let py : Python := ⟨.asciiOnly, ⟨fun text => .ok text, fun _ _ _ h => (Except.ok.inj h).symm⟩⟩
  have hnull : (validateDns py toText (fun _ => answers) domain.toList).null_mx = true :=
    (validateDns_null_mx _ _ _ _).mpr ⟨_, List.mem_map_of_mem hr, hroot⟩
  obtain ⟨mx, rest, hmxs⟩ := Tunnel.Edge.Dns.resolveMx_answerOf toUtf8 zone domain
  have hsession := hagree py (fun _ => answers) _ (.refl _)
    (Tunnel.Edge.Dns.serves_answerOf zone) hnull
  rw [Tunnel.Edge.Dns.noSession_iff hrcpt hdomain] at hsession
  exact List.cons_ne_nil _ _ (hsession _ hmxs)

/-- Where no record names the root no null MX is reported. -/
theorem agreeOnNullMx_of_named (toText toUtf8 : Rendering) {zone : Tunnel.Edge.Dns.Zone}
    (domain : String) (h : ∀ r ∈ zone, r.2 ≠ []) : AgreeOnNullMx toText toUtf8 zone domain := by
  intro py resolve lookup hserves _ hnull
  obtain ⟨r, hr, hroot⟩ := (validateDns_null_mx _ _ _ _).mp hnull
  exact absurd hroot (hserves.named h r hr)

/-- On the domain of an address the edge accepts: the edge follows the rules of MX
resolution exactly where the domain has no MX record or one that names a host, and agrees
with the check too exactly where no record names the root. -/
theorem null_mx_respected_iff (toText toUtf8 : Rendering) (zone : Tunnel.Edge.Dns.Zone)
    {rcpt domain : String} (hrcpt : Tunnel.Edge.isValidMailbox rcpt = true)
    (hdomain : Tunnel.Edge.domainOf rcpt = some domain) :
    (Tunnel.Edge.Dns.FollowsMx toUtf8 zone domain ↔ zone = [] ∨ ∃ r ∈ zone, r.2 ≠ []) ∧
    (Tunnel.Edge.Dns.FollowsMx toUtf8 zone domain ∧ AgreeOnNullMx toText toUtf8 zone domain ↔
      ∀ r ∈ zone, r.2 ≠ []) := by
  refine ⟨Tunnel.Edge.Dns.followsMx_iff toUtf8 zone domain, ?_⟩
  rw [Tunnel.Edge.Dns.followsMx_iff]
  constructor
  · rintro ⟨-, hagree⟩
    exact hagree.named hrcpt hdomain
  · intro hnamed
    refine ⟨?_, agreeOnNullMx_of_named toText toUtf8 domain hnamed⟩
    cases zone with
    | nil => exact .inl rfl
    | cons r rest => exact .inr ⟨r, List.mem_cons_self, hnamed r List.mem_cons_self⟩

section Cases
open Tunnel.Edge Tunnel.Edge.Dns

/-- `mx.org`. -/
def mxOrg : Name := [⟨"mx".toUTF8.toList, by decide +kernel⟩, ⟨"org".toUTF8.toList, by decide +kernel⟩]

theorem null_mx_respected_mxOrg :
    FollowsMx .plain [(10, mxOrg)] "nomail.org" ∧
      AgreeOnNullMx .plain .plain [(10, mxOrg)] "nomail.org" :=
  (@null_mx_respected_iff .plain .plain [(10, mxOrg)] "a@nomail.org" "nomail.org"
    (by decide +kernel) (by decide +kernel)).2.mpr (by decide +kernel)

/-- The domain publishes a null MX alone, the check reports it, and the edge connects to
the domain itself; next to another host it is passed over, while the check still reports it. -/
theorem null_mx_connected :
    let answers (zone : Zone) : DnsAnswers :=
      ⟨.answers (zone.map fun r => (r.1.toNat, r.2)), .noAnswer, .noAnswer, .noAnswer, []⟩
    let py : Python := ⟨.asciiOnly, ⟨fun text => .ok text, fun _ _ _ h => (Except.ok.inj h).symm⟩⟩
    let world (zone : Zone) : World :=
      ⟨fun domain => resolveMx .plain (answerOf zone) domain, fun _ _ => .error "refused"⟩
    let sessions (zone : Zone) : List String :=
      (handleRelay .default (world zone) "" "" ["a@nomail.org"] [] .default).2.map (·.mx_host)
    (validateDns py .plain (fun _ => answers [(0, [])]) "nomail.org".toList).null_mx = true ∧
    sessions [(0, [])] = ["nomail.org"] ∧ ¬ FollowsMx .plain [(0, [])] "nomail.org" ∧
    (validateDns py .plain (fun _ => answers [(0, []), (10, mxOrg)]) "nomail.org".toList).null_mx
      = true ∧
    sessions [(0, []), (10, mxOrg)] = ["mx.org"] := by
  refine ⟨by decide +kernel, by decide +kernel, ?_, by decide +kernel, by decide +kernel⟩
  rw [followsMx_iff]
  decide +kernel

end Cases

end MailCue.Backend.Emails
