import Mathlib.Data.List.Sort
import MailCue.Lib.DomainName
import MailCue.Tunnel.Edge.Failover

/-!
# MX resolution

`MxResolver::resolve_mx` of tunnel/crates/edge/src/dns.rs. The resolver library's answer
is an argument: the records of the answer section, or an error, of which the one for no
records is told apart. How the library writes a name is a `Rendering`.
-/
namespace MailCue.Tunnel.Edge.Dns
open MailCue.Lib MailCue.Tunnel.Proto

/-- What `resolve_mx` distinguishes of a record. -/
inductive RData where
  | mx (preference : UInt16) (exchange : Name)
  | other
  deriving DecidableEq

inductive NetError where
  | noRecordsFound
  | other (message : String)
  deriving DecidableEq

abbrev Lookup := Except NetError (List RData)

/-- The domain itself, RFC 5321 §5.1. -/
def implicitMx (domain : String) : List MxRecord := [⟨trimEndDots domain, 0⟩]

def exchangeHost (toUtf8 : Rendering) (exchange : Name) : String :=
  trimEndDots (String.ofList (toUtf8.text exchange))

def mxRecord? (toUtf8 : Rendering) : RData → Option MxRecord
  | .mx preference exchange => some ⟨exchangeHost toUtf8 exchange, preference⟩
  | .other => none

/-- `sort_by_key`, which is stable. -/
def byPreference (out : List MxRecord) : List MxRecord :=
  out.mergeSort fun a b => decide (a.preference ≤ b.preference)

def resolveMx (toUtf8 : Rendering) (lookup : Lookup) (domain : String) :
    Except String (List MxRecord) :=
  match lookup with
  | .error .noRecordsFound => .ok (implicitMx domain)
  | .error (.other message) => .error message
  | .ok answers =>
    let out := byPreference <|
      (answers.filterMap (mxRecord? toUtf8)).filter fun r => !r.host.isEmpty && r.host ≠ "."
    if out = [] then .ok (implicitMx domain) else .ok out

/-! ## Zones -/

/-- The MX records of a domain: preference and exchange. -/
abbrev Zone := List (UInt16 × Name)

def mxOf (answers : List RData) : Zone :=
  answers.filterMap fun
    | .mx preference exchange => some (preference, exchange)
    | .other => none

/-- The resolver returns the records of the zone, where it does not fail. -/
def Serves (zone : Zone) : Lookup → Prop
  | .ok answers => (mxOf answers).Perm zone
  | .error .noRecordsFound => zone = []
  | .error (.other _) => True

/-- The records that name a host. -/
def hosts (toUtf8 : Rendering) (zone : Zone) : List MxRecord :=
  (zone.filter fun r => r.2 ≠ []).map fun r => ⟨exchangeHost toUtf8 r.2, r.1⟩

theorem hosts_eq_nil_iff {toUtf8 : Rendering} {zone : Zone} :
    hosts toUtf8 zone = [] ↔ ∀ r ∈ zone, r.2 = [] := by
  simp [hosts]

theorem exchangeHost_toList (toUtf8 : Rendering) (exchange : Name) :
    (exchangeHost toUtf8 exchange).toList = stripDots (toUtf8.text exchange) := by
  rw [exchangeHost, trimEndDots, String.toList_ofList, String.toList_ofList]
  rfl

theorem exchangeHost_isEmpty (toUtf8 : Rendering) (exchange : Name) :
    (exchangeHost toUtf8 exchange).isEmpty = decide (exchange = []) := by
  rw [Bool.eq_iff_iff, decide_eq_true_iff, ← toUtf8.strip_eq_nil_iff exchange,
    ← exchangeHost_toList, String.isEmpty_iff, String.toList_eq_nil_iff]

theorem exchangeHost_ne_dot (toUtf8 : Rendering) (exchange : Name) :
    exchangeHost toUtf8 exchange ≠ "." := by
  intro h
  refine Rendering.strip_ne_dot (toUtf8.text exchange) ?_
  rw [← exchangeHost_toList, h]
  rfl

/-- The filter drops the records of the root and no others. -/
theorem filter_records (toUtf8 : Rendering) (answers : List RData) :
    ((answers.filterMap (mxRecord? toUtf8)).filter fun r => !r.host.isEmpty && r.host ≠ ".")
      = hosts toUtf8 (mxOf answers) := by
  induction answers with
  | nil => rfl
  | cons r rest ih =>
    cases r with
    | other => exact ih
    | mx preference exchange =>
      have hkeep : (!(exchangeHost toUtf8 exchange).isEmpty &&
          decide (exchangeHost toUtf8 exchange ≠ ".")) = decide (exchange ≠ []) := by
        rw [exchangeHost_isEmpty, decide_eq_true (exchangeHost_ne_dot toUtf8 exchange)]
        simp
      by_cases hroot : exchange = []
      · subst hroot
        simp only [List.filterMap_cons, mxRecord?, List.filter_cons, hkeep]
        exact ih
      · simp only [List.filterMap_cons, mxRecord?, List.filter_cons, hkeep]
        rw [if_pos (decide_eq_true hroot), ih]
        simp [hosts, mxOf, hroot]

theorem byPreference_perm (out : List MxRecord) : (byPreference out).Perm out :=
  List.mergeSort_perm _ _

theorem byPreference_pairwise (out : List MxRecord) :
    (byPreference out).Pairwise fun a b => a.preference ≤ b.preference := by
  have htrans : ∀ a b c : MxRecord, decide (a.preference ≤ b.preference) →
      decide (b.preference ≤ c.preference) → decide (a.preference ≤ c.preference) := by
    intro a b c hab hbc
    exact decide_eq_true (UInt16.le_trans (of_decide_eq_true hab) (of_decide_eq_true hbc))
  have htotal : ∀ a b : MxRecord,
      (decide (a.preference ≤ b.preference) || decide (b.preference ≤ a.preference)) = true := by
    intro a b
    rcases UInt16.le_total a.preference b.preference with hle | hle <;> simp [hle]
  exact (List.pairwise_mergeSort htrans htotal out).imp fun hab => of_decide_eq_true hab

theorem perm_hosts (toUtf8 : Rendering) {zone zone' : Zone} (h : zone.Perm zone') :
    (hosts toUtf8 zone).Perm (hosts toUtf8 zone') :=
  (h.filter _).map _

/-- What is returned for a zone: its hosts by preference, or the domain where it has none. -/
theorem resolveMx_of_serves {toUtf8 : Rendering} {zone : Zone} {lookup : Lookup}
    {domain : String} {mxs : List MxRecord} (hserves : Serves zone lookup)
    (h : resolveMx toUtf8 lookup domain = .ok mxs) :
    (mxs.Pairwise fun a b => a.preference ≤ b.preference) ∧
      (hosts toUtf8 zone = [] ∧ mxs = implicitMx domain ∨
        hosts toUtf8 zone ≠ [] ∧ mxs.Perm (hosts toUtf8 zone)) := by
  have himplicit : (implicitMx domain).Pairwise fun a b => a.preference ≤ b.preference :=
    List.pairwise_singleton _ _
  match lookup, hserves, h with
  | .error .noRecordsFound, hzone, h =>
    cases h
    have hzone : zone = [] := hzone
    subst hzone
    exact ⟨himplicit, .inl ⟨rfl, rfl⟩⟩
  | .ok answers, hperm, h =>
    have hhosts := perm_hosts toUtf8 hperm
    rw [resolveMx, filter_records] at h
    have hout := byPreference_perm (hosts toUtf8 (mxOf answers))
    split at h
    · rename_i hnil
      cases h
      rw [hnil] at hout
      exact ⟨himplicit, .inl ⟨(hout.trans hhosts).nil_eq.symm, rfl⟩⟩
    · rename_i hne
      cases h
      refine ⟨byPreference_pairwise _, .inr ⟨fun hnil => hne ?_, hout.trans hhosts⟩⟩
      rw [hnil] at hhosts
      exact (hout.trans hhosts).eq_nil

/-! ## Sessions for a domain -/

/-- With this answer for the domain no request of the edge connects anywhere for it. -/
def NoSession (answer : Except String (List MxRecord)) (domain : String) : Prop :=
  ∀ (cfg : EdgeConfig) (world : World) (helo_name envelope_from : String)
    (recipients : List String) (raw_message : Bytes) (opts : RelayOpts),
    world.resolveMx domain = answer →
      ∀ d ∈ (handleRelay cfg world helo_name envelope_from recipients raw_message opts).2,
        ∀ rcpt ∈ d.recipients, domainOf rcpt ≠ some domain

/-- A domain is connected for exactly where a host is offered for it. -/
theorem noSession_iff {answer : Except String (List MxRecord)} {rcpt domain : String}
    (hrcpt : isValidMailbox rcpt = true) (hdomain : domainOf rcpt = some domain) :
    NoSession answer domain ↔ ∀ mxs, answer = .ok mxs → mxs = [] := by
  constructor
  · rintro hnone mxs rfl
    cases mxs with
    | nil => rfl
    | cons mx rest =>
      have haccepted : rejectRelay .default "" [rcpt] [] = none := by
        simp [rejectRelay, isValidMailboxOrEmpty, hrcpt, EdgeConfig.default]
      obtain ⟨d, hd, hasked, -⟩ := @handleRelay_connects .default
        ⟨fun _ => .ok (mx :: rest), fun _ _ => .error ""⟩ "" "" [rcpt] [] .default rcpt domain mx
        rest haccepted (by decide) (List.mem_singleton_self rcpt) hdomain rfl
      exact absurd hdomain (hnone _ _ _ _ _ _ _ rfl d hd rcpt hasked)
  · rintro hanswer cfg world helo_name envelope_from recipients raw_message opts hworld d hd rcpt hmem
      hsame
    obtain ⟨-, domain', mxs, mx, group_rcpts, hmxs, hmx, -, rfl, hgroup⟩ := mem_handleRelay hd
    have hother := (hgroup rcpt hmem).2
    obtain rfl : domain = domain' := Option.some.inj (hsame.symm.trans hother)
    rw [hanswer mxs (hworld.symm.trans hmxs)] at hmx
    cases hmx

/-! ## The rules of MX resolution -/

/-- The answers for a zone: the implicit host only where there is no MX record, the hosts
by preference, and no session where the records name no host. -/
structure FollowsMx (toUtf8 : Rendering) (zone : Zone) (domain : String) : Prop where
  offered : ∀ lookup mxs, Serves zone lookup → resolveMx toUtf8 lookup domain = .ok mxs →
    zone = [] ∧ mxs = implicitMx domain ∨ zone ≠ [] ∧ mxs.Perm (hosts toUtf8 zone)
  sorted : ∀ lookup mxs, Serves zone lookup → resolveMx toUtf8 lookup domain = .ok mxs →
    mxs.Pairwise fun a b => a.preference ≤ b.preference
  null : zone ≠ [] → (∀ r ∈ zone, r.2 = []) → ∀ lookup, Serves zone lookup →
    NoSession (resolveMx toUtf8 lookup domain) domain

/-- The answer with every record of the zone. -/
def answerOf (zone : Zone) : Lookup := .ok (zone.map fun r => .mx r.1 r.2)

theorem serves_answerOf (zone : Zone) : Serves zone (answerOf zone) := by
  have hsame : mxOf (zone.map fun r => RData.mx r.1 r.2) = zone := by
    rw [mxOf, List.filterMap_map]
    exact List.filterMap_some
  exact .of_eq hsame

/-- Resolution never comes back empty. -/
theorem resolveMx_answerOf (toUtf8 : Rendering) (zone : Zone) (domain : String) :
    ∃ mx rest, resolveMx toUtf8 (answerOf zone) domain = .ok (mx :: rest) := by
  unfold resolveMx answerOf
  dsimp only
  split
  · exact ⟨_, [], rfl⟩
  · rename_i hne
    obtain ⟨mx, rest, hout⟩ := List.exists_cons_of_ne_nil hne
    exact ⟨mx, rest, congrArg Except.ok hout⟩

theorem followsMx_iff (toUtf8 : Rendering) (zone : Zone) (domain : String) :
    FollowsMx toUtf8 zone domain ↔ (zone = [] ∨ ∃ r ∈ zone, r.2 ≠ []) := by
  constructor
  · intro hfollows
    by_contra hnull
    simp only [not_or, not_exists, not_and, not_not] at hnull
    obtain ⟨hzone, hroots⟩ := hnull
    obtain ⟨mx, rest, hmxs⟩ := resolveMx_answerOf toUtf8 zone domain
    rcases hfollows.offered _ _ (serves_answerOf zone) hmxs with ⟨hnil, -⟩ | ⟨-, hperm⟩
    · exact hzone hnil
    · rw [hosts_eq_nil_iff.mpr hroots] at hperm
      exact List.cons_ne_nil _ _ hperm.eq_nil
  · intro hcond
    refine ⟨fun lookup mxs hserves h => ?_, fun lookup mxs hserves h =>
      (resolveMx_of_serves hserves h).1, fun hzone hroots => ?_⟩
    · rcases (resolveMx_of_serves hserves h).2 with ⟨hnil, himplicit⟩ | ⟨hsome, hperm⟩
      · refine .inl ⟨hcond.resolve_right fun ⟨r, hr, hnamed⟩ => hnamed ?_, himplicit⟩
        exact hosts_eq_nil_iff.mp hnil r hr
      · refine .inr ⟨?_, hperm⟩
        rintro rfl
        exact hsome rfl
    · obtain ⟨r, hr, hnamed⟩ := hcond.resolve_left hzone
      exact absurd (hroots r hr) hnamed

end MailCue.Tunnel.Edge.Dns
