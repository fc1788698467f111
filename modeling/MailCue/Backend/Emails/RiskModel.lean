import Mathlib
import MailCue.Backend.Emails.MxProviders
import MailCue.Lib.Elementary
import MailCue.Lib.Rounding

/-!
# The hard-bounce risk of an accept-all recipient

backend/app/emails/risk_model.py, compute_risk, with the priors of
mx_providers.py. The arithmetic is exact, over any ordered field with an
exponential and a logarithm; counts are what a query counted.
-/
namespace MailCue.Backend.Emails.RiskModel
open MailCue.Lib MailCue.Lib.Elementary MailCue.Lib.Rounding

/-! ## Providers -/

section Providers
variable (K : Type*) [Field K] [LinearOrder K]

/-- What the scoring reads of a provider; the prior is a probability. -/
structure MxProfile where
  id : String
  name : String
  accept_all_bounce_prior : K
  prior_nonneg : 0 ≤ accept_all_bounce_prior := by norm_num
  prior_le_one : accept_all_bounce_prior ≤ 1 := by norm_num

variable [IsStrictOrderedRing K]

def UNKNOWN_PROVIDER : MxProfile K :=
  { id := "unknown", name := "Unknown", accept_all_bounce_prior := 14 / 100 }

def NO_MX_PROVIDER : MxProfile K :=
  { id := "no_mx", name := "No mail route", accept_all_bounce_prior := 90 / 100 }

def selfHostedProvider : MxProfile K :=
  { id := "self_hosted", name := "Self-hosted", accept_all_bounce_prior := 15 / 100 }

def profiles : List (MxProfile K) :=
  [{ id := "microsoft365", name := "Microsoft 365", accept_all_bounce_prior := 16 / 100 },
    { id := "google_workspace", name := "Google Workspace", accept_all_bounce_prior := 14 / 100 },
    { id := "outlook_consumer", name := "Outlook.com", accept_all_bounce_prior := 25 / 100 },
    { id := "proofpoint", name := "Proofpoint", accept_all_bounce_prior := 16 / 100 },
    { id := "mimecast", name := "Mimecast", accept_all_bounce_prior := 16 / 100 },
    { id := "barracuda", name := "Barracuda", accept_all_bounce_prior := 16 / 100 },
    { id := "cisco_ironport", name := "Cisco Secure Email", accept_all_bounce_prior := 16 / 100 },
    { id := "messagelabs", name := "Broadcom Email Security", accept_all_bounce_prior := 16 / 100 },
    { id := "forcepoint", name := "Forcepoint", accept_all_bounce_prior := 16 / 100 },
    { id := "sophos", name := "Sophos Email", accept_all_bounce_prior := 16 / 100 },
    { id := "trend_micro", name := "Trend Micro Email Security", accept_all_bounce_prior := 16 / 100 },
    { id := "hornetsecurity", name := "Hornetsecurity", accept_all_bounce_prior := 16 / 100 },
    { id := "retarus", name := "Retarus", accept_all_bounce_prior := 16 / 100 },
    { id := "spamexperts", name := "N-able SpamExperts", accept_all_bounce_prior := 17 / 100 },
    { id := "cloudflare_area1", name := "Cloudflare Email Security", accept_all_bounce_prior := 15 / 100 },
    { id := "fortinet", name := "FortiMail", accept_all_bounce_prior := 16 / 100 },
    { id := "zoho", name := "Zoho Mail", accept_all_bounce_prior := 14 / 100 },
    { id := "fastmail", name := "Fastmail", accept_all_bounce_prior := 12 / 100 },
    { id := "proton", name := "Proton Mail", accept_all_bounce_prior := 13 / 100 },
    { id := "migadu", name := "Migadu", accept_all_bounce_prior := 13 / 100 },
    { id := "mxroute", name := "MXroute", accept_all_bounce_prior := 13 / 100 },
    { id := "rackspace", name := "Rackspace Email", accept_all_bounce_prior := 14 / 100 },
    { id := "godaddy", name := "GoDaddy", accept_all_bounce_prior := 14 / 100 },
    { id := "namecheap", name := "Namecheap Private Email", accept_all_bounce_prior := 14 / 100 },
    { id := "ionos", name := "IONOS", accept_all_bounce_prior := 14 / 100 },
    { id := "ovh", name := "OVH", accept_all_bounce_prior := 14 / 100 },
    { id := "hostinger", name := "Hostinger", accept_all_bounce_prior := 14 / 100 },
    { id := "titan", name := "Titan", accept_all_bounce_prior := 14 / 100 },
    { id := "amazon_workmail", name := "Amazon WorkMail", accept_all_bounce_prior := 14 / 100 },
    { id := "yandex", name := "Yandex 360", accept_all_bounce_prior := 15 / 100 },
    { id := "gmail_consumer", name := "Gmail", accept_all_bounce_prior := 25 / 100 },
    { id := "yahoo", name := "Yahoo Mail", accept_all_bounce_prior := 25 / 100 },
    { id := "icloud", name := "iCloud Mail", accept_all_bounce_prior := 25 / 100 },
    { id := "gmx", name := "GMX / Web.de", accept_all_bounce_prior := 24 / 100 },
    { id := "mailru", name := "Mail.ru", accept_all_bounce_prior := 24 / 100 },
    { id := "qq", name := "Tencent QQ Mail", accept_all_bounce_prior := 24 / 100 },
    { id := "netease", name := "NetEase Mail", accept_all_bounce_prior := 24 / 100 },
    { id := "parked", name := "Parked domain", accept_all_bounce_prior := 85 / 100 }]

theorem profiles_ids : (profiles K).map (·.id) = PROVIDERS.map (·.id) := rfl

end Providers

/-! ## Evidence -/

inductive RiskLevel
  | low | medium | high | unknown
  deriving DecidableEq, Repr

inductive RiskAction
  | send | caution | hold
  deriving DecidableEq, Repr

inductive RiskSource
  | no_history | exact_history | domain_history | shared_domain_history | provider_history
  | provider_prior
  deriving DecidableEq, Repr

structure ObservationCounts where
  delivered : Nat := 0
  hard_bounce : Nat := 0
  soft_bounce : Nat := 0
  tenants : Nat := 0
  deriving DecidableEq, Repr

namespace ObservationCounts

def decisive (counts : ObservationCounts) : Nat := counts.delivered + counts.hard_bounce

def oneMoreDelivery (counts : ObservationCounts) : ObservationCounts :=
  { counts with delivered := counts.delivered + 1 }

def oneMoreHardBounce (counts : ObservationCounts) : ObservationCounts :=
  { counts with hard_bounce := counts.hard_bounce + 1 }

end ObservationCounts

section Model
variable {K : Type*}

structure ProbeEvidence (K : Type*) where
  control_total : Nat := 0
  control_rejected : Nat := 0
  target_latency_ms : Option K := none
  control_median_latency_ms : Option K := none
  sender_reputation_signal : Bool := false

def ProbeEvidence.selective (probe : ProbeEvidence K) : Bool := 0 < probe.control_rejected

structure RiskContribution (K : Type*) where
  label : String
  delta : K
  detail : String := ""

structure RiskAssessment (K : Type*) where
  score : K
  level : RiskLevel
  recommended_action : RiskAction
  source : RiskSource
  sample_size : Nat
  explanation : String
  base_rate : K
  provider_id : Option String
  provider_rate : Option K
  confidence : K
  contributions : List (RiskContribution K)

variable [Field K] [LinearOrder K]

/-- The keyword arguments of `compute_risk`; `None` for a tally is the empty one. -/
structure RiskInput (K : Type*) [Field K] [LinearOrder K] where
  provider : MxProfile K
  provider_counts : ObservationCounts := {}
  domain_counts : ObservationCounts := {}
  domain_counts_shared : Bool := false
  local_part_delta : K := 0
  local_part_notes : List String := []
  domain_signal_delta : K := 0
  domain_signal_notes : List String := []
  probe : Option (ProbeEvidence K) := none

/-! ## The model -/

def PROVIDER_PRIOR_STRENGTH : K := 25
def DOMAIN_PRIOR_STRENGTH : K := 15
def SEND_THRESHOLD : K := 4 / 100
def HOLD_THRESHOLD : K := 10 / 100
def TIMING_LOOKUP_OBSERVED : K := -(18 / 10)
def TIMING_NO_LOOKUP : K := 12 / 10
def TIMING_RATIO : K := 18 / 10
def LOCAL_PART_SCALE : K := 1 / 2

def logit (functions : Functions K) (probability : K) : K :=
  let clamped := min (max probability (1 / 1000000)) (1 - 1 / 1000000)
  functions.logOdds clamped

def sigmoid (functions : Functions K) (value : K) : K := functions.logistic value

def pooledRate (counts : ObservationCounts) (prior_mean prior_strength : K) : K :=
  ((counts.hard_bounce : K) + prior_mean * prior_strength) /
    ((counts.decisive : K) + prior_strength)

def levelFor (score : K) : RiskLevel × RiskAction :=
  if score ≤ SEND_THRESHOLD then (.low, .send)
  else if HOLD_THRESHOLD ≤ score then (.high, .hold)
  else (.medium, .caution)

/-- `log_odds` and `contributions` as the function goes along. -/
structure Tally (K : Type*) where
  log_odds : K
  contributions : List (RiskContribution K) := []

variable [FloorRing K]

/-- `f"{ratio:.1f}"` of a ratio that is not negative. -/
def oneDecimal (ratio : K) : String :=
  let tenths := roundHalfEven (ratio * 10)
  s!"{tenths / 10}.{tenths % 10}"

def adjustSelective (probe : ProbeEvidence K) (tally : Tally K) : Tally K :=
  if probe.selective then
    let rejected_share : K := (probe.control_rejected : K) / (max probe.control_total 1 : Nat)
    let delta : K := -(12 / 10) - 6 / 10 * rejected_share
    { log_odds := tally.log_odds + delta
      contributions := tally.contributions ++
        [{ label := "probe_selective", delta := roundDigits 3 delta
           detail := s!"{probe.control_rejected} of {probe.control_total} control recipients were "
             ++ "rejected, so the destination validates recipients." }] }
  else tally

def adjustTiming (probe : ProbeEvidence K) (tally : Tally K) : Tally K :=
  match probe.target_latency_ms, probe.control_median_latency_ms with
  | some target, some control =>
    if 0 < control then
      let ratio := target / control
      if TIMING_RATIO ≤ ratio then
        { log_odds := tally.log_odds + TIMING_LOOKUP_OBSERVED
          contributions := tally.contributions ++
            [{ label := "probe_timing", delta := TIMING_LOOKUP_OBSERVED
               detail := s!"The target took {oneDecimal ratio} times longer to answer than the "
                 ++ "control recipients, so the destination looked this mailbox up rather than "
                 ++ "accepting blindly." }] }
      else
        { log_odds := tally.log_odds + TIMING_NO_LOOKUP
          contributions := tally.contributions ++
            [{ label := "probe_timing", delta := TIMING_NO_LOOKUP
               detail := "The target was answered as quickly as recipients known not to exist, "
                 ++ "so no mailbox lookup took place." }] }
    else tally
  | _, _ => tally

/-- The pull back toward the provider's prior. -/
def adjustReputation (functions : Functions K) (provider : MxProfile K) (probe : ProbeEvidence K)
    (tally : Tally K) : Tally K :=
  if probe.sender_reputation_signal then
    let pull := (logit functions provider.accept_all_bounce_prior - tally.log_odds) * (1 / 2)
    { log_odds := tally.log_odds + pull
      contributions := tally.contributions ++
        [{ label := "probe_reputation", delta := roundDigits 3 pull
           detail := "The destination reacted to the probing host's reputation, so its "
             ++ "responses are not evidence about this mailbox." }] }
  else tally

def adjustProbe (functions : Functions K) (provider : MxProfile K) :
    Option (ProbeEvidence K) → Tally K → Tally K
  | some probe, tally =>
    adjustReputation functions provider probe (adjustTiming probe (adjustSelective probe tally))
  | none, tally => tally

/-- `"; ".join(notes or []) or default`. -/
def notesOr (notes : List String) (default : String) : String :=
  let joined := "; ".intercalate notes
  if joined.isEmpty then default else joined

def adjustLocalPart (local_part_delta : K) (notes : List String) (tally : Tally K) : Tally K :=
  if local_part_delta ≠ 0 then
    let scaled := roundDigits 3 (local_part_delta * LOCAL_PART_SCALE)
    { log_odds := tally.log_odds + scaled
      contributions := tally.contributions ++
        [{ label := "local_part", delta := scaled
           detail := notesOr notes "Local-part shape adjustment." }] }
  else tally

def adjustDomainSignals (domain_signal_delta : K) (notes : List String) (tally : Tally K) :
    Tally K :=
  if domain_signal_delta ≠ 0 then
    { log_odds := tally.log_odds + domain_signal_delta
      contributions := tally.contributions ++
        [{ label := "domain_signals", delta := domain_signal_delta
           detail := notesOr notes "Passive domain signal adjustment." }] }
  else tally

def adjust (functions : Functions K) (input : RiskInput K) (tally : Tally K) : Tally K :=
  adjustDomainSignals input.domain_signal_delta input.domain_signal_notes
    (adjustLocalPart input.local_part_delta input.local_part_notes
      (adjustProbe functions input.provider input.probe tally))

def sourceOf (input : RiskInput K) : RiskSource × String :=
  if 0 < input.domain_counts.decisive then
    (if input.domain_counts_shared then .shared_domain_history else .domain_history,
      s!"Estimated from {input.domain_counts.decisive} observed outcomes at this domain, "
        ++ s!"anchored on {input.provider.name} behaviour.")
  else if 0 < input.provider_counts.decisive then
    (.provider_history, "No outcomes recorded for this domain. Estimated from "
      ++ s!"{input.provider_counts.decisive} outcomes across {input.provider.name} destinations.")
  else
    (.provider_prior,
      s!"No delivery history available. Estimated from the {input.provider.name} accept-all "
        ++ "prior, which reflects how that receiver handles unknown recipients.")

def providerRate (input : RiskInput K) : K :=
  pooledRate input.provider_counts input.provider.accept_all_bounce_prior PROVIDER_PRIOR_STRENGTH

def baseRate (input : RiskInput K) : K :=
  pooledRate input.domain_counts (providerRate input) DOMAIN_PRIOR_STRENGTH

def confidenceOf (input : RiskInput K) : K :=
  let evidence : K :=
    (input.domain_counts.decisive : K) + (min input.provider_counts.decisive 200 : Nat) / 10
  let confidence := min (35 / 100 + evidence / 60) (9 / 10)
  let confidence :=
    if (input.probe.map (·.sender_reputation_signal)).getD false then min confidence (35 / 100)
    else confidence
  if (sourceOf input).1 = .provider_prior then min confidence (45 / 100) else confidence

def compute_risk (functions : Functions K) (input : RiskInput K) : RiskAssessment K :=
  let provider_rate := providerRate input
  let base_rate := baseRate input
  let (source, explanation) := sourceOf input
  let tally := adjust functions input { log_odds := logit functions base_rate }
  let score := sigmoid functions tally.log_odds
  let (level, action) := levelFor score
  { score := roundDigits 4 score
    level
    recommended_action := action
    source
    -- `domain_counts.decisive or provider_counts.decisive`
    sample_size :=
      if input.domain_counts.decisive ≠ 0 then input.domain_counts.decisive
      else input.provider_counts.decisive
    explanation
    base_rate := roundDigits 4 base_rate
    provider_id := some input.provider.id
    provider_rate := some (roundDigits 4 provider_rate)
    confidence := roundDigits 3 (confidenceOf input)
    contributions := tally.contributions }

/-! ## More evidence -/

variable [IsStrictOrderedRing K]

section Pooling
omit [FloorRing K]

theorem pooledRate_nonneg (counts : ObservationCounts) {prior_mean prior_strength : K}
    (hprior : 0 ≤ prior_mean) (hstrength : 0 < prior_strength) :
    0 ≤ pooledRate counts prior_mean prior_strength := by
  unfold pooledRate
  positivity

theorem pooledRate_le_one (counts : ObservationCounts) {prior_mean prior_strength : K}
    (hprior : prior_mean ≤ 1) (hstrength : 0 < prior_strength) :
    pooledRate counts prior_mean prior_strength ≤ 1 := by
  have hbounced : (counts.hard_bounce : K) ≤ counts.decisive := by
    rw [Nat.cast_le, ObservationCounts.decisive]
    omega
  have hprior_mass : prior_mean * prior_strength ≤ prior_strength :=
    mul_le_of_le_one_left hstrength.le hprior
  have hmass : 0 < (counts.decisive : K) + prior_strength := by positivity
  rw [pooledRate, div_le_one hmass]
  linarith

theorem pooledRate_mono (counts : ObservationCounts) {low high prior_strength : K}
    (hle : low ≤ high) (hstrength : 0 < prior_strength) :
    pooledRate counts low prior_strength ≤ pooledRate counts high prior_strength := by
  have hmass : 0 < (counts.decisive : K) + prior_strength := by positivity
  apply div_le_div_of_nonneg_right _ hmass.le
  have hprior := mul_le_mul_of_nonneg_right hle hstrength.le
  linarith

/-- A hard bounce adds one to both sides of a rate that is at most one. -/
theorem pooledRate_oneMoreHardBounce (counts : ObservationCounts) {prior_mean prior_strength : K}
    (hprior : prior_mean ≤ 1) (hstrength : 0 < prior_strength) :
    pooledRate counts prior_mean prior_strength ≤
      pooledRate counts.oneMoreHardBounce prior_mean prior_strength := by
  have hrate := pooledRate_le_one counts hprior hstrength
  have hmass : 0 < (counts.decisive : K) + prior_strength := by positivity
  rw [pooledRate, div_le_one hmass] at hrate
  unfold pooledRate ObservationCounts.oneMoreHardBounce
  unfold ObservationCounts.decisive at *
  push_cast at *
  rw [div_le_div_iff₀ hmass (by linarith)]
  nlinarith

/-- A delivery adds one to the mass of a rate that is not negative. -/
theorem pooledRate_oneMoreDelivery (counts : ObservationCounts) {prior_mean prior_strength : K}
    (hprior : 0 ≤ prior_mean) (hstrength : 0 < prior_strength) :
    pooledRate counts.oneMoreDelivery prior_mean prior_strength ≤
      pooledRate counts prior_mean prior_strength := by
  have hmass : 0 < (counts.decisive : K) + prior_strength := by positivity
  have hnum : 0 ≤ (counts.hard_bounce : K) + prior_mean * prior_strength := by positivity
  unfold pooledRate ObservationCounts.oneMoreDelivery
  unfold ObservationCounts.decisive at *
  push_cast at *
  apply div_le_div_of_nonneg_left hnum hmass
  linarith

theorem providerStrength_pos : (0 : K) < PROVIDER_PRIOR_STRENGTH := by
  norm_num [PROVIDER_PRIOR_STRENGTH]

theorem domainStrength_pos : (0 : K) < DOMAIN_PRIOR_STRENGTH := by
  norm_num [DOMAIN_PRIOR_STRENGTH]

theorem providerRate_nonneg (input : RiskInput K) : 0 ≤ providerRate input :=
  pooledRate_nonneg _ input.provider.prior_nonneg providerStrength_pos

theorem providerRate_le_one (input : RiskInput K) : providerRate input ≤ 1 :=
  pooledRate_le_one _ input.provider.prior_le_one providerStrength_pos

theorem logit_mono (functions : Functions K) : Monotone (logit functions) := by
  intro p q hle
  have hlow : (0 : K) < 1 / 1000000 := by norm_num
  have hhigh : (1 : K) - 1 / 1000000 < 1 := by linarith
  have hgap : (1 : K) / 1000000 ≤ 1 - 1 / 1000000 := by norm_num
  apply functions.logOdds_le_logOdds
  · exact lt_min (hlow.trans_le (le_max_right _ _)) (hlow.trans_le hgap)
  · exact min_le_min_right _ (max_le_max_right _ hle)
  · exact (min_le_right _ _).trans_lt hhigh

end Pooling

/-- Larger log-odds in, larger log-odds out. -/
def Raises (adjustment : Tally K → Tally K) : Prop :=
  ∀ low high : Tally K, low.log_odds ≤ high.log_odds →
    (adjustment low).log_odds ≤ (adjustment high).log_odds

theorem raises_adjustSelective (probe : ProbeEvidence K) : Raises (adjustSelective probe) := by
  intro low high hle
  unfold adjustSelective
  split
  · exact add_le_add_left hle _
  · exact hle

theorem raises_adjustTiming (probe : ProbeEvidence K) : Raises (adjustTiming probe) := by
  intro low high hle
  unfold adjustTiming
  split
  · split
    · dsimp only
      split
      · exact add_le_add_left hle _
      · exact add_le_add_left hle _
    · exact hle
  · exact hle

/-- Half of the distance to the prior is kept. -/
theorem raises_adjustReputation (functions : Functions K) (provider : MxProfile K)
    (probe : ProbeEvidence K) : Raises (adjustReputation functions provider probe) := by
  intro low high hle
  unfold adjustReputation
  split
  · dsimp only
    linarith
  · exact hle

theorem raises_adjustProbe (functions : Functions K) (provider : MxProfile K)
    (probe : Option (ProbeEvidence K)) : Raises (adjustProbe functions provider probe) := by
  intro low high hle
  cases probe with
  | none => exact hle
  | some probe =>
    apply raises_adjustReputation functions provider probe
    apply raises_adjustTiming probe
    exact raises_adjustSelective probe low high hle

theorem raises_adjustLocalPart (local_part_delta : K) (notes : List String) :
    Raises (adjustLocalPart local_part_delta notes) := by
  intro low high hle
  unfold adjustLocalPart
  split
  · exact add_le_add_left hle _
  · exact hle

omit [FloorRing K] in
theorem raises_adjustDomainSignals (domain_signal_delta : K) (notes : List String) :
    Raises (adjustDomainSignals domain_signal_delta notes) := by
  intro low high hle
  unfold adjustDomainSignals
  split
  · exact add_le_add_left hle _
  · exact hle

theorem raises_adjust (functions : Functions K) (input : RiskInput K) :
    Raises (adjust functions input) := by
  intro low high hle
  apply raises_adjustDomainSignals
  apply raises_adjustLocalPart
  exact raises_adjustProbe functions input.provider input.probe low high hle

/-- Inputs that differ in their tallies alone. -/
structure SameSignals (low high : RiskInput K) : Prop where
  provider : low.provider = high.provider
  local_part : low.local_part_delta = high.local_part_delta ∧
    low.local_part_notes = high.local_part_notes
  domain_signals : low.domain_signal_delta = high.domain_signal_delta ∧
    low.domain_signal_notes = high.domain_signal_notes
  probe : low.probe = high.probe

/-- The tallies enter the score through the base rate. -/
theorem score_le_score (functions : Functions K) {low high : RiskInput K}
    (hsame : SameSignals low high) (hrate : baseRate low ≤ baseRate high) :
    (compute_risk functions low).score ≤ (compute_risk functions high).score := by
  have hadjust : adjust functions low = adjust functions high := by
    funext tally
    simp only [adjust, hsame.provider, hsame.local_part.1, hsame.local_part.2,
      hsame.domain_signals.1, hsame.domain_signals.2, hsame.probe]
  have hodds := raises_adjust functions low { log_odds := logit functions (baseRate low) }
    { log_odds := logit functions (baseRate high) } (logit_mono functions hrate)
  have hscore := functions.logistic_mono hodds
  rw [hadjust] at hscore
  simp only [compute_risk, sigmoid, hadjust]
  exact roundDigits_mono 4 hscore

/-- One more hard bounce, at the domain or at the provider, never lowers the
score, and one more delivery never raises it. -/
theorem compute_risk_follows_evidence (functions : Functions K) (input : RiskInput K) :
    (compute_risk functions input).score ≤
        (compute_risk functions
          { input with domain_counts := input.domain_counts.oneMoreHardBounce }).score ∧
      (compute_risk functions input).score ≤
        (compute_risk functions
          { input with provider_counts := input.provider_counts.oneMoreHardBounce }).score ∧
      (compute_risk functions
          { input with domain_counts := input.domain_counts.oneMoreDelivery }).score ≤
        (compute_risk functions input).score ∧
      (compute_risk functions
          { input with provider_counts := input.provider_counts.oneMoreDelivery }).score ≤
        (compute_risk functions input).score := by
  refine ⟨?_, ?_, ?_, ?_⟩
  · refine score_le_score functions ⟨rfl, ⟨rfl, rfl⟩, ⟨rfl, rfl⟩, rfl⟩ ?_
    exact pooledRate_oneMoreHardBounce _ (providerRate_le_one input) domainStrength_pos
  · refine score_le_score functions ⟨rfl, ⟨rfl, rfl⟩, ⟨rfl, rfl⟩, rfl⟩ ?_
    apply pooledRate_mono _ _ domainStrength_pos
    exact pooledRate_oneMoreHardBounce _ input.provider.prior_le_one providerStrength_pos
  · refine score_le_score functions ⟨rfl, ⟨rfl, rfl⟩, ⟨rfl, rfl⟩, rfl⟩ ?_
    exact pooledRate_oneMoreDelivery _ (providerRate_nonneg input) domainStrength_pos
  · refine score_le_score functions ⟨rfl, ⟨rfl, rfl⟩, ⟨rfl, rfl⟩, rfl⟩ ?_
    apply pooledRate_mono _ _ domainStrength_pos
    exact pooledRate_oneMoreDelivery _ input.provider.prior_nonneg providerStrength_pos

/-- A bounce after three deliveries at an unknown provider, over the real numbers. -/
theorem compute_risk_follows_evidence_real :
    (compute_risk realFunctions
        ({ provider := UNKNOWN_PROVIDER ℝ, domain_counts := { delivered := 3 } } :
          RiskInput ℝ)).score ≤
      (compute_risk realFunctions
        ({ provider := UNKNOWN_PROVIDER ℝ, domain_counts := { delivered := 3, hard_bounce := 1 } } :
          RiskInput ℝ)).score :=
  (compute_risk_follows_evidence realFunctions
    { provider := UNKNOWN_PROVIDER ℝ, domain_counts := { delivered := 3 } }).1

end Model

end MailCue.Backend.Emails.RiskModel
