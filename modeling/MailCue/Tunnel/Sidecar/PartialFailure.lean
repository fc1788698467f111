import MailCue.Tunnel.Sidecar.Relay

/-!
# The reply to a mixed result

tunnel/crates/sidecar/src/relay.rs, `map_outcomes`: a 2xx reply makes Postfix
drop the queue entry and a 5xx one bounces it, so a recipient in temporary
failure is retried only behind a 4xx. The comment over the last branch takes a
mixed result to have a Delivered recipient; one of permanent and temporary
failures has none, and the policy that accepts partial results takes it too.
-/
namespace MailCue.Tunnel.Sidecar
open MailCue.Lib MailCue.Tunnel.Proto

def isTempFail : RelayStatus → Bool
  | .tempFail _ _ => true
  | _ => false

def isPermFail : RelayStatus → Bool
  | .permFail _ _ => true
  | _ => false

theorem isTempFail_of_isPermFail {status : RelayStatus} (h : isPermFail status = true) :
    isTempFail status = false := by
  cases status with
  | permFail _ _ => rfl
  | delivered _ _ _ => rfl
  | tempFail _ _ => cases h

theorem isTempFail_of_isDelivered {status : RelayStatus} (h : isDelivered status = true) :
    isTempFail status = false := by
  cases status with
  | delivered _ _ _ => rfl
  | permFail _ _ => rfl
  | tempFail _ _ => cases h

theorem isDelivered_of_isPermFail {status : RelayStatus} (h : isPermFail status = true) :
    isDelivered status = false := by
  cases status with
  | permFail _ _ => rfl
  | delivered _ _ _ => cases h
  | tempFail _ _ => rfl

theorem isDelivered_of_neither {status : RelayStatus} (hperm : ¬ isPermFail status = true)
    (htemp : isTempFail status = false) : isDelivered status = true := by
  cases status with
  | delivered _ _ _ => rfl
  | permFail _ _ => exact absurd rfl hperm
  | tempFail _ _ => cases htemp

/-! ## The counts -/

theorem foldl_add_counts (rs : List RecipientResult) (c : OutcomeCounts) :
    rs.foldl OutcomeCounts.add c =
      ⟨c.delivered + rs.countP fun r => isDelivered r.status,
        c.temp + rs.countP fun r => isTempFail r.status,
        c.perm + rs.countP fun r => isPermFail r.status, c.total + rs.length⟩ := by
  induction rs generalizing c with
  | nil => rfl
  | cons r rs ih =>
    rw [List.foldl_cons, ih]
    cases hs : r.status <;>
      simp [OutcomeCounts.add, hs, isDelivered, isTempFail, isPermFail] <;> omega

theorem summarise_eq (rs : List RecipientResult) :
    summarise rs =
      ⟨rs.countP fun r => isDelivered r.status, rs.countP fun r => isTempFail r.status,
        rs.countP fun r => isPermFail r.status, rs.length⟩ := by
  rw [summarise, foldl_add_counts]
  simp only [Nat.zero_add]

theorem status_in_one_count (status : RelayStatus) :
    (if isDelivered status = true then 1 else 0) + (if isTempFail status = true then 1 else 0) +
      (if isPermFail status = true then 1 else 0) = 1 := by
  cases status <;> rfl

/-- Every recipient is in exactly one of the three counts. -/
theorem counts_total (rs : List RecipientResult) :
    (rs.countP fun r => isDelivered r.status) + (rs.countP fun r => isTempFail r.status) +
      (rs.countP fun r => isPermFail r.status) = rs.length := by
  induction rs with
  | nil => rfl
  | cons r rs ih =>
    have hone := status_in_one_count r.status
    rw [List.countP_cons, List.countP_cons, List.countP_cons, List.length_cons]
    omega

/-! ## The reply's code -/

theorem mapOutcomes_code (tunnel_name : String) (request_id : UInt64) (rs : List RecipientResult)
    (policy : PartialFailurePolicy) :
    (mapOutcomes tunnel_name request_id rs policy).code =
      if ∀ r ∈ rs, isPermFail r.status = true then 554
      else if ∀ r ∈ rs, isDelivered r.status = true then 250
      else if (∃ r ∈ rs, isPermFail r.status = true) ∧ policy = .acceptPartial then 250
      else 451 := by
  have htotal := counts_total rs
  have hperm := List.countP_eq_length (p := fun r : RecipientResult => isPermFail r.status) (l := rs)
  have hdel := List.countP_eq_length (p := fun r : RecipientResult => isDelivered r.status) (l := rs)
  have hsome := List.countP_pos_iff (p := fun r : RecipientResult => isPermFail r.status) (l := rs)
  simp only [mapOutcomes, summarise_eq, ← hperm, ← hdel, ← hsome]
  split
  · next hempty => rw [if_pos (by omega)]
  · next hmore =>
    split
    · next hall => rw [if_neg (by omega)]
    · next hnotall =>
      split
      · rfl
      · next hmixed =>
        split
        · next hdeferred => rw [if_neg (by omega)]
        · split
          · next hsomeperm => cases policy <;> simp [hsomeperm]
          · next hnoperm => rw [if_neg (by omega)]

/-! ## What the reply promises -/

/-- No recipient that is to be retried is dropped with the queue entry. -/
structure HidesNoRetry (rs : List RecipientResult) (reply : SmtpReply) : Prop where
  accepted : reply.code / 100 = 2 →
    (∃ r ∈ rs, isDelivered r.status = true) ∧ ∀ r ∈ rs, isTempFail r.status = false
  refused : reply.code / 100 = 5 →
    ∀ r ∈ rs, isTempFail r.status = false ∧ isDelivered r.status = false

/-- The reply loses a retry exactly when partial results are accepted and the
result has both a permanent and a temporary failure. -/
theorem mapOutcomes_hides_no_retry_iff (tunnel_name : String) (request_id : UInt64)
    (rs : List RecipientResult) (policy : PartialFailurePolicy) :
    HidesNoRetry rs (mapOutcomes tunnel_name request_id rs policy) ↔
      ¬ (policy = .acceptPartial ∧ (∃ r ∈ rs, isPermFail r.status = true) ∧
        ∃ r ∈ rs, isTempFail r.status = true) := by
  have hcode := mapOutcomes_code tunnel_name request_id rs policy
  constructor
  · rintro ⟨haccepted, _⟩ ⟨hpolicy, ⟨p, hp, hperm⟩, t, ht, htemp⟩
    have hnotperm : ¬ ∀ r ∈ rs, isPermFail r.status = true := by
      intro hall
      rw [isTempFail_of_isPermFail (hall t ht)] at htemp
      cases htemp
    have h250 : (mapOutcomes tunnel_name request_id rs policy).code = 250 := by
      rw [hcode, if_neg hnotperm, if_pos (c := _ ∧ _) ⟨⟨p, hp, hperm⟩, hpolicy⟩, ite_self]
    have hnone := (haccepted (by rw [h250])).2 t ht
    rw [htemp] at hnone
    cases hnone
  · intro hnot
    split at hcode
    · next hallperm =>
      refine ⟨fun h => by simp [hcode] at h, fun _ r hr => ?_⟩
      exact ⟨isTempFail_of_isPermFail (hallperm r hr), isDelivered_of_isPermFail (hallperm r hr)⟩
    · next hnotperm =>
      have hmore : rs ≠ [] := fun h => hnotperm (by simp [h])
      split at hcode
      · next halldel =>
        refine ⟨fun _ => ⟨?_, fun r hr => ?_⟩, fun h => by simp [hcode] at h⟩
        · obtain ⟨r, hr⟩ := List.exists_mem_of_ne_nil _ hmore
          exact ⟨r, hr, halldel r hr⟩
        · exact isTempFail_of_isDelivered (halldel r hr)
      · next hnotdel =>
        split at hcode
        · next hsomeperm =>
          have hnotemp : ∀ r ∈ rs, isTempFail r.status = false := by
            intro r hr
            by_contra htemp
            exact hnot ⟨hsomeperm.2, hsomeperm.1, r, hr, by simpa using htemp⟩
          refine ⟨fun _ => ⟨?_, hnotemp⟩, fun h => by simp [hcode] at h⟩
          -- Not all of them are permanent failures, and none is temporary.
          push Not at hnotperm
          obtain ⟨r, hr, hperm⟩ := hnotperm
          exact ⟨r, hr, isDelivered_of_neither hperm (hnotemp r hr)⟩
        · exact ⟨fun h => by simp [hcode] at h, fun h => by simp [hcode] at h⟩

/-- One recipient refused for good and one to be retried; Postfix is told that
the message was accepted, with none delivered. -/
theorem deferred_recipient_accepted :
    (mapOutcomes "edge" 7 [⟨"gone@b.c", .permFail "no such user" (some 550)⟩,
        ⟨"slow@b.c", .tempFail "greylisted" (some 451)⟩] .acceptPartial).line =
      "250 2.6.0 partial accept (0 ok, 1 perm, 1 temp) via edge (req=7)" ∧
    ¬ HidesNoRetry [⟨"gone@b.c", .permFail "no such user" (some 550)⟩,
        ⟨"slow@b.c", .tempFail "greylisted" (some 451)⟩]
      (mapOutcomes "edge" 7 [⟨"gone@b.c", .permFail "no such user" (some 550)⟩,
        ⟨"slow@b.c", .tempFail "greylisted" (some 451)⟩] .acceptPartial) := by
  refine ⟨by decide +kernel, fun h => ?_⟩
  have htemp := (h.accepted (by decide +kernel)).2 ⟨"slow@b.c", .tempFail "greylisted" (some 451)⟩
    (by simp)
  simp [isTempFail] at htemp

end MailCue.Tunnel.Sidecar
