import Mathlib.Data.List.Basic
import MailCue.Tunnel.Edge.Relay
import MailCue.Tunnel.Sidecar.PartialFailure

/-!
# What a submission may deliver

Two results about one call of `relay`, for every list of tunnels and everything
they may do. The 2xx reply is sound: the loop keeps an entry for every
recipient once any edge has answered, and an entry is Delivered only where some
edge reported it. Delivery by more than one edge is possible, and only through
an address an edge accepted while leaving the sidecar in doubt about it.
-/
namespace MailCue.Tunnel.Sidecar
open MailCue.Lib MailCue.Tunnel.Proto

/-! ## The tries -/

/-- The edge answered this submission. -/
def Attempt.report (a : Attempt) : Option (List RecipientResult) :=
  match (tryOneTunnel a).1 with
  | .result per_recipient => some per_recipient
  | .tunnelError _ => none

/-- An address submitted and accepted on behalf of the edge. -/
def Try.Accepted (t : Try) (x : String) : Prop := x ∈ t.submitted ∧ t.attempt.accepts x = true

/-- The edge accepted the address, and the sidecar got no answer from it or one
that names the address among the failed. -/
def Try.InDoubt (t : Try) (x : String) : Prop :=
  t.Accepted x ∧ ∀ per_recipient, t.attempt.report = some per_recipient → x ∈ failedOf per_recipient

theorem relayOver_tries (ordered : Bool) (tunnel : Tunnel) (a : Attempt) (s : RelayState) :
    (relayOver ordered tunnel a s).tries = s.tries ++ [Try.mk s.remaining a] := by
  unfold relayOver
  dsimp only
  split <;> rfl

/-- What is left to submit was left by this try. -/
theorem relayOver_remaining (ordered : Bool) (tunnel : Tunnel) (a : Attempt) (s : RelayState)
    (x : String) (h : x ∈ (relayOver ordered tunnel a s).remaining) :
    x ∈ s.remaining ∧ a.report = none ∨
      ∃ per_recipient, a.report = some per_recipient ∧ x ∈ failedOf per_recipient := by
  unfold relayOver at h
  unfold Attempt.report
  dsimp only at h
  cases htry : (tryOneTunnel a).1 with
  | result per_recipient =>
    simp only [htry] at h
    cases ordered with
    | true => simp at h
    | false => exact .inr ⟨per_recipient, rfl, h⟩
  | tunnelError reply =>
    simp only [htry] at h
    exact .inl ⟨h, rfl⟩

/-- The edge contract: a result names the submitted recipients, in order. -/
def EdgeContract (world : Nat → List String → Attempt) : Prop :=
  ∀ idx submitted per_recipient, (world idx submitted).report = some per_recipient →
    per_recipient.map (·.recipient) = submitted

/-- Results made by the edge's own handler meet the contract. -/
theorem edgeContract_of_handleRelay (world : Nat → List String → Attempt)
    (h : ∀ idx submitted per_recipient, (world idx submitted).report = some per_recipient →
      ∃ cfg net helo_name envelope_from raw_message opts,
        (Edge.handleRelay cfg net helo_name envelope_from submitted raw_message opts).1 =
          .ok per_recipient) : EdgeContract world := by
  intro idx submitted per_recipient hreport
  obtain ⟨cfg, net, helo_name, envelope_from, raw_message, opts, hok⟩ :=
    h idx submitted per_recipient hreport
  exact Edge.handleRelay_recipients cfg net helo_name envelope_from submitted raw_message opts
    per_recipient hok

theorem mem_failedOf (per_recipient : List RecipientResult) (x : String)
    (h : x ∈ failedOf per_recipient) : x ∈ per_recipient.map (·.recipient) := by
  obtain ⟨r, hr, rfl⟩ := List.mem_map.mp h
  exact List.mem_map_of_mem (List.mem_of_mem_filter hr)

/-- The rule for the failover loop: what holds at the start and survives each
try holds at the end. -/
theorem relayLoop_invariant {P : RelayState → Prop} (ordered : Bool)
    (world : Nat → List String → Attempt)
    (hstep : ∀ idx tunnel s, P s → s.remaining ≠ [] →
      P (relayOver ordered tunnel (world idx s.remaining) s))
    (candidates : List Tunnel) (idx : Nat) (s : RelayState) (h : P s) :
    P (relayLoop ordered world idx candidates s) := by
  induction candidates generalizing idx s with
  | nil => exact h
  | cons tunnel rest ih =>
    rw [relayLoop]
    split
    · exact h
    · rename_i hmore
      exact ih _ _ (hstep idx tunnel s h (by simpa using hmore))

/-! ## Delivery by one edge -/

/-- An address accepted by an earlier try comes up again only in doubt. -/
structure Settled (s : RelayState) : Prop where
  earlier : s.tries.Pairwise fun t t' => ∀ x, t.Accepted x → x ∈ t'.submitted → t.InDoubt x
  left : ∀ t ∈ s.tries, ∀ x, t.Accepted x → x ∈ s.remaining → t.InDoubt x

theorem settled_step (ordered : Bool) (world : Nat → List String → Attempt)
    (hcontract : EdgeContract world) (idx : Nat) (tunnel : Tunnel) (s : RelayState)
    (h : Settled s) : Settled (relayOver ordered tunnel (world idx s.remaining) s) where
  earlier := by
    rw [relayOver_tries, List.pairwise_append]
    refine ⟨h.earlier, List.pairwise_singleton _ _, ?_⟩
    intro t ht t' ht' x hacc hsub
    rw [List.mem_singleton] at ht'
    subst ht'
    exact h.left t ht x hacc hsub
  left := by
    intro t ht x hacc hrem
    rw [relayOver_tries] at ht
    have hleft := relayOver_remaining ordered tunnel _ s x hrem
    rcases List.mem_append.mp ht with hold | hnew
    · apply h.left t hold x hacc
      obtain ⟨hx, _⟩ | ⟨per_recipient, hreport, hfailed⟩ := hleft
      · exact hx
      · rw [← hcontract idx s.remaining per_recipient hreport]
        exact mem_failedOf per_recipient x hfailed
    · rw [List.mem_singleton] at hnew
      subst hnew
      refine ⟨hacc, ?_⟩
      intro per_recipient hreport
      obtain ⟨_, hnone⟩ | ⟨per', hreport', hfailed⟩ := hleft
      · rw [show (world idx s.remaining).report = some per_recipient from hreport] at hnone
        cases hnone
      · rw [show (world idx s.remaining).report = some per_recipient from hreport] at hreport'
        cases hreport'
        exact hfailed

/-- No address accepted on behalf of two edges. -/
def SingleEdge (tries : List Try) : Prop :=
  tries.Pairwise fun t t' => ∀ x, t.Accepted x → ¬ t'.Accepted x

/-- No address one edge accepted in doubt is accepted by an edge tried later. -/
def DoubtsHarmless (tries : List Try) : Prop :=
  tries.Pairwise fun t t' => ∀ x, t.InDoubt x → ¬ t'.Accepted x

theorem relay_settled (selection : SelectionStrategy) (policy : PartialFailurePolicy)
    (world : Nat → List String → Attempt) (candidates : List Tunnel) (recipients : List String)
    (hcontract : EdgeContract world) :
    (relay selection policy world candidates recipients).2.Pairwise
      fun t t' => ∀ x, t.Accepted x → x ∈ t'.submitted → t.InDoubt x := by
  unfold relay
  split
  · exact .nil
  · have hstart : Settled (relayStart recipients) := ⟨.nil, by simp [relayStart]⟩
    have hend := relayLoop_invariant (decide (selection = .orderedFailover)) world
      (fun idx tunnel s h _ => settled_step _ world hcontract idx tunnel s h)
      candidates 0 _ hstart
    exact hend.earlier

/-- One call delivers each recipient through one edge at most exactly when no
acceptance in doubt is repeated by an edge tried later. -/
theorem relay_single_edge_iff (selection : SelectionStrategy) (policy : PartialFailurePolicy)
    (world : Nat → List String → Attempt) (candidates : List Tunnel) (recipients : List String)
    (hcontract : EdgeContract world) :
    SingleEdge (relay selection policy world candidates recipients).2 ↔
      DoubtsHarmless (relay selection policy world candidates recipients).2 := by
  have hsettled := relay_settled selection policy world candidates recipients hcontract
  constructor
  · intro h
    exact h.imp fun hpair x hdoubt => hpair x hdoubt.1
  · intro h
    exact (hsettled.and h).imp fun hpair x hacc hacc' =>
      hpair.2 x (hpair.1 x hacc hacc'.1) hacc'

/-- Two tunnels; the first edge delivers and its channel is lost. -/
def lostThenDelivered : Nat → List String → Attempt
  | 0, _ => ⟨0, true, true, none, fun _ => true⟩
  | idx, submitted =>
    ⟨UInt64.ofNat idx, true, true, some (.relayResult (UInt64.ofNat idx)
      (submitted.map fun x => ⟨x, .delivered "mx" 250 "ok"⟩)), fun _ => true⟩

theorem lostThenDelivered_contract : EdgeContract lostThenDelivered := by
  intro idx submitted per_recipient h
  cases idx with
  | zero => cases h
  | succ n =>
    simp [lostThenDelivered, Attempt.report, tryOneTunnel] at h
    subst h
    simp [Function.comp_def]

/-- With one candidate nothing is submitted again. -/
theorem single_candidate_single_edge :
    SingleEdge (relay .roundRobin .retry lostThenDelivered [⟨"t1", "one"⟩] ["a@b.c"]).2 := by
  apply (relay_single_edge_iff _ _ _ _ _ lostThenDelivered_contract).mpr
  exact List.pairwise_singleton _ _

/-- The message is delivered by both edges. -/
theorem lost_result_delivers_twice :
    EdgeContract lostThenDelivered ∧
      ¬ SingleEdge (relay .roundRobin .retry lostThenDelivered
        [⟨"t1", "one"⟩, ⟨"t2", "two"⟩] ["a@b.c"]).2 := by
  refine ⟨lostThenDelivered_contract, ?_⟩
  intro h
  have htries : (relay .roundRobin .retry lostThenDelivered
      [⟨"t1", "one"⟩, ⟨"t2", "two"⟩] ["a@b.c"]).2 =
      [⟨["a@b.c"], lostThenDelivered 0 ["a@b.c"]⟩, ⟨["a@b.c"], lostThenDelivered 1 ["a@b.c"]⟩] := rfl
  rw [htries] at h
  have hpair := (List.pairwise_cons.mp h).1 _ (List.mem_singleton.mpr rfl) "a@b.c"
  exact hpair ⟨by simp, rfl⟩ ⟨by simp, rfl⟩

/-! ## The 2xx reply -/

/-- Some edge reported the address Delivered. -/
def ReportedDelivered (tries : List Try) (x : String) : Prop :=
  ∃ t ∈ tries, ∃ per_recipient, t.attempt.report = some per_recipient ∧
    ∃ r ∈ per_recipient, r.recipient = x ∧ isDelivered r.status = true

theorem ReportedDelivered.append {tries : List Try} {x : String} (h : ReportedDelivered tries x)
    (more : List Try) : ReportedDelivered (tries ++ more) x := by
  obtain ⟨t, ht, hrest⟩ := h
  exact ⟨t, List.mem_append_left _ ht, hrest⟩

theorem upsertOutcome_mem (acc : List RecipientResult) (r e : RecipientResult)
    (h : e ∈ upsertOutcome acc r) : e ∈ acc ∨ e = r := by
  induction acc with
  | nil => exact .inr (by simpa [upsertOutcome] using h)
  | cons a rest ih =>
    unfold upsertOutcome at h
    split at h
    · split at h
      · rcases List.mem_cons.mp h with rfl | h
        · exact .inr rfl
        · exact .inl (by simp [h])
      · exact .inl h
    · rcases List.mem_cons.mp h with rfl | h
      · exact .inl (by simp)
      · rcases ih h with h | h
        · exact .inl (by simp [h])
        · exact .inr h

theorem upsertOutcome_keys (acc : List RecipientResult) (r : RecipientResult) (x : String)
    (h : x ∈ acc.map (·.recipient) ∨ x = r.recipient) :
    x ∈ (upsertOutcome acc r).map (·.recipient) := by
  induction acc with
  | nil => simpa [upsertOutcome] using h
  | cons a rest ih =>
    unfold upsertOutcome
    split
    · rename_i heq
      rw [List.map_cons, List.mem_cons, heq] at h
      split
      · rw [List.map_cons, List.mem_cons]
        rcases h with (h | h) | h
        · exact .inl h
        · exact .inr h
        · exact .inl h
      · rw [List.map_cons, List.mem_cons, heq]
        rcases h with (h | h) | h
        · exact .inl h
        · exact .inr h
        · exact .inl h
    · simp only [List.map_cons, List.mem_cons] at h ⊢
      rcases h with (h | h) | h
      · exact .inl h
      · exact .inr (ih (.inl h))
      · exact .inr (ih (.inr h))

theorem foldl_upsertOutcome_mem (rs acc : List RecipientResult) (e : RecipientResult)
    (h : e ∈ rs.foldl upsertOutcome acc) : e ∈ acc ∨ e ∈ rs := by
  induction rs generalizing acc with
  | nil => exact .inl h
  | cons r rs ih =>
    rcases ih _ h with h | h
    · rcases upsertOutcome_mem acc r e h with h | rfl
      · exact .inl h
      · exact .inr (by simp)
    · exact .inr (by simp [h])

theorem foldl_upsertOutcome_keys (rs acc : List RecipientResult) (x : String)
    (h : x ∈ acc.map (·.recipient) ∨ x ∈ rs.map (·.recipient)) :
    x ∈ (rs.foldl upsertOutcome acc).map (·.recipient) := by
  induction rs generalizing acc with
  | nil => simpa using h
  | cons r rs ih =>
    apply ih _
    rcases h with h | h
    · exact .inl (upsertOutcome_keys acc r x (.inl h))
    · rcases List.mem_cons.mp h with h | h
      · exact .inl (upsertOutcome_keys acc r x (.inr h))
      · exact .inr h

/-- Every entry was reported, and once there is one every recipient has one. -/
structure Merged (recipients : List String) (s : RelayState) : Prop where
  reported : ∀ e ∈ s.accumulated, isDelivered e.status = true →
    ReportedDelivered s.tries e.recipient
  complete : s.accumulated ≠ [] → ∀ x ∈ recipients, x ∈ s.accumulated.map (·.recipient)
  unanswered : s.accumulated = [] → s.remaining = recipients

theorem merged_step (ordered : Bool) (world : Nat → List String → Attempt)
    (hcontract : EdgeContract world) (recipients : List String) (idx : Nat) (tunnel : Tunnel)
    (s : RelayState) (h : Merged recipients s) (hmore : s.remaining ≠ []) :
    Merged recipients (relayOver ordered tunnel (world idx s.remaining) s) := by
  have htries := relayOver_tries ordered tunnel (world idx s.remaining) s
  cases hreport : (tryOneTunnel (world idx s.remaining)).1 with
  | tunnelError reply =>
    have hacc : (relayOver ordered tunnel (world idx s.remaining) s).accumulated =
        s.accumulated := by simp [relayOver, hreport]
    have hrem : (relayOver ordered tunnel (world idx s.remaining) s).remaining =
        s.remaining := by simp [relayOver, hreport]
    refine ⟨?_, ?_, ?_⟩
    · intro e he hdel
      rw [hacc] at he
      rw [htries]
      exact (h.reported e he hdel).append _
    · rw [hacc]
      exact h.complete
    · rw [hacc, hrem]
      exact h.unanswered
  | result per_recipient =>
    have hreported : (world idx s.remaining).report = some per_recipient := by
      simp [Attempt.report, hreport]
    have hsubmitted := hcontract idx s.remaining per_recipient hreported
    have hacc : (relayOver ordered tunnel (world idx s.remaining) s).accumulated =
        per_recipient.foldl upsertOutcome s.accumulated := by simp [relayOver, hreport]
    have hkeys : ∀ x ∈ recipients,
        x ∈ (per_recipient.foldl upsertOutcome s.accumulated).map (·.recipient) := by
      intro x hx
      apply foldl_upsertOutcome_keys
      by_cases hnone : s.accumulated = []
      · rw [hsubmitted, h.unanswered hnone]
        exact .inr hx
      · exact .inl (h.complete hnone x hx)
    refine ⟨?_, ?_, ?_⟩
    · intro e he hdel
      rw [hacc] at he
      rw [htries]
      rcases foldl_upsertOutcome_mem per_recipient s.accumulated e he with he | he
      · exact (h.reported e he hdel).append _
      · exact ⟨_, List.mem_append_right _ (List.mem_singleton.mpr rfl), per_recipient, hreported,
          e, he, rfl, hdel⟩
    · rw [hacc]
      exact fun _ => hkeys
    · intro hempty
      rw [hacc] at hempty
      obtain ⟨y, hy⟩ := List.exists_mem_of_ne_nil _ hmore
      rw [← hsubmitted] at hy
      have hin := foldl_upsertOutcome_keys per_recipient s.accumulated y (.inr hy)
      rw [hempty] at hin
      cases hin

/-- Under the retry policy a 2xx reply needs every entry Delivered. -/
theorem mapOutcomes_retry_2xx (tunnel_name : String) (request_id : UInt64)
    (rs : List RecipientResult) (h : (mapOutcomes tunnel_name request_id rs .retry).code / 100 = 2) :
    ∀ r ∈ rs, isDelivered r.status = true := by
  rw [mapOutcomes_code] at h
  split at h
  · simp at h
  · split at h
    · assumption
    · simp at h

/-- Tunnel errors answer with a temporary failure. -/
theorem tunnelError_code (a : Attempt) (reply : SmtpReply)
    (h : (tryOneTunnel a).1 = .tunnelError reply) : reply.code = 421 := by
  unfold tryOneTunnel at h
  dsimp only at h
  split at h
  · cases h
    rfl
  · split at h
    · cases h
      rfl
    · split at h
      · cases h
        rfl
      · split at h
        · split at h
          · cases h
          · cases h
            rfl
        · cases h
          rfl
        · cases h
          rfl

theorem relay_error_code (ordered : Bool) (world : Nat → List String → Attempt)
    (candidates : List Tunnel) (recipients : List String) :
    ∀ reply, (relayLoop ordered world 0 candidates (relayStart recipients)).tunnel_level_error =
      some reply → reply.code = 421 := by
  refine relayLoop_invariant (P := fun s => ∀ reply, s.tunnel_level_error = some reply →
    reply.code = 421) ordered world ?_ candidates 0 _ nofun
  intro idx tunnel s h _ reply herror
  cases htry : (tryOneTunnel (world idx s.remaining)).1 with
  | result per_recipient => simp [relayOver, htry] at herror
  | tunnelError r =>
    simp only [relayOver, htry, Option.some.injEq] at herror
    subst herror
    exact tunnelError_code _ _ htry

/-- Under the retry policy a 2xx reply needs every recipient to have been
reported Delivered, and one that was not makes the reply another. -/
theorem relay_2xx_delivered (selection : SelectionStrategy) (world : Nat → List String → Attempt)
    (candidates : List Tunnel) (recipients : List String) (hcontract : EdgeContract world) :
    ((relay selection .retry world candidates recipients).1.code / 100 = 2 →
      ∀ x ∈ recipients,
        ReportedDelivered (relay selection .retry world candidates recipients).2 x) ∧
    ∀ x ∈ recipients, ¬ ReportedDelivered (relay selection .retry world candidates recipients).2 x →
      (relay selection .retry world candidates recipients).1.code / 100 ≠ 2 := by
  have hsound : (relay selection .retry world candidates recipients).1.code / 100 = 2 →
      ∀ x ∈ recipients,
        ReportedDelivered (relay selection .retry world candidates recipients).2 x := by
    intro h2xx x hx
    unfold relay at h2xx ⊢
    split at h2xx
    · simp [unavailable] at h2xx
    · rename_i hsome
      rw [if_neg hsome]
      dsimp only at h2xx ⊢
      have hstart : Merged recipients (relayStart recipients) :=
        ⟨by simp [relayStart], fun h => absurd rfl h, fun _ => rfl⟩
      have hend := relayLoop_invariant (decide (selection = .orderedFailover)) world
        (fun idx tunnel s h hmore => merged_step _ world hcontract recipients idx tunnel s h hmore)
        candidates 0 _ hstart
      have herror := relay_error_code (decide (selection = .orderedFailover)) world candidates
        recipients
      split at h2xx
      · cases hlevel : (relayLoop (decide (selection = .orderedFailover)) world 0 candidates
          (relayStart recipients)).tunnel_level_error with
        | none => simp [hlevel] at h2xx
        | some reply => simp [hlevel, herror reply hlevel] at h2xx
      · rename_i hanswered
        have hall := mapOutcomes_retry_2xx _ _ _ h2xx
        obtain ⟨e, he, rfl⟩ := List.mem_map.mp (hend.complete (by simpa using hanswered) x hx)
        exact hend.reported e he (hall e he)
  refine ⟨hsound, ?_⟩
  intro x hx hnot h2xx
  exact hnot (hsound h2xx x hx)

/-- The second tunnel's report is what the 250 rests on. -/
theorem relay_2xx_delivered_lost :
    ReportedDelivered (relay .roundRobin .retry lostThenDelivered
      [⟨"t1", "one"⟩, ⟨"t2", "two"⟩] ["a@b.c"]).2 "a@b.c" :=
  (relay_2xx_delivered .roundRobin lostThenDelivered [⟨"t1", "one"⟩, ⟨"t2", "two"⟩] ["a@b.c"]
    lostThenDelivered_contract).1 (by decide) "a@b.c" (by decide)

end MailCue.Tunnel.Sidecar
