import MailCue.Lib.Retry

/-!
# The retry loops of the SDKs

sdks/python/mailcue/transport.py (`SyncTransport.request`, and
`AsyncTransport.request`, which repeats it with awaits) and
sdks/node/src/transport.ts (`Transport.request`). Neither looks at the method of
the request. What becomes of an attempt is given: whether the server processed
it, and what the client sees of it. URLs, headers, bodies, the texts of errors
and the pauses between attempts are left out.
-/
namespace MailCue.Sdk
open MailCue.Lib

/-- What a client sees of one attempt. -/
inductive Seen
  | timeout
  /-- No connection, or a connection lost (httpx.NetworkError). -/
  | networkError
  /-- Any other failure of the transfer, as a server that hangs up without an answer. -/
  | protocolError
  /-- The caller gives up, in the attempt or in the pause behind it. -/
  | aborted
  /-- An answer, and whether its body could be read and decoded. -/
  | response (status : Nat) (body : Bool)
  deriving DecidableEq

structure Outcome where
  processed : Bool
  seen : Seen
  deriving DecidableEq

inductive SdkError
  | validation (status : Nat)
  | authentication (status : Nat)
  | permissionDenied (status : Nat)
  | notFound (status : Nat)
  | conflict (status : Nat)
  | rateLimit (status : Nat)
  | server (status : Nat)
  | mailcue (status : Option Nat)
  | timeout
  | network
  /-- The error of the HTTP library, or the caller's reason to give up, as it is. -/
  | passedOn
  deriving DecidableEq

/-- `_RETRY_STATUSES`, `RETRY_STATUS` -/
def retryStatuses : List Nat := [502, 503, 504]

/-- How many of the attempts a call makes the server processes. -/
def processedCount (made : Nat) (outcome : Nat → Outcome) : Nat :=
  (List.range made).countP fun attempt => (outcome attempt).processed

/-! ## Python -/

namespace Python

/-- `_raise_for_status`, and the return behind it. -/
def raiseForStatus (status : Nat) : Except SdkError Nat :=
  if status < 400 then .ok status
  else if status = 400 then .error (.validation status)
  else if status = 401 then .error (.authentication status)
  else if status = 403 then .error (.permissionDenied status)
  else if status = 404 then .error (.notFound status)
  else if status = 409 then .error (.conflict status)
  else if status = 422 then .error (.validation status)
  else if status = 429 then .error (.rateLimit status)
  else if 500 ≤ status then .error (.server status)
  else .error (.mailcue (some status))

/-- The body of the loop; `none` is its `continue`. -/
def attemptOnce (max_retries : Int) (attempt : Nat) (o : Outcome) : Option (Except SdkError Nat) :=
  match o.seen with
  | .timeout => if max_retries ≤ attempt then some (.error .timeout) else none
  | .networkError => if max_retries ≤ attempt then some (.error .network) else none
  | .protocolError => some (.error .passedOn)
  | .aborted => some (.error .passedOn)
  | .response status _ =>
    if status ∈ retryStatuses ∧ (attempt : Int) < max_retries then none
    else some (raiseForStatus status)

/-- `range(max_retries + 1)`; where it is empty, the call fails without an attempt. -/
def request (max_retries : Int) (outcome : Nat → Outcome) : Nat × Except SdkError Nat :=
  let (attempts, result) := Retry.run (attemptOnce max_retries) outcome 0 (max_retries + 1).toNat
  (attempts, result.getD (.error (.mailcue none)))

/-- What another attempt is made behind while retries are left. -/
def retries : Seen → Bool
  | .timeout => true
  | .networkError => true
  | .protocolError => false
  | .aborted => false
  | .response status _ => status ∈ retryStatuses

theorem attemptOnce_none_iff (max_retries : Int) (attempt : Nat) (o : Outcome) :
    attemptOnce max_retries attempt o = none ↔
      retries o.seen = true ∧ (attempt : Int) < max_retries := by
  unfold attemptOnce retries
  cases o.seen with
  | timeout => simp
  | networkError => simp
  | protocolError => simp
  | aborted => simp
  | response status body => simp [retryStatuses]

end Python

/-! ## Node -/

namespace Node

def mapHttpError (status : Nat) : SdkError :=
  if status = 400 ∨ status = 422 then .validation status
  else if status = 401 then .authentication status
  else if status = 403 then .permissionDenied status
  else if status = 404 then .notFound status
  else if status = 409 then .conflict status
  else if 500 ≤ status then .server status
  else .mailcue (some status)

/-- The failure of a fetch, and of reading the body of an answer. -/
def networkFailure (maxRetries : Int) (attempt : Nat) : Option (Except SdkError Nat) :=
  if (attempt : Int) < maxRetries then none else some (.error .network)

/-- The body of the loop. An error it has mapped itself leaves its `catch` as it is:
the condition there for another attempt is the one that has just failed. -/
def attemptOnce (maxRetries : Int) (attempt : Nat) (o : Outcome) : Option (Except SdkError Nat) :=
  match o.seen with
  | .timeout => some (.error .timeout)
  | .networkError => networkFailure maxRetries attempt
  | .protocolError => networkFailure maxRetries attempt
  | .aborted => some (.error .passedOn)
  | .response status body =>
    if 200 ≤ status ∧ status ≤ 299 then
      if body then some (.ok status) else networkFailure maxRetries attempt
    else if status = 429 then some (.error (.rateLimit status))
    else if status ∈ retryStatuses ∧ (attempt : Int) < maxRetries then none
    else some (.error (mapHttpError status))

def request (maxRetries : Int) (outcome : Nat → Outcome) : Nat × Except SdkError Nat :=
  let (attempts, result) := Retry.run (attemptOnce maxRetries) outcome 0 (maxRetries + 1).toNat
  (attempts, result.getD (.error .network))

def retries : Seen → Bool
  | .timeout => false
  | .networkError => true
  | .protocolError => true
  | .aborted => false
  | .response status body => status ∈ retryStatuses || (200 ≤ status && status ≤ 299 && !body)

theorem attemptOnce_none_iff (maxRetries : Int) (attempt : Nat) (o : Outcome) :
    attemptOnce maxRetries attempt o = none ↔
      retries o.seen = true ∧ (attempt : Int) < maxRetries := by
  unfold attemptOnce retries networkFailure
  cases o.seen with
  | timeout => simp
  | networkError => simp
  | protocolError => simp
  | aborted => simp
  | response status body =>
    by_cases hok : 200 ≤ status ∧ status ≤ 299
    · have hother : status ∉ retryStatuses := by
        simp only [retryStatuses, List.mem_cons, List.not_mem_nil, or_false]
        omega
      cases body <;> simp [hok, hother]
    · by_cases hlimit : status = 429
      · subst hlimit
        simp [retryStatuses]
      · simp [hok, hlimit]

end Node

/-! ## Attempts and what the server processes -/

/-- A loop that goes on only while retries are left ends with a result. -/
theorem result_isSome {ρ : Type} (body : Nat → Outcome → Option ρ) (retries : Seen → Bool)
    (max_retries : Int) (outcome : Nat → Outcome) (h : 0 ≤ max_retries)
    (hbody : ∀ attempt o, body attempt o = none ↔
      retries o.seen = true ∧ (attempt : Int) < max_retries) :
    (Retry.run body outcome 0 (max_retries + 1).toNat).2.isSome := by
  obtain ⟨n, rfl⟩ := Int.eq_ofNat_of_zero_le h
  refine Retry.result_isSome _ _ 0 n ?_
  rw [Option.isSome_iff_ne_none, Nat.zero_add]
  intro hnone
  have hlt := ((hbody _ _).mp hnone).2
  omega

/-- No call that makes an attempt falls out of its loop. -/
theorem calls_have_results (max_retries : Int) (outcome : Nat → Outcome) (h : 0 ≤ max_retries) :
    (Retry.run (Python.attemptOnce max_retries) outcome 0 (max_retries + 1).toNat).2.isSome ∧
      (Retry.run (Node.attemptOnce max_retries) outcome 0 (max_retries + 1).toNat).2.isSome :=
  ⟨result_isSome _ _ _ outcome h (Python.attemptOnce_none_iff max_retries),
    result_isSome _ _ _ outcome h (Node.attemptOnce_none_iff max_retries)⟩

/-- Of any two attempts within the setting that the server would process, an earlier
outcome ends the call before the second. -/
def EndsBetween (retries : Seen → Bool) (max_retries : Int) (outcome : Nat → Outcome) : Prop :=
  ∀ i j : Nat, i < j → (j : Int) ≤ max_retries →
    (outcome i).processed = true → (outcome j).processed = true →
    ∃ k, k < j ∧ retries (outcome k).seen = false

theorem processedCount_le_one_iff {ρ : Type} (body : Nat → Outcome → Option ρ)
    (retries : Seen → Bool) (max_retries : Int) (outcome : Nat → Outcome)
    (hbody : ∀ attempt o, body attempt o = none ↔
      retries o.seen = true ∧ (attempt : Int) < max_retries) :
    processedCount (Retry.run body outcome 0 (max_retries + 1).toNat).1 outcome ≤ 1 ↔
      EndsBetween retries max_retries outcome := by
  have hmade : ∀ j : Nat, j < (Retry.run body outcome 0 (max_retries + 1).toNat).1 ↔
      (j : Int) ≤ max_retries ∧ ∀ k, k < j → retries (outcome k).seen = true := by
    intro j
    rw [Retry.lt_made_iff body outcome 0 _ j (Nat.zero_le _)]
    constructor
    · intro h
      refine ⟨by omega, fun k hk => ?_⟩
      exact ((hbody k _).mp (h.2 k (Nat.zero_le _) hk)).1
    · intro h
      refine ⟨by omega, fun k _ hk => (hbody k _).mpr ⟨h.2 k hk, by omega⟩⟩
  unfold processedCount EndsBetween
  rw [Retry.countP_range_le_one]
  constructor
  · intro h i j hij hj hi hprocessed
    by_contra hnone
    have hall : ∀ k, k < j → retries (outcome k).seen = true := by
      intro k hk
      by_contra hends
      exact hnone ⟨k, hk, by simpa using hends⟩
    have hsecond := h i j hij ((hmade j).mpr ⟨hj, hall⟩) hi
    cases hsecond.symm.trans hprocessed
  · intro h i j hij hj hi
    obtain ⟨hlimit, hall⟩ := (hmade j).mp hj
    by_contra hprocessed
    obtain ⟨k, hk, hends⟩ := h i j hij hlimit hi (by simpa using hprocessed)
    cases hends.symm.trans (hall k hk)

/-- Every call makes at most one attempt more than it has retries; the server
processes it once at most just when an attempt it has processed is the last one, or
none of those behind it gets that far. -/
theorem retries_process_once_iff (max_retries : Int) (outcome : Nat → Outcome) :
    (Python.request max_retries outcome).1 ≤ (max_retries + 1).toNat ∧
    (Node.request max_retries outcome).1 ≤ (max_retries + 1).toNat ∧
    (processedCount (Python.request max_retries outcome).1 outcome ≤ 1 ↔
      EndsBetween Python.retries max_retries outcome) ∧
    (processedCount (Node.request max_retries outcome).1 outcome ≤ 1 ↔
      EndsBetween Node.retries max_retries outcome) := by
  have hpython := Retry.made_le (Python.attemptOnce max_retries) outcome 0 (max_retries + 1).toNat
  have hnode := Retry.made_le (Node.attemptOnce max_retries) outcome 0 (max_retries + 1).toNat
  rw [Nat.zero_add] at hpython hnode
  refine ⟨hpython, hnode, ?_, ?_⟩
  · exact processedCount_le_one_iff _ _ _ _ (Python.attemptOnce_none_iff max_retries)
  · exact processedCount_le_one_iff _ _ _ _ (Node.attemptOnce_none_iff max_retries)

/-- The server sends the mail, its proxy answers 504, and the second attempt sends it
again. -/
def gatewayTimeout : Nat → Outcome
  | 0 => ⟨true, .response 504 true⟩
  | _ => ⟨true, .response 200 true⟩

theorem gateway_timeout_sends_twice :
    processedCount (Python.request 3 gatewayTimeout).1 gatewayTimeout = 2 ∧
      (Python.request 3 gatewayTimeout).2.toOption = some 200 ∧
      processedCount (Node.request 3 gatewayTimeout).1 gatewayTimeout = 2 ∧
      (Node.request 3 gatewayTimeout).2.toOption = some 200 := by
  decide

end MailCue.Sdk
