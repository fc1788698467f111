import MailCue.Tunnel.Proto.Frame

/-!
# Sidecar relay

tunnel/crates/sidecar/src/relay.rs: one submission over the tunnels the
selector gave, the merge of per-recipient outcomes, and the reply to Postfix.
What a tunnel does with a submission is the outside world's choice and may
depend on which try it is and on the recipients submitted; it includes the
addresses a destination server accepted on behalf of that edge, which the
sidecar does not see. Candidate selection, the pool's own bookkeeping and
logging are not modelled.
-/
namespace MailCue.Tunnel.Sidecar
open MailCue.Lib MailCue.Tunnel.Proto

structure SmtpReply where
  code : Nat
  line : String
  deriving DecidableEq, Repr

inductive PartialFailurePolicy where
  | retry | acceptPartial
  deriving DecidableEq, Repr

inductive SelectionStrategy where
  | orderedFailover | roundRobin | random | weightedRandom
  deriving DecidableEq, Repr

set_option linter.dupNamespace false in
structure Tunnel where
  id : String
  name : String
  deriving DecidableEq, Repr

/-! ## One tunnel -/

inductive TunnelAttempt where
  | result (per_recipient : List RecipientResult)
  | tunnelError (reply : SmtpReply)
  deriving DecidableEq, Repr

/-- What becomes of the leased connection. -/
inductive ConnFate where
  | notLeased | released | discarded
  deriving DecidableEq, Repr

/-- One try of one tunnel. `recv` is absent where reading the reply failed or
timed out; `accepts` tells the submitted addresses that a destination server
accepted on behalf of the edge. -/
structure Attempt where
  request_id : UInt64
  lease : Bool
  send : Bool
  recv : Option Frame
  accepts : String → Bool

def ErrorCode.debug : ErrorCode → String
  | .protocolViolation => "ProtocolViolation"
  | .unauthorized => "Unauthorized"
  | .rateLimited => "RateLimited"
  | .messageTooLarge => "MessageTooLarge"
  | .tooManyRecipients => "TooManyRecipients"
  | .internal => "Internal"

def unavailable : SmtpReply := ⟨421, "421 4.4.1 tunnel unavailable, will retry"⟩

def tryOneTunnel (a : Attempt) : TunnelAttempt × ConnFate :=
  if !a.lease then (.tunnelError unavailable, .notLeased)
  else if !a.send then (.tunnelError unavailable, .discarded)
  else
    match a.recv with
    | none => (.tunnelError unavailable, .discarded)
    | some frame =>
      let unexpected : TunnelAttempt × ConnFate :=
        (.tunnelError ⟨421, "421 4.4.1 unexpected frame from edge"⟩, .discarded)
      match frame with
      | .relayResult got_id per_recipient =>
        if got_id = a.request_id then (.result per_recipient, .released) else unexpected
      | .error _ code message =>
        let code := ErrorCode.debug code
        (.tunnelError ⟨421, s!"421 4.4.1 edge error: {code}: {message}"⟩, .discarded)
      | _ => unexpected

/-! ## Outcomes -/

def isDelivered : RelayStatus → Bool
  | .delivered _ _ _ => true
  | _ => false

/-- Replace the first entry of the recipient, unless that would turn a
delivered one into a failure. -/
def upsertOutcome (acc : List RecipientResult) (r : RecipientResult) : List RecipientResult :=
  match acc with
  | [] => [r]
  | e :: rest =>
    if e.recipient = r.recipient then
      if !isDelivered e.status || isDelivered r.status then r :: rest else e :: rest
    else e :: upsertOutcome rest r

structure OutcomeCounts where
  delivered : Nat
  temp : Nat
  perm : Nat
  total : Nat
  deriving DecidableEq, Repr

def OutcomeCounts.add (c : OutcomeCounts) (r : RecipientResult) : OutcomeCounts :=
  let c := { c with total := c.total + 1 }
  match r.status with
  | .delivered _ _ _ => { c with delivered := c.delivered + 1 }
  | .tempFail _ _ => { c with temp := c.temp + 1 }
  | .permFail _ _ => { c with perm := c.perm + 1 }

def summarise (rs : List RecipientResult) : OutcomeCounts := rs.foldl OutcomeCounts.add ⟨0, 0, 0, 0⟩

def mapOutcomes (tunnel_name : String) (request_id : UInt64) (rs : List RecipientResult)
    (policy : PartialFailurePolicy) : SmtpReply :=
  let c := summarise rs
  if c.total = 0 then ⟨554, "554 5.0.0 no recipients accepted by edge"⟩
  else if c.delivered = c.total then
    ⟨250, s!"250 2.6.0 queued via tunnel {tunnel_name} (req={request_id})"⟩
  else if c.perm = c.total then
    ⟨554, s!"554 5.0.0 all recipients permanently rejected via {tunnel_name} (req={request_id})"⟩
  else if c.temp + c.delivered = c.total ∧ c.delivered = 0 then
    ⟨451, s!"451 4.7.1 transient failure via {tunnel_name} (req={request_id})"⟩
  else if c.perm > 0 then
    match policy with
    | .retry =>
      ⟨451, s!"451 4.7.1 partial failure ({c.delivered} ok, {c.perm} perm, {c.temp} temp) via " ++
        s!"{tunnel_name} (req={request_id}); retrying via different tunnel"⟩
    | .acceptPartial =>
      ⟨250, s!"250 2.6.0 partial accept ({c.delivered} ok, {c.perm} perm, {c.temp} temp) via " ++
        s!"{tunnel_name} (req={request_id})"⟩
  else
    ⟨451, s!"451 4.7.1 partial transient ({c.delivered} ok, {c.temp} temp) via {tunnel_name} " ++
      s!"(req={request_id})"⟩

/-! ## The failover loop -/

/-- A try as it was made: the recipients submitted and what came of it. -/
structure Try where
  submitted : List String
  attempt : Attempt

/-- The loop's variables, and the tries made so far. -/
structure RelayState where
  accumulated : List RecipientResult
  remaining : List String
  last_tunnel_name : String
  last_request_id : UInt64
  tunnel_level_error : Option SmtpReply
  tries : List Try

def failedOf (per_recipient : List RecipientResult) : List String :=
  (per_recipient.filter fun r => !isDelivered r.status).map (·.recipient)

/-- The body of the loop over one tunnel. -/
def relayOver (ordered_failover : Bool) (tunnel : Tunnel) (a : Attempt) (s : RelayState) :
    RelayState :=
  let s := { s with
    last_tunnel_name := tunnel.name
    last_request_id := a.request_id
    tries := s.tries ++ [Try.mk s.remaining a] }
  match (tryOneTunnel a).1 with
  | .result per_recipient =>
    { s with
      tunnel_level_error := none
      accumulated := per_recipient.foldl upsertOutcome s.accumulated
      remaining := if ordered_failover then [] else failedOf per_recipient }
  | .tunnelError reply => { s with tunnel_level_error := some reply }

def relayLoop (ordered_failover : Bool) (world : Nat → List String → Attempt) :
    Nat → List Tunnel → RelayState → RelayState
  | _, [], s => s
  | idx, tunnel :: rest, s =>
    if s.remaining.isEmpty then s
    else
      relayLoop ordered_failover world (idx + 1) rest
        (relayOver ordered_failover tunnel (world idx s.remaining) s)

def relayStart (recipients : List String) : RelayState := ⟨[], recipients, "", 0, none, []⟩

/-- One call of `relay` over the candidates the selector picked. -/
def relay (selection : SelectionStrategy) (policy : PartialFailurePolicy)
    (world : Nat → List String → Attempt) (candidates : List Tunnel) (recipients : List String) :
    SmtpReply × List Try :=
  if candidates.isEmpty then (unavailable, [])
  else
    let s := relayLoop (decide (selection = .orderedFailover)) world 0 candidates
      (relayStart recipients)
    let reply : SmtpReply :=
      if s.accumulated.isEmpty then
        s.tunnel_level_error.getD ⟨421, "421 4.4.1 all tunnels failed"⟩
      else mapOutcomes s.last_tunnel_name s.last_request_id s.accumulated policy
    (reply, s.tries)

end MailCue.Tunnel.Sidecar
