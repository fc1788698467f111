import MailCue.Tunnel.Proto.Frame

/-!
# Edge relay and probe handlers

tunnel/crates/edge/src/relay.rs: validation, grouping by domain, the walk over
MX hosts, and the alignment of outcomes with the caller's recipients. DNS
answers and SMTP sessions are the outside world; `World` gives the answer to
each, the sessions' depending on those held before. Handlers return the
sessions they opened next to their result. Timing and logging are not modelled.
-/
namespace MailCue.Tunnel.Edge
open MailCue.Lib MailCue.Tunnel.Proto

structure EdgeConfig where
  allowed_smtp_ports : List UInt16
  max_message_size_bytes : Nat
  max_recipients_per_request : Nat
  per_client_concurrency : Nat
  connect_timeout_secs : Nat
  smtp_io_timeout_secs : Nat
  deriving DecidableEq, Repr

/-- defaults.rs. -/
def EdgeConfig.default : EdgeConfig where
  allowed_smtp_ports := [25, 465, 587]
  max_message_size_bytes := 52428800
  max_recipients_per_request := 100
  per_client_concurrency := 8
  connect_timeout_secs := 30
  smtp_io_timeout_secs := 120

inductive RelayReject where
  | badSender (m : String)
  | badRecipients (m : String)
  | messageTooLarge
  | tooManyRecipients
  deriving DecidableEq, Repr

/-! ## Text -/

/-- `rsplit_once`: split at the last occurrence. -/
def rsplitOnceChars (c : Char) : List Char → Option (List Char × List Char)
  | [] => none
  | x :: xs =>
    match rsplitOnceChars c xs with
    | some (l, r) => some (x :: l, r)
    | none => if x = c then some ([], xs) else none

def rsplitOnce (s : String) (c : Char) : Option (String × String) :=
  (rsplitOnceChars c s.toList).map fun p => (String.ofList p.1, String.ofList p.2)

def toAsciiLowercase (s : String) : String := s.map Char.toLower

def containsChars (sub : List Char) : List Char → Bool
  | [] => sub.isEmpty
  | c :: cs => sub.isPrefixOf (c :: cs) || containsChars sub cs

/-- `str::contains` with a string pattern. -/
def containsStr (s sub : String) : Bool := containsChars sub.toList s.toList

def endsWith (s suffix : String) : Bool := suffix.toList.isSuffixOf s.toList

/-- `trim_end_matches('.')`. -/
def trimEndDots (s : String) : String :=
  String.ofList (s.toList.reverse.dropWhile fun c => c = '.').reverse

/-- `u8::is_ascii_control`, for the octets of ASCII characters. -/
def isAsciiControl (c : Char) : Bool := c.toNat < 32 || c.toNat = 127

def isValidMailbox (s : String) : Bool :=
  if s.isEmpty || s.utf8ByteSize > 254 then false
  else
    match rsplitOnce s '@' with
    | none => false
    | some (l, domain) =>
      if l.isEmpty || l.utf8ByteSize > 64 || domain.isEmpty || !domain.toList.contains '.' then false
      else !s.toList.any fun c => isAsciiControl c || c = ' ' || c = '<' || c = '>'

def isValidMailboxOrEmpty (s : String) : Bool := s.isEmpty || isValidMailbox s

/-! ## The outside world -/

structure MxRecord where
  host : String
  preference : UInt16
  deriving DecidableEq, Repr

structure SmtpDelivery where
  mx_host : String
  port : UInt16
  helo_name : String
  envelope_from : String
  recipients : List String
  raw_message : Bytes
  connect_timeout : Nat
  io_timeout : Nat
  require_tls : Bool
  probe_only : Bool
  deriving DecidableEq, Repr

structure RecipientOutcome where
  recipient : String
  status : RelayStatus
  latency_ms : UInt32
  deriving DecidableEq, Repr

inductive SmtpAttempt where
  | reached (outcomes : List RecipientOutcome)
  | skipped (reason : String) (transient : Bool)
  deriving DecidableEq, Repr

structure World where
  resolveMx : String → Except String (List MxRecord)
  deliver : List SmtpDelivery → SmtpDelivery → Except String SmtpAttempt

/-! ## Relay -/

/-- The checks before any lookup, in order. -/
def rejectRelay (cfg : EdgeConfig) (envelope_from : String) (recipients : List String)
    (raw_message : Bytes) : Option RelayReject :=
  if !isValidMailboxOrEmpty envelope_from then
    some (.badSender s!"envelope_from `{envelope_from}` is not a valid mailbox")
  else if recipients.isEmpty then some (.badRecipients "no recipients")
  else if recipients.length > cfg.max_recipients_per_request then some .tooManyRecipients
  else if raw_message.length > cfg.max_message_size_bytes then some .messageTooLarge
  else
    match recipients.find? fun r => !isValidMailbox r with
    | some r => some (.badRecipients s!"invalid recipient `{r}`")
    | none => none

abbrev Group := String × List (Nat × String)

/-- `by_domain.entry(domain).or_default().push(..)` on a map kept in key order. -/
def pushGroup (domain : String) (x : Nat × String) : List Group → List Group
  | [] => [(domain, [x])]
  | (key, group) :: rest =>
    if domain = key then (key, group ++ [x]) :: rest
    else if domain < key then (domain, [x]) :: (key, group) :: rest
    else (key, group) :: pushGroup domain x rest

def groupByDomain : Nat → List Group → List String → Except RelayReject (List Group)
  | _, groups, [] => .ok groups
  | idx, groups, rcpt :: rest =>
    match rsplitOnce rcpt '@' with
    | none => .error (.badRecipients s!"missing @ in `{rcpt}`")
    | some (_, domain) =>
      groupByDomain (idx + 1) (pushGroup (toAsciiLowercase domain) (idx, rcpt) groups) rest

def ioTimeout (cfg : EdgeConfig) (opts : RelayOpts) : Nat :=
  if opts.timeout_secs = 0 then cfg.smtp_io_timeout_secs else opts.timeout_secs.toNat

/-- What every session of one request has in common. -/
structure Submission where
  cfg : EdgeConfig
  world : World
  helo_name : String
  envelope_from : String
  raw_message : Bytes
  opts : RelayOpts

def Submission.delivery (sub : Submission) (mx : MxRecord) (port : UInt16)
    (group_rcpts : List String) : SmtpDelivery where
  mx_host := mx.host
  port := port
  helo_name := sub.helo_name
  envelope_from := sub.envelope_from
  recipients := group_rcpts
  raw_message := sub.raw_message
  connect_timeout := sub.cfg.connect_timeout_secs
  io_timeout := ioTimeout sub.cfg sub.opts
  require_tls := sub.opts.require_tls
  probe_only := false

/-- The `'mx` loop over hosts and, for each, ports: the sessions opened, the
statuses of the one that reached the recipients, and the last reason to skip. -/
def walkMx (sub : Submission) (group_rcpts : List String) :
    List (MxRecord × UInt16) → List SmtpDelivery → Option String →
      List SmtpDelivery × Option (List RelayStatus) × Option String
  | [], calls, last_skip => (calls, none, last_skip)
  | (mx, port) :: rest, calls, last_skip =>
    if port ≠ 25 then walkMx sub group_rcpts rest calls last_skip
    else
      let d := sub.delivery mx port group_rcpts
      match sub.world.deliver calls d with
      | .error e => walkMx sub group_rcpts rest (calls ++ [d]) (some s!"{mx.host}: {e}")
      | .ok (.reached outcomes) => (calls ++ [d], some (outcomes.map (·.status)), last_skip)
      | .ok (.skipped reason _) =>
        walkMx sub group_rcpts rest (calls ++ [d]) (some s!"{mx.host}: {reason}")

/-- Assign each index its status, up to the shorter of the two lists. -/
def placeAll (results : List (Option RelayStatus)) : List Nat → List RelayStatus →
    List (Option RelayStatus)
  | idx :: indices, status :: outcomes =>
    placeAll (results.set idx (some status)) indices outcomes
  | _, _ => results

def relayGroup (sub : Submission) (calls : List SmtpDelivery)
    (results : List (Option RelayStatus)) (g : Group) :
    List SmtpDelivery × List (Option RelayStatus) :=
  let group_rcpts := g.2.map (·.2)
  let group_indices := g.2.map (·.1)
  let failAll (reason : String) : List (Option RelayStatus) :=
    placeAll results group_indices (group_indices.map fun _ => .tempFail reason none)
  match sub.world.resolveMx g.1 with
  | .error e => (calls, failAll s!"MX lookup for {g.1}: {e}")
  | .ok mxs =>
    let attempts := mxs.flatMap fun mx => sub.cfg.allowed_smtp_ports.map fun port => (mx, port)
    match walkMx sub group_rcpts attempts calls none with
    | (calls, some outcomes, _) => (calls, placeAll results group_indices outcomes)
    | (calls, none, last_skip) =>
      (calls, failAll (last_skip.getD s!"no usable MX for {g.1}"))

def relayGroups (sub : Submission) : List Group → List SmtpDelivery →
    List (Option RelayStatus) → List SmtpDelivery × List (Option RelayStatus)
  | [], calls, results => (calls, results)
  | g :: rest, calls, results =>
    let step := relayGroup sub calls results g
    relayGroups sub rest step.1 step.2

/-- `final_results`: one result for each recipient, in the caller's order. -/
def finalResults (recipients : List String) (results : List (Option RelayStatus)) :
    List RecipientResult :=
  recipients.mapIdx fun idx rcpt =>
    ⟨rcpt, (results[idx]?.join).getD (.tempFail "internal: missing outcome" none)⟩

def handleRelay (cfg : EdgeConfig) (world : World) (helo_name envelope_from : String)
    (recipients : List String) (raw_message : Bytes) (opts : RelayOpts) :
    Except RelayReject (List RecipientResult) × List SmtpDelivery :=
  match rejectRelay cfg envelope_from recipients raw_message with
  | some rej => (.error rej, [])
  | none =>
    match groupByDomain 0 [] recipients with
    | .error rej => (.error rej, [])
    | .ok by_domain =>
      let sub : Submission := ⟨cfg, world, helo_name, envelope_from, raw_message, opts⟩
      let out := relayGroups sub by_domain [] (recipients.map fun _ => none)
      (.ok (finalResults recipients out.2), out.1)

/-- The results are one for each recipient, in the request's order. -/
theorem handleRelay_recipients (cfg : EdgeConfig) (world : World) (helo_name envelope_from : String)
    (recipients : List String) (raw_message : Bytes) (opts : RelayOpts) (rs : List RecipientResult)
    (h : (handleRelay cfg world helo_name envelope_from recipients raw_message opts).1 = .ok rs) :
    rs.map (·.recipient) = recipients := by
  unfold handleRelay at h
  split at h
  · cases h
  · split at h
    · cases h
    · cases h
      apply List.ext_getElem
      · simp [finalResults]
      · intro i h1 h2
        simp [finalResults]

/-! ## Probe -/

def POLICY_MARKERS : List String :=
  ["blocked", "blacklist", "blocklist", "denylist", "spamhaus", "reputation", "access denied",
    "relay access denied", "relaying denied", "client host rejected", "not authorized",
    "sender verify failed"]

def UNIVERSAL_CODES : List String :=
  ["5.1.0", "5.1.1", "5.1.2", "5.1.3", "5.1.6", "5.1.10", "5.2.1"]

def STRONG_MARKERS : List String :=
  ["no such user", "no such recipient", "no such mailbox", "user unknown", "unknown user",
    "unknown recipient", "unknown mailbox", "recipient not found", "recipient unknown",
    "user not found", "mailbox not found", "mailbox does not exist", "does not exist",
    "invalid recipient", "recipientnotfound", "unrouteable address"]

def WEAK_MARKERS : List String := ["recipient rejected", "address rejected", "invalid address"]

def isMicrosoftMx (mx : String) : Bool :=
  let lower := toAsciiLowercase (trimEndDots mx)
  endsWith lower "mail.protection.outlook.com" || endsWith lower "mail.eo.outlook.com" ||
    endsWith lower "olc.protection.outlook.com" || endsWith lower "mail.protection.office365.us"

def definitiveRecipientRejection (message mx : String) : Bool :=
  let lower := toAsciiLowercase message
  if UNIVERSAL_CODES.any (containsStr lower) then true
  else if isMicrosoftMx mx && containsStr lower "5.4.1" then true
  else if STRONG_MARKERS.any (containsStr lower) then true
  else if POLICY_MARKERS.any (containsStr lower) then false
  else WEAK_MARKERS.any (containsStr lower)

def probeOutcome (mx : String) (status : RelayStatus) (latency_ms : UInt32) : ProbeOutcome :=
  match status with
  | .delivered _ smtp_code smtp_msg => ⟨mx, some smtp_code, smtp_msg, .accepted, latency_ms⟩
  | .tempFail reason smtp_code => ⟨mx, smtp_code, reason, .unknown, latency_ms⟩
  | .permFail reason smtp_code =>
    let status := if definitiveRecipientRejection reason mx then .rejected else .unknown
    ⟨mx, smtp_code, reason, status, latency_ms⟩

def unknownProbe (mx reason : String) : ProbeOutcome :=
  ⟨mx, none, String.ofList (reason.toList.take 300), .unknown, 0⟩

inductive ProbeAttemptResult where
  | reached (outcome : ProbeOutcome)
  | senderRejected (reason : String)
  | unreachable (reason : String)
  deriving DecidableEq, Repr

def Submission.probe (sub : Submission) (mx : MxRecord) (probe_sender recipient : String) :
    SmtpDelivery :=
  { sub.delivery mx 25 [recipient] with
    envelope_from := probe_sender, raw_message := [], probe_only := true }

/-- `probe_single`: one recipient in its own SMTP envelope. -/
def probeSingle (sub : Submission) (mx : MxRecord) (probe_sender recipient : String)
    (calls : List SmtpDelivery) : List SmtpDelivery × ProbeAttemptResult :=
  let d := sub.probe mx probe_sender recipient
  (calls ++ [d],
    match sub.world.deliver calls d with
    | .ok (.reached outcomes) =>
      .reached ((outcomes.map fun o => probeOutcome mx.host o.status o.latency_ms).head?.getD
        (unknownProbe mx.host "missing probe outcome"))
    | .ok (.skipped reason _) =>
      if "MAIL FROM:".toList.isPrefixOf reason.toList then .senderRejected reason
      else .unreachable reason
    | .error e => .unreachable e)

/-- How one pair of MX and sender ends. -/
inductive SenderPass where
  | done (target : ProbeOutcome) (controls : List ProbeOutcome)
  | senderRejected (reason : String)
  | unreachable (reason : String)

/-- The controls after the first, up to the one that fails. -/
def probeControls (sub : Submission) (mx : MxRecord) (probe_sender : String) :
    List String → List SmtpDelivery → List ProbeOutcome → List SmtpDelivery × List ProbeOutcome
  | [], calls, controls => (calls, controls)
  | control :: rest, calls, controls =>
    match probeSingle sub mx probe_sender control calls with
    | (calls, .reached outcome) =>
      probeControls sub mx probe_sender rest calls (controls ++ [outcome])
    | (calls, .senderRejected reason) => (calls, controls ++ [unknownProbe mx.host reason])
    | (calls, .unreachable reason) => (calls, controls ++ [unknownProbe mx.host reason])

def probeTarget (sub : Submission) (mx : MxRecord) (probe_sender recipient : String)
    (control_recipients : List String) (calls : List SmtpDelivery) (controls : List ProbeOutcome) :
    List SmtpDelivery × SenderPass :=
  match probeSingle sub mx probe_sender recipient calls with
  | (calls, .senderRejected reason) => (calls, .senderRejected reason)
  | (calls, .unreachable reason) => (calls, .unreachable reason)
  | (calls, .reached target) =>
    if target.status ≠ .accepted then (calls, .done target controls)
    else
      let out := probeControls sub mx probe_sender (control_recipients.drop 1) calls controls
      (out.1, .done target out.2)

def probeSender (sub : Submission) (mx : MxRecord) (probe_sender recipient : String)
    (control_recipients : List String) (calls : List SmtpDelivery) :
    List SmtpDelivery × SenderPass :=
  match control_recipients.head? with
  | none => probeTarget sub mx probe_sender recipient control_recipients calls []
  | some control =>
    match probeSingle sub mx probe_sender control calls with
    | (calls, .senderRejected reason) => (calls, .senderRejected reason)
    | (calls, .unreachable reason) => (calls, .unreachable reason)
    | (calls, .reached outcome) =>
      probeTarget sub mx probe_sender recipient control_recipients calls [outcome]

/-- The loop over MX hosts. The empty sender is tried where the host refused a
sender that was not already empty. -/
def probeMxs (sub : Submission) (recipient : String) (control_recipients : List String) :
    List MxRecord → List SmtpDelivery → String →
      (ProbeOutcome × List ProbeOutcome) × List SmtpDelivery
  | [], calls, last_reason => ((unknownProbe "" last_reason, []), calls)
  | mx :: rest, calls, _ =>
    match probeSender sub mx sub.envelope_from recipient control_recipients calls with
    | (calls, .done target controls) => ((target, controls), calls)
    | (calls, .unreachable reason) =>
      probeMxs sub recipient control_recipients rest calls reason
    | (calls, .senderRejected reason) =>
      if sub.envelope_from.isEmpty then
        probeMxs sub recipient control_recipients rest calls reason
      else
        match probeSender sub mx "" recipient control_recipients calls with
        | (calls, .done target controls) => ((target, controls), calls)
        | (calls, .unreachable reason) =>
          probeMxs sub recipient control_recipients rest calls reason
        | (calls, .senderRejected reason) =>
          probeMxs sub recipient control_recipients rest calls reason

/-- The checks on the controls, in order. -/
def rejectControls (domain : String) : List String → Option RelayReject
  | [] => none
  | control :: rest =>
    if !isValidMailbox control then some (.badRecipients "invalid probe control recipient")
    else
      match rsplitOnce control '@' with
      | none => some (.badRecipients "control recipient missing @")
      | some (_, value) =>
        if domain ≠ toAsciiLowercase value then
          some (.badRecipients "probe recipients must share a domain")
        else rejectControls domain rest

def handleProbe (cfg : EdgeConfig) (world : World) (helo_name envelope_from recipient : String)
    (control_recipients : List String) (opts : RelayOpts) :
    Except RelayReject (ProbeOutcome × List ProbeOutcome) × List SmtpDelivery :=
  if !isValidMailboxOrEmpty envelope_from then
    (.error (.badSender "invalid probe sender"), [])
  else if !isValidMailbox recipient then (.error (.badRecipients "invalid probe recipient"), [])
  else
    match rsplitOnce recipient '@' with
    | none => (.error (.badRecipients "recipient missing @"), [])
    | some (_, value) =>
      let domain := toAsciiLowercase value
      match rejectControls domain control_recipients with
      | some rej => (.error rej, [])
      | none =>
        match world.resolveMx domain with
        | .error e => (.error (.badRecipients s!"MX lookup for {domain} failed: {e}"), [])
        | .ok mxs =>
          let sub : Submission := ⟨cfg, world, helo_name, envelope_from, [], opts⟩
          let out := probeMxs sub recipient control_recipients mxs [] "no reachable MX"
          (.ok out.1, out.2)

end MailCue.Tunnel.Edge
