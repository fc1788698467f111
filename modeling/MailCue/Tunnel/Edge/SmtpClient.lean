import MailCue.Lib.Talk
import MailCue.Tunnel.Edge.Relay

/-!
# Edge SMTP client

tunnel/crates/edge/src/smtp_client.rs: one session with an MX. What the host answers, at
the level of connections, handshakes and whole replies, is the outside world's and may
depend on all that has passed in the session; so are the clock and the failures of reads
and writes, with their timeouts. A write that fails is recorded as a command without a
reply.
-/
namespace MailCue.Tunnel.Edge.SmtpClient
open MailCue.Lib MailCue.Tunnel.Proto

/-! ## Replies -/

structure Reply where
  code : UInt16
  text : String
  deriving DecidableEq, Repr

namespace Reply

variable (r : Reply)

def is2xx : Bool := 200 ≤ r.code && r.code < 300
def is3xx : Bool := 300 ≤ r.code && r.code < 400
def is4xx : Bool := 400 ≤ r.code && r.code < 500

end Reply

/-- `char::is_whitespace`. -/
def isWhitespace (c : Char) : Bool :=
  let n := c.toNat
  (9 ≤ n && n ≤ 13) || n = 0x20 || n = 0x85 || n = 0xA0 || n = 0x1680 ||
    (0x2000 ≤ n && n ≤ 0x200A) || n = 0x2028 || n = 0x2029 || n = 0x202F || n = 0x205F ||
    n = 0x3000

def trimChars (cs : List Char) : List Char :=
  ((cs.dropWhile isWhitespace).reverse.dropWhile isWhitespace).reverse

def firstLine (s : String) : String :=
  String.ofList (trimChars (s.toList.takeWhile (· ≠ '\n')))

def starttlsOffered (extensions : String) : Bool :=
  (extensions.toList.splitOn '\n').any fun l =>
    let upper := (trimChars l).map Char.toUpper
    upper == "STARTTLS".toList || containsChars " STARTTLS".toList upper

/-! ## The message on the wire -/

/-- A dot at the start of a line is doubled. -/
def dotStuffFrom (at_line_start : Bool) : Bytes → Bytes
  | [] => []
  | b :: raw =>
    if at_line_start ∧ b = 46 then 46 :: b :: dotStuffFrom (b = 10) raw
    else b :: dotStuffFrom (b = 10) raw

def crlfNormaliseFrom (prev : Option UInt8) : Bytes → Bytes
  | [] => []
  | b :: raw =>
    if b = 10 ∧ prev ≠ some 13 then 13 :: b :: crlfNormaliseFrom (some b) raw
    else b :: crlfNormaliseFrom (some b) raw

def dotStuff (raw : Bytes) : Bytes := crlfNormaliseFrom none (dotStuffFrom true raw)

/-- What `write_body` writes, where no write fails. -/
def writeBody (raw : Bytes) : Bytes :=
  let stuffed := dotStuff raw
  stuffed ++ (if [13, 10].isSuffixOf stuffed then [] else [13, 10]) ++ [46, 13, 10]

def safeHelo (helo_name : String) : String :=
  let safe_helo := helo_name.toList.filter fun ch =>
    ch.isAlphanum || ch == '.' || ch == '-' || ch == ':' || ch == '[' || ch == ']'
  if safe_helo = [] then "unknown" else String.ofList safe_helo

def addRelayReceivedHeader (raw : Bytes) (helo_name date : String) : Bytes :=
  let header := "Received: from mailcue-sidecar (authenticated MailCue tunnel)\r\n" ++
    s!"\tby {safeHelo helo_name} with ESMTP;\r\n" ++ s!"\t{date}\r\n"
  header.toUTF8.toList ++ raw

/-! ## Sessions -/

inductive Command where
  | ehlo (name : String)
  | helo (name : String)
  | starttls
  | mail (envelope_from : String)
  | rcpt (recipient : String)
  | data
  | quit
  deriving DecidableEq, Repr

def Command.line : Command → String
  | ehlo name => s!"EHLO {name}\r\n"
  | helo name => s!"HELO {name}\r\n"
  | starttls => "STARTTLS\r\n"
  | mail envelope_from => s!"MAIL FROM:<{envelope_from}>\r\n"
  | rcpt recipient => s!"RCPT TO:<{recipient}>\r\n"
  | data => "DATA\r\n"
  | quit => "QUIT\r\n"

inductive Connected where
  | connected
  | refused (e : String)
  | timedOut
  deriving DecidableEq, Repr

/-- What becomes of a body: it breaks off before its last octet is out, or the reply to
it does not come, or it comes. -/
inductive BodyAnswer where
  | cut (e : String)
  | lost (e : String)
  | replied (reply : Reply)
  deriving DecidableEq, Repr

/-- What passes in a session. `secure` says whether it is under TLS. -/
inductive Event where
  | connect (answer : Connected)
  | banner (answer : Except String Reply)
  | command (secure : Bool) (c : Command) (answer : Except String Reply)
  | handshake (answer : Except String Unit)
  | body (secure : Bool) (octets : Bytes) (answer : BodyAnswer)

/-- The host, the network and the clock. -/
structure Peer where
  connect : List Event → Connected
  banner : List Event → Except String Reply
  answer : List Event → Bool → Command → Except String Reply
  handshake : List Event → Except String Unit
  body : List Event → Bool → Bytes → BodyAnswer
  elapsed : List Event → Nat
  date : List Event → String

namespace Peer

variable (peer : Peer) (d : SmtpDelivery)

def dial : Talk Event String Connected := .exchange peer.connect .connect

def readReply : Talk Event String Reply := do
  .ofExcept (← .exchange peer.banner .banner)

def sendCmd (secure : Bool) (c : Command) : Talk Event String Reply := do
  .ofExcept (← .exchange (peer.answer · secure c) (.command secure c))

def quit (secure : Bool) : Talk Event String Unit := do
  let _ ← Talk.attempt (peer.sendCmd secure .quit)

/-- `write_body` and the reply behind it. -/
def sendBody (secure : Bool) (octets : Bytes) : Talk Event String Reply := do
  match ← .exchange (peer.body · secure octets) (.body secure octets) with
  | .cut e => .ofExcept (.error e)
  | .lost e => .ofExcept (.error e)
  | .replied reply => pure reply

def rcptOutcome (mx_host rcpt : String) (latency_ms : UInt32) (reply : Reply) : RecipientOutcome :=
  if reply.is2xx then
    ⟨rcpt, .delivered mx_host reply.code (firstLine reply.text), latency_ms⟩
  else if reply.is4xx then
    ⟨rcpt, .tempFail s!"RCPT TO: {firstLine reply.text}" (some reply.code), latency_ms⟩
  else ⟨rcpt, .permFail s!"RCPT TO: {firstLine reply.text}" (some reply.code), latency_ms⟩

def rcptAll (secure : Bool) : List String → Nat → List RecipientOutcome → List Nat →
    Talk Event String (List RecipientOutcome × List Nat)
  | [], _, outcomes, accepted => pure (outcomes, accepted)
  | rcpt :: rest, idx, outcomes, accepted => do
    let reply ← peer.sendCmd secure (.rcpt rcpt)
    let elapsed ← Talk.look peer.elapsed
    let latency_ms := UInt32.ofNat (min elapsed (2 ^ 32 - 1))
    rcptAll secure rest (idx + 1)
      (outcomes ++ [rcptOutcome d.mx_host rcpt latency_ms reply])
      (if reply.is2xx then accepted ++ [idx] else accepted)

/-- `outcomes[idx].status = ..` for each accepted index. -/
def setStatus (f : RelayStatus → RelayStatus) (accepted : List Nat)
    (outcomes : List RecipientOutcome) : List RecipientOutcome :=
  accepted.foldl (fun outcomes idx => outcomes.modify idx fun o => { o with status := f o.status })
    outcomes

/-- The status of the accepted recipients where DATA or the message was refused. -/
def refusal (stage : String) (reply : Reply) : RelayStatus :=
  let reason := s!"{stage}: {firstLine reply.text}"
  if reply.is4xx then .tempFail reason (some reply.code) else .permFail reason (some reply.code)

def acknowledged (mx_host : String) (reply : Reply) (status : RelayStatus) : RelayStatus :=
  let mx := match status with
    | .delivered mx _ _ => mx
    | _ => mx_host
  .delivered mx reply.code (firstLine reply.text)

/-- From the accepted recipients on. -/
def transmit (secure : Bool) (outcomes : List RecipientOutcome) (accepted : List Nat) :
    Talk Event String SmtpAttempt := do
  let data ← peer.sendCmd secure .data
  if !data.is3xx then
    peer.quit secure
    pure (.reached (setStatus (fun _ => refusal "DATA" data) accepted outcomes))
  else
    let date ← Talk.look peer.date
    let traced_message := addRelayReceivedHeader d.raw_message d.helo_name date
    let final_reply ← peer.sendBody secure (writeBody traced_message)
    peer.quit secure
    if !final_reply.is2xx then
      pure (.reached (setStatus (fun _ => refusal "DATA end" final_reply) accepted outcomes))
    else
      pure (.reached (setStatus (acknowledged d.mx_host final_reply) accepted outcomes))

/-- From MAIL FROM on. -/
def transaction (secure : Bool) : Talk Event String SmtpAttempt := do
  let mail_from ← peer.sendCmd secure (.mail d.envelope_from)
  if !mail_from.is2xx then
    pure (.skipped s!"MAIL FROM: {mail_from.code} {mail_from.text}" mail_from.is4xx)
  else
    let (outcomes, accepted) ← peer.rcptAll d secure d.recipients 0 [] []
    if accepted.isEmpty then
      peer.quit secure
      pure (.reached outcomes)
    else if d.probe_only then
      peer.quit secure
      pure (.reached outcomes)
    else peer.transmit d secure outcomes accepted

def attemptStarttls : Talk Event String Unit := do
  let reply ← peer.sendCmd false .starttls
  if !reply.is2xx then .ofExcept (.error s!"STARTTLS refused: {reply.code} {reply.text}")
  else
    .ofExcept (← .exchange peer.handshake .handshake)
    let reply ← peer.sendCmd true (.ehlo d.helo_name)
    if !reply.is2xx then .ofExcept (.error s!"EHLO inside TLS: {reply.code} {reply.text}")
    else pure ()

/-- Plaintext after a failed upgrade, on a new connection. -/
def fallback : Talk Event String SmtpAttempt := do
  match ← peer.dial with
  | .connected =>
    let banner ← peer.readReply
    if !banner.is2xx then
      pure (.skipped s!"post-fallback banner {banner.code}: {banner.text}" banner.is4xx)
    else
      let helo ← peer.sendCmd false (.ehlo d.helo_name)
      if !helo.is2xx then
        pure (.skipped s!"EHLO after fallback: {helo.code} {helo.text}" helo.is4xx)
      else peer.transaction d false
  | _ => pure (.skipped "reconnect after STARTTLS failure failed" true)

/-- From the answer to EHLO on. -/
def upgrade (extensions : String) : Talk Event String SmtpAttempt := do
  if starttlsOffered extensions then
    match ← Talk.attempt (peer.attemptStarttls d) with
    | .ok () => peer.transaction d true
    | .error e =>
      if d.require_tls then pure (.skipped s!"STARTTLS required but failed: {e}" true)
      else peer.fallback d
  else if d.require_tls then pure (.skipped "STARTTLS required but not offered" true)
  else peer.transaction d false

/-- EHLO, or HELO where that is refused. -/
def greet : Talk Event String SmtpAttempt := do
  let ehlo ← peer.sendCmd false (.ehlo d.helo_name)
  if ehlo.is2xx then peer.upgrade d ehlo.text
  else
    let helo ← peer.sendCmd false (.helo d.helo_name)
    if !helo.is2xx then
      pure (.skipped s!"HELO/EHLO refused: {helo.code} {helo.text}" helo.is4xx)
    else peer.upgrade d ""

def deliver : Talk Event String SmtpAttempt := do
  let connect_target := s!"{d.mx_host}:{d.port}"
  match ← peer.dial with
  | .refused e => pure (.skipped s!"connect {connect_target}: {e}" true)
  | .timedOut => pure (.skipped s!"connect timeout {connect_target}" true)
  | .connected =>
    match ← Talk.attempt peer.readReply with
    | .error e => pure (.skipped s!"banner: {e}" true)
    | .ok banner =>
      if !banner.is2xx then
        pure (.skipped s!"banner {banner.code}: {banner.text}" banner.is4xx)
      else peer.greet d

end Peer

end MailCue.Tunnel.Edge.SmtpClient
