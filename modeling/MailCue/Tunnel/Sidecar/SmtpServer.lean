import MailCue.Lib.Transition
import MailCue.Tunnel.Edge.Relay
import MailCue.Tunnel.Sidecar.Relay

/-!
# Sidecar SMTP submission server

tunnel/crates/sidecar/src/smtp_server.rs: the session loop and the body reader,
as a machine over the octets of the client and the end of the stream. A session
is always blocked in one `read_line`, either for a command or inside
`read_data`; the octets of the line so far are part of the state. The replies
of the relay and the random control recipients are the outside world's. Writes
succeed. The SIZE parameter, parsed and then ignored, is left out.
-/
namespace MailCue.Tunnel.Sidecar
open MailCue.Lib

/-! ## Text -/

/-- `char::is_whitespace`. -/
def isWhitespace (c : Char) : Bool :=
  let n := c.toNat
  (9 ≤ n && n ≤ 13) || n = 0x20 || n = 0x85 || n = 0xA0 || n = 0x1680 ||
    (0x2000 ≤ n && n ≤ 0x200A) || n = 0x2028 || n = 0x2029 || n = 0x202F || n = 0x205F ||
    n = 0x3000

/-- `char::is_ascii_whitespace`. -/
def isAsciiWhitespace (c : Char) : Bool :=
  let n := c.toNat
  n = 9 || n = 10 || n = 12 || n = 13 || n = 32

def trimStart (cs : List Char) : List Char := cs.dropWhile isWhitespace

def trim (cs : List Char) : List Char := ((trimStart cs).reverse.dropWhile isWhitespace).reverse

/-- The words between separators, none of them empty. -/
def splitWords (sep : Char → Bool) : List Char → List (List Char)
  | [] => []
  | c :: cs =>
    if sep c then splitWords sep cs
    else
      match cs, splitWords sep cs with
      | [], _ => [[c]]
      | _, [] => [[c]]
      | d :: _, w :: ws => if sep d then [c] :: w :: ws else (c :: w) :: ws

/-- `get(n..)`: absent past the end or inside a character. -/
def getFrom : Nat → List Char → Option (List Char)
  | 0, cs => some cs
  | _ + 1, [] => none
  | n + 1, c :: cs => if c.utf8Size ≤ n + 1 then getFrom (n + 1 - c.utf8Size) cs else none

/-- What follows the first occurrence of an upper-case pattern, found in the
upper-cased text. -/
def afterFirst (pat : List Char) : List Char → Option (List Char)
  | [] => if pat = [] then some [] else none
  | c :: cs =>
    if ((c :: cs).take pat.length).map Char.toUpper = pat then some ((c :: cs).drop pat.length)
    else afterFirst pat cs

def firstWord (s : String) : String :=
  String.ofList ((trimStart s.toList).takeWhile fun c => !isWhitespace c)

/-- The same function as the edge's. -/
def isValidMailbox (s : String) : Bool := Edge.isValidMailbox s

def extractAngled (s : List Char) : Option (List Char) :=
  match trimStart s with
  | '<' :: rest => if '>' ∈ rest then some (rest.takeWhile fun c => c ≠ '>') else none
  | _ => none

def parseMailFrom (rest : List Char) : Except String String :=
  match afterFirst "FROM:".toList rest with
  | none => .error "missing FROM:"
  | some after =>
    match extractAngled (trimStart after) with
    | none => .error "expected <addr>"
    | some angled =>
      let addr := String.ofList (trim angled)
      if !addr.isEmpty && !isValidMailbox addr then .error s!"invalid mailbox `{addr}`"
      else .ok addr

def parseRcptTo (rest : List Char) : Except String String :=
  match afterFirst "TO:".toList rest with
  | none => .error "missing TO:"
  | some after =>
    match extractAngled (trimStart after) with
    | none => .error "expected <addr>"
    | some angled =>
      let addr := String.ofList (trim angled)
      if !isValidMailbox addr then .error s!"invalid mailbox `{addr}`" else .ok addr

/-- `parse::<usize>`, for the counts that matter here. -/
def parseUsize (cs : List Char) : Option Nat :=
  let digits := match cs with
    | '+' :: rest => rest
    | _ => cs
  if digits ≠ [] ∧ digits.all Char.isDigit then
    let n := digits.foldl (fun n c => 10 * n + (c.toNat - 48)) 0
    if n < 2 ^ 64 then some n else none
  else none

/-! ## The body reader -/

/-- Drop one CRLF, or one bare LF. -/
def trimEol (raw : Bytes) : Bytes :=
  if [13, 10].isSuffixOf raw then raw.take (raw.length - 2)
  else if [10].isSuffixOf raw then raw.take (raw.length - 1)
  else raw

/-- Dot-unstuff: a leading dot is removed. -/
def unstuff : Bytes → Bytes
  | 46 :: rest => rest
  | trimmed => trimmed

inductive DataStep where
  | done
  | more (buf : Bytes)
  | tooLarge
  deriving DecidableEq, Repr

/-- One pass of the `read_data` loop. -/
def readDataLine (max : Nat) (buf raw : Bytes) : DataStep :=
  let trimmed := trimEol raw
  if trimmed = [46] then .done
  else
    let payload := unstuff trimmed
    if buf.length + payload.length + 2 > max then .tooLarge
    else .more (buf ++ payload ++ [13, 10])

/-! ## The session -/

def DEFAULT_CONTROL_COUNT : Nat := 3
def MAX_CONTROL_COUNT : Nat := 5

structure SessionState where
  helo : Option String
  envelope_from : Option String
  recipients : List String
  deriving DecidableEq, Repr

def SessionState.default : SessionState := ⟨none, none, []⟩

inductive SessionEvent where
  | reply (line : String)
  | relayed (envelope_from : String) (recipients : List String) (body : Bytes)
  | probed (sender recipient : String) (controls : List String)
  deriving DecidableEq

/-- The configuration of the server and what it meets outside; the relay's
answers may depend on everything that happened in the session. -/
structure Server where
  max_message_size_bytes : Nat
  max_recipients_per_request : Nat
  helo_self : String
  trusted : Bool
  relay : List SessionEvent → String → List String → Bytes → SmtpReply
  probe : List SessionEvent → String → String → List String → SmtpReply
  controlRecipients : List SessionEvent → String → String → Nat → List String

/-- Where the session is blocked. -/
inductive Reading where
  | command
  | data (buf : Bytes)
  | closed
  deriving DecidableEq, Repr

/-- What one line leads to. -/
structure Outcome where
  reading : Reading
  state : SessionState
  events : List SessionEvent

namespace Server

variable (srv : Server)

def say (st : SessionState) (line : String) : Outcome := ⟨.command, st, [.reply line]⟩

def onMail (st : SessionState) (trimmed : List Char) : Outcome :=
  if st.helo.isNone then say st "503 5.5.1 send EHLO/HELO first"
  else
    match getFrom 4 trimmed with
    | none => say st "501 5.5.4 syntax: MAIL FROM:<addr>"
    | some rest =>
      match parseMailFrom rest with
      | .ok addr =>
        say { st with envelope_from := some addr, recipients := [] } "250 2.1.0 sender ok"
      | .error reason => say st s!"501 5.5.4 syntax: {reason}"

def onRcpt (st : SessionState) (trimmed : List Char) : Outcome :=
  if st.envelope_from.isNone then say st "503 5.5.1 need MAIL FROM first"
  else if st.recipients.length ≥ srv.max_recipients_per_request then
    say st "452 4.5.3 too many recipients"
  else
    match getFrom 4 trimmed with
    | none => say st "501 5.5.4 syntax: RCPT TO:<addr>"
    | some rest =>
      match parseRcptTo rest with
      | .ok addr => say { st with recipients := st.recipients ++ [addr] } "250 2.1.5 recipient ok"
      | .error reason => say st s!"501 5.5.4 syntax: {reason}"

def onProbe (history : List SessionEvent) (st : SessionState) (trimmed : List Char) : Outcome :=
  if st.helo.isNone then say st "503 5.5.1 send EHLO first"
  else
    let args := splitWords isAsciiWhitespace trimmed
    if args.length < 3 ∨ args.length > 4 then
      say st "501 5.5.4 syntax: XMAILCUEPROBE recipient envelope-sender [controls]"
    else
      let recipient := String.ofList (args.getD 1 [])
      let sender := args.getD 2 []
      let control_count :=
        min ((args[3]?.bind parseUsize).getD DEFAULT_CONTROL_COUNT) MAX_CONTROL_COUNT
      match Edge.rsplitOnce recipient '@' with
      | none => say st "501 5.1.3 invalid recipient"
      | some (local_part, domain) =>
        if domain.isEmpty || sender.any isWhitespace then
          say st "501 5.1.3 invalid probe arguments"
        else
          let controls := srv.controlRecipients history local_part domain control_count
          let reply := srv.probe history (String.ofList sender) recipient controls
          ⟨.command, st, [.probed (String.ofList sender) recipient controls, .reply reply.line]⟩

/-- The body of the session loop on one command line. -/
def onCommand (history : List SessionEvent) (st : SessionState) (line : String) : Outcome :=
  let trimmed := (line.toList.reverse.dropWhile fun c => c = '\r' || c = '\n').reverse
  let cmd := firstWord (String.ofList (trimmed.map Char.toUpper))
  let domain := String.ofList (trim ((getFrom 5 trimmed).getD []))
  if cmd = "EHLO" then
    ⟨.command, { SessionState.default with helo := some domain },
      [.reply s!"250-{srv.helo_self} hello {domain}",
        .reply s!"250-SIZE {srv.max_message_size_bytes}", .reply "250-8BITMIME",
        .reply "250-PIPELINING", .reply "250-XMAILCUEPROBE", .reply "250 ENHANCEDSTATUSCODES"]⟩
  else if cmd = "HELO" then
    say { SessionState.default with helo := some domain } s!"250 {srv.helo_self} hello {domain}"
  else if cmd = "MAIL" then onMail st trimmed
  else if cmd = "RCPT" then srv.onRcpt st trimmed
  else if cmd = "DATA" then
    if st.envelope_from.isNone || st.recipients.isEmpty then say st "503 5.5.1 need MAIL/RCPT first"
    else ⟨.data [], st, [.reply "354 end data with <CR><LF>.<CR><LF>"]⟩
  else if cmd = "RSET" then say { SessionState.default with helo := st.helo } "250 2.0.0 ok"
  else if cmd = "NOOP" then say st "250 2.0.0 ok"
  else if cmd = "XMAILCUEPROBE" then srv.onProbe history st trimmed
  else if cmd = "VRFY" then say st "502 5.5.1 VRFY not implemented"
  else if cmd = "QUIT" then ⟨.closed, st, [.reply "221 2.0.0 bye"]⟩
  else say st "500 5.5.1 unknown command"

/-- What the session does with a line read inside `read_data`. -/
def onData (history : List SessionEvent) (st : SessionState) (buf raw : Bytes) : Outcome :=
  match readDataLine srv.max_message_size_bytes buf raw with
  | .more buf => ⟨.data buf, st, []⟩
  | .tooLarge =>
    say { st with envelope_from := none, recipients := [] } "552 5.3.4 message too large"
  | .done =>
    let envelope_from := st.envelope_from.getD ""
    let reply := srv.relay history envelope_from st.recipients buf
    ⟨.command, { SessionState.default with helo := st.helo },
      [.relayed envelope_from st.recipients buf, .reply reply.line]⟩

end Server

/-! ## The machine -/

/-- A session between two octets. `message` is not the code's: it holds the
octets after the 354 reply, until they end with the first CRLF, dot, CRLF, the
line end of DATA itself counting as the first of these. -/
structure Session where
  reading : Reading
  state : SessionState
  events : List SessionEvent
  line : Bytes
  ended : Bool
  message : Option Bytes

def CRLF : Bytes := [13, 10]

def END_OF_DATA : Bytes := [13, 10, 46, 13, 10]

def followMessage (message : Option Bytes) (octet : UInt8) : Option Bytes :=
  message.bind fun content =>
    if END_OF_DATA.isSuffixOf (CRLF ++ content ++ [octet]) then none else some (content ++ [octet])

/-- `read_line` decodes the whole line. -/
def utf8? (raw : Bytes) : Option String := String.fromUTF8? (ByteArray.mk raw.toArray)

namespace Server

variable (srv : Server)

/-- `read_line` returned `raw`. -/
def onLine (s : Session) (raw : Bytes) : Session :=
  match utf8? raw with
  | none => { s with reading := .closed, line := [] }
  | some text =>
    match s.reading with
    | .closed => s
    | .command =>
      let out := srv.onCommand s.events s.state text
      { s with
        reading := out.reading, state := out.state, events := s.events ++ out.events, line := []
        message := if out.reading = .data [] then some [] else s.message }
    | .data buf =>
      let out := srv.onData s.events s.state buf raw
      { s with
        reading := out.reading, state := out.state, events := s.events ++ out.events, line := [] }

/-- One octet, or the end of the stream. A last line without a line end is
still a line; the read after it finds nothing, which ends the session. -/
def step (s : Session) : Option UInt8 → Session
  | some octet =>
    if s.reading = .closed ∨ s.ended = true then s
    else
      let raw := s.line ++ [octet]
      let s := { s with message := followMessage s.message octet }
      if octet = 10 then srv.onLine s raw else { s with line := raw }
  | none =>
    if s.reading = .closed then s
    else if s.line = [] then { s with reading := .closed, ended := true }
    else srv.onLine { s with ended := true } s.line

def start : Session :=
  if srv.trusted then
    let greeting := s!"220 {srv.helo_self} mailcue-sidecar ready"
    ⟨.command, .default, [.reply greeting], [], false, none⟩
  else
    let refusal := "554 5.7.1 peer not in trusted networks " ++
      "(set MAILCUE_SIDECAR_SMTP_TRUSTED_NETWORKS)"
    ⟨.closed, .default, [.reply refusal], [], false, none⟩

def handleSession : Machine Session (Option UInt8) := ⟨srv.start, srv.step⟩

end Server

end MailCue.Tunnel.Sidecar
