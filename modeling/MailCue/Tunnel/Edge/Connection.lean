import MailCue.Lib.Transition
import MailCue.Tunnel.Proto.Channel
import MailCue.Tunnel.Edge.Relay

/-!
# Edge connection loop

tunnel/crates/edge/src/main.rs `handle_connection`, from the end of the Noise
handshake to the close, as a machine over what `read_plaintext` returns. The
observable events are the frames read, the handlers entered and the frames
written; a write fails only where `send_frame` itself refuses the frame. Frames
are numbered as they are read, and the outside world may answer differently at
each number.
-/
namespace MailCue.Tunnel.Edge
open MailCue.Lib MailCue.Tunnel.Proto MailCue.Tunnel.Proto.Channel

/-- defaults.rs `REASSEMBLY_HEADROOM_BYTES`. -/
def REASSEMBLY_HEADROOM_BYTES : Nat := 4 * 1024 * 1024

abbrev PublicKey := Vector UInt8 32

structure ClientEntry where
  name : Option String
  deriving DecidableEq, Repr

structure AuthorizedClients where
  by_pubkey : PublicKey → Option ClientEntry

def AuthorizedClients.default : AuthorizedClients := ⟨fun _ => none⟩

def AuthorizedClients.lookup (auth : AuthorizedClients) (pubkey : PublicKey) :
    Option ClientEntry :=
  auth.by_pubkey pubkey

/-- A tokio semaphore: a permit may be waited for, and is refused only once the
semaphore is closed. -/
structure Semaphore where
  permits : Nat
  closed : Bool

def Semaphore.new (permits : Nat) : Semaphore := ⟨permits, false⟩

def Semaphore.acquireOwned (sem : Semaphore) : Except Unit Unit :=
  if sem.closed then .error () else .ok ()

/-- What a connection task is given, and what it meets on the way. -/
structure Task where
  codec : FrameCodec
  cfg : EdgeConfig
  allow : Except Unit AuthorizedClients
  helo_name : String
  edge_version : String
  unix_now : Nat → UInt64
  debugStr : String → String
  world : Nat → World

inductive Event where
  | read (turn : Nat) (frame : Frame)
  | entered (turn : Nat) (frame : Frame)
  | sent (frame : Frame)
  | closed
  deriving DecidableEq

inductive Phase where
  | hello | dispatch | closed
  deriving DecidableEq, Repr

structure Conn where
  phase : Phase
  pending : Pending
  turn : Nat
  events : List Event

/-- What the task waits for: a record, or the idle timeout. -/
inductive Input where
  | record (plaintext : Except ChannelError Bytes)
  | idle

namespace Task

variable (task : Task)

/-- The semaphore of this client. Nothing closes it. -/
def sem : Semaphore := .new (max task.cfg.per_client_concurrency 1)

/-- Whether `send_frame` takes the frame. -/
def sends (frame : Frame) : Bool :=
  match (framePlaintexts task.codec frame).2 with
  | .ok _ => true
  | .error _ => false

def send (frame : Frame) : List Event := if task.sends frame then [.sent frame] else []

/-- `let _ = channel.send_frame(..); return`. -/
def refuse (frame : Frame) : List Event × Phase := (task.send frame ++ [.closed], .closed)

/-- `if channel.send_frame(..).is_err() { return }`. -/
def proceed (frame : Frame) : List Event × Phase :=
  if task.sends frame then ([.sent frame], .dispatch) else ([.closed], .closed)

def debug (rej : RelayReject) : String :=
  match rej with
  | .badSender m => s!"BadSender({task.debugStr m})"
  | .badRecipients m => s!"BadRecipients({task.debugStr m})"
  | .messageTooLarge => "MessageTooLarge"
  | .tooManyRecipients => "TooManyRecipients"

def rejectReply : RelayReject → ErrorCode × String
  | .badSender m => (.protocolViolation, m)
  | .badRecipients m => (.protocolViolation, m)
  | .messageTooLarge => (.messageTooLarge, "message too large")
  | .tooManyRecipients => (.tooManyRecipients, "too many recipients")

/-- The reply to a Relay, and whether the loop goes on after it. -/
def relayReply (turn : Nat) (req : RelayRequest) : Frame × Bool :=
  let helo := req.opts.helo_name.getD task.helo_name
  match (handleRelay task.cfg (task.world turn) helo req.envelope_from req.recipients
    req.raw_message req.opts).1 with
  | .ok per_recipient => (.relayResult req.request_id per_recipient, true)
  | .error rej =>
    let (code, message) := rejectReply rej
    (.error (some req.request_id) code message, false)

def probeReply (turn : Nat) (req : ProbeRequest) : Frame × Bool :=
  let helo := req.opts.helo_name.getD task.helo_name
  match (handleProbe task.cfg (task.world turn) helo req.envelope_from req.recipient
    req.control_recipients req.opts).1 with
  | .ok (target, controls) => (.probeResult req.request_id target controls, true)
  | .error rej =>
    (.error (some req.request_id) .protocolViolation
      s!"probe rejected: {debug task rej}", false)

def respond (reply : Frame × Bool) : List Event × Phase :=
  if reply.2 then task.proceed reply.1 else task.refuse reply.1

/-- A handler behind the semaphore. -/
def handle (turn : Nat) (frame : Frame) (request_id : UInt64) (reply : Frame × Bool) :
    List Event × Phase :=
  match task.sem.acquireOwned with
  | .error _ => task.refuse (.error (some request_id) .internal "concurrency semaphore closed")
  | .ok _ =>
    let out := task.respond reply
    (.entered turn frame :: out.1, out.2)

/-- The first frame. -/
def onHello (turn : Nat) : Frame → List Event × Phase
  | .hello proto_version _ _ =>
    if proto_version ≠ PROTO_VERSION then
      task.refuse (.error none .protocolViolation
        s!"proto_version mismatch: expected {PROTO_VERSION}, got {proto_version}")
    else task.proceed (.helloAck PROTO_VERSION task.edge_version (task.unix_now turn))
  | _ => task.refuse (.error none .protocolViolation "expected Hello as first frame")

/-- One turn of the main dispatch loop. -/
def onFrame (turn : Nat) : Frame → List Event × Phase
  | .relay req => task.handle turn (.relay req) req.request_id (task.relayReply turn req)
  | .probe req => task.handle turn (.probe req) req.request_id (task.probeReply turn req)
  | .ping _ nonce => task.proceed (.pong (task.unix_now turn) nonce)
  | _ => task.refuse (.error none .protocolViolation "unexpected frame from client")

def close (conn : Conn) : Conn :=
  { conn with phase := .closed, events := conn.events ++ [.closed] }

/-- `recv_frame` returned. -/
def onResult (conn : Conn) : Except ChannelError Frame → Conn
  | .error _ => close conn
  | .ok frame =>
    let out := if conn.phase = .hello then task.onHello conn.turn frame
      else task.onFrame conn.turn frame
    { conn with
      phase := out.2
      turn := conn.turn + 1
      events := conn.events ++ .read conn.turn frame :: out.1 }

def step (conn : Conn) (input : Input) : Conn :=
  if conn.phase = .closed then conn
  else
    match input with
    | .idle => close conn
    | .record (.error _) => close conn
    | .record (.ok plaintext) =>
      match recvPlaintext task.codec REASSEMBLY_HEADROOM_BYTES conn.pending plaintext with
      | (pending, .again) => { conn with pending }
      | (pending, .ret result) => task.onResult { conn with pending } result

/-- The allow-list in force; one that does not load is empty. -/
def auth : AuthorizedClients :=
  match task.allow with
  | .ok a => a
  | .error _ => .default

def authorized (remote_static : PublicKey) : Bool := (task.auth.lookup remote_static).isSome

/-- The task right after the handshake. -/
def start (remote_static : PublicKey) : Conn :=
  if task.authorized remote_static then ⟨.hello, Pending.empty, 0, []⟩
  else
    let out := task.refuse (.error none .unauthorized "pubkey not in allow-list")
    ⟨out.2, Pending.empty, 0, out.1⟩

def handleConnection (remote_static : PublicKey) : Machine Conn Input where
  start := task.start remote_static
  step := task.step

/-! ## Sending -/

/-- What is not a Relay is taken exactly when it fits one transport message. -/
theorem sends_iff_of_not_relay (frame : Frame) (h : ∀ req, frame ≠ .relay req) :
    task.sends frame = true ↔
      ∃ bs, task.codec.encodeFrame frame = .ok bs ∧ bs.length ≤ MAX_PLAINTEXT_FRAME_BYTES := by
  unfold sends framePlaintexts
  cases henc : task.codec.encodeFrame frame with
  | error e => simp
  | ok bs =>
    by_cases hfit : bs.length ≤ MAX_PLAINTEXT_FRAME_BYTES
    · simp [hfit]
    · cases frame with
      | relay req => exact absurd rfl (h req)
      | _ => simp [hfit]

theorem sends_error (request_id : Option UInt64) (code : ErrorCode) (message : String)
    (hlen : message.utf8ByteSize + 40 ≤ MAX_PLAINTEXT_FRAME_BYTES) :
    task.sends (.error request_id code message) = true := by
  have hsmall : message.utf8ByteSize < 2 ^ 32 := by
    unfold MAX_PLAINTEXT_FRAME_BYTES at hlen
    omega
  obtain ⟨bs, henc, hbs⟩ := task.codec.error_length_le request_id code message hsmall
  rw [task.sends_iff_of_not_relay _ (by simp)]
  exact ⟨bs, henc, by omega⟩

@[simp] theorem sem_acquireOwned : task.sem.acquireOwned = .ok () := rfl

theorem handle_eq (turn : Nat) (frame : Frame) (request_id : UInt64) (reply : Frame × Bool) :
    task.handle turn frame request_id reply =
      (.entered turn frame :: (task.respond reply).1, (task.respond reply).2) := by
  simp [handle]

end Task

end MailCue.Tunnel.Edge
