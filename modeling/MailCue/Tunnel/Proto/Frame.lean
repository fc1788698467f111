import MailCue.Lib.Codec

/-!
# Wire frames

tunnel/crates/proto/src/frame.rs and lib.rs: the frames both peers exchange
after the handshake, the protocol constants, and the interface of the
serializer. The serializer itself is not part of the repository; `FrameCodec`
names what the channel relies on, and `PostcardFrame` gives an instance.
-/
namespace MailCue.Tunnel.Proto
open MailCue.Lib

/-- lib.rs `PROTO_VERSION`. -/
def PROTO_VERSION : UInt16 := 3

/-- lib.rs `MAX_CIPHERTEXT_FRAME_BYTES`. -/
def MAX_CIPHERTEXT_FRAME_BYTES : Nat := 65535

/-- frame.rs `MAX_PLAINTEXT_FRAME_BYTES`. -/
def MAX_PLAINTEXT_FRAME_BYTES : Nat := 60 * 1024

structure RelayOpts where
  helo_name : Option String
  require_tls : Bool
  timeout_secs : UInt32
  deriving DecidableEq, Repr

/-- `RelayOpts::default()`. -/
def RelayOpts.default : RelayOpts := ⟨none, false, 0⟩

inductive RelayStatus where
  | delivered (mx : String) (smtp_code : UInt16) (smtp_msg : String)
  | tempFail (reason : String) (smtp_code : Option UInt16)
  | permFail (reason : String) (smtp_code : Option UInt16)
  deriving DecidableEq, Repr

structure RecipientResult where
  recipient : String
  status : RelayStatus
  deriving DecidableEq, Repr

inductive ProbeStatus where
  | accepted | rejected | unknown
  deriving DecidableEq, Repr

structure ProbeOutcome where
  mx : String
  smtp_code : Option UInt16
  smtp_msg : String
  status : ProbeStatus
  latency_ms : UInt32
  deriving DecidableEq, Repr

inductive ErrorCode where
  | protocolViolation | unauthorized | rateLimited | messageTooLarge | tooManyRecipients | internal
  deriving DecidableEq, Repr

structure RelayChunkPayload where
  request_id : UInt64
  seq : UInt32
  total : UInt32
  data : Bytes
  deriving DecidableEq, Repr

/-- The fields of `Frame::Relay`. -/
structure RelayRequest where
  request_id : UInt64
  envelope_from : String
  recipients : List String
  raw_message : Bytes
  opts : RelayOpts
  deriving DecidableEq, Repr

/-- The fields of `Frame::Probe`. -/
structure ProbeRequest where
  request_id : UInt64
  envelope_from : String
  recipient : String
  control_recipients : List String
  opts : RelayOpts
  deriving DecidableEq, Repr

inductive Frame where
  | hello (proto_version : UInt16) (client_id sidecar_version : String)
  | helloAck (proto_version : UInt16) (edge_version : String) (server_time_unix : UInt64)
  | relay (req : RelayRequest)
  | relayChunk (chunk : RelayChunkPayload)
  | relayResult (request_id : UInt64) (per_recipient : List RecipientResult)
  | ping (ts_unix nonce : UInt64)
  | pong (ts_unix nonce : UInt64)
  | error (request_id : Option UInt64) (code : ErrorCode) (message : String)
  | probe (req : ProbeRequest)
  | probeResult (request_id : UInt64) (target : ProbeOutcome) (controls : List ProbeOutcome)
  deriving DecidableEq, Repr

def Frame.isRelayChunk : Frame → Bool
  | .relayChunk _ => true
  | _ => false

inductive ProtoError where
  | encode | decode
  deriving DecidableEq, Repr

/-- `encode_frame` and `decode_frame`. Documented behaviour of the serializer:
decoding inverts encoding, and an error whose text is far below the address
space encodes, with a header of a few varints before the text. -/
structure FrameCodec where
  encodeFrame : Frame → Except ProtoError Bytes
  decodeFrame : Bytes → Except ProtoError Frame
  decode_encode : ∀ (f : Frame) (bs : Bytes), encodeFrame f = .ok bs → decodeFrame bs = .ok f
  error_length_le : ∀ (request_id : Option UInt64) (code : ErrorCode) (message : String),
    message.utf8ByteSize < 2 ^ 32 → ∃ bs, encodeFrame (.error request_id code message) = .ok bs ∧
      bs.length ≤ message.utf8ByteSize + 40

end MailCue.Tunnel.Proto
