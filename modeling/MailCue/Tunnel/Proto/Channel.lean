import Mathlib.Logic.Function.Basic
import MailCue.Tunnel.Proto.Frame

/-!
# Length-prefixed Noise channel

tunnel/crates/proto/src/channel.rs: `send_frame` with its chunking,
`recv_frame` with its reassembly, and the record layer below them. The Noise
transport is not part of the repository and enters as `NoiseTransport`. The
byte stream is lossless and ordered: what is written is what is read, and a
read past the last octet is the peer's end of file. Arithmetic on the chunk
counter is the release profile's wrapping u32 arithmetic.
-/
namespace MailCue.Tunnel.Proto.Channel
open MailCue.Lib

inductive ChannelError where
  | io
  | frameTooLarge (n : Nat)
  | snow
  | proto (e : ProtoError)
  | badChunking (reason : String)
  | unexpectedEof
  | reassemblyOverflow (limit : Nat)
  | protocol (reason : String)
  deriving DecidableEq, Repr

/-! ## Sending -/

/-- `slice.chunks(size)`, given how many there are. -/
def chunksFrom (size : Nat) : Nat → Bytes → List Bytes
  | 0, _ => []
  | n + 1, bs => bs.take size :: chunksFrom size n (bs.drop size)

/-- `usize::div_ceil`. -/
def divCeil (n d : Nat) : Nat := (n + d - 1) / d

def chunks (size : Nat) (bs : Bytes) : List Bytes :=
  chunksFrom size (divCeil bs.length size) bs

/-- The plaintexts of the chunk loop from index `seq` on, in order, and how the
loop ends: `Ok` after the last chunk, or the first failure. -/
def chunkPlaintexts (codec : FrameCodec) (request_id : UInt64) (total : UInt32) :
    Nat → List Bytes → List Bytes × Except ChannelError Unit
  | _, [] => ([], .ok ())
  | seq, chunk :: rest =>
    if seq < 2 ^ 32 then
      match codec.encodeFrame (.relayChunk ⟨request_id, UInt32.ofNat seq, total, chunk⟩) with
      | .error e => ([], .error (.proto e))
      | .ok bs =>
        let tail := chunkPlaintexts codec request_id total (seq + 1) rest
        (bs :: tail.1, tail.2)
    else ([], .error (.badChunking "seq overflow"))

/-- `send_frame` above the record layer: the plaintexts it hands to
`write_plaintext`, in order, and its result when every write succeeds. -/
def framePlaintexts (codec : FrameCodec) (frame : Frame) : List Bytes × Except ChannelError Unit :=
  match codec.encodeFrame frame with
  | .error e => ([], .error (.proto e))
  | .ok plaintext =>
    if plaintext.length ≤ MAX_PLAINTEXT_FRAME_BYTES then ([plaintext], .ok ())
    else
      match frame with
      | .relay req =>
        let total_chunks := divCeil plaintext.length MAX_PLAINTEXT_FRAME_BYTES
        if total_chunks < 2 ^ 32 then
          chunkPlaintexts codec req.request_id (UInt32.ofNat total_chunks) 0
            (chunks MAX_PLAINTEXT_FRAME_BYTES plaintext)
        else ([], .error (.badChunking "relay too large to chunk"))
      | _ =>
        ([], .error (.badChunking
          "non-Relay frame too large to fit in one Noise transport message"))

/-! ## Receiving -/

structure ReassemblyState where
  total : UInt32
  received : UInt32
  buf : Bytes
  deriving DecidableEq, Repr

/-- The map from request ids to reassembly buffers. -/
abbrev Pending := UInt64 → Option ReassemblyState

def Pending.empty : Pending := fun _ => none

def Pending.remove (pending : Pending) (request_id : UInt64) : Pending :=
  Function.update pending request_id none

def Pending.insert (pending : Pending) (request_id : UInt64) (s : ReassemblyState) : Pending :=
  Function.update pending request_id (some s)

/-- How one pass of the `recv_frame` loop ends: the call returns, or it keeps
reading more chunks. -/
inductive Pass where
  | again
  | ret (result : Except ChannelError Frame)

def decodeAssembled (codec : FrameCodec) (buf : Bytes) : Except ChannelError Frame :=
  match codec.decodeFrame buf with
  | .ok f => .ok f
  | .error e => .error (.proto e)

/-- `pending.entry(request_id).or_insert_with(..)`. -/
def Pending.entry (pending : Pending) (chunk : RelayChunkPayload) : ReassemblyState :=
  (pending chunk.request_id).getD ⟨chunk.total, 0, []⟩

/-- The chunk arm of the loop. The entry is present when the last chunk
removes it, so the source's "internal: missing state" is not reached. -/
def acceptChunk (codec : FrameCodec) (maxReassembled : Nat) (pending : Pending)
    (chunk : RelayChunkPayload) : Pending × Pass :=
  let entry := pending.entry chunk
  if chunk.total ≠ entry.total then
    (pending.remove chunk.request_id, .ret (.error (.badChunking "total mismatch across chunks")))
  else if chunk.seq ≠ entry.received then
    (pending.remove chunk.request_id, .ret (.error (.badChunking "out-of-order chunk")))
  else if entry.buf.length + chunk.data.length > maxReassembled then
    (pending.remove chunk.request_id, .ret (.error (.reassemblyOverflow maxReassembled)))
  else
    let entry : ReassemblyState :=
      { entry with buf := entry.buf ++ chunk.data, received := entry.received + 1 }
    if entry.received = entry.total then
      (pending.remove chunk.request_id, .ret (decodeAssembled codec entry.buf))
    else (pending.insert chunk.request_id entry, .again)

/-- One pass of the loop, after `read_plaintext` gave a plaintext. -/
def recvPlaintext (codec : FrameCodec) (maxReassembled : Nat) (pending : Pending)
    (plaintext : Bytes) : Pending × Pass :=
  match codec.decodeFrame plaintext with
  | .error e => (pending, .ret (.error (.proto e)))
  | .ok (.relayChunk chunk) => acceptChunk codec maxReassembled pending chunk
  | .ok frame => (pending, .ret (.ok frame))

/-- `recv_frame` over the results of successive `read_plaintext` calls. `none`
is a call still waiting when they run out. -/
def recvFrame (codec : FrameCodec) (maxReassembled : Nat) :
    Pending → List (Except ChannelError Bytes) →
      Option (Except ChannelError Frame) × Pending × List (Except ChannelError Bytes)
  | pending, [] => (none, pending, [])
  | pending, .error e :: rest => (some (.error e), pending, rest)
  | pending, .ok plaintext :: rest =>
    match recvPlaintext codec maxReassembled pending plaintext with
    | (pending, .ret result) => (some result, pending, rest)
    | (pending, .again) => recvFrame codec maxReassembled pending rest

/-! ## Records -/

/-- The two directions of an established Noise session. Documented behaviour:
a paired receiver opens what its sender sealed. -/
structure NoiseTransport where
  Sender : Type
  Receiver : Type
  writeMessage : Sender → Bytes → Except Unit (Bytes × Sender)
  readMessage : Receiver → Bytes → Except Unit (Bytes × Receiver)
  Paired : Sender → Receiver → Prop
  read_write : ∀ (s : Sender) (r : Receiver) (pt ct : Bytes) (s' : Sender), Paired s r →
    writeMessage s pt = .ok (ct, s') → ∃ r', readMessage r ct = .ok (pt, r') ∧ Paired s' r'

/-- `u32::to_be_bytes` of a length below `2 ^ 32`. -/
def toBeBytes (n : Nat) : Bytes :=
  [UInt8.ofNat (n / 2 ^ 24), UInt8.ofNat (n / 2 ^ 16), UInt8.ofNat (n / 2 ^ 8), UInt8.ofNat n]

/-- `u32::from_be_bytes`. -/
def fromBeBytes (a b c d : UInt8) : Nat :=
  a.toNat * 2 ^ 24 + b.toNat * 2 ^ 16 + c.toNat * 2 ^ 8 + d.toNat

/-- The sending half: the transport and the octets written so far. -/
structure Writer (noise : NoiseTransport) where
  transport : noise.Sender
  inner : Bytes

/-- The receiving half: the transport and the octets not read yet. -/
structure Reader (noise : NoiseTransport) where
  transport : noise.Receiver
  inner : Bytes

def writePlaintext (noise : NoiseTransport) (w : Writer noise) (plaintext : Bytes) :
    Writer noise × Except ChannelError Unit :=
  match noise.writeMessage w.transport plaintext with
  | .error _ => (w, .error .snow)
  | .ok (buf, transport) =>
    let n := buf.length
    if n > MAX_CIPHERTEXT_FRAME_BYTES then ({ w with transport }, .error (.frameTooLarge n))
    else (⟨transport, w.inner ++ toBeBytes n ++ buf⟩, .ok ())

def writeAll (noise : NoiseTransport) (w : Writer noise) :
    List Bytes → Writer noise × Except ChannelError Unit
  | [] => (w, .ok ())
  | plaintext :: rest =>
    match writePlaintext noise w plaintext with
    | (w, .error e) => (w, .error e)
    | (w, .ok ()) => writeAll noise w rest

def sendFrame (codec : FrameCodec) (noise : NoiseTransport) (w : Writer noise) (frame : Frame) :
    Writer noise × Except ChannelError Unit :=
  let plan := framePlaintexts codec frame
  match writeAll noise w plan.1 with
  | (w, .error e) => (w, .error e)
  | (w, .ok ()) => (w, plan.2)

/-- End of file inside the length prefix is `UnexpectedEof`; inside the
ciphertext it stays the plain I/O error. -/
def readPlaintext (noise : NoiseTransport) (rd : Reader noise) :
    Except ChannelError Bytes × Reader noise :=
  match rd.inner with
  | a :: b :: c :: d :: rest =>
    let len := fromBeBytes a b c d
    if len > MAX_CIPHERTEXT_FRAME_BYTES then (.error (.frameTooLarge len), { rd with inner := rest })
    else if rest.length < len then (.error .io, { rd with inner := [] })
    else
      match noise.readMessage rd.transport (rest.take len) with
      | .error _ => (.error .snow, { rd with inner := rest.drop len })
      | .ok (plaintext, transport) => (.ok plaintext, ⟨transport, rest.drop len⟩)
  | _ => (.error .unexpectedEof, { rd with inner := [] })

theorem readPlaintext_shorter (noise : NoiseTransport) (rd rd' : Reader noise) (plaintext : Bytes)
    (h : readPlaintext noise rd = (.ok plaintext, rd')) :
    rd'.inner.length < rd.inner.length := by
  unfold readPlaintext at h
  split at h
  · rename_i a b c d rest hin
    dsimp only at h
    split at h
    · cases h
    · split at h
      · cases h
      · split at h
        · cases h
        · cases h
          simp only [hin, List.length_drop, List.length_cons]
          omega
  · cases h

/-- A whole channel on its receiving side. -/
structure Inbound (noise : NoiseTransport) where
  reader : Reader noise
  pending : Pending

/-- `recv_frame` down to the octets of the stream. -/
def recvFrameBytes (codec : FrameCodec) (noise : NoiseTransport) (maxReassembled : Nat)
    (ch : Inbound noise) : Except ChannelError Frame × Inbound noise :=
  match _hread : readPlaintext noise ch.reader with
  | (.error e, reader) => (.error e, { ch with reader })
  | (.ok plaintext, reader) =>
    match recvPlaintext codec maxReassembled ch.pending plaintext with
    | (pending, .ret result) => (result, ⟨reader, pending⟩)
    | (pending, .again) => recvFrameBytes codec noise maxReassembled ⟨reader, pending⟩
termination_by ch.reader.inner.length
decreasing_by
  exact readPlaintext_shorter noise ch.reader reader plaintext _hread

end MailCue.Tunnel.Proto.Channel
