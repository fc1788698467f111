import MailCue.Tunnel.Proto.Frame

/-!
# A serializer for the frames

An instance of `FrameCodec` that follows postcard's documented wire format:
enum variants by position as varints, struct fields in order, integers wider
than an octet as varints, sequences and strings behind their length. It shows
that the interface is satisfiable and carries the concrete runs below; no
result about the channel depends on it.
-/
namespace MailCue.Tunnel.Proto.PostcardFrame
open MailCue.Lib

def relayOpts : Codec RelayOpts :=
  ((Codec.option .string).pair (Codec.bool.pair .u32)).iso
    (fun p => ⟨p.1, p.2.1, p.2.2⟩) (fun o => (o.helo_name, o.require_tls, o.timeout_secs))
    (fun _ => rfl)

/-- Enumerations without fields: the variant's position. -/
def position {ι : Type} (tag : ι → UInt32) (ofTag : UInt32 → Option ι)
    (ofTag_tag : ∀ i, ofTag (tag i) = some i) : Codec ι :=
  Codec.u32.partialIso ofTag tag ofTag_tag

def ProbeStatus.tag : ProbeStatus → UInt32
  | .accepted => 0 | .rejected => 1 | .unknown => 2

def ProbeStatus.ofTag (n : UInt32) : Option ProbeStatus :=
  if n = 0 then some .accepted else if n = 1 then some .rejected
  else if n = 2 then some .unknown else none

def probeStatus : Codec ProbeStatus :=
  position ProbeStatus.tag ProbeStatus.ofTag (fun i => by cases i <;> rfl)

def ErrorCode.tag : ErrorCode → UInt32
  | .protocolViolation => 0 | .unauthorized => 1 | .rateLimited => 2
  | .messageTooLarge => 3 | .tooManyRecipients => 4 | .internal => 5

def ErrorCode.ofTag (n : UInt32) : Option ErrorCode :=
  if n = 0 then some .protocolViolation else if n = 1 then some .unauthorized
  else if n = 2 then some .rateLimited else if n = 3 then some .messageTooLarge
  else if n = 4 then some .tooManyRecipients else if n = 5 then some .internal else none

def errorCode : Codec ErrorCode :=
  position ErrorCode.tag ErrorCode.ofTag (fun i => by cases i <;> rfl)

def probeOutcome : Codec ProbeOutcome :=
  (Codec.string.pair ((Codec.option .u16).pair (Codec.string.pair (probeStatus.pair .u32)))).iso
    (fun p => ⟨p.1, p.2.1, p.2.2.1, p.2.2.2.1, p.2.2.2.2⟩)
    (fun o => (o.mx, o.smtp_code, o.smtp_msg, o.status, o.latency_ms)) (fun _ => rfl)

inductive StatusKind where
  | delivered | tempFail | permFail

def StatusKind.fields : StatusKind → Type
  | .delivered => String × UInt16 × String
  | .tempFail => String × Option UInt16
  | .permFail => String × Option UInt16

def StatusKind.tag : StatusKind → UInt32
  | .delivered => 0 | .tempFail => 1 | .permFail => 2

def StatusKind.ofTag (n : UInt32) : Option StatusKind :=
  if n = 0 then some .delivered else if n = 1 then some .tempFail
  else if n = 2 then some .permFail else none

def StatusKind.codec : (k : StatusKind) → Codec k.fields
  | .delivered => Codec.string.pair (Codec.u16.pair .string)
  | .tempFail => Codec.string.pair (.option .u16)
  | .permFail => Codec.string.pair (.option .u16)

def ofStatusFields : (k : StatusKind) × k.fields → RelayStatus
  | ⟨.delivered, p⟩ => .delivered p.1 p.2.1 p.2.2
  | ⟨.tempFail, p⟩ => .tempFail p.1 p.2
  | ⟨.permFail, p⟩ => .permFail p.1 p.2

def statusFields : RelayStatus → (k : StatusKind) × k.fields
  | .delivered mx code msg => ⟨.delivered, (mx, code, msg)⟩
  | .tempFail reason code => ⟨.tempFail, (reason, code)⟩
  | .permFail reason code => ⟨.permFail, (reason, code)⟩

def relayStatus : Codec RelayStatus :=
  (Codec.tagged StatusKind.fields StatusKind.tag StatusKind.ofTag (fun i => by cases i <;> rfl)
    StatusKind.codec).iso ofStatusFields statusFields (fun s => by cases s <;> rfl)

def recipientResult : Codec RecipientResult :=
  (Codec.string.pair relayStatus).iso (fun p => ⟨p.1, p.2⟩) (fun r => (r.recipient, r.status))
    (fun _ => rfl)

theorem recipientResult_length_pos (r : RecipientResult) :
    0 < (recipientResult.encode r).length := by
  have := Codec.string_length_pos r.recipient
  simp only [recipientResult, Codec.iso_encode, Codec.pair_encode, List.length_append]
  omega

theorem probeOutcome_length_pos (o : ProbeOutcome) : 0 < (probeOutcome.encode o).length := by
  have := Codec.string_length_pos o.mx
  simp only [probeOutcome, Codec.iso_encode, Codec.pair_encode, List.length_append]
  omega

def strings : Codec (List String) := Codec.list .string Codec.string_length_pos

def relayRequest : Codec RelayRequest :=
  (Codec.u64.pair (Codec.string.pair (strings.pair (Codec.bytes.pair relayOpts)))).iso
    (fun p => ⟨p.1, p.2.1, p.2.2.1, p.2.2.2.1, p.2.2.2.2⟩)
    (fun r => (r.request_id, r.envelope_from, r.recipients, r.raw_message, r.opts)) (fun _ => rfl)

def probeRequest : Codec ProbeRequest :=
  (Codec.u64.pair (Codec.string.pair (Codec.string.pair (strings.pair relayOpts)))).iso
    (fun p => ⟨p.1, p.2.1, p.2.2.1, p.2.2.2.1, p.2.2.2.2⟩)
    (fun r => (r.request_id, r.envelope_from, r.recipient, r.control_recipients, r.opts))
    (fun _ => rfl)

def relayChunk : Codec RelayChunkPayload :=
  (Codec.u64.pair (Codec.u32.pair (Codec.u32.pair .bytes))).iso
    (fun p => ⟨p.1, p.2.1, p.2.2.1, p.2.2.2⟩)
    (fun c => (c.request_id, c.seq, c.total, c.data)) (fun _ => rfl)

inductive FrameKind where
  | hello | helloAck | relay | relayChunk | relayResult | ping | pong | error | probe | probeResult

def FrameKind.fields : FrameKind → Type
  | .hello => UInt16 × String × String
  | .helloAck => UInt16 × String × UInt64
  | .relay => RelayRequest
  | .relayChunk => RelayChunkPayload
  | .relayResult => UInt64 × List RecipientResult
  | .ping => UInt64 × UInt64
  | .pong => UInt64 × UInt64
  | .error => Option UInt64 × ErrorCode × String
  | .probe => ProbeRequest
  | .probeResult => UInt64 × ProbeOutcome × List ProbeOutcome

/-- Variants are numbered in declaration order. -/
def FrameKind.tag : FrameKind → UInt32
  | .hello => 0 | .helloAck => 1 | .relay => 2 | .relayChunk => 3 | .relayResult => 4
  | .ping => 5 | .pong => 6 | .error => 7 | .probe => 8 | .probeResult => 9

def FrameKind.ofTag (n : UInt32) : Option FrameKind :=
  if n = 0 then some .hello else if n = 1 then some .helloAck else if n = 2 then some .relay
  else if n = 3 then some .relayChunk else if n = 4 then some .relayResult
  else if n = 5 then some .ping else if n = 6 then some .pong else if n = 7 then some .error
  else if n = 8 then some .probe else if n = 9 then some .probeResult else none

def FrameKind.codec : (k : FrameKind) → Codec k.fields
  | .hello => Codec.u16.pair (Codec.string.pair .string)
  | .helloAck => Codec.u16.pair (Codec.string.pair .u64)
  | .relay => relayRequest
  | .relayChunk => PostcardFrame.relayChunk
  | .relayResult => Codec.u64.pair (.list recipientResult recipientResult_length_pos)
  | .ping => Codec.u64.pair .u64
  | .pong => Codec.u64.pair .u64
  | .error => (Codec.option .u64).pair (errorCode.pair .string)
  | .probe => probeRequest
  | .probeResult =>
    Codec.u64.pair (probeOutcome.pair (.list probeOutcome probeOutcome_length_pos))

def ofFields : (k : FrameKind) × k.fields → Frame
  | ⟨.hello, p⟩ => .hello p.1 p.2.1 p.2.2
  | ⟨.helloAck, p⟩ => .helloAck p.1 p.2.1 p.2.2
  | ⟨.relay, r⟩ => .relay r
  | ⟨.relayChunk, c⟩ => .relayChunk c
  | ⟨.relayResult, p⟩ => .relayResult p.1 p.2
  | ⟨.ping, p⟩ => .ping p.1 p.2
  | ⟨.pong, p⟩ => .pong p.1 p.2
  | ⟨.error, p⟩ => .error p.1 p.2.1 p.2.2
  | ⟨.probe, r⟩ => .probe r
  | ⟨.probeResult, p⟩ => .probeResult p.1 p.2.1 p.2.2

def toFields : Frame → (k : FrameKind) × k.fields
  | .hello v c s => ⟨.hello, (v, c, s)⟩
  | .helloAck v e t => ⟨.helloAck, (v, e, t)⟩
  | .relay r => ⟨.relay, r⟩
  | .relayChunk c => ⟨.relayChunk, c⟩
  | .relayResult i rs => ⟨.relayResult, (i, rs)⟩
  | .ping t n => ⟨.ping, (t, n)⟩
  | .pong t n => ⟨.pong, (t, n)⟩
  | .error i c m => ⟨.error, (i, c, m)⟩
  | .probe r => ⟨.probe, r⟩
  | .probeResult i t cs => ⟨.probeResult, (i, t, cs)⟩

def frame : Codec Frame :=
  (Codec.tagged FrameKind.fields FrameKind.tag FrameKind.ofTag (fun i => by cases i <;> rfl)
    FrameKind.codec).iso ofFields toFields (fun f => by cases f <;> rfl)

/-- `to_allocvec`: the encoding, where it fits in memory. -/
def encodeFrame (f : Frame) : Except ProtoError Bytes :=
  if (frame.encode f).length < 2 ^ 64 then .ok (frame.encode f) else .error .encode

/-- `from_bytes`: octets after the value are ignored. -/
def decodeFrame (bs : Bytes) : Except ProtoError Frame :=
  match frame.decode bs with
  | some (f, _) => .ok f
  | none => .error .decode

theorem decodeFrame_encodeFrame (f : Frame) (bs : Bytes) (h : encodeFrame f = .ok bs) :
    decodeFrame bs = .ok f := by
  unfold encodeFrame at h
  split at h
  · rename_i hfit
    have hd := frame.decode_encode f [] hfit
    rw [List.append_nil] at hd
    rw [← Except.ok.inj h, decodeFrame, hd]
  · cases h

theorem chunk_length (p : RelayChunkPayload) :
    (frame.encode (.relayChunk p)).length ≤ p.data.length + 35 := by
  have htag := Codec.u32_length_le (FrameKind.tag .relayChunk)
  have hid := Codec.u64_length_le p.request_id
  have hseq := Codec.u32_length_le p.seq
  have htotal := Codec.u32_length_le p.total
  have hdata := Codec.bytes_length_le p.data
  have hsize : frame.encode (.relayChunk p) = Codec.u32.encode (FrameKind.tag .relayChunk) ++
      (Codec.u64.encode p.request_id ++ (Codec.u32.encode p.seq ++
        (Codec.u32.encode p.total ++ Codec.bytes.encode p.data))) := rfl
  rw [hsize]
  simp only [List.length_append]
  omega

theorem encode_error (request_id : Option UInt64) (code : ErrorCode) (message : String) :
    frame.encode (.error request_id code message) =
      Codec.u32.encode (FrameKind.tag .error) ++ ((Codec.option Codec.u64).encode request_id ++
        (Codec.u32.encode (ErrorCode.tag code) ++ Codec.string.encode message)) := rfl

theorem error_length (request_id : Option UInt64) (code : ErrorCode) (message : String) :
    (frame.encode (.error request_id code message)).length ≤ message.utf8ByteSize + 40 := by
  have htag := Codec.u32_length_le (FrameKind.tag .error)
  have hid := Codec.option_length_le Codec.u64 10 Codec.u64_length_le request_id
  have hcode := Codec.u32_length_le (ErrorCode.tag code)
  have htext := Codec.string_length_le message
  rw [encode_error]
  simp only [List.length_append]
  omega

theorem le_error_length (request_id : Option UInt64) (code : ErrorCode) (message : String) :
    message.utf8ByteSize ≤ (frame.encode (.error request_id code message)).length := by
  have htext := Codec.utf8ByteSize_le_string message
  rw [encode_error]
  simp only [List.length_append]
  omega

/-- The documented format meets the interface. -/
def postcard : FrameCodec where
  encodeFrame := encodeFrame
  decodeFrame := decodeFrame
  decode_encode := decodeFrame_encodeFrame
  error_length_le request_id code message h := by
    have hlen := error_length request_id code message
    unfold encodeFrame
    rw [if_pos (by omega)]
    exact ⟨_, rfl, hlen⟩

theorem encodeFrame_ok (f : Frame) (bs : Bytes) (h : postcard.encodeFrame f = .ok bs) :
    frame.encode f = bs := by
  change (if _ then _ else _) = _ at h
  split at h
  · exact Except.ok.inj h
  · cases h

theorem encodeFrame_eq_ok (f : Frame) (h : (frame.encode f).length < 2 ^ 64) :
    postcard.encodeFrame f = .ok (frame.encode f) := by
  change (if _ then _ else _) = _
  rw [if_pos h]

end MailCue.Tunnel.Proto.PostcardFrame
