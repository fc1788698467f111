import MailCue.Tunnel.Edge.Lifecycle
import MailCue.Tunnel.Proto.Chunking

/-!
# Chunked requests at the edge

A Relay too large for one message reaches the dispatch loop through the
reassembler, whose cap is `REASSEMBLY_HEADROOM_BYTES` alone. Whether it is
handed to its handler therefore depends on its serialized length only, and not
on the size the edge is configured to admit.
-/
namespace MailCue.Tunnel.Edge
open MailCue.Lib MailCue.Tunnel.Proto MailCue.Tunnel.Proto.Channel

namespace Task

variable (task : Task)

/-- The connection after these records. -/
def receive (conn : Conn) (plaintexts : List Bytes) : Conn :=
  (plaintexts.map fun pt => Input.record (.ok pt)).foldl task.step conn

theorem receive_closed (conn : Conn) (plaintexts : List Bytes) (h : conn.phase = .closed) :
    task.receive conn plaintexts = conn := by
  induction plaintexts with
  | nil => rfl
  | cons pt pts ih =>
    have hstep : task.step conn (.record (.ok pt)) = conn := by
      unfold step
      rw [if_pos h]
    unfold receive
    rw [List.map_cons, List.foldl_cons, hstep]
    exact ih

/-- The machine's steps up to the record that ends the call are one
`recv_frame`. -/
theorem receive_recvFrame (plaintexts : List Bytes) (conn : Conn) (pending : Pending)
    (result : Except ChannelError Frame) (rest : List (Except ChannelError Bytes))
    (hopen : conn.phase ≠ .closed)
    (h : recvFrame task.codec REASSEMBLY_HEADROOM_BYTES conn.pending (plaintexts.map .ok) =
      (some result, pending, rest)) :
    ∃ post, rest = post.map .ok ∧
      task.receive conn plaintexts =
        task.receive (task.onResult { conn with pending } result) post := by
  induction plaintexts generalizing conn with
  | nil => simp [recvFrame] at h
  | cons pt pts ih =>
    rw [List.map_cons, recvFrame] at h
    cases hpass : recvPlaintext task.codec REASSEMBLY_HEADROOM_BYTES conn.pending pt with
    | mk next pass =>
      rw [hpass] at h
      have hstep : task.receive conn (pt :: pts) =
          task.receive (task.step conn (.record (.ok pt))) pts := rfl
      rw [hstep]
      unfold step
      rw [if_neg hopen]
      simp only [hpass]
      cases pass with
      | ret res =>
        simp only [Prod.mk.injEq, Option.some.injEq] at h
        obtain ⟨rfl, rfl, rfl⟩ := h
        exact ⟨pts, rfl, rfl⟩
      | again => exact ih { conn with pending := next } hopen h

/-- The records, read by the dispatch loop, hand the request to `handle_relay`. -/
def Handed (conn : Conn) (plaintexts : List Bytes) (req : RelayRequest) : Prop :=
  ∃ rest, (task.receive conn plaintexts).events =
    conn.events ++ .read conn.turn (.relay req) :: .entered conn.turn (.relay req) :: rest

variable (conn : Conn) (req : RelayRequest) (bs : Bytes) (plaintexts : List Bytes)

theorem relay_handed (hphase : conn.phase = .dispatch)
    (henc : task.codec.encodeFrame (.relay req) = .ok bs)
    (hrecv : recvFrame task.codec REASSEMBLY_HEADROOM_BYTES conn.pending (plaintexts.map .ok) =
      (some (decodeAssembled task.codec bs), conn.pending, [])) :
    task.Handed conn plaintexts req := by
  have hopen : conn.phase ≠ .closed := by rw [hphase]; nofun
  rw [decodeAssembled, task.codec.decode_encode _ _ henc] at hrecv
  obtain ⟨post, hpost, hreceive⟩ := task.receive_recvFrame plaintexts conn _ _ _ hopen hrecv
  cases post with
  | cons pt pts => simp at hpost
  | nil =>
    refine ⟨(task.respond (task.relayReply conn.turn req)).1, ?_⟩
    rw [hreceive]
    simp [receive, onResult, hphase, onFrame, handle_eq]

theorem relay_not_handed (rest : List (Except ChannelError Bytes)) (e : ChannelError)
    (pending : Pending) (hphase : conn.phase = .dispatch)
    (hrecv : recvFrame task.codec REASSEMBLY_HEADROOM_BYTES conn.pending (plaintexts.map .ok) =
      (some (.error e), pending, rest)) :
    ¬ task.Handed conn plaintexts req := by
  rintro ⟨later, hevents⟩
  have hopen : conn.phase ≠ .closed := by rw [hphase]; nofun
  obtain ⟨post, _, hreceive⟩ := task.receive_recvFrame plaintexts conn _ _ _ hopen hrecv
  rw [hreceive, task.receive_closed _ post rfl] at hevents
  simp [onResult, close] at hevents

/-- What the reassembler gives for the chunks of a Relay, by its length. -/
theorem chunked_relay_received (hfree : conn.pending req.request_id = none)
    (henc : task.codec.encodeFrame (.relay req) = .ok bs)
    (hbig : MAX_PLAINTEXT_FRAME_BYTES < bs.length)
    (hsend : framePlaintexts task.codec (.relay req) = (plaintexts, .ok ())) :
    (bs.length ≤ REASSEMBLY_HEADROOM_BYTES →
      recvFrame task.codec REASSEMBLY_HEADROOM_BYTES conn.pending (plaintexts.map .ok) =
        (some (decodeAssembled task.codec bs), conn.pending, [])) ∧
    (REASSEMBLY_HEADROOM_BYTES < bs.length →
      ∃ rest, recvFrame task.codec REASSEMBLY_HEADROOM_BYTES conn.pending (plaintexts.map .ok) =
        (some (.error (.reassemblyOverflow REASSEMBLY_HEADROOM_BYTES)), conn.pending, rest)) := by
  obtain ⟨bs', henc', ⟨hsmall, _⟩ | ⟨_, req', hreq, hcount, hchunks⟩⟩ :=
    framePlaintexts_ok task.codec _ plaintexts hsend
  · rw [henc] at henc'
    cases henc'
    omega
  · rw [henc] at henc'
    cases henc'
    cases hreq
    exact chunks_from_start task.codec REASSEMBLY_HEADROOM_BYTES req conn.pending bs plaintexts
      hbig hcount hchunks hfree

/-- A chunked Relay that meets no buffer of its id is handed to its handler
exactly when its serialization is within the reassembly cap. -/
theorem chunked_relay_handed_iff (hphase : conn.phase = .dispatch)
    (hfree : conn.pending req.request_id = none)
    (henc : task.codec.encodeFrame (.relay req) = .ok bs)
    (hbig : MAX_PLAINTEXT_FRAME_BYTES < bs.length)
    (hsend : framePlaintexts task.codec (.relay req) = (plaintexts, .ok ())) :
    task.Handed conn plaintexts req ↔ bs.length ≤ REASSEMBLY_HEADROOM_BYTES := by
  obtain ⟨hfit, hover⟩ := task.chunked_relay_received conn req bs plaintexts hfree henc hbig hsend
  constructor
  · intro hhanded
    by_contra hlarge
    obtain ⟨rest, hrecv⟩ := hover (Nat.not_le.mp hlarge)
    exact task.relay_not_handed conn req plaintexts rest _ _ hphase hrecv hhanded
  · intro hcap
    exact task.relay_handed conn req bs plaintexts hphase henc (hfit hcap)

end Task

/-! ## Concrete sizes -/

/-- A Relay of one recipient whose message is `n` octets. -/
def relayOf (n : Nat) : RelayRequest := ⟨7, "", ["a@b.c"], List.replicate n 0, .default⟩

theorem relayOf_length (n : Nat) :
    n < (PostcardFrame.frame.encode (.relay (relayOf n))).length ∧
      (PostcardFrame.frame.encode (.relay (relayOf n))).length ≤ n + 40 := by
  have hsplit : PostcardFrame.frame.encode (.relay (relayOf n)) =
      [2, 7, 0, 1, 5, 97, 64, 98, 46, 99] ++ (Codec.bytes.encode (List.replicate n 0) ++ [0, 0, 0]) :=
    rfl
  have hlow := Codec.length_le_bytes (List.replicate n 0)
  have hhigh := Codec.bytes_length_le (List.replicate n 0)
  rw [List.length_replicate] at hlow hhigh
  rw [hsplit]
  simp only [List.length_append, List.length_cons, List.length_nil]
  omega

theorem relayOf_encoded (n : Nat) (h : n < 2 ^ 31) :
    PostcardFrame.postcard.encodeFrame (.relay (relayOf n)) =
      .ok (PostcardFrame.frame.encode (.relay (relayOf n))) := by
  have hlen := (relayOf_length n).2
  exact PostcardFrame.encodeFrame_eq_ok _ (by omega)

theorem relayOf_sent (n : Nat) (h : n < 2 ^ 31) :
    ∃ pts, framePlaintexts PostcardFrame.postcard (.relay (relayOf n)) = (pts, .ok ()) := by
  have hlen := (relayOf_length n).2
  refine framePlaintexts_relay_total _ _ _ ?_ (relayOf_encoded n h) (by omega)
  intro p hp
  have hchunk := PostcardFrame.chunk_length p
  unfold MAX_PLAINTEXT_FRAME_BYTES at hp
  exact ⟨_, PostcardFrame.encodeFrame_eq_ok _ (by omega)⟩

/-- The isolated edge after the Hello of its one client. -/
def greeted : Conn :=
  (Task.isolated.handleConnection (Vector.replicate 32 0)).run
    [.record (.ok (PostcardFrame.frame.encode (.hello 3 "sidecar" "1")))]

/-- A message of 100 000 octets is handed over. -/
theorem chunked_relay_handed_small :
    ∃ pts, Task.isolated.Handed greeted pts (relayOf 100000) := by
  obtain ⟨pts, hsend⟩ := relayOf_sent 100000 (by decide)
  have hlen := relayOf_length 100000
  refine ⟨pts, (Task.isolated.chunked_relay_handed_iff greeted (relayOf 100000) _ pts (by decide)
    rfl (relayOf_encoded 100000 (by decide)) ?_ hsend).mpr ?_⟩
  · unfold MAX_PLAINTEXT_FRAME_BYTES
    omega
  · unfold REASSEMBLY_HEADROOM_BYTES
    omega

/-- Five MiB pass the configured limits and are refused by the reassembler. -/
theorem five_mebibytes_refused :
    (relayOf 5242880).raw_message.length ≤ EdgeConfig.default.max_message_size_bytes ∧
      (relayOf 5242880).recipients.length ≤ EdgeConfig.default.max_recipients_per_request ∧
      ∃ pts rest,
        framePlaintexts PostcardFrame.postcard (.relay (relayOf 5242880)) = (pts, .ok ()) ∧
        recvFrame PostcardFrame.postcard REASSEMBLY_HEADROOM_BYTES greeted.pending
            (pts.map .ok) =
          (some (.error (.reassemblyOverflow REASSEMBLY_HEADROOM_BYTES)), greeted.pending, rest) ∧
        ¬ Task.isolated.Handed greeted pts (relayOf 5242880) := by
  refine ⟨?_, by decide, ?_⟩
  · rw [relayOf, List.length_replicate]
    decide
  · obtain ⟨pts, hsend⟩ := relayOf_sent 5242880 (by decide)
    have hlen := relayOf_length 5242880
    obtain ⟨rest, hrecv⟩ := (Task.isolated.chunked_relay_received greeted (relayOf 5242880) _ pts
      rfl (relayOf_encoded 5242880 (by decide)) (by unfold MAX_PLAINTEXT_FRAME_BYTES; omega)
      hsend).2 (by unfold REASSEMBLY_HEADROOM_BYTES; omega)
    exact ⟨pts, rest, hsend, hrecv,
      Task.isolated.relay_not_handed greeted _ pts rest _ _ (by decide) hrecv⟩

end MailCue.Tunnel.Edge
