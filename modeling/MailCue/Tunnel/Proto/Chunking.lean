import MailCue.Tunnel.Proto.Channel

/-!
# Chunked frames reassemble

What the receiving loop does with the chunks `send_frame` cuts a Relay into,
read in order: it gives the decoded whole back and leaves no buffer when the
whole fits the cap, and refuses it with `ReassemblyOverflow` when it does not.
The cap is compared with the running total only, so the serialized length
alone decides.
-/
namespace MailCue.Tunnel.Proto.Channel
open MailCue.Lib

/-! ## Cutting -/

theorem chunksFrom_flatten (size n : Nat) (bs : Bytes) (h : bs.length ≤ n * size) :
    (chunksFrom size n bs).flatten = bs := by
  induction n generalizing bs with
  | zero =>
    have hnil : bs = [] := List.eq_nil_of_length_eq_zero (by omega)
    subst hnil
    rfl
  | succ n ih =>
    have hdrop : (bs.drop size).length ≤ n * size := by
      rw [List.length_drop]
      rw [Nat.succ_mul] at h
      omega
    rw [chunksFrom, List.flatten_cons, ih _ hdrop, List.take_append_drop]

theorem chunksFrom_length (size n : Nat) (bs : Bytes) : (chunksFrom size n bs).length = n := by
  induction n generalizing bs with
  | zero => rfl
  | succ n ih => rw [chunksFrom, List.length_cons, ih]

theorem le_divCeil_mul (n d : Nat) (hd : 0 < d) : n ≤ divCeil n d * d := by
  have hmod := Nat.mod_lt (n + d - 1) hd
  have hdiv := Nat.div_add_mod (n + d - 1) d
  rw [Nat.mul_comm] at hdiv
  unfold divCeil
  omega

theorem chunks_flatten (size : Nat) (bs : Bytes) (hsize : 0 < size) :
    (chunks size bs).flatten = bs :=
  chunksFrom_flatten size _ bs (le_divCeil_mul _ _ hsize)

theorem chunks_length (size : Nat) (bs : Bytes) :
    (chunks size bs).length = divCeil bs.length size :=
  chunksFrom_length size _ bs

theorem chunksFrom_length_le (size n : Nat) (bs : Bytes) :
    ∀ c ∈ chunksFrom size n bs, c.length ≤ size := by
  induction n generalizing bs with
  | zero => simp [chunksFrom]
  | succ n ih =>
    intro c hc
    rcases List.mem_cons.mp hc with rfl | hc
    · exact List.length_take_le size bs
    · exact ih _ c hc

theorem divCeil_le (n d : Nat) (hd : 0 < d) : divCeil n d ≤ n := by
  unfold divCeil
  rcases Nat.eq_zero_or_pos n with rfl | hn
  · exact Nat.le_of_eq (Nat.div_eq_of_lt (by omega))
  · have hmul : n + d - 1 < (n + 1) * d := by
      rw [Nat.add_mul, Nat.one_mul]
      have := Nat.le_mul_of_pos_right n hd
      omega
    exact Nat.lt_succ_iff.mp ((Nat.div_lt_iff_lt_mul hd).mpr hmul)

/-! ## The pending map -/

theorem Pending.remove_insert (pending : Pending) (id : UInt64) (s : ReassemblyState) :
    (pending.insert id s).remove id = pending.remove id :=
  Function.update_idem ..

theorem Pending.remove_of_none (pending : Pending) (id : UInt64) (h : pending id = none) :
    pending.remove id = pending := by
  unfold Pending.remove
  rw [← h]
  exact Function.update_eq_self id pending

@[simp] theorem Pending.remove_self (pending : Pending) (id : UInt64) :
    pending.remove id id = none := Function.update_self ..

@[simp] theorem Pending.insert_self (pending : Pending) (id : UInt64) (s : ReassemblyState) :
    pending.insert id s id = some s := Function.update_self ..

theorem Pending.remove_other (pending : Pending) (id other : UInt64) (h : other ≠ id) :
    pending.remove id other = pending other := Function.update_of_ne h ..

theorem Pending.insert_other (pending : Pending) (id other : UInt64) (s : ReassemblyState)
    (h : other ≠ id) : pending.insert id s other = pending other := Function.update_of_ne h ..

/-! ## The loop on chunks in order -/

theorem ofNat_succ (n : Nat) : UInt32.ofNat n + 1 = UInt32.ofNat (n + 1) := by
  rw [UInt32.ofNat_add]
  rfl

theorem ofNat_inj_of_lt (m n : Nat) (hm : m < 2 ^ 32) (hn : n < 2 ^ 32) :
    UInt32.ofNat m = UInt32.ofNat n ↔ m = n := by
  constructor
  · intro h
    have hv := congrArg UInt32.toNat h
    rwa [UInt32.toNat_ofNat_of_lt' hm, UInt32.toNat_ofNat_of_lt' hn] at hv
  · rintro rfl
    rfl

section
variable (codec : FrameCodec) (cap : Nat)

theorem recvPlaintext_chunk (pending : Pending) (chunk : RelayChunkPayload) (bs : Bytes)
    (h : codec.encodeFrame (.relayChunk chunk) = .ok bs) :
    recvPlaintext codec cap pending bs = acceptChunk codec cap pending chunk := by
  simp only [recvPlaintext, codec.decode_encode _ _ h]

theorem recvPlaintext_other (pending : Pending) (frame : Frame) (bs : Bytes)
    (h : codec.encodeFrame frame = .ok bs) (hother : frame.isRelayChunk = false) :
    recvPlaintext codec cap pending bs = (pending, .ret (.ok frame)) := by
  simp only [recvPlaintext, codec.decode_encode _ _ h]
  cases frame <;> first | rfl | cases hother

/-- The buffer holds the first `k` chunks and expects chunk `k`; an absent
entry is the one about to receive chunk 0. -/
def Expects (pending : Pending) (id : UInt64) (total : UInt32) (k : Nat) (buf : Bytes) : Prop :=
  (pending id).getD ⟨total, 0, []⟩ = ⟨total, UInt32.ofNat k, buf⟩

theorem expects_first (pending : Pending) (id : UInt64) (total : UInt32)
    (h : pending id = none) : Expects pending id total 0 [] := by
  simp [Expects, h]

theorem expects_insert (pending : Pending) (id : UInt64) (total : UInt32) (k : Nat) (buf : Bytes) :
    Expects (pending.insert id ⟨total, UInt32.ofNat k, buf⟩) id total k buf := by
  simp [Expects]

/-- The chunk arm on the chunk it expects: the cap and then the count decide. -/
theorem acceptChunk_expected (pending : Pending) (id : UInt64) (total : UInt32) (k : Nat)
    (buf data : Bytes) (h : Expects pending id total k buf) :
    acceptChunk codec cap pending ⟨id, UInt32.ofNat k, total, data⟩ =
      if buf.length + data.length > cap then
        (pending.remove id, .ret (.error (.reassemblyOverflow cap)))
      else if UInt32.ofNat (k + 1) = total then
        (pending.remove id, .ret (decodeAssembled codec (buf ++ data)))
      else (pending.insert id ⟨total, UInt32.ofNat (k + 1), buf ++ data⟩, .again) := by
  have hentry : pending.entry ⟨id, UInt32.ofNat k, total, data⟩ =
      ⟨total, UInt32.ofNat k, buf⟩ := h
  simp only [acceptChunk, hentry, ne_eq, not_true_eq_false, if_false, ofNat_succ]

/-- One step of the loop that sends chunks. -/
theorem chunkPlaintexts_cons {id : UInt64} {total : UInt32} {k : Nat} {chunk : Bytes}
    {cs pts : List Bytes} (hk : k < 2 ^ 32)
    (hsend : chunkPlaintexts codec id total k (chunk :: cs) = (pts, .ok ())) :
    ∃ bs rest, codec.encodeFrame (.relayChunk ⟨id, UInt32.ofNat k, total, chunk⟩) = .ok bs ∧
      pts = bs :: rest ∧ chunkPlaintexts codec id total (k + 1) cs = (rest, .ok ()) := by
  rw [chunkPlaintexts, if_pos hk] at hsend
  cases henc : codec.encodeFrame (.relayChunk ⟨id, UInt32.ofNat k, total, chunk⟩) with
  | error e => rw [henc] at hsend; cases hsend
  | ok bs =>
    rw [henc] at hsend
    simp only [Prod.mk.injEq] at hsend
    obtain ⟨rfl, hrest⟩ := hsend
    exact ⟨bs, _, rfl, rfl, Prod.ext rfl hrest⟩

/-- One step of the loop that receives them. -/
theorem recvFrame_expected {pending : Pending} {id : UInt64} {total : UInt32} {k : Nat}
    {buf chunk bs : Bytes} (pts : List Bytes)
    (henc : codec.encodeFrame (.relayChunk ⟨id, UInt32.ofNat k, total, chunk⟩) = .ok bs)
    (hexp : Expects pending id total k buf) :
    recvFrame codec cap pending ((bs :: pts).map .ok) =
      if buf.length + chunk.length > cap then
        (some (.error (.reassemblyOverflow cap)), pending.remove id, pts.map .ok)
      else if UInt32.ofNat (k + 1) = total then
        (some (decodeAssembled codec (buf ++ chunk)), pending.remove id, pts.map .ok)
      else recvFrame codec cap
        (pending.insert id ⟨total, UInt32.ofNat (k + 1), buf ++ chunk⟩) (pts.map .ok) := by
  rw [List.map_cons, recvFrame, recvPlaintext_chunk codec cap pending _ bs henc,
    acceptChunk_expected codec cap pending id _ k buf chunk hexp]
  by_cases hover : buf.length + chunk.length > cap
  · rw [if_pos hover, if_pos hover]
  · rw [if_neg hover, if_neg hover]
    by_cases hlast : UInt32.ofNat (k + 1) = total
    · rw [if_pos hlast, if_pos hlast]
    · rw [if_neg hlast, if_neg hlast]

/-- The chunk before others is not the one of the whole count. -/
theorem ofNat_ne_total {k n : Nat} (hn : 0 < n) (hcount : k + 1 + n < 2 ^ 32) :
    UInt32.ofNat (k + 1) ≠ UInt32.ofNat (k + 1 + n) := by
  intro heq
  have hsame := (ofNat_inj_of_lt _ _ (by omega) hcount).mp heq
  omega

/-- Chunks from index `k` on, in order. The induction is on the chunks still to
come; the buffer so far is the invariant. -/
theorem recvFrame_chunks (id : UInt64) (cs : List Bytes) (k : Nat) (pending : Pending)
    (buf : Bytes) (pts : List Bytes) (hne : cs ≠ []) (hcount : k + cs.length < 2 ^ 32)
    (hsend : chunkPlaintexts codec id (UInt32.ofNat (k + cs.length)) k cs = (pts, .ok ()))
    (hexp : Expects pending id (UInt32.ofNat (k + cs.length)) k buf)
    (hcap : (buf ++ cs.flatten).length ≤ cap) :
    recvFrame codec cap pending (pts.map .ok) =
      (some (decodeAssembled codec (buf ++ cs.flatten)), pending.remove id, []) := by
  induction cs generalizing k pending buf pts with
  | nil => exact absurd rfl hne
  | cons chunk cs ih =>
    have htotal : k + (chunk :: cs).length = k + 1 + cs.length := by
      rw [List.length_cons]
      omega
    rw [htotal] at hcount hsend hexp
    rw [List.flatten_cons, ← List.append_assoc] at hcap ⊢
    obtain ⟨bs, rest, henc, rfl, hrest⟩ := chunkPlaintexts_cons codec (by omega) hsend
    have hfits : ¬ buf.length + chunk.length > cap := by
      simp only [List.length_append] at hcap
      omega
    rw [recvFrame_expected codec cap rest henc hexp, if_neg hfits]
    rcases Nat.eq_zero_or_pos cs.length with hlast | hmore
    · have hnil : cs = [] := List.eq_nil_of_length_eq_zero hlast
      subst hnil
      cases hrest
      simp
    · rw [if_neg (ofNat_ne_total hmore hcount), ih (k + 1) _ (buf ++ chunk) rest
        (List.ne_nil_of_length_pos hmore) hcount hrest (expects_insert ..) hcap,
        Pending.remove_insert]

/-- The same chunks when the whole exceeds the cap: some chunk crosses it and
the call ends there. -/
theorem recvFrame_chunks_overflow (id : UInt64) (cs : List Bytes) (k : Nat) (pending : Pending)
    (buf : Bytes) (pts : List Bytes) (hcount : k + cs.length < 2 ^ 32)
    (hsend : chunkPlaintexts codec id (UInt32.ofNat (k + cs.length)) k cs = (pts, .ok ()))
    (hexp : Expects pending id (UInt32.ofNat (k + cs.length)) k buf)
    (hbuf : buf.length ≤ cap) (hcap : cap < (buf ++ cs.flatten).length) :
    ∃ rest, recvFrame codec cap pending (pts.map .ok) =
      (some (.error (.reassemblyOverflow cap)), pending.remove id, rest) := by
  induction cs generalizing k pending buf pts with
  | nil =>
    simp only [List.flatten_nil, List.append_nil] at hcap
    omega
  | cons chunk cs ih =>
    have htotal : k + (chunk :: cs).length = k + 1 + cs.length := by
      rw [List.length_cons]
      omega
    rw [htotal] at hcount hsend hexp
    rw [List.flatten_cons, ← List.append_assoc] at hcap
    obtain ⟨bs, rest, henc, rfl, hrest⟩ := chunkPlaintexts_cons codec (by omega) hsend
    rw [recvFrame_expected codec cap rest henc hexp]
    by_cases hover : buf.length + chunk.length > cap
    · exact ⟨_, by rw [if_pos hover]⟩
    · have hroom : (buf ++ chunk).length ≤ cap := by
        rw [List.length_append]
        omega
      have hmore : 0 < cs.length := by
        rcases Nat.eq_zero_or_pos cs.length with hlast | hmore
        · rw [List.eq_nil_of_length_eq_zero hlast, List.flatten_nil, List.append_nil] at hcap
          omega
        · exact hmore
      rw [if_neg hover, if_neg (ofNat_ne_total hmore hcount)]
      obtain ⟨left, hrecv⟩ := ih (k + 1) _ (buf ++ chunk) rest hcount hrest (expects_insert ..)
        hroom hcap
      rw [Pending.remove_insert] at hrecv
      exact ⟨left, hrecv⟩

/-! ## Whole frames -/

/-- The two ways `send_frame` accepts a frame: whole, or as a Relay in chunks. -/
theorem framePlaintexts_ok (frame : Frame) (pts : List Bytes)
    (h : framePlaintexts codec frame = (pts, .ok ())) :
    ∃ bs, codec.encodeFrame frame = .ok bs ∧
      ((bs.length ≤ MAX_PLAINTEXT_FRAME_BYTES ∧ pts = [bs]) ∨
        (MAX_PLAINTEXT_FRAME_BYTES < bs.length ∧ ∃ req, frame = .relay req ∧
          divCeil bs.length MAX_PLAINTEXT_FRAME_BYTES < 2 ^ 32 ∧
          chunkPlaintexts codec req.request_id
            (UInt32.ofNat (divCeil bs.length MAX_PLAINTEXT_FRAME_BYTES)) 0
            (chunks MAX_PLAINTEXT_FRAME_BYTES bs) = (pts, .ok ()))) := by
  unfold framePlaintexts at h
  split at h
  · cases h
  · rename_i bs henc
    refine ⟨bs, henc, ?_⟩
    split at h
    · rename_i hfit
      simp only [Prod.mk.injEq, and_true] at h
      exact .inl ⟨hfit, h.symm⟩
    · rename_i hbig
      split at h
      · rename_i req
        dsimp only at h
        split at h
        · rename_i hcount
          exact .inr ⟨by omega, req, rfl, hcount, h⟩
        · cases h
      · cases h

/-- A serializer that takes every chunk lets every chunk be sent. -/
theorem chunkPlaintexts_total (id : UInt64) (total : UInt32) (cs : List Bytes) (seq : Nat)
    (hchunk : ∀ p : RelayChunkPayload, p.data.length ≤ MAX_PLAINTEXT_FRAME_BYTES →
      ∃ bs, codec.encodeFrame (.relayChunk p) = .ok bs)
    (hsize : ∀ c ∈ cs, c.length ≤ MAX_PLAINTEXT_FRAME_BYTES) (hseq : seq + cs.length ≤ 2 ^ 32) :
    ∃ pts, chunkPlaintexts codec id total seq cs = (pts, .ok ()) := by
  induction cs generalizing seq with
  | nil => exact ⟨[], rfl⟩
  | cons c cs ih =>
    rw [List.length_cons] at hseq
    obtain ⟨bs, henc⟩ := hchunk ⟨id, UInt32.ofNat seq, total, c⟩ (hsize c (by simp))
    obtain ⟨pts, hpts⟩ := ih (seq + 1) (fun d hd => hsize d (by simp [hd])) (by omega)
    refine ⟨bs :: pts, ?_⟩
    unfold chunkPlaintexts
    rw [if_pos (by omega)]
    simp only [henc, hpts]

theorem framePlaintexts_relay_total (req : RelayRequest) (bs : Bytes)
    (hchunk : ∀ p : RelayChunkPayload, p.data.length ≤ MAX_PLAINTEXT_FRAME_BYTES →
      ∃ bs, codec.encodeFrame (.relayChunk p) = .ok bs)
    (henc : codec.encodeFrame (.relay req) = .ok bs) (hlen : bs.length < 2 ^ 32) :
    ∃ pts, framePlaintexts codec (.relay req) = (pts, .ok ()) := by
  have hcount := divCeil_le bs.length MAX_PLAINTEXT_FRAME_BYTES (by decide)
  have hchunks := chunks_length MAX_PLAINTEXT_FRAME_BYTES bs
  unfold framePlaintexts
  simp only [henc]
  split
  · exact ⟨[bs], rfl⟩
  · rw [if_pos (by omega)]
    exact chunkPlaintexts_total codec _ _ _ 0 hchunk (chunksFrom_length_le _ _ bs) (by omega)

/-- The first chunk finds no buffer, and all of them together are the frame. -/
theorem chunks_from_start (req : RelayRequest) (pending : Pending) (bs : Bytes) (pts : List Bytes)
    (hbig : MAX_PLAINTEXT_FRAME_BYTES < bs.length)
    (hcount : divCeil bs.length MAX_PLAINTEXT_FRAME_BYTES < 2 ^ 32)
    (hsend : chunkPlaintexts codec req.request_id
      (UInt32.ofNat (divCeil bs.length MAX_PLAINTEXT_FRAME_BYTES)) 0
      (chunks MAX_PLAINTEXT_FRAME_BYTES bs) = (pts, .ok ()))
    (hfree : pending req.request_id = none) :
    (bs.length ≤ cap → recvFrame codec cap pending (pts.map .ok) =
      (some (decodeAssembled codec bs), pending, [])) ∧
    (cap < bs.length → ∃ rest, recvFrame codec cap pending (pts.map .ok) =
      (some (.error (.reassemblyOverflow cap)), pending, rest)) := by
  have hlen := chunks_length MAX_PLAINTEXT_FRAME_BYTES bs
  have hwhole := chunks_flatten MAX_PLAINTEXT_FRAME_BYTES bs (by decide)
  have htotal : 0 + (chunks MAX_PLAINTEXT_FRAME_BYTES bs).length =
      divCeil bs.length MAX_PLAINTEXT_FRAME_BYTES := by omega
  have hne : chunks MAX_PLAINTEXT_FRAME_BYTES bs ≠ [] := by
    intro hnil
    rw [hnil, List.flatten_nil] at hwhole
    rw [← hwhole] at hbig
    simp at hbig
  rw [← htotal] at hsend
  have hsame := Pending.remove_of_none pending req.request_id hfree
  constructor
  · intro hcap
    have h := recvFrame_chunks codec cap req.request_id (chunks MAX_PLAINTEXT_FRAME_BYTES bs) 0
      pending [] pts hne (by omega) hsend (expects_first _ _ _ hfree)
      (by rw [List.nil_append, hwhole]; exact hcap)
    rwa [List.nil_append, hwhole, hsame] at h
  · intro hcap
    have h := recvFrame_chunks_overflow codec cap req.request_id
      (chunks MAX_PLAINTEXT_FRAME_BYTES bs) 0 pending [] pts (by omega) hsend
      (expects_first _ _ _ hfree) (Nat.zero_le _)
      (by rw [List.nil_append, hwhole]; exact hcap)
    rwa [hsame] at h

/-- An accepted frame that is not itself a chunk comes back whole, and the
pending map is as it was. -/
theorem recvFrame_framePlaintexts (frame : Frame) (pending : Pending) (pts : List Bytes)
    (hplain : frame.isRelayChunk = false) (hsend : framePlaintexts codec frame = (pts, .ok ()))
    (hcap : ∀ bs, codec.encodeFrame frame = .ok bs → bs.length ≤ cap)
    (hfree : ∀ req, frame = .relay req → pending req.request_id = none) :
    recvFrame codec cap pending (pts.map .ok) = (some (.ok frame), pending, []) := by
  obtain ⟨bs, henc, ⟨_, rfl⟩ | ⟨hbig, req, rfl, hcount, hchunks⟩⟩ :=
    framePlaintexts_ok codec frame pts hsend
  · rw [List.map_singleton, recvFrame, recvPlaintext_other codec cap pending frame bs henc hplain]
  · have h := (chunks_from_start codec cap req pending bs pts hbig hcount hchunks
      (hfree req rfl)).1 (hcap bs henc)
    rw [h, decodeAssembled, codec.decode_encode _ _ henc]

end

end MailCue.Tunnel.Proto.Channel
