import MailCue.Tunnel.Proto.Chunking
import MailCue.Tunnel.Proto.PostcardFrame

/-!
# Channel round trip

From `send_frame` on one side, through the length-prefixed records of the byte
stream, to successive `recv_frame` calls on the other. `Carries` is the record
layer seen from the receiver: what each ciphertext opens to. The loop over
records is first shown to be the loop over the stream (`recvFrameBytes_carries`),
so the chunk induction is never repeated at the level of octets.
-/
namespace MailCue.Tunnel.Proto.Channel
open MailCue.Lib

/-! ## Records -/

/-- `[ u32 BE ciphertext length ][ ciphertext bytes ]`. -/
def record (ct : Bytes) : Bytes := toBeBytes ct.length ++ ct

theorem fromBeBytes_toBeBytes (n : Nat) (h : n < 2 ^ 32) :
    fromBeBytes (UInt8.ofNat (n / 2 ^ 24)) (UInt8.ofNat (n / 2 ^ 16)) (UInt8.ofNat (n / 2 ^ 8))
      (UInt8.ofNat n) = n := by
  simp only [fromBeBytes, UInt8.toNat_ofNat']
  omega

/-- The receiver opens `cts`, in order, to `pts`. -/
inductive Carries (noise : NoiseTransport) :
    noise.Receiver → List Bytes → List Bytes → noise.Receiver → Prop
  | nil (r : noise.Receiver) : Carries noise r [] [] r
  | cons (r r' r'' : noise.Receiver) (ct pt : Bytes) (cts pts : List Bytes)
      (fits : ct.length ≤ MAX_CIPHERTEXT_FRAME_BYTES)
      (opens : noise.readMessage r ct = .ok (pt, r'))
      (rest : Carries noise r' cts pts r'') : Carries noise r (ct :: cts) (pt :: pts) r''

theorem Carries.fits_all {noise : NoiseTransport} {r r' : noise.Receiver} {cts pts : List Bytes}
    (h : Carries noise r cts pts r') : ∀ ct ∈ cts, ct.length ≤ MAX_CIPHERTEXT_FRAME_BYTES := by
  induction h with
  | nil => simp
  | cons _ _ _ ct _ cts _ fits _ _ ih => simpa [fits] using ih

theorem writePlaintext_ok (noise : NoiseTransport) (w w' : Writer noise) (pt : Bytes)
    (h : writePlaintext noise w pt = (w', .ok ())) :
    ∃ ct, noise.writeMessage w.transport pt = .ok (ct, w'.transport) ∧
      ct.length ≤ MAX_CIPHERTEXT_FRAME_BYTES ∧ w'.inner = w.inner ++ record ct := by
  unfold writePlaintext at h
  split at h
  · cases h
  · rename_i buf transport heq
    dsimp only at h
    split at h
    · cases h
    · rename_i hfit
      simp only [Prod.mk.injEq, and_true] at h
      subst h
      exact ⟨buf, heq, Nat.not_lt.mp hfit, by simp [record]⟩

/-- Writing a list of plaintexts appends records a paired receiver opens to
exactly that list. -/
theorem writeAll_ok (noise : NoiseTransport) (pts : List Bytes) (w w' : Writer noise)
    (r : noise.Receiver) (hpair : noise.Paired w.transport r)
    (h : writeAll noise w pts = (w', .ok ())) :
    ∃ cts r', w'.inner = w.inner ++ cts.flatMap record ∧ Carries noise r cts pts r' ∧
      noise.Paired w'.transport r' := by
  induction pts generalizing w r with
  | nil =>
    simp only [writeAll, Prod.mk.injEq, and_true] at h
    subst h
    exact ⟨[], r, by simp, .nil r, hpair⟩
  | cons pt pts ih =>
    rw [writeAll] at h
    split at h
    · cases h
    · rename_i w1 hwrite
      obtain ⟨ct, hseal, hfit, hinner⟩ := writePlaintext_ok noise w w1 pt hwrite
      obtain ⟨r1, hopen, hpair1⟩ := noise.read_write _ _ _ _ _ hpair hseal
      obtain ⟨cts, r', hrest, hcarry, hpair'⟩ := ih w1 r1 hpair1 h
      refine ⟨ct :: cts, r', ?_, .cons r r1 r' ct pt cts pts hfit hopen hcarry, hpair'⟩
      rw [hrest, hinner, List.flatMap_cons, List.append_assoc]

theorem readPlaintext_record (noise : NoiseTransport) (r r' : noise.Receiver) (ct pt rest : Bytes)
    (hfit : ct.length ≤ MAX_CIPHERTEXT_FRAME_BYTES)
    (hopen : noise.readMessage r ct = .ok (pt, r')) :
    readPlaintext noise ⟨r, record ct ++ rest⟩ = (.ok pt, ⟨r', rest⟩) := by
  have hlen := fromBeBytes_toBeBytes ct.length
    (Nat.lt_of_le_of_lt hfit (by decide : MAX_CIPHERTEXT_FRAME_BYTES < 2 ^ 32))
  have hin : record ct ++ rest = UInt8.ofNat (ct.length / 2 ^ 24) ::
      UInt8.ofNat (ct.length / 2 ^ 16) :: UInt8.ofNat (ct.length / 2 ^ 8) ::
        UInt8.ofNat ct.length :: (ct ++ rest) := by
    simp [record, toBeBytes]
  unfold readPlaintext
  rw [hin]
  dsimp only
  rw [hlen, if_neg (Nat.not_lt.mpr hfit), if_neg (by simp), List.take_left' rfl,
    List.drop_left' rfl, hopen]

/-- The loop over the stream is the loop over the plaintexts it carries. -/
theorem recvFrameBytes_carries (codec : FrameCodec) (noise : NoiseTransport) (cap : Nat)
    (r r' : noise.Receiver) (cts pts : List Bytes) (rest : Bytes) (pending pending' : Pending)
    (result : Except ChannelError Frame) (hcarry : Carries noise r cts pts r')
    (hrecv : recvFrame codec cap pending (pts.map .ok) = (some result, pending', [])) :
    recvFrameBytes codec noise cap ⟨⟨r, cts.flatMap record ++ rest⟩, pending⟩ =
      (result, ⟨⟨r', rest⟩, pending'⟩) := by
  induction hcarry generalizing pending with
  | nil => simp [recvFrame] at hrecv
  | cons r r1 r' ct pt cts pts hfit hopen hcarry ih =>
    have hread := readPlaintext_record noise r r1 ct pt (cts.flatMap record ++ rest) hfit hopen
    rw [List.map_cons, recvFrame] at hrecv
    rw [List.flatMap_cons, List.append_assoc, recvFrameBytes]
    split
    · rename_i e reader heq
      rw [hread] at heq
      cases heq
    · rename_i plaintext reader heq
      rw [hread] at heq
      cases heq
      dsimp only
      cases hpass : recvPlaintext codec cap pending pt with
      | mk next pass =>
        rw [hpass] at hrecv
        cases pass with
        | ret res =>
          simp only [Prod.mk.injEq, Option.some.injEq, List.map_eq_nil_iff] at hrecv
          obtain ⟨rfl, rfl, rfl⟩ := hrecv
          cases hcarry
          rfl
        | again => exact ih next hrecv

/-! ## Sequences of frames -/

/-- Successive `send_frame` calls, up to the first that fails. -/
def sendFrames (codec : FrameCodec) (noise : NoiseTransport) (w : Writer noise) :
    List Frame → Writer noise × Except ChannelError Unit
  | [] => (w, .ok ())
  | frame :: rest =>
    match sendFrame codec noise w frame with
    | (w, .error e) => (w, .error e)
    | (w, .ok ()) => sendFrames codec noise w rest

/-- Successive `recv_frame` calls return exactly these frames, and the pending
map is empty after each. -/
inductive Receives (codec : FrameCodec) (noise : NoiseTransport) (cap : Nat) :
    Inbound noise → List Frame → Inbound noise → Prop
  | done (ch : Inbound noise) : Receives codec noise cap ch [] ch
  | next (ch ch' ch'' : Inbound noise) (frame : Frame) (frames : List Frame)
      (returned : recvFrameBytes codec noise cap ch = (.ok frame, ch'))
      (empty : ch'.pending = Pending.empty)
      (rest : Receives codec noise cap ch' frames ch'') :
      Receives codec noise cap ch (frame :: frames) ch''

theorem sendFrame_ok (codec : FrameCodec) (noise : NoiseTransport) (w w' : Writer noise)
    (frame : Frame) (h : sendFrame codec noise w frame = (w', .ok ())) :
    ∃ pts, framePlaintexts codec frame = (pts, .ok ()) ∧ writeAll noise w pts = (w', .ok ()) := by
  unfold sendFrame at h
  dsimp only at h
  split at h
  · cases h
  · rename_i w1 hwrite
    simp only [Prod.mk.injEq] at h
    obtain ⟨rfl, hres⟩ := h
    exact ⟨_, Prod.ext rfl hres, hwrite⟩

/-- One frame written, then read at the other end, from an empty pending map. -/
theorem sendFrame_received (codec : FrameCodec) (noise : NoiseTransport) (cap : Nat)
    (w w' : Writer noise) (r : noise.Receiver) (frame : Frame)
    (hpair : noise.Paired w.transport r) (hplain : frame.isRelayChunk = false)
    (hcap : ∀ bs, codec.encodeFrame frame = .ok bs → bs.length ≤ cap)
    (hsend : sendFrame codec noise w frame = (w', .ok ())) :
    ∃ (cts : List Bytes) (r' : noise.Receiver), w'.inner = w.inner ++ cts.flatMap record ∧
      (∀ ct ∈ cts, ct.length ≤ MAX_CIPHERTEXT_FRAME_BYTES) ∧ noise.Paired w'.transport r' ∧
      ∀ rest, recvFrameBytes codec noise cap ⟨⟨r, cts.flatMap record ++ rest⟩, Pending.empty⟩ =
        (.ok frame, ⟨⟨r', rest⟩, Pending.empty⟩) := by
  obtain ⟨pts, hplan, hwrite⟩ := sendFrame_ok codec noise w w' frame hsend
  obtain ⟨cts, r', hinner, hcarry, hpair'⟩ := writeAll_ok noise pts w w' r hpair hwrite
  have hrecv := recvFrame_framePlaintexts codec cap frame Pending.empty pts hplain hplan hcap
    (fun _ _ => rfl)
  exact ⟨cts, r', hinner, hcarry.fits_all, hpair', fun rest =>
    recvFrameBytes_carries codec noise cap r r' cts pts rest _ _ _ hcarry hrecv⟩

/-- Every accepted sequence of frames, none of them a bare chunk, is what the
other side receives, in records within the Noise limit. The induction is on
the frames; each starts from an empty pending map and leaves one. -/
theorem channel_round_trip (codec : FrameCodec) (noise : NoiseTransport) (cap : Nat)
    (frames : List Frame) (w w' : Writer noise) (r : noise.Receiver)
    (hpair : noise.Paired w.transport r)
    (hplain : ∀ frame ∈ frames, frame.isRelayChunk = false)
    (hcap : ∀ frame ∈ frames, ∀ bs, codec.encodeFrame frame = .ok bs → bs.length ≤ cap)
    (hsend : sendFrames codec noise w frames = (w', .ok ())) :
    ∃ (cts : List Bytes) (r' : noise.Receiver), w'.inner = w.inner ++ cts.flatMap record ∧
      (∀ ct ∈ cts, ct.length ≤ MAX_CIPHERTEXT_FRAME_BYTES) ∧
      Receives codec noise cap ⟨⟨r, cts.flatMap record⟩, Pending.empty⟩ frames
        ⟨⟨r', []⟩, Pending.empty⟩ := by
  induction frames generalizing w r with
  | nil =>
    simp only [sendFrames, Prod.mk.injEq, and_true] at hsend
    subst hsend
    exact ⟨[], r, by simp, by simp, .done _⟩
  | cons frame frames ih =>
    rw [sendFrames] at hsend
    split at hsend
    · cases hsend
    · rename_i w1 hfirst
      obtain ⟨cts, r1, hinner, hfits, hpair1, hone⟩ := sendFrame_received codec noise cap w w1 r
        frame hpair (hplain frame (by simp)) (hcap frame (by simp)) hfirst
      obtain ⟨cts', r', hinner', hfits', hrest⟩ := ih w1 r1 hpair1
        (fun f hf => hplain f (by simp [hf])) (fun f hf => hcap f (by simp [hf])) hsend
      refine ⟨cts ++ cts', r', ?_, ?_, ?_⟩
      · rw [hinner', hinner, List.flatMap_append, List.append_assoc]
      · intro ct hct
        rcases List.mem_append.mp hct with hct | hct
        · exact hfits ct hct
        · exact hfits' ct hct
      · rw [List.flatMap_append]
        exact .next _ _ _ frame frames (hone _) rfl hrest

/-! ## Concrete runs -/

/-- A transport in the clear: the tag is sixteen zero octets and a message over
the Noise limit is refused. -/
def clearTransport : NoiseTransport where
  Sender := Unit
  Receiver := Unit
  writeMessage _ pt :=
    if pt.length + 16 ≤ MAX_CIPHERTEXT_FRAME_BYTES then .ok (pt ++ List.replicate 16 0, ())
    else .error ()
  readMessage _ ct := .ok (ct.take (ct.length - 16), ())
  Paired _ _ := True
  read_write _ r pt ct s' _ h := by
    refine ⟨(), ?_, trivial⟩
    split at h
    · simp only [Except.ok.injEq, Prod.mk.injEq, and_true] at h
      simp [← h]
    · cases h

/-- A greeting and a ping cross the clear transport. -/
theorem channel_round_trip_greeting :
    ∃ (cts : List Bytes) (r' : Unit),
      (sendFrames PostcardFrame.postcard clearTransport ⟨(), []⟩
        [.hello 3 "a" "b", .ping 5 6]).1.inner = [] ++ cts.flatMap record ∧
      (∀ ct ∈ cts, ct.length ≤ MAX_CIPHERTEXT_FRAME_BYTES) ∧
      Receives PostcardFrame.postcard clearTransport 100 ⟨⟨(), cts.flatMap record⟩, Pending.empty⟩
        [.hello 3 "a" "b", .ping 5 6] ⟨⟨r', []⟩, Pending.empty⟩ := by
  refine channel_round_trip PostcardFrame.postcard clearTransport 100 _ ⟨(), []⟩ _ () trivial
    (by decide) ?_ (Prod.ext rfl (by decide))
  intro frame hmem bs henc
  simp only [List.mem_cons, List.not_mem_nil, or_false] at hmem
  obtain rfl | rfl := hmem
  · cases henc
    decide
  · cases henc
    decide

/-- A frame that is itself a chunk is accepted by `send_frame` and swallowed by
the reassembler at the other end: here the call gives a decode error. -/
theorem bare_chunk_not_returned :
    ∃ w', sendFrames PostcardFrame.postcard clearTransport ⟨(), []⟩ [.relayChunk ⟨7, 0, 1, []⟩] =
        (w', .ok ()) ∧
      (∀ bs, PostcardFrame.postcard.encodeFrame (.relayChunk ⟨7, 0, 1, []⟩) = .ok bs →
        bs.length ≤ 100) ∧
      ¬ ∃ ch', Receives PostcardFrame.postcard clearTransport 100 ⟨⟨(), w'.inner⟩, Pending.empty⟩
        [.relayChunk ⟨7, 0, 1, []⟩] ch' := by
  refine ⟨_, Prod.ext rfl (by decide), fun bs henc => by cases henc; decide, ?_⟩
  rintro ⟨ch', hreceives⟩
  have hcarry : Carries clearTransport () [[3, 7, 0, 1, 0] ++ List.replicate 16 0]
      [[3, 7, 0, 1, 0]] () := .cons _ _ _ _ _ _ _ (by decide) rfl (.nil _)
  have hrecv : recvFrame PostcardFrame.postcard 100 Pending.empty [.ok [3, 7, 0, 1, 0]] =
      (some (.error (.proto .decode)), Pending.empty.remove 7, []) := rfl
  have hbytes := recvFrameBytes_carries PostcardFrame.postcard clearTransport 100 () () _ _ []
    _ _ _ hcarry hrecv
  cases hreceives with
  | next _ ch1 _ _ _ returned _ _ =>
    have hsame := hbytes.symm.trans returned
    cases hsame

end MailCue.Tunnel.Proto.Channel
