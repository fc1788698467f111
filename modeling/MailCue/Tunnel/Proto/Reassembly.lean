import MailCue.Lib.Transition
import MailCue.Tunnel.Proto.Chunking
import MailCue.Tunnel.Proto.PostcardFrame

/-!
# Reassembly against an arbitrary peer

The peer is authenticated but otherwise free: its records decode to any frames,
with any request ids, indexes, totals and payloads in any order. The machine is
the pending map under one pass of the receiving loop after another. Everything
a pass can do to the map is said once (`recvPlaintext_pending`), everything it
can return once (`recvPlaintext_ok`); the invariants are read off these.
-/
namespace MailCue.Tunnel.Proto.Channel
open MailCue.Lib

variable (codec : FrameCodec) (cap : Nat)

/-- The pending map over the records of one connection. -/
def reassembler : Machine Pending Bytes where
  start := Pending.empty
  step pending plaintext := (recvPlaintext codec cap pending plaintext).1

def chunkOf (plaintext : Bytes) : Option RelayChunkPayload :=
  match codec.decodeFrame plaintext with
  | .ok (.relayChunk chunk) => some chunk
  | _ => none

/-- The chunks that arrived for one request id, in order. -/
def arrived (id : UInt64) (plaintexts : List Bytes) : List RelayChunkPayload :=
  (plaintexts.filterMap (chunkOf codec)).filter fun chunk => chunk.request_id = id

/-! ## What one pass does -/

/-- The checks of the chunk arm, all passed. -/
structure Fits (pending : Pending) (chunk : RelayChunkPayload) : Prop where
  total : chunk.total = (pending.entry chunk).total
  seq : chunk.seq = (pending.entry chunk).received
  room : (pending.entry chunk).buf.length + chunk.data.length ≤ cap

def ReassemblyState.extend (entry : ReassemblyState) (chunk : RelayChunkPayload) :
    ReassemblyState :=
  { entry with buf := entry.buf ++ chunk.data, received := entry.received + 1 }

theorem acceptChunk_cases (pending : Pending) (chunk : RelayChunkPayload) :
    (∃ e, acceptChunk codec cap pending chunk =
      (pending.remove chunk.request_id, .ret (.error e))) ∨
    (Fits cap pending chunk ∧
      ((pending.entry chunk).extend chunk).received = (pending.entry chunk).total ∧
      acceptChunk codec cap pending chunk = (pending.remove chunk.request_id,
        .ret (decodeAssembled codec ((pending.entry chunk).buf ++ chunk.data)))) ∨
    (Fits cap pending chunk ∧
      ((pending.entry chunk).extend chunk).received ≠ (pending.entry chunk).total ∧
      acceptChunk codec cap pending chunk =
        (pending.insert chunk.request_id ((pending.entry chunk).extend chunk), .again)) := by
  unfold acceptChunk
  dsimp only
  split
  · exact .inl ⟨_, rfl⟩
  · rename_i htotal
    split
    · exact .inl ⟨_, rfl⟩
    · rename_i hseq
      split
      · exact .inl ⟨_, rfl⟩
      · rename_i hroom
        have hfits : Fits cap pending chunk :=
          ⟨Decidable.not_not.mp htotal, Decidable.not_not.mp hseq, Nat.not_lt.mp hroom⟩
        split
        · rename_i hdone
          exact .inr (.inl ⟨hfits, hdone, rfl⟩)
        · rename_i hmore
          exact .inr (.inr ⟨hfits, hmore, rfl⟩)

theorem recvPlaintext_of_chunk (pending : Pending) (pt : Bytes) (chunk : RelayChunkPayload)
    (h : chunkOf codec pt = some chunk) :
    recvPlaintext codec cap pending pt = acceptChunk codec cap pending chunk := by
  unfold chunkOf at h
  split at h
  · rename_i c hdec
    cases h
    simp only [recvPlaintext, hdec]
  · cases h

/-- A record that is no chunk leaves the map alone; what it decodes to is what
the loop returns. -/
theorem recvPlaintext_of_none (pending : Pending) (pt : Bytes) (h : chunkOf codec pt = none) :
    (recvPlaintext codec cap pending pt).1 = pending ∧
      ∀ f, (recvPlaintext codec cap pending pt).2 = .ret (.ok f) → f.isRelayChunk = false := by
  unfold recvPlaintext
  split
  · refine ⟨rfl, fun f hf => ?_⟩
    cases hf
  · rename_i chunk hdec
    simp [chunkOf, hdec] at h
  · rename_i frame hnot hdec
    refine ⟨rfl, fun f hf => ?_⟩
    cases hf
    cases frame with
    | relayChunk chunk => exact absurd rfl (hnot chunk)
    | _ => rfl

/-- An entry after a pass was there before and untouched, or was just extended
by a chunk that passed the checks and did not complete it. -/
theorem recvPlaintext_pending (pending : Pending) (pt : Bytes) (id : UInt64)
    (s : ReassemblyState) (h : (recvPlaintext codec cap pending pt).1 id = some s) :
    (pending id = some s ∧ ∀ chunk, chunkOf codec pt = some chunk → chunk.request_id ≠ id) ∨
    ∃ chunk, chunkOf codec pt = some chunk ∧ chunk.request_id = id ∧ Fits cap pending chunk ∧
      s = (pending.entry chunk).extend chunk ∧ s.received ≠ s.total := by
  cases hchunk : chunkOf codec pt with
  | none =>
    rw [(recvPlaintext_of_none codec cap pending pt hchunk).1] at h
    exact .inl ⟨h, by simp⟩
  | some chunk =>
    rw [recvPlaintext_of_chunk codec cap pending pt chunk hchunk] at h
    by_cases hid : id = chunk.request_id
    · subst hid
      obtain ⟨e, heq⟩ | ⟨_, _, heq⟩ | ⟨hfits, hmore, heq⟩ :=
        acceptChunk_cases codec cap pending chunk
      · simp [heq] at h
      · simp [heq] at h
      · simp only [heq, Pending.insert_self, Option.some.injEq] at h
        subst h
        exact .inr ⟨chunk, rfl, rfl, hfits, rfl, hmore⟩
    · have hsame : (acceptChunk codec cap pending chunk).1 id = pending id := by
        obtain ⟨e, heq⟩ | ⟨_, _, heq⟩ | ⟨_, _, heq⟩ := acceptChunk_cases codec cap pending chunk
        · simp only [heq, Pending.remove_other _ _ _ hid]
        · simp only [heq, Pending.remove_other _ _ _ hid]
        · simp only [heq, Pending.insert_other _ _ _ _ hid]
      rw [hsame] at h
      refine .inl ⟨h, fun c hc => ?_⟩
      cases hc
      exact Ne.symm hid

/-! ## Where a buffer comes from -/

/-- The buffer holds the payloads of the last chunks `cs` of its request: chunk
0, chunk 1 and so on, all announcing one total. -/
structure Built (id : UInt64) (arrivals : List RelayChunkPayload) (s : ReassemblyState)
    (cs : List RelayChunkPayload) : Prop where
  last : cs <:+ arrivals
  received : s.received = UInt32.ofNat cs.length
  indexed : ∀ (i : Nat) (c : RelayChunkPayload), cs[i]? = some c →
    c.request_id = id ∧ c.seq = UInt32.ofNat i ∧ c.total = s.total
  payloads : s.buf = cs.flatMap fun c => c.data

theorem built_first (arrivals : List RelayChunkPayload) (chunk : RelayChunkPayload) :
    Built chunk.request_id arrivals ⟨chunk.total, 0, []⟩ [] :=
  ⟨List.nil_suffix, rfl, by simp, rfl⟩

theorem Built.extend {arrivals : List RelayChunkPayload} {s : ReassemblyState}
    {cs : List RelayChunkPayload} {chunk : RelayChunkPayload}
    (h : Built chunk.request_id arrivals s cs) (htotal : chunk.total = s.total)
    (hseq : chunk.seq = s.received) :
    Built chunk.request_id (arrivals ++ [chunk]) (s.extend chunk) (cs ++ [chunk]) where
  last := by
    obtain ⟨before, hbefore⟩ := h.last
    exact ⟨before, by rw [← hbefore, List.append_assoc]⟩
  received := by
    rw [List.length_append, List.length_singleton, ← ofNat_succ, ← h.received]
    rfl
  indexed := by
    intro i c hc
    rcases Nat.lt_trichotomy i cs.length with hlt | heq | hgt
    · rw [List.getElem?_append_left hlt] at hc
      exact h.indexed i c hc
    · subst heq
      rw [List.getElem?_append_right (Nat.le_refl _), Nat.sub_self] at hc
      cases hc
      exact ⟨rfl, by rw [hseq, h.received], htotal⟩
    · rw [List.getElem?_eq_none (by simp; omega)] at hc
      cases hc
  payloads := by
    rw [List.flatMap_append, ← h.payloads]
    simp [ReassemblyState.extend]

theorem arrived_snoc (id : UInt64) (pre : List Bytes) (pt : Bytes) :
    arrived codec id (pre ++ [pt]) = arrived codec id pre ++
      ((chunkOf codec pt).toList.filter fun chunk => chunk.request_id = id) := by
  unfold arrived
  cases h : chunkOf codec pt <;> simp [h]

theorem arrived_other (id : UInt64) (pre : List Bytes) (pt : Bytes)
    (h : ∀ chunk, chunkOf codec pt = some chunk → chunk.request_id ≠ id) :
    arrived codec id (pre ++ [pt]) = arrived codec id pre := by
  rw [arrived_snoc]
  cases hc : chunkOf codec pt with
  | none => simp
  | some chunk => simp [h chunk hc]

theorem arrived_chunk (pre : List Bytes) (pt : Bytes) (chunk : RelayChunkPayload)
    (h : chunkOf codec pt = some chunk) :
    arrived codec chunk.request_id (pre ++ [pt]) =
      arrived codec chunk.request_id pre ++ [chunk] := by
  rw [arrived_snoc, h]
  simp

/-- Every buffer is the payloads of chunks that arrived for its request. -/
def BuffersBuilt (pre : List Bytes) (pending : Pending) : Prop :=
  ∀ id s, pending id = some s → ∃ cs, Built id (arrived codec id pre) s cs

theorem entry_built (pre : List Bytes) (pending : Pending) (chunk : RelayChunkPayload)
    (h : BuffersBuilt codec pre pending) :
    ∃ cs, Built chunk.request_id (arrived codec chunk.request_id pre) (pending.entry chunk) cs := by
  unfold Pending.entry
  cases hs : pending chunk.request_id with
  | none => exact ⟨[], built_first _ chunk⟩
  | some s => exact h _ s hs

/-- Whatever the peer sends, no buffer holds anything else. -/
theorem buffers_built (plaintexts : List Bytes) :
    (reassembler codec cap).Always (BuffersBuilt codec) plaintexts := by
  refine Machine.always_of_preserved plaintexts (fun id s h => by cases h) ?_
  intro pre pt ih id s hs
  rw [Machine.run_snoc] at hs
  obtain ⟨hold, hother⟩ | ⟨chunk, hchunk, rfl, hfits, rfl, _⟩ :=
    recvPlaintext_pending codec cap _ pt id s hs
  · rw [arrived_other codec id pre pt hother]
    exact ih id s hold
  · obtain ⟨cs, hcs⟩ := entry_built codec pre _ chunk ih
    rw [arrived_chunk codec pre pt chunk hchunk]
    exact ⟨_, hcs.extend hfits.total hfits.seq⟩

/-! ## The reassembly invariant -/

/-- An entry that waits for at least one more chunk of those it announced. -/
structure EntryOk (arrivals : List RelayChunkPayload) (id : UInt64) (s : ReassemblyState) :
    Prop where
  started : 0 < s.received
  incomplete : s.received < s.total
  buffer : ∃ cs, cs.length = s.received.toNat ∧ Built id arrivals s cs
  within : s.buf.length ≤ cap

def EntriesOk (pre : List Bytes) (pending : Pending) : Prop :=
  ∀ id s, pending id = some s → EntryOk cap (arrived codec id pre) id s

/-- A first chunk announced as one of zero: it passes every check and is kept. -/
def AnnouncesZero (pending : Pending) (pt : Bytes) : Prop :=
  ∃ chunk, chunkOf codec pt = some chunk ∧ pending chunk.request_id = none ∧
    chunk.total = 0 ∧ chunk.seq = 0 ∧ chunk.data.length ≤ cap

theorem succ_lt_of_lt (a b : UInt32) (hlt : a < b) (hne : a + 1 ≠ b) :
    (a + 1).toNat = a.toNat + 1 ∧ a + 1 < b := by
  have hb := b.toNat_lt
  rw [UInt32.lt_iff_toNat_lt] at hlt ⊢
  have hnext : (a + 1).toNat = a.toNat + 1 := by
    rw [UInt32.toNat_add]
    exact Nat.mod_eq_of_lt (show a.toNat + 1 < 2 ^ 32 by omega)
  have hdiff : (a + 1).toNat ≠ b.toNat := fun h => hne (UInt32.toNat_inj.mp h)
  exact ⟨hnext, by omega⟩

/-- What a chunk finds: its buffer, or a new one that announces some chunk. -/
theorem entry_waits (pre : List Bytes) (pending : Pending) (chunk : RelayChunkPayload)
    (h : EntriesOk codec cap pre pending)
    (hfirst : pending chunk.request_id = none → chunk.total ≠ 0) :
    (pending.entry chunk).received < (pending.entry chunk).total ∧
      ∃ cs, cs.length = (pending.entry chunk).received.toNat ∧
        Built chunk.request_id (arrived codec chunk.request_id pre) (pending.entry chunk) cs := by
  unfold Pending.entry
  cases hs : pending chunk.request_id with
  | none =>
    have hpos : 0 < chunk.total := by
      have := hfirst hs
      grind
    exact ⟨hpos, [], rfl, built_first _ chunk⟩
  | some s => exact ⟨(h _ s hs).incomplete, (h _ s hs).buffer⟩

theorem entries_ok_step (pre : List Bytes) (pending : Pending) (pt : Bytes)
    (h : EntriesOk codec cap pre pending) (hzero : ¬ AnnouncesZero codec cap pending pt) :
    EntriesOk codec cap (pre ++ [pt]) (recvPlaintext codec cap pending pt).1 := by
  intro id s hs
  obtain ⟨hold, hother⟩ | ⟨chunk, hchunk, rfl, hfits, rfl, hmore⟩ :=
    recvPlaintext_pending codec cap pending pt id s hs
  · rw [arrived_other codec id pre pt hother]
    exact h id s hold
  · have hfirst : pending chunk.request_id = none → chunk.total ≠ 0 := by
      intro hnone hz
      have hentry : pending.entry chunk = ⟨chunk.total, 0, []⟩ := by simp [Pending.entry, hnone]
      have hroom := hfits.room
      have hseq := hfits.seq
      rw [hentry] at hroom hseq
      exact hzero ⟨chunk, hchunk, hnone, hz, hseq, by simpa using hroom⟩
    obtain ⟨hlt, cs, hlen, hbuilt⟩ := entry_waits codec cap pre pending chunk h hfirst
    obtain ⟨hnext, hlt'⟩ := succ_lt_of_lt _ _ hlt hmore
    rw [arrived_chunk codec pre pt chunk hchunk]
    refine ⟨?_, hlt', ⟨cs ++ [chunk], ?_, hbuilt.extend hfits.total hfits.seq⟩, ?_⟩
    · rw [UInt32.lt_iff_toNat_lt]
      change 0 < ((pending.entry chunk).received + 1).toNat
      omega
    · rw [List.length_append, List.length_singleton, hlen]
      exact hnext.symm
    · simpa [ReassemblyState.extend] using hfits.room

/-- The step that is let through leaves an entry with one chunk received of
zero announced. -/
theorem announcesZero_kept (pending : Pending) (pt : Bytes)
    (h : AnnouncesZero codec cap pending pt) :
    ∃ id data, (recvPlaintext codec cap pending pt).1 id = some ⟨0, 1, data⟩ := by
  obtain ⟨chunk, hchunk, hnone, htotal, hseq, hroom⟩ := h
  have hentry : pending.entry chunk = ⟨0, 0, []⟩ := by simp [Pending.entry, hnone, htotal]
  refine ⟨chunk.request_id, chunk.data, ?_⟩
  rw [recvPlaintext_of_chunk codec cap pending pt chunk hchunk]
  unfold acceptChunk
  dsimp only
  rw [hentry, if_neg (by simp [htotal]), if_neg (by simp [hseq]),
    if_neg (by simpa using hroom), if_neg (by simp)]
  simp

/-- The invariant holds after every step of a run exactly when no first chunk
of the run is announced as one of zero. -/
theorem reassembly_invariant_iff (plaintexts : List Bytes) :
    (reassembler codec cap).Always (EntriesOk codec cap) plaintexts ↔
      (reassembler codec cap).EveryStep
        (fun _ pending pt => ¬ AnnouncesZero codec cap pending pt) plaintexts := by
  refine Machine.always_iff_everyStep (buffers_built codec cap plaintexts)
    (fun id s h => by cases h) ?_ ?_
  · intro pre pt _ h hzero
    rw [Machine.run_snoc]
    exact entries_ok_step codec cap pre _ pt h hzero
  · intro pre pt _ h hzero
    rw [Machine.run_snoc] at h
    obtain ⟨id, data, hkept⟩ := announcesZero_kept codec cap _ pt hzero
    have hlt := (h id _ hkept).incomplete
    exact absurd hlt (by simp)

/-- One record, a chunk of zero announced, stays in the map. -/
theorem zero_total_kept :
    ¬ (reassembler PostcardFrame.postcard 100).Always (EntriesOk PostcardFrame.postcard 100)
      [PostcardFrame.frame.encode (.relayChunk ⟨7, 0, 0, []⟩)] := by
  intro h
  have hkept : (reassembler PostcardFrame.postcard 100).run
      [PostcardFrame.frame.encode (.relayChunk ⟨7, 0, 0, []⟩)] 7 = some ⟨0, 1, []⟩ := rfl
  exact absurd (h _ List.prefix_rfl 7 _ hkept).incomplete (by decide)

/-! ## What reassembly returns -/

/-- The last chunk a buffer waits for. -/
def Completes (pending : Pending) (chunk : RelayChunkPayload) : Prop :=
  Fits cap pending chunk ∧ (pending.entry chunk).received + 1 = (pending.entry chunk).total

/-- What the loop returns is a record's own frame, never a chunk, or decodes
from a buffer the record completed. -/
theorem recvPlaintext_ok (pending : Pending) (pt : Bytes) (f : Frame)
    (h : (recvPlaintext codec cap pending pt).2 = .ret (.ok f)) :
    (chunkOf codec pt = none ∧ f.isRelayChunk = false) ∨
    ∃ chunk, chunkOf codec pt = some chunk ∧ Completes cap pending chunk ∧
      codec.decodeFrame ((pending.entry chunk).buf ++ chunk.data) = .ok f := by
  cases hchunk : chunkOf codec pt with
  | none => exact .inl ⟨rfl, (recvPlaintext_of_none codec cap pending pt hchunk).2 f h⟩
  | some chunk =>
    rw [recvPlaintext_of_chunk codec cap pending pt chunk hchunk] at h
    obtain ⟨e, heq⟩ | ⟨hfits, hdone, heq⟩ | ⟨_, _, heq⟩ :=
      acceptChunk_cases codec cap pending chunk
    · rw [heq] at h
      cases h
    · rw [heq] at h
      refine .inr ⟨chunk, rfl, ⟨hfits, hdone⟩, ?_⟩
      simp only [decodeAssembled, Pass.ret.injEq] at h
      split at h
      · rename_i g hdec
        rw [hdec, Except.ok.inj h]
      · cases h
    · rw [heq] at h
      cases h

theorem completes_returns (pending : Pending) (pt : Bytes) (chunk : RelayChunkPayload) (f : Frame)
    (hchunk : chunkOf codec pt = some chunk) (hdone : Completes cap pending chunk)
    (hdec : codec.decodeFrame ((pending.entry chunk).buf ++ chunk.data) = .ok f) :
    (recvPlaintext codec cap pending pt).2 = .ret (.ok f) := by
  rw [recvPlaintext_of_chunk codec cap pending pt chunk hchunk]
  obtain ⟨htotal, hseq, hroom⟩ := hdone.1
  unfold acceptChunk
  dsimp only
  rw [if_neg (by simpa using htotal), if_neg (by simpa using hseq), if_neg (by omega),
    if_pos hdone.2]
  simp [decodeAssembled, hdec]

/-- A frame `recv_frame` may return: no chunk, and from reassembly only a Relay
whose request id all the chunks it came in carried. -/
def ReturnsRelayOnly (pre : List Bytes) (pending : Pending) (pt : Bytes) : Prop :=
  ∀ f, (recvPlaintext codec cap pending pt).2 = .ret (.ok f) →
    f.isRelayChunk = false ∧
    ∀ chunk, chunkOf codec pt = some chunk →
      ∃ req cs, f = .relay req ∧ cs <:+ arrived codec chunk.request_id (pre ++ [pt]) ∧
        codec.decodeFrame (cs.flatMap fun c => c.data) = .ok f ∧
        chunk ∈ cs ∧ ∀ c ∈ cs, c.request_id = req.request_id

/-- The octets a last chunk completes are some other frame. -/
def Smuggles (pending : Pending) (pt : Bytes) : Prop :=
  ∃ chunk f, chunkOf codec pt = some chunk ∧ Completes cap pending chunk ∧
    codec.decodeFrame ((pending.entry chunk).buf ++ chunk.data) = .ok f ∧
    ∀ req, f = .relay req → req.request_id ≠ chunk.request_id

theorem returnsRelayOnly_of_not_smuggles (pre : List Bytes) (pending : Pending) (pt : Bytes)
    (hbuilt : BuffersBuilt codec pre pending) (h : ¬ Smuggles codec cap pending pt) :
    ReturnsRelayOnly codec cap pre pending pt := by
  intro f hret
  obtain ⟨hnone, hplain⟩ | ⟨chunk, hchunk, hdone, hdec⟩ :=
    recvPlaintext_ok codec cap pending pt f hret
  · refine ⟨hplain, ?_⟩
    intro chunk hchunk
    rw [hnone] at hchunk
    cases hchunk
  · have hrelay : ∃ req, f = .relay req ∧ req.request_id = chunk.request_id := by
      by_contra hno
      exact h ⟨chunk, f, hchunk, hdone, hdec, fun req hf hid => hno ⟨req, hf, hid⟩⟩
    obtain ⟨req, rfl, hid⟩ := hrelay
    obtain ⟨cs, hcs⟩ := entry_built codec pre pending chunk hbuilt
    have hall := hcs.extend hdone.1.total hdone.1.seq
    refine ⟨rfl, fun c hc => ?_⟩
    rw [hchunk] at hc
    cases hc
    refine ⟨req, cs ++ [chunk], rfl, ?_, ?_, by simp, ?_⟩
    · rw [arrived_chunk codec pre pt chunk hchunk]
      exact hall.last
    · rw [← hall.payloads]
      exact hdec
    · intro c hc
      obtain ⟨i, hi⟩ := List.mem_iff_getElem?.mp hc
      rw [(hall.indexed i c hi).1, hid]

theorem not_smuggles_of_returnsRelayOnly (pre : List Bytes) (pending : Pending) (pt : Bytes)
    (h : ReturnsRelayOnly codec cap pre pending pt) : ¬ Smuggles codec cap pending pt := by
  rintro ⟨chunk, f, hchunk, hdone, hdec, hother⟩
  have hret := completes_returns codec cap pending pt chunk f hchunk hdone hdec
  obtain ⟨req, cs, rfl, _, _, hmem, hid⟩ := (h f hret).2 chunk hchunk
  exact hother req rfl (hid chunk hmem).symm

/-- A run returns nothing but Relays of the right id from reassembly, and never
a chunk, exactly when no last chunk completes the octets of another frame. -/
theorem returns_relay_only_iff (plaintexts : List Bytes) :
    (reassembler codec cap).EveryStep (ReturnsRelayOnly codec cap) plaintexts ↔
      (reassembler codec cap).EveryStep (fun _ pending pt => ¬ Smuggles codec cap pending pt)
        plaintexts :=
  Machine.everyStep_congr (buffers_built codec cap plaintexts) fun pre pt hbuilt =>
    ⟨not_smuggles_of_returnsRelayOnly codec cap pre _ pt,
      returnsRelayOnly_of_not_smuggles codec cap pre _ pt hbuilt⟩

/-- A single chunk whose payload spells another chunk hands that chunk to the
layer above. -/
theorem chunk_smuggled :
    ¬ (reassembler PostcardFrame.postcard 100).EveryStep
      (ReturnsRelayOnly PostcardFrame.postcard 100)
      [PostcardFrame.frame.encode (.relayChunk
        ⟨7, 0, 1, PostcardFrame.frame.encode (.relayChunk ⟨8, 0, 2, []⟩)⟩)] := by
  intro h
  have hret := h [] _ List.prefix_rfl (.relayChunk ⟨8, 0, 2, []⟩) rfl
  exact absurd hret.1 (by decide)

/-! ## The machine and `recv_frame` -/

/-- A call of `recv_frame` that returns is passes of the machine, the last of
which gives the result. -/
theorem recvFrame_returns (plaintexts : List Bytes) (pending pending' : Pending)
    (result : Except ChannelError Frame) (rest : List (Except ChannelError Bytes))
    (h : recvFrame codec cap pending (plaintexts.map .ok) = (some result, pending', rest)) :
    ∃ pre pt post, plaintexts = pre ++ pt :: post ∧ rest = post.map .ok ∧
      recvPlaintext codec cap (pre.foldl (reassembler codec cap).step pending) pt =
        (pending', .ret result) := by
  induction plaintexts generalizing pending with
  | nil => simp [recvFrame] at h
  | cons pt pts ih =>
    rw [List.map_cons, recvFrame] at h
    cases hpass : recvPlaintext codec cap pending pt with
    | mk next pass =>
      rw [hpass] at h
      cases pass with
      | ret res =>
        simp only [Prod.mk.injEq, Option.some.injEq] at h
        obtain ⟨rfl, rfl, rfl⟩ := h
        exact ⟨[], pt, pts, rfl, rfl, hpass⟩
      | again =>
        obtain ⟨pre, last, post, rfl, hrest, hlast⟩ := ih next h
        refine ⟨pt :: pre, last, post, rfl, hrest, ?_⟩
        have hstep : (reassembler codec cap).step pending pt = next := by
          simp [reassembler, hpass]
        rw [List.foldl_cons, hstep]
        exact hlast

end MailCue.Tunnel.Proto.Channel
