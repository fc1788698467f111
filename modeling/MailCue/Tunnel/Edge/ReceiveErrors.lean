import MailCue.Tunnel.Edge.Lifecycle
import MailCue.Tunnel.Proto.RoundTrip

/-!
# Receive errors of the edge

docs/PROTOCOL.md assigns the failures of `recv_frame` their error codes. The loop
answers none of them: whatever the peer's octets, a failing receive is the close
alone.
-/
namespace MailCue.Tunnel.Edge
open MailCue.Lib MailCue.Tunnel.Proto MailCue.Tunnel.Proto.Channel

/-- docs/PROTOCOL.md, "Receiver rules" and "Error codes". The other failures are of
the transport below the frames. -/
def assignedCode : ChannelError → Option ErrorCode
  | .reassemblyOverflow _ => some .messageTooLarge
  | .badChunking _ => some .protocolViolation
  | .proto _ => some .protocolViolation
  | _ => none

/-- What successive `read_plaintext` calls make of the octets, up to the first that
fails. -/
def records (noise : NoiseTransport) (rd : Reader noise) : List (Except ChannelError Bytes) :=
  match _hread : readPlaintext noise rd with
  | (.error e, _) => [.error e]
  | (.ok plaintext, rd') => .ok plaintext :: records noise rd'
termination_by rd.inner.length
decreasing_by exact readPlaintext_shorter noise rd rd' plaintext _hread

/-- One Error, with this code, and the close behind it. -/
def Reported (code : ErrorCode) (events : List Event) : Prop :=
  ∃ before request_id message, events = before ++ [.sent (.error request_id code message), .closed] ∧
    ∀ id c m, .sent (.error id c m) ∉ before

namespace Task

variable (task : Task)

/-- The error `recv_frame` returns on this input, where it does. -/
def recvError (conn : Conn) : Input → Option ChannelError
  | .idle => none
  | .record (.error e) => some e
  | .record (.ok plaintext) =>
    match (recvPlaintext task.codec REASSEMBLY_HEADROOM_BYTES conn.pending plaintext).2 with
    | .ret (.error e) => some e
    | _ => none

/-- A call of `recv_frame`, before the Hello or after it, returns this error. -/
def Fails (remote_static : PublicKey) (inputs : List Input) (e : ChannelError) : Prop :=
  ∃ pre input, pre ++ [input] <+: inputs ∧
    ((task.handleConnection remote_static).run pre).phase ≠ .closed ∧
    task.recvError ((task.handleConnection remote_static).run pre) input = some e

/-- It returns one that has this code assigned. -/
def FailsWith (remote_static : PublicKey) (inputs : List Input) (code : ErrorCode) : Prop :=
  ∃ e, assignedCode e = some code ∧ task.Fails remote_static inputs e

variable {task}

theorem step_closed {conn : Conn} (h : conn.phase = .closed) (input : Input) :
    task.step conn input = conn := by
  unfold step
  rw [if_pos h]

/-- The error arms of the loop. -/
theorem step_recvError {conn : Conn} {input : Input} {e : ChannelError}
    (hopen : conn.phase ≠ .closed) (h : task.recvError conn input = some e) :
    ∃ pending, task.step conn input = close { conn with pending } := by
  unfold step
  rw [if_neg hopen]
  cases input with
  | idle => exact ⟨conn.pending, rfl⟩
  | record plaintext =>
    cases plaintext with
    | error e => exact ⟨conn.pending, rfl⟩
    | ok plaintext =>
      unfold recvError at h
      cases hpass : recvPlaintext task.codec REASSEMBLY_HEADROOM_BYTES conn.pending plaintext with
      | mk pending pass =>
        simp only [hpass] at h ⊢
        cases pass with
        | again => cases h
        | ret result =>
          cases result with
          | error e => exact ⟨pending, rfl⟩
          | ok frame => cases h

/-- Behind a failed receive there is the close and nothing else. -/
theorem trace_of_fails {remote_static : PublicKey} {inputs : List Input} {e : ChannelError}
    (h : task.Fails remote_static inputs e) :
    ∃ before, task.trace remote_static inputs = before ++ [.closed] ∧
      ∀ event ∈ before, goesOn event = true := by
  obtain ⟨pre, input, hpre, hopen, herror⟩ := h
  obtain ⟨pending, hstep⟩ := step_recvError hopen herror
  have horderly := task.orderly_run remote_static pre pre List.prefix_rfl
  have hlast : (task.handleConnection remote_static).run (pre ++ [input]) =
      close { (task.handleConnection remote_static).run pre with pending } := by
    rw [Machine.run_snoc]
    exact hstep
  have hrun : (task.handleConnection remote_static).run inputs =
      (task.handleConnection remote_static).run (pre ++ [input]) :=
    Machine.run_of_stuck hpre fun i => step_closed (by rw [hlast]; rfl) i
  refine ⟨((task.handleConnection remote_static).run pre).events, ?_, horderly.goingOn hopen⟩
  unfold trace
  rw [hrun, hlast]
  rfl

/-- No Error goes out on a connection whose receive fails. -/
theorem not_sent_of_fails {remote_static : PublicKey} {inputs : List Input} {e : ChannelError}
    (h : task.Fails remote_static inputs e) (id : Option UInt64) (code : ErrorCode)
    (message : String) : .sent (.error id code message) ∉ task.trace remote_static inputs := by
  obtain ⟨before, htrace, hgoing⟩ := trace_of_fails h
  intro hmem
  rw [htrace] at hmem
  rcases List.mem_append.mp hmem with hmem | hmem
  · cases hgoing _ hmem
  · cases List.mem_singleton.mp hmem

theorem not_reported {code : ErrorCode} {events : List Event}
    (h : ∀ id c m, .sent (.error id c m) ∉ events) : ¬ Reported code events := by
  rintro ⟨front, request_id, message, rfl, -⟩
  exact h request_id code message (by simp)

variable (task)

/-- The inputs a peer's octets are. -/
def octets (noise : NoiseTransport) (rd : Reader noise) : List Input :=
  (records noise rd).map .record

/-- No failed receive is ever reported, whatever the octets. -/
theorem receive_error_unreported (remote_static : PublicKey) (noise : NoiseTransport)
    (rd : Reader noise) (code : ErrorCode)
    (h : task.FailsWith remote_static (octets noise rd) code) :
    ¬ Reported code (task.trace remote_static (octets noise rd)) ∧
      ∀ id c m, .sent (.error id c m) ∉ task.trace remote_static (octets noise rd) := by
  obtain ⟨e, -, hfails⟩ := h
  have hnone := not_sent_of_fails hfails
  exact ⟨not_reported hnone, hnone⟩

/-- One octet that is no frame, sealed, in place of the Hello. -/
def undecodable : Reader clearTransport :=
  ⟨(), record (255 :: List.replicate 16 0) ++ []⟩

theorem octets_undecodable :
    octets clearTransport undecodable = [.record (.ok [255]), .record (.error .unexpectedEof)] := by
  have hfirst : readPlaintext clearTransport undecodable = (.ok [255], ⟨(), []⟩) :=
    readPlaintext_record clearTransport () () (255 :: List.replicate 16 0) [255] [] (by decide) rfl
  have hsecond : readPlaintext clearTransport ⟨(), []⟩ = (.error .unexpectedEof, ⟨(), []⟩) := rfl
  unfold octets
  rw [records]
  split
  · rename_i heq
    cases heq.symm.trans hfirst
  · rename_i heq
    cases heq.symm.trans hfirst
    rw [records]
    split
    · rename_i heq'
      cases heq'.symm.trans hsecond
      rfl
    · rename_i heq'
      cases heq'.symm.trans hsecond

theorem undecodable_fails :
    isolated.FailsWith (Vector.replicate 32 0) (octets clearTransport undecodable)
      .protocolViolation := by
  refine ⟨.proto .decode, rfl, [], .record (.ok [255]), ?_, by decide, by decide⟩
  rw [octets_undecodable]
  exact List.prefix_append _ _

theorem receive_error_unreported_undecodable :
    ¬ Reported .protocolViolation (isolated.trace (Vector.replicate 32 0)
        (octets clearTransport undecodable)) ∧
      ∀ id c m, .sent (.error id c m) ∉ isolated.trace (Vector.replicate 32 0)
        (octets clearTransport undecodable) :=
  isolated.receive_error_unreported (Vector.replicate 32 0) clearTransport undecodable
    .protocolViolation undecodable_fails

/-- The authorized peer that sends it sees the connection close and nothing else. -/
theorem undecodable_unreported :
    isolated.FailsWith (Vector.replicate 32 0) (octets clearTransport undecodable)
        .protocolViolation ∧
      isolated.trace (Vector.replicate 32 0) (octets clearTransport undecodable) = [.closed] ∧
      ¬ Reported .protocolViolation (isolated.trace (Vector.replicate 32 0)
        (octets clearTransport undecodable)) := by
  have htrace : isolated.trace (Vector.replicate 32 0) (octets clearTransport undecodable) =
      [.closed] := by
    rw [octets_undecodable]
    decide
  refine ⟨undecodable_fails, htrace, not_reported ?_⟩
  rw [htrace]
  simp

end Task

end MailCue.Tunnel.Edge
