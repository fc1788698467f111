import Mathlib.Data.List.Forall2
import MailCue.Tunnel.Edge.Connection
import MailCue.Tunnel.Proto.PostcardFrame

/-!
# Connection lifecycle of the edge

For every allow-list, key and sequence of inputs. A turn of the loop is
inverted once for each phase (`onHello_cases`, `onFrame_cases`) and the machine's
step once (`step_cases`); `Orderly` is what every reachable connection satisfies.
Replies are proved equal to the due replies `send_frame` takes, so that a reply
too large for one message is the only one that can be missing.
-/
namespace MailCue.Tunnel.Edge
open MailCue.Lib MailCue.Tunnel.Proto MailCue.Tunnel.Proto.Channel

/-! ## What an observer sees -/

def isRequest : Frame → Bool
  | .relay _ => true
  | .probe _ => true
  | _ => false

/-- The requests the dispatch loop read, with their numbers. The frame numbered
0 is the one read in place of the Hello. -/
def requests (events : List Event) : List (Nat × Frame) :=
  events.filterMap fun
    | .read turn frame => if turn ≠ 0 ∧ isRequest frame then some (turn, frame) else none
    | _ => none

def carriesRequestId : Frame → Bool
  | .relayResult _ _ => true
  | .probeResult _ _ _ => true
  | .error (some _) _ _ => true
  | _ => false

/-- The frames written that carry a request id. -/
def replies (events : List Event) : List Frame :=
  events.filterMap fun
    | .sent frame => if carriesRequestId frame then some frame else none
    | _ => none

/-- The request's own result, or an Error with its id. -/
def Answers : Frame → Frame → Prop
  | .relay req, .relayResult id _ => id = req.request_id
  | .relay req, .error (some id) _ _ => id = req.request_id
  | .probe req, .probeResult id _ _ => id = req.request_id
  | .probe req, .error (some id) _ _ => id = req.request_id
  | _, _ => False

/-- An accepted Hello and the acknowledgement to it. -/
def Greeted (events : List Event) : Prop :=
  ∃ client_id sidecar_version edge_version time rest,
    events = .read 0 (.hello PROTO_VERSION client_id sidecar_version) ::
      .sent (.helloAck PROTO_VERSION edge_version time) :: rest

/-- Nothing follows the close, and only the close follows an Error. -/
def Tidy : List Event → Prop
  | [] => True
  | .closed :: rest => rest = []
  | .sent (.error _ _ _) :: rest => rest = [.closed]
  | _ :: rest => Tidy rest

def goesOn : Event → Bool
  | .closed => false
  | .sent (.error _ _ _) => false
  | _ => true

theorem tidy_cons (e : Event) (rest : List Event) (h : goesOn e = true) :
    Tidy (e :: rest) ↔ Tidy rest := by
  unfold goesOn at h
  split at h
  · cases h
  · cases h
  · rename_i hclosed herror
    rw [Tidy]
    · exact hclosed
    · exact herror

theorem tidy_append (front block : List Event) (hfront : ∀ e ∈ front, goesOn e = true)
    (hblock : Tidy block) : Tidy (front ++ block) := by
  induction front with
  | nil => exact hblock
  | cons e front ih =>
    rw [List.cons_append, tidy_cons e _ (hfront e (by simp))]
    exact ih fun x hx => hfront x (by simp [hx])

theorem Tidy.after_error (pre post : List Event) (id : Option UInt64) (code : ErrorCode)
    (message : String) (h : Tidy (pre ++ .sent (.error id code message) :: post)) :
    post = [.closed] := by
  induction pre with
  | nil => exact h
  | cons e pre ih =>
    by_cases he : goesOn e = true
    · rw [List.cons_append, tidy_cons e _ he] at h
      exact ih h
    · unfold goesOn at he
      split at he
      · simp [Tidy] at h
      · rw [List.cons_append, Tidy] at h
        cases pre <;> simp at h
      · exact absurd rfl he

theorem Tidy.after_closed (pre post : List Event) (h : Tidy (pre ++ .closed :: post)) :
    post = [] := by
  induction pre with
  | nil => exact h
  | cons e pre ih =>
    by_cases he : goesOn e = true
    · rw [List.cons_append, tidy_cons e _ he] at h
      exact ih h
    · unfold goesOn at he
      split at he
      · simp [Tidy] at h
      · rw [List.cons_append, Tidy] at h
        cases pre with
        | nil => simpa using h
        | cons a pre => simp at h
      · exact absurd rfl he

namespace Task

variable (task : Task)

/-! ## One turn -/

/-- The reply due to a request. -/
def due (r : Nat × Frame) : Frame :=
  match r.2 with
  | .relay req => (task.relayReply r.1 req).1
  | .probe req => (task.probeReply r.1 req).1
  | frame => frame

theorem relayReply_answers (turn : Nat) (req : RelayRequest) :
    Answers (.relay req) (task.relayReply turn req).1 := by
  unfold relayReply
  dsimp only
  split
  · rfl
  · rfl

theorem probeReply_answers (turn : Nat) (req : ProbeRequest) :
    Answers (.probe req) (task.probeReply turn req).1 := by
  unfold probeReply
  dsimp only
  split
  · rfl
  · rfl

theorem due_answers (r : Nat × Frame) (h : isRequest r.2 = true) :
    Answers r.2 (task.due r) := by
  obtain ⟨turn, frame⟩ := r
  cases frame with
  | relay req => exact task.relayReply_answers turn req
  | probe req => exact task.probeReply_answers turn req
  | _ => cases h

theorem answers_carriesRequestId (request reply : Frame) (h : Answers request reply) :
    carriesRequestId reply = true := by
  unfold Answers at h
  split at h <;> first | rfl | cases h

theorem relayReply_goesOn (turn : Nat) (req : RelayRequest)
    (h : (task.relayReply turn req).2 = true) :
    goesOn (.sent (task.relayReply turn req).1) = true := by
  unfold relayReply at h ⊢
  dsimp only at h ⊢
  split at h
  · rfl
  · cases h

theorem probeReply_goesOn (turn : Nat) (req : ProbeRequest)
    (h : (task.probeReply turn req).2 = true) :
    goesOn (.sent (task.probeReply turn req).1) = true := by
  unfold probeReply at h ⊢
  dsimp only at h ⊢
  split at h
  · rfl
  · cases h

/-- The first frame is an accepted Hello, or is answered by an Error with no
request id before the close. -/
theorem onHello_cases (turn : Nat) (frame : Frame) :
    (∃ client_id sidecar_version, frame = .hello PROTO_VERSION client_id sidecar_version ∧
      task.onHello turn frame =
        task.respond (.helloAck PROTO_VERSION task.edge_version (task.unix_now turn), true)) ∨
    ∃ message,
      task.onHello turn frame = task.respond (.error none .protocolViolation message, false) ∧
      ((∃ v c s, frame = .hello v c s) ∨ message = "expected Hello as first frame") := by
  unfold onHello
  split
  · rename_i proto_version client_id sidecar_version
    split
    · exact .inr ⟨_, rfl, .inl ⟨_, _, _, rfl⟩⟩
    · rename_i hversion
      rw [Decidable.not_not.mp hversion]
      exact .inl ⟨client_id, sidecar_version, rfl, rfl⟩
  · exact .inr ⟨_, rfl, .inr rfl⟩

/-- A request is handed to its handler and answered with its due reply; any
other frame gets a frame with no request id. An Error is never the reply after
which the loop goes on. -/
theorem onFrame_cases (turn : Nat) (frame : Frame) :
    (isRequest frame = true ∧ ∃ stay, (stay = true → goesOn (.sent (task.due (turn, frame)))) ∧
      task.onFrame turn frame =
        (.entered turn frame :: (task.respond (task.due (turn, frame), stay)).1,
          (task.respond (task.due (turn, frame), stay)).2)) ∨
    (isRequest frame = false ∧ ∃ reply stay, (stay = true → goesOn (.sent reply)) ∧
      carriesRequestId reply = false ∧ task.onFrame turn frame = task.respond (reply, stay)) := by
  cases frame with
  | relay req =>
    exact .inl ⟨rfl, (task.relayReply turn req).2, task.relayReply_goesOn turn req,
      task.handle_eq turn _ req.request_id _⟩
  | probe req =>
    exact .inl ⟨rfl, (task.probeReply turn req).2, task.probeReply_goesOn turn req,
      task.handle_eq turn _ req.request_id _⟩
  | ping ts_unix nonce => exact .inr ⟨rfl, _, true, fun _ => rfl, rfl, rfl⟩
  | _ => exact .inr ⟨rfl, _, false, nofun, rfl, rfl⟩

/-- The loop goes on after a reply that was taken, or the task closes. -/
theorem respond_cases (reply : Frame) (stay : Bool) :
    (stay = true ∧ task.sends reply = true ∧
      task.respond (reply, stay) = ([.sent reply], .dispatch)) ∨
    task.respond (reply, stay) = (task.send reply ++ [.closed], .closed) := by
  cases stay with
  | false => exact .inr rfl
  | true =>
    by_cases hsend : task.sends reply = true
    · exact .inl ⟨rfl, hsend, by simp [respond, proceed, hsend]⟩
    · exact .inr (by simp [respond, proceed, send, hsend])

theorem respond_goesOn (reply : Frame) (stay : Bool)
    (hstay : stay = true → goesOn (.sent reply) = true)
    (hopen : (task.respond (reply, stay)).2 ≠ .closed) :
    ∀ e ∈ (task.respond (reply, stay)).1, goesOn e = true := by
  obtain ⟨hs, _, heq⟩ | heq := task.respond_cases reply stay
  · rw [heq]
    simpa using hstay hs
  · exact absurd (by rw [heq]) hopen

theorem respond_tidy (reply : Frame) (stay : Bool)
    (hstay : stay = true → goesOn (.sent reply) = true) :
    Tidy (task.respond (reply, stay)).1 := by
  obtain ⟨hs, _, heq⟩ | heq := task.respond_cases reply stay
  · rw [heq, tidy_cons _ _ (hstay hs)]
    trivial
  · rw [heq]
    unfold send
    split
    · by_cases hgo : goesOn (.sent reply) = true
      · rw [List.cons_append, tidy_cons _ _ hgo]
        rfl
      · unfold goesOn at hgo
        split at hgo
        · rename_i heq
          cases heq
        · rename_i heq
          cases heq
          rfl
        · exact absurd rfl hgo
    · rfl

theorem respond_not_hello (reply : Frame) (stay : Bool) :
    (task.respond (reply, stay)).2 ≠ .hello := by
  obtain ⟨_, _, heq⟩ | heq := task.respond_cases reply stay <;> simp [heq]

@[simp] theorem replies_append (a b : List Event) : replies (a ++ b) = replies a ++ replies b :=
  List.filterMap_append

@[simp] theorem requests_append (a b : List Event) :
    requests (a ++ b) = requests a ++ requests b := List.filterMap_append

@[simp] theorem replies_read (turn : Nat) (frame : Frame) (events : List Event) :
    replies (.read turn frame :: events) = replies events := rfl

theorem requests_read (turn : Nat) (frame : Frame) (events : List Event) :
    requests (.read turn frame :: events) =
      (if turn ≠ 0 ∧ isRequest frame = true then [(turn, frame)] else []) ++ requests events := by
  unfold requests
  rw [List.filterMap_cons]
  by_cases hr : turn ≠ 0 ∧ isRequest frame = true
  · simp only [if_pos hr, List.singleton_append]
  · simp only [if_neg hr, List.nil_append]

theorem respond_replies (reply : Frame) (stay : Bool) :
    replies (task.respond (reply, stay)).1 =
      if task.sends reply = true ∧ carriesRequestId reply = true then [reply] else [] := by
  obtain ⟨_, hsend, heq⟩ | heq := task.respond_cases reply stay
  · cases hid : carriesRequestId reply <;> simp [heq, hsend, replies, hid]
  · rw [heq]
    unfold send
    cases hsend : task.sends reply <;> cases hid : carriesRequestId reply <;>
      simp [replies, hid]

theorem respond_requests (reply : Frame) (stay : Bool) :
    requests (task.respond (reply, stay)).1 = [] := by
  obtain ⟨_, _, heq⟩ | heq := task.respond_cases reply stay
  · simp [heq, requests]
  · rw [heq]
    unfold send
    split <;> simp [requests]

theorem respond_not_entered (reply : Frame) (stay : Bool) (turn : Nat) (frame : Frame) :
    .entered turn frame ∉ (task.respond (reply, stay)).1 := by
  obtain ⟨_, _, heq⟩ | heq := task.respond_cases reply stay
  · simp [heq]
  · rw [heq]
    unfold send
    split <;> simp

/-! ## One step of the machine -/

/-- A frame was read: the state after it. -/
def afterRead (conn : Conn) (pending : Pending) (frame : Frame) (out : List Event × Phase) : Conn :=
  ⟨out.2, pending, conn.turn + 1, conn.events ++ .read conn.turn frame :: out.1⟩

/-- Everything one input does: nothing seen, a close, or a frame read and the
phase's turn taken on it. -/
theorem step_cases (conn : Conn) (input : Input) :
    (∃ pending, task.step conn input = { conn with pending }) ∨
    (conn.phase ≠ .closed ∧ ∃ pending, task.step conn input = close { conn with pending }) ∨
    (conn.phase = .hello ∧ ∃ pending frame, task.step conn input =
      afterRead conn pending frame (task.onHello conn.turn frame)) ∨
    (conn.phase = .dispatch ∧ ∃ pending frame, task.step conn input =
      afterRead conn pending frame (task.onFrame conn.turn frame)) := by
  unfold step
  split
  · exact .inl ⟨conn.pending, rfl⟩
  · rename_i hopen
    split
    · exact .inr (.inl ⟨hopen, conn.pending, rfl⟩)
    · exact .inr (.inl ⟨hopen, conn.pending, rfl⟩)
    · split
      · rename_i pending _
        exact .inl ⟨pending, rfl⟩
      · rename_i pending result _
        cases result with
        | error e => exact .inr (.inl ⟨hopen, pending, rfl⟩)
        | ok frame =>
          cases hphase : conn.phase with
          | closed => exact absurd hphase hopen
          | hello =>
            refine .inr (.inr (.inl ⟨rfl, pending, frame, ?_⟩))
            simp [onResult, afterRead]
          | dispatch =>
            refine .inr (.inr (.inr ⟨rfl, pending, frame, ?_⟩))
            simp [onResult, afterRead]

/-! ## The invariant -/

/-- What every reachable connection satisfies. -/
structure Orderly (remote_static : PublicKey) (conn : Conn) : Prop where
  authorized : conn.phase ≠ .closed → task.authorized remote_static = true
  waiting : conn.phase = .hello → conn.turn = 0 ∧ conn.events = []
  greeted : conn.phase = .dispatch → 0 < conn.turn ∧ Greeted conn.events
  goingOn : conn.phase ≠ .closed → ∀ e ∈ conn.events, goesOn e = true
  tidy : Tidy conn.events
  entered : ∀ turn frame, .entered turn frame ∈ conn.events →
    task.authorized remote_static = true ∧ Greeted conn.events
  answered : replies conn.events =
    ((requests conn.events).filter fun r => task.sends (task.due r)).map task.due
  first : ∀ frame rest, conn.events = .read 0 frame :: rest →
    (∃ v c s, frame = .hello v c s) ∨
      rest = [.sent (.error none .protocolViolation "expected Hello as first frame"), .closed]

theorem orderly_start (remote_static : PublicKey) :
    Orderly task remote_static (task.start remote_static) := by
  unfold start
  split
  · rename_i hauth
    exact ⟨fun _ => hauth, fun _ => ⟨rfl, rfl⟩, nofun, by simp, trivial, by simp, rfl, by simp⟩
  · have hsend := task.sends_error none .unauthorized "pubkey not in allow-list" (by decide)
    simp only [refuse, send, hsend, if_true]
    exact ⟨nofun, nofun, nofun, nofun, rfl, by simp, rfl, by simp⟩

theorem orderly_close (remote_static : PublicKey) (conn : Conn) (pending : Pending)
    (hopen : conn.phase ≠ .closed) (h : Orderly task remote_static conn) :
    Orderly task remote_static (close { conn with pending }) where
  authorized := nofun
  waiting := nofun
  greeted := nofun
  goingOn := nofun
  tidy := tidy_append _ _ (h.goingOn hopen) rfl
  entered turn frame hmem := by
    have hmem' : .entered turn frame ∈ conn.events := by simpa [close] using hmem
    obtain ⟨hauth, c, s, v, t, rest, hgreet⟩ := h.entered turn frame hmem'
    exact ⟨hauth, c, s, v, t, rest ++ [.closed], by simp [close, hgreet]⟩
  answered := by
    have hrep : replies [.closed] = [] := rfl
    have hreq : requests [.closed] = [] := rfl
    simp [close, hrep, hreq, h.answered]
  first frame rest hevents := by
    have hdispatch : conn.phase = .hello ∨ conn.phase = .dispatch := by
      cases hphase : conn.phase with
      | closed => exact absurd hphase hopen
      | hello => exact .inl rfl
      | dispatch => exact .inr rfl
    obtain hhello | hdisp := hdispatch
    · simp [close, (h.waiting hhello).2] at hevents
    · obtain ⟨c, s, v, t, tail, hgreet⟩ := (h.greeted hdisp).2
      simp only [close, hgreet, List.cons_append, List.cons.injEq, Event.read.injEq] at hevents
      exact .inl ⟨_, _, _, hevents.1.2.symm⟩

theorem orderly_hello (remote_static : PublicKey) (conn : Conn) (pending : Pending) (frame : Frame)
    (hphase : conn.phase = .hello) (h : Orderly task remote_static conn) :
    Orderly task remote_static
      (afterRead conn pending frame (task.onHello conn.turn frame)) := by
  obtain ⟨hturn, hevents⟩ := h.waiting hphase
  have hauth := h.authorized (by rw [hphase]; nofun)
  have hshape : ∃ reply stay, task.onHello conn.turn frame = task.respond (reply, stay) ∧
      (stay = true → goesOn (.sent reply) = true) ∧ carriesRequestId reply = false ∧
      (stay = true → (∃ c s, frame = .hello PROTO_VERSION c s) ∧
        ∃ v t, reply = .helloAck PROTO_VERSION v t) ∧
      ((∃ v c s, frame = .hello v c s) ∨ stay = false ∧
        reply = .error none .protocolViolation "expected Hello as first frame") := by
    obtain ⟨c, s, hframe, heq⟩ | ⟨message, heq, hother⟩ := task.onHello_cases conn.turn frame
    · exact ⟨_, _, heq, fun _ => rfl, rfl, fun _ => ⟨⟨c, s, hframe⟩, _, _, rfl⟩,
        .inl ⟨_, _, _, hframe⟩⟩
    · refine ⟨_, _, heq, nofun, rfl, nofun, ?_⟩
      obtain hhello | rfl := hother
      · exact .inl hhello
      · exact .inr ⟨rfl, rfl⟩
  obtain ⟨reply, stay, heq, hstay, hid, hack, hfirst⟩ := hshape
  rw [heq]
  unfold afterRead
  rw [hevents, hturn, List.nil_append]
  exact {
    authorized := fun _ => hauth
    waiting := fun hw => absurd hw (task.respond_not_hello reply stay)
    greeted := by
      intro hd
      obtain ⟨hs, _, hr⟩ | hr := task.respond_cases reply stay
      · obtain ⟨⟨c, s, rfl⟩, v, t, rfl⟩ := hack hs
        exact ⟨Nat.one_pos, c, s, v, t, [], by rw [hr]⟩
      · rw [hr] at hd
        cases hd
    goingOn := by
      intro hopen e he
      rcases List.mem_cons.mp he with rfl | he
      · rfl
      · exact task.respond_goesOn reply stay hstay hopen e he
    tidy := (tidy_cons _ _ rfl).mpr (task.respond_tidy reply stay hstay)
    entered := by
      intro turn f hmem
      rcases List.mem_cons.mp hmem with hmem | hmem
      · cases hmem
      · exact absurd hmem (task.respond_not_entered reply stay turn f)
    answered := by
      have hrep := task.respond_replies reply stay
      have hreq := task.respond_requests reply stay
      rw [if_neg (by simp [hid])] at hrep
      rw [replies_read, requests_read, hrep, hreq]
      rfl
    first := by
      intro f rest hev
      simp only [List.cons.injEq, Event.read.injEq, true_and] at hev
      obtain ⟨rfl, rfl⟩ := hev
      obtain hhello | ⟨rfl, rfl⟩ := hfirst
      · exact .inl hhello
      · have hsend := task.sends_error none .protocolViolation "expected Hello as first frame"
          (by decide)
        exact .inr (by simp [respond, refuse, send, hsend]) }

theorem orderly_dispatch (remote_static : PublicKey) (conn : Conn) (pending : Pending)
    (frame : Frame) (hphase : conn.phase = .dispatch) (h : Orderly task remote_static conn) :
    Orderly task remote_static
      (afterRead conn pending frame (task.onFrame conn.turn frame)) := by
  have hopen : conn.phase ≠ .closed := by rw [hphase]; nofun
  obtain ⟨hturn, c, s, v, t, rest, hgreet⟩ := h.greeted hphase
  have hauth := h.authorized hopen
  have hshape : ∃ mid reply stay,
      task.onFrame conn.turn frame = (mid ++ (task.respond (reply, stay)).1,
        (task.respond (reply, stay)).2) ∧
      (∀ e ∈ mid, goesOn e = true) ∧ (stay = true → goesOn (.sent reply) = true) ∧
      replies mid = [] ∧ requests mid = [] ∧
      (isRequest frame = true ∧ reply = task.due (conn.turn, frame) ∧
          carriesRequestId reply = true ∨
        isRequest frame = false ∧ carriesRequestId reply = false) := by
    obtain ⟨hreq, stay, hstay, heq⟩ | ⟨hreq, reply, stay, hstay, hid, heq⟩ :=
      task.onFrame_cases conn.turn frame
    · exact ⟨[.entered conn.turn frame], _, stay, heq, by simp [goesOn], hstay, rfl, rfl,
        .inl ⟨hreq, rfl, answers_carriesRequestId _ _ (task.due_answers (conn.turn, frame) hreq)⟩⟩
    · exact ⟨[], reply, stay, heq, by simp, hstay, rfl, rfl, .inr ⟨hreq, hid⟩⟩
  obtain ⟨mid, reply, stay, heq, hmid, hstay, hmidrep, hmidreq, hkind⟩ := hshape
  rw [heq]
  unfold afterRead
  exact {
    authorized := fun _ => hauth
    waiting := fun hw => absurd hw (task.respond_not_hello reply stay)
    greeted := fun _ => ⟨Nat.succ_pos _, c, s, v, t, _, by rw [hgreet]; rfl⟩
    goingOn := by
      intro hstill e he
      rcases List.mem_append.mp he with he | he
      · exact h.goingOn hopen e he
      · rcases List.mem_cons.mp he with rfl | he
        · rfl
        · rcases List.mem_append.mp he with he | he
          · exact hmid e he
          · exact task.respond_goesOn reply stay hstay hstill e he
    tidy := by
      refine tidy_append _ _ (h.goingOn hopen) ((tidy_cons _ _ rfl).mpr ?_)
      exact tidy_append _ _ hmid (task.respond_tidy reply stay hstay)
    entered := fun _ _ _ => ⟨hauth, c, s, v, t, _, by rw [hgreet]; rfl⟩
    answered := by
      have hrep := task.respond_replies reply stay
      have hreq := task.respond_requests reply stay
      have hnonzero : conn.turn ≠ 0 := Nat.pos_iff_ne_zero.mp hturn
      simp only [replies_append, requests_append, replies_read, requests_read, hmidrep, hmidreq,
        hreq, hrep, h.answered, List.filter_append, List.map_append, List.nil_append,
        List.append_nil]
      congr 1
      obtain ⟨hr, rfl, hid⟩ | ⟨hr, hid⟩ := hkind
      · cases hs : task.sends (task.due (conn.turn, frame)) <;> simp [hr, hid, hs, hnonzero]
      · simp [hr, hid]
    first := by
      intro f tail hev
      simp only [hgreet, List.cons_append, List.cons.injEq, Event.read.injEq, true_and] at hev
      exact .inl ⟨_, _, _, hev.1.symm⟩ }

/-- Every connection the inputs can lead to is orderly. -/
theorem orderly_run (remote_static : PublicKey) (inputs : List Input) :
    (task.handleConnection remote_static).Always (fun _ conn => Orderly task remote_static conn)
      inputs := by
  refine Machine.always_of_preserved inputs (task.orderly_start remote_static) ?_
  intro pre input h
  rw [Machine.run_snoc]
  obtain ⟨pending, heq⟩ | ⟨hopen, pending, heq⟩ | ⟨hphase, pending, frame, heq⟩ |
    ⟨hphase, pending, frame, heq⟩ := task.step_cases _ input
  · rw [show (task.handleConnection remote_static).step _ input = _ from heq]
    exact ⟨h.authorized, h.waiting, h.greeted, h.goingOn, h.tidy, h.entered, h.answered, h.first⟩
  · rw [show (task.handleConnection remote_static).step _ input = _ from heq]
    exact task.orderly_close remote_static _ pending hopen h
  · rw [show (task.handleConnection remote_static).step _ input = _ from heq]
    exact task.orderly_hello remote_static _ pending frame hphase h
  · rw [show (task.handleConnection remote_static).step _ input = _ from heq]
    exact task.orderly_dispatch remote_static _ pending frame hphase h

/-- The connection after these inputs, as an observer sees it. -/
def trace (remote_static : PublicKey) (inputs : List Input) : List Event :=
  ((task.handleConnection remote_static).run inputs).events

/-- Replies are the due replies that fit, in request order. -/
theorem replies_eq (remote_static : PublicKey) (inputs : List Input) :
    replies (task.trace remote_static inputs) =
      ((requests (task.trace remote_static inputs)).filter fun r =>
        task.sends (task.due r)).map task.due :=
  (task.orderly_run remote_static inputs inputs List.prefix_rfl).answered

theorem requests_isRequest (events : List Event) :
    ∀ r ∈ requests events, isRequest r.2 = true := by
  intro r hr
  obtain ⟨e, _, he⟩ := List.mem_filterMap.mp hr
  cases e with
  | read turn frame =>
    dsimp only at he
    split at he
    · rename_i hreq
      cases he
      exact hreq.2
    · cases he
  | _ => cases he

/-- Handlers run only behind the allow-list and the Hello exchange; where every
due reply fits one message, each request is answered once and in order; only the
close follows an Error and nothing follows the close; and what comes in place of
the Hello gets an Error with no request id. -/
theorem connection_lifecycle (remote_static : PublicKey) (inputs : List Input) :
    (∀ turn frame, .entered turn frame ∈ task.trace remote_static inputs →
      task.authorized remote_static = true ∧ Greeted (task.trace remote_static inputs)) ∧
    ((∀ r ∈ requests (task.trace remote_static inputs), task.sends (task.due r) = true) →
      List.Forall₂ (fun r reply => Answers r.2 reply)
        (requests (task.trace remote_static inputs)) (replies (task.trace remote_static inputs))) ∧
    (∀ pre post id code message, task.trace remote_static inputs =
      pre ++ .sent (.error id code message) :: post → post = [.closed]) ∧
    (∀ pre post, task.trace remote_static inputs = pre ++ .closed :: post → post = []) ∧
    ∀ frame rest, task.trace remote_static inputs = .read 0 frame :: rest →
      (∃ v c s, frame = .hello v c s) ∨
        rest =
          [.sent (.error none .protocolViolation "expected Hello as first frame"), .closed] := by
  have horderly := task.orderly_run remote_static inputs inputs List.prefix_rfl
  have htidy : Tidy (task.trace remote_static inputs) := horderly.tidy
  refine ⟨horderly.entered, ?_, ?_, ?_, horderly.first⟩
  · intro hfits
    have hreq := requests_isRequest (task.trace remote_static inputs)
    rw [replies_eq, List.filter_eq_self.mpr hfits, List.forall₂_map_right_iff,
      List.forall₂_same]
    intro r hr
    exact task.due_answers r (hreq r hr)
  · intro pre post id code message hsplit
    rw [hsplit] at htidy
    exact htidy.after_error
  · intro pre post hsplit
    rw [hsplit] at htidy
    exact htidy.after_closed

/-- An edge that knows one key and has no network. -/
def isolated : Task where
  codec := PostcardFrame.postcard
  cfg := .default
  allow := .ok ⟨fun key => if key = Vector.replicate 32 0 then some ⟨none⟩ else none⟩
  helo_name := "edge.example"
  edge_version := "0.1.0"
  unix_now _ := 0
  debugStr s := s
  world _ := ⟨fun _ => .error "no resolver", fun _ _ => .error "no network"⟩

/-- A record that opens to no chunk is a turn of its own. -/
theorem step_plain (conn : Conn) (frame : Frame) (bs : Bytes) (hopen : conn.phase ≠ .closed)
    (henc : task.codec.encodeFrame frame = .ok bs) (hplain : frame.isRelayChunk = false) :
    task.step conn (.record (.ok bs)) = task.onResult conn (.ok frame) := by
  have hrecv : recvPlaintext task.codec REASSEMBLY_HEADROOM_BYTES conn.pending bs =
      (conn.pending, .ret (.ok frame)) := by
    unfold recvPlaintext
    rw [task.codec.decode_encode frame bs henc]
    cases frame with
    | relayChunk chunk => cases hplain
    | _ => rfl
  unfold step
  rw [if_neg hopen]
  simp only [hrecv]

/-- The reply to an envelope sender longer than one message quotes it. -/
theorem long_sender_unsent (turn : Nat) (req : RelayRequest)
    (hlong : MAX_PLAINTEXT_FRAME_BYTES < req.envelope_from.utf8ByteSize) :
    ∃ message, isolated.relayReply turn req =
        (.error (some req.request_id) .protocolViolation message, false) ∧
      isolated.sends (.error (some req.request_id) .protocolViolation message) = false := by
  have hover : 254 < req.envelope_from.utf8ByteSize := by
    unfold MAX_PLAINTEXT_FRAME_BYTES at hlong
    omega
  have hinvalid : isValidMailboxOrEmpty req.envelope_from = false := by
    have hne : req.envelope_from.isEmpty = false := by
      simp only [String.isEmpty, beq_eq_false_iff_ne, ne_eq]
      omega
    simp [isValidMailboxOrEmpty, isValidMailbox, hne, hover]
  refine ⟨s!"envelope_from `{req.envelope_from}` is not a valid mailbox", ?_, ?_⟩
  · simp [relayReply, handleRelay, rejectRelay, hinvalid, rejectReply]
  · rw [Bool.eq_false_iff, ne_eq, isolated.sends_iff_of_not_relay _ (by simp)]
    rintro ⟨bs, henc, hfits⟩
    have hquoted := PostcardFrame.le_error_length (some req.request_id) .protocolViolation
      s!"envelope_from `{req.envelope_from}` is not a valid mailbox"
    rw [PostcardFrame.encodeFrame_ok _ bs henc] at hquoted
    simp only [toString, String.utf8ByteSize_append] at hquoted
    omega

/-- A relay whose sender is a text of `n` octets. -/
def fromSender (n : Nat) : RelayRequest :=
  ⟨7, String.ofList (List.replicate n 'a'), ["a@b.c"], [], .default⟩

theorem fromSender_size (n : Nat) : (fromSender n).envelope_from.utf8ByteSize = n := by
  change (String.ofList (List.replicate n 'a')).utf8ByteSize = n
  induction n with
  | zero => rfl
  | succ n ih =>
    have hletter : (String.ofList ['a']).utf8ByteSize = 1 := by decide
    rw [List.replicate_succ, ← List.singleton_append, String.ofList_append,
      String.utf8ByteSize_append, ih, hletter, Nat.add_comm]

theorem fromSender_encoded (n : Nat) (h : n < 2 ^ 31) :
    PostcardFrame.postcard.encodeFrame (.relay (fromSender n)) =
      .ok (PostcardFrame.frame.encode (.relay (fromSender n))) := by
  have hsplit : PostcardFrame.frame.encode (.relay (fromSender n)) =
      [2, 7] ++ (Codec.string.encode (fromSender n).envelope_from ++
        [1, 5, 97, 64, 98, 46, 99, 0, 0, 0, 0]) := rfl
  have hsender := Codec.string_length_le (fromSender n).envelope_from
  rw [fromSender_size] at hsender
  apply PostcardFrame.encodeFrame_eq_ok
  rw [hsplit]
  simp only [List.length_append, List.length_cons, List.length_nil]
  omega

/-- A Hello, and then a Relay from a sender that no reply can quote. -/
theorem trace_fromSender (n : Nat) (hlong : MAX_PLAINTEXT_FRAME_BYTES < n) (hn : n < 2 ^ 31) :
    isolated.trace (Vector.replicate 32 0)
        [.record (.ok (PostcardFrame.frame.encode (.hello PROTO_VERSION "a" "b"))),
          .record (.ok (PostcardFrame.frame.encode (.relay (fromSender n))))] =
      [.read 0 (.hello PROTO_VERSION "a" "b"), .sent (.helloAck PROTO_VERSION "0.1.0" 0),
        .read 1 (.relay (fromSender n)), .entered 1 (.relay (fromSender n)), .closed] := by
  have hstart : isolated.start (Vector.replicate 32 0) = ⟨.hello, Pending.empty, 0, []⟩ := by
    unfold start
    rw [if_pos (by decide)]
  have hack : isolated.onHello 0 (.hello PROTO_VERSION "a" "b") =
      ([.sent (.helloAck PROTO_VERSION "0.1.0" 0)], .dispatch) := by decide
  have hhello : isolated.step ⟨.hello, Pending.empty, 0, []⟩
      (.record (.ok (PostcardFrame.frame.encode (.hello PROTO_VERSION "a" "b")))) =
      ⟨.dispatch, Pending.empty, 1, [.read 0 (.hello PROTO_VERSION "a" "b"),
        .sent (.helloAck PROTO_VERSION "0.1.0" 0)]⟩ := by
    rw [isolated.step_plain _ (.hello PROTO_VERSION "a" "b") _ (by simp) rfl rfl]
    simp [onResult, hack]
  obtain ⟨message, hreply, hunsent⟩ := long_sender_unsent 1 (fromSender n)
    (by rw [fromSender_size]; exact hlong)
  have hrelay := isolated.step_plain ⟨.dispatch, Pending.empty, 1,
    [.read 0 (.hello PROTO_VERSION "a" "b"), .sent (.helloAck PROTO_VERSION "0.1.0" 0)]⟩
    (.relay (fromSender n)) _ (by simp) (fromSender_encoded n hn) rfl
  simp only [trace, Machine.run, handleConnection, List.foldl_cons, List.foldl_nil]
  rw [hstart, hhello, hrelay]
  simp [onResult, onFrame, handle_eq, hreply, respond, refuse, send, hunsent]

/-- A Relay sent in place of the Hello is read, and no reply carries its id. One
behind a Hello is read too, and has no reply where the reply is too long. -/
theorem requests_unanswered :
    (∃ frame, isRequest frame = true ∧
      .read 0 frame ∈ isolated.trace (Vector.replicate 32 0)
        [.record (.ok (PostcardFrame.frame.encode (.relay ⟨7, "", ["a@b.c"], [], .default⟩)))] ∧
      replies (isolated.trace (Vector.replicate 32 0)
        [.record (.ok (PostcardFrame.frame.encode
          (.relay ⟨7, "", ["a@b.c"], [], .default⟩)))]) = []) ∧
    .read 1 (.relay (fromSender 62000)) ∈ isolated.trace (Vector.replicate 32 0)
      [.record (.ok (PostcardFrame.frame.encode (.hello PROTO_VERSION "a" "b"))),
        .record (.ok (PostcardFrame.frame.encode (.relay (fromSender 62000))))] ∧
    replies (isolated.trace (Vector.replicate 32 0)
      [.record (.ok (PostcardFrame.frame.encode (.hello PROTO_VERSION "a" "b"))),
        .record (.ok (PostcardFrame.frame.encode (.relay (fromSender 62000))))]) = [] := by
  constructor
  · refine ⟨.relay ⟨7, "", ["a@b.c"], [], .default⟩, rfl, ?_, ?_⟩
    · decide
    · decide
  · rw [trace_fromSender 62000 (by decide) (by decide)]
    simp [replies, carriesRequestId]

end Task

end MailCue.Tunnel.Edge
