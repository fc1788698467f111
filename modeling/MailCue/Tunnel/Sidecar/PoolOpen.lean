import MailCue.Tunnel.Proto.Frame
import MailCue.Tunnel.Sidecar.PoolHealth
import MailCue.Tunnel.Sidecar.Relay

/-!
# Opening a connection

tunnel/crates/sidecar/src/pool.rs, `Pool::open`: connect, handshake, Hello, HelloAck,
each within a time. The ways out write a failure down for the tunnel's health, but for
the two that the `?` behind the HelloAck takes, so that an edge which accepts the Hello
and never answers stays in rotation. The reasons that are only logged are left out.
-/
namespace MailCue.Tunnel.Sidecar.Pool
open MailCue.Lib MailCue.Tunnel.Proto

/-! ## The ways out -/

/-- What comes of something awaited within a time. -/
inductive Awaited (α : Type) where
  | elapsed
  | failed (e : String)
  | done (value : α)
  deriving DecidableEq, Repr

structure Dialled where
  connect : Awaited Unit
  handshake : Awaited Unit
  hello : Awaited Unit
  ack : Awaited Frame
  deriving DecidableEq, Repr

/-- `open`, and how often it calls `note_open_failure`. -/
def openTunnel (endpoint : String) (d : Dialled) : Except String Unit × Nat :=
  match d.connect with
  | .failed e => (.error s!"connect {endpoint}: {e}", 1)
  | .elapsed => (.error s!"connect timeout {endpoint}", 1)
  | .done _ =>
    match d.handshake with
    | .failed e => (.error s!"handshake {endpoint}: {e}", 1)
    | .elapsed => (.error s!"handshake timeout {endpoint}", 1)
    | .done _ =>
      match d.hello with
      | .failed _ => (.error "send Hello", 1)
      | .elapsed => (.error "Hello write timeout", 1)
      | .done _ =>
        match d.ack with
        | .elapsed => (.error "HelloAck read timeout", 0)
        | .failed _ => (.error "recv HelloAck", 0)
        | .done (.helloAck proto_version _ _) =>
          if proto_version = PROTO_VERSION then (.ok (), 0)
          else (.error "HelloAck proto_version mismatch", 1)
        | .done (.error _ code message) =>
          let code := ErrorCode.debug code
          (.error s!"edge error after Hello: {code}: {message}", 1)
        | .done _ => (.error "expected HelloAck", 1)

/-- The Hello went out, and no frame came back in time. -/
structure Dialled.AckLost (d : Dialled) : Prop where
  connected : d.connect = .done ()
  proved : d.handshake = .done ()
  greeted : d.hello = .done ()
  unanswered : ∀ frame, d.ack ≠ .done frame

theorem openTunnel_noted_iff (endpoint : String) (d : Dialled) (e : String)
    (h : (openTunnel endpoint d).1 = .error e) :
    (openTunnel endpoint d).2 = 1 ↔ ¬ d.AckLost := by
  obtain ⟨connect, handshake, hello, ack⟩ := d
  cases connect with
  | elapsed => exact iff_of_true rfl fun hlost => by cases hlost.connected
  | failed => exact iff_of_true rfl fun hlost => by cases hlost.connected
  | done =>
    cases handshake with
    | elapsed => exact iff_of_true rfl fun hlost => by cases hlost.proved
    | failed => exact iff_of_true rfl fun hlost => by cases hlost.proved
    | done =>
      cases hello with
      | elapsed => exact iff_of_true rfl fun hlost => by cases hlost.greeted
      | failed => exact iff_of_true rfl fun hlost => by cases hlost.greeted
      | done =>
        cases ack with
        | elapsed =>
          exact iff_of_false (by simp [openTunnel]) (not_not_intro ⟨rfl, rfl, rfl, by simp⟩)
        | failed =>
          exact iff_of_false (by simp [openTunnel]) (not_not_intro ⟨rfl, rfl, rfl, by simp⟩)
        | done frame =>
          refine ⟨fun _ hlost => hlost.unanswered frame rfl, fun _ => ?_⟩
          cases frame with
          | helloAck proto_version edge_version server_time_unix =>
            simp only [openTunnel] at h ⊢
            split at h
            · cases h
            · next hversion => rw [if_neg hversion]
          | _ => rfl

/-- How the worker's opening ends in the pool. -/
def openAct (i : Nat) (endpoint : String) (d : Dialled) : Act :=
  match openTunnel endpoint d with
  | (.ok _, _) => .opened i
  | (.error _, noted) => .openFailed i (noted = 1)

theorem openAct_counted {i : Nat} {endpoint : String} {d : Dialled} (h : ¬ d.AckLost) (j : Nat) :
    openAct i endpoint d ≠ .openFailed j false := by
  unfold openAct
  split
  · exact Act.noConfusion
  · next e noted hout =>
    have hnoted : noted = 1 := by
      have := openTunnel_noted_iff endpoint d e (by rw [hout])
      rw [hout] at this
      exact this.mpr h
    simp [hnoted]

/-! ## Failed opens in a row -/

def State.openingOf (s : State) (i : Nat) : Option Tunnel :=
  (s.workers[i]?).bind fun w =>
    match w.phase with
    | .opening t => some t
    | _ => none

def State.leasedOf (s : State) (i : Nat) : Option Conn :=
  (s.workers[i]?).bind fun w =>
    match w.phase with
    | .leased conn => some conn
    | _ => none

/-- The act is a failed open of the tunnel. -/
def Act.failsOpen (s : State) (id : String) : Act → Bool
  | .openFailed i _ => (s.openingOf i).any (·.id == id)
  | _ => false

/-- The act is a success of the tunnel, or drops what is known of it. -/
def Act.clears (s : State) (id : String) : Act → Bool
  | .opened i => (s.openingOf i).any (·.id == id)
  | .finish i _ => (s.leasedOf i).any (·.tunnel_id == id)
  | .pong =>
    match s.keepalive with
    | .pinging conn _ => conn.tunnel_id == id
    | _ => false
  | .retain =>
    match s.reload with
    | .retaining ids => !ids.contains id
    | _ => false
  | _ => false

def streakAfter (s : State) (a : Act) (streak : String → Nat) (id : String) : Nat :=
  if a.failsOpen s id then streak id + 1 else if a.clears s id then 0 else streak id

/-- What the pool's tasks take in: an open ends as the network has it. -/
inductive Input where
  | act (a : Act)
  | opens (i : Nat) (d : Dialled)

def Act.isOpen : Act → Bool
  | .opened _ => true
  | .openFailed _ _ => true
  | _ => false

def Input.act? (s : State) : Input → Option Act
  | .act a => if a.isOpen then none else some a
  | .opens i d => (s.openingOf i).map fun t => openAct i t.endpoint d

/-- `streak` is a record kept beside the program: how many opens of a tunnel have
failed since it last succeeded. -/
structure Tracked where
  pool : State
  streak : String → Nat

def trackedStep (cfg : SidecarConfig) (t : Tracked) (x : Input) : Tracked :=
  match x.act? t.pool with
  | none => t
  | some a => ⟨step cfg t.pool a, streakAfter t.pool a t.streak⟩

def tracked (cfg : SidecarConfig) (view : TunnelsView) : Machine Tracked Input where
  start := ⟨start view, fun _ => 0⟩
  step := trackedStep cfg

/-- No open of this input loses its answer. -/
def Input.Answered : Input → Prop
  | .act _ => True
  | .opens _ d => ¬ d.AckLost

/-! ## The counter follows -/

/-- The counter has all of the failed opens in a row, and the mark goes with it. -/
structure Follows (cfg : SidecarConfig) (n : Nat) (stats : TunnelStats) : Prop where
  counted : min n (2 ^ 32 - 1) ≤ stats.consecutive_failures
  marked : cfg.unhealthy_after_consecutive_failures ≤ stats.consecutive_failures →
    stats.healthy = false

section Follows
variable {cfg : SidecarConfig} {n : Nat} {stats : TunnelStats}

theorem Follows.mono {m : Nat} (h : Follows cfg n stats) (hle : m ≤ n) : Follows cfg m stats :=
  ⟨(by omega : min m (2 ^ 32 - 1) ≤ min n (2 ^ 32 - 1)).trans h.counted, h.marked⟩

theorem follows_default : Follows cfg 0 (TunnelSlot.stats {}) := by
  refine ⟨Nat.zero_le _, fun hle => ?_⟩
  have hpos := cfg.unhealthy_after_pos
  have hzero : (TunnelSlot.stats {}).consecutive_failures = 0 := rfl
  omega

theorem Follows.succeeded (now : Nat) : Follows cfg 0 (stats.succeeded now) := by
  refine ⟨Nat.zero_le _, fun hle => ?_⟩
  have hpos := cfg.unhealthy_after_pos
  have hzero : (stats.succeeded now).consecutive_failures = 0 := rfl
  omega

theorem Follows.failed (h : Follows cfg n stats) : Follows cfg (n + 1) (stats.failed cfg) := by
  have hcounted := h.counted
  refine ⟨?_, fun hle => ?_⟩
  · simp only [TunnelStats.failed, saturatingInc]
    omega
  · simp only [TunnelStats.failed] at hle ⊢
    simp [Nat.not_lt.mpr hle]

end Follows

def FollowsAll (cfg : SidecarConfig) (streak : String → Nat) (slots : Slots) : Prop :=
  ∀ id, Follows cfg (streak id) (entry id slots).stats

section Steps
variable {cfg : SidecarConfig} {s s' : State} {streak : String → Nat}

theorem FollowsAll.mono {streak' : String → Nat} {slots : Slots} (h : FollowsAll cfg streak slots)
    (hle : ∀ id, streak' id ≤ streak id) : FollowsAll cfg streak' slots :=
  fun id => (h id).mono (hle id)

/-- Only the slot of `k` is changed, in a way that follows. -/
theorem FollowsAll.modify {streak' : String → Nat} {k : String} {f : TunnelSlot → TunnelSlot}
    {slots : Slots} (h : FollowsAll cfg streak slots) (hle : ∀ id, id ≠ k → streak' id ≤ streak id)
    (hf : Follows cfg (streak' k) (f (entry k slots)).stats) :
    FollowsAll cfg streak' (Pool.modify k f slots) := by
  intro id
  by_cases hid : id = k
  · subst hid
    rw [entry_modify_self]
    exact hf
  · rw [entry_modify_ne hid]
    exact (h id).mono (hle id hid)

theorem streakAfter_le {a : Act} {id : String} (h : a.failsOpen s id = false) :
    streakAfter s a streak id ≤ streak id := by
  unfold streakAfter
  rw [h]
  split
  · exact absurd ‹_› Bool.false_ne_true
  · split <;> omega

theorem streakAfter_cleared {a : Act} {id : String} (hfails : a.failsOpen s id = false)
    (h : a.clears s id = true) : streakAfter s a streak id = 0 := by
  simp [streakAfter, hfails, h]

theorem streakAfter_opens {i : Nat} {w : Worker} {t : Tunnel} (hw : s.workers[i]? = some w)
    (hphase : w.phase = .opening t) (counted : Bool) (id : String) :
    streakAfter s (.openFailed i counted) streak id =
      if t.id = id then streak id + 1 else streak id := by
  simp [streakAfter, Act.failsOpen, Act.clears, State.openingOf, hw, hphase]

/-- The slot of `k` is changed by a step that is no failed open, and its counter and mark
are not. -/
theorem FollowsAll.keep {a : Act} {k : String} {f : TunnelSlot → TunnelSlot}
    (h : FollowsAll cfg streak s.slots) (hfails : ∀ id, a.failsOpen s id = false)
    (hstats : Follows cfg (streak k) (entry k s.slots).stats →
      Follows cfg (streak k) (f (entry k s.slots)).stats) :
    FollowsAll cfg (streakAfter s a streak) (Pool.modify k f s.slots) := by
  refine h.modify (fun id _ => streakAfter_le (hfails id)) ?_
  exact (hstats (h k)).mono (streakAfter_le (hfails k))

/-- A success of `k` is written down. -/
theorem FollowsAll.clear {a : Act} {k : String} {f : TunnelSlot → TunnelSlot}
    (h : FollowsAll cfg streak s.slots) (hfails : ∀ id, a.failsOpen s id = false)
    (hclears : a.clears s k = true)
    (hstats : Follows cfg 0 ((entry k s.slots).stats.succeeded s.now) →
      Follows cfg 0 (f (entry k s.slots)).stats) :
    FollowsAll cfg (streakAfter s a streak) (Pool.modify k f s.slots) := by
  refine h.modify (fun id _ => streakAfter_le (hfails id)) ?_
  rw [streakAfter_cleared (hfails k) hclears]
  exact hstats (Follows.succeeded s.now)

/-- A failure of `k` that is no open is written down. -/
theorem FollowsAll.fail {a : Act} {k : String} {f : TunnelSlot → TunnelSlot}
    (h : FollowsAll cfg streak s.slots) (hfails : ∀ id, a.failsOpen s id = false)
    (hstats : Follows cfg (streak k + 1) ((entry k s.slots).stats.failed cfg) →
      Follows cfg (streak k + 1) (f (entry k s.slots)).stats) :
    FollowsAll cfg (streakAfter s a streak) (Pool.modify k f s.slots) := by
  have hle : streakAfter s a streak k ≤ streak k + 1 :=
    (streakAfter_le (hfails k)).trans (Nat.le_succ _)
  exact h.modify (fun id _ => streakAfter_le (hfails id)) ((hstats (h k).failed).mono hle)

/-- Every step but an open that fails without being counted. -/
theorem Taken.follows {a : Act} (taken : Taken cfg s a s') (ha : ∀ i, a ≠ .openFailed i false)
    (h : FollowsAll cfg streak s.slots) : FollowsAll cfg (streakAfter s a streak) s'.slots := by
  cases taken with
  | tick | set | wake | snapshot | ensured | request | selectRelay | selectProbe | advance |
    collect | rested =>
    exact h.mono fun id => streakAfter_le rfl
  | retain ids hreload =>
    intro id
    rw [entry, lookup_retain]
    split
    · exact (h id).mono (streakAfter_le rfl)
    · next hout =>
      rw [streakAfter_cleared rfl (by simpa [Act.clears, hreload] using hout)]
      exact follows_default
  | ensure | popNone | popExpired | popFresh | pingNone | pingSome =>
    exact h.keep (fun _ => rfl) fun hk => hk
  | mark i w t conn => exact h.keep (fun _ => rfl) fun hk => ⟨hk.counted, hk.marked⟩
  | opened i w t hw hphase =>
    refine h.clear (fun _ => rfl) ?_ fun hk => hk
    simp [Act.clears, State.openingOf, hw, hphase]
  | openFailed i w t hw hphase =>
    refine h.modify (fun id hid => ?_) ?_
    · rw [streakAfter_opens hw hphase, if_neg (Ne.symm hid)]
    · rw [streakAfter_opens hw hphase, if_pos rfl]
      exact (h t.id).failed
  | openGivenUp i w t => exact absurd rfl (ha i)
  | finish i w conn undelivered hw hphase =>
    refine h.clear (fun _ => rfl) ?_ fun hk => ⟨hk.counted, hk.marked⟩
    simp [Act.clears, State.leasedOf, hw, hphase]
  | pong conn ids hpinging =>
    refine h.clear (fun _ => rfl) ?_ fun hk => ⟨hk.counted, hk.marked⟩
    simp [Act.clears, hpinging]
  | fail | pingFailed => exact h.fail (fun _ => rfl) fun hk => ⟨hk.counted, hk.marked⟩

end Steps

/-! ## Runs -/

theorem of_openingOf {s : State} {i : Nat} {t : Tunnel} (h : s.openingOf i = some t) :
    ∃ w, s.workers[i]? = some w ∧ w.phase = .opening t := by
  obtain ⟨w, hw, hphase⟩ := Option.bind_eq_some_iff.mp h
  refine ⟨w, hw, ?_⟩
  split at hphase
  · next t' heq =>
    cases hphase
    exact heq
  · cases hphase

theorem follows_step (cfg : SidecarConfig) (s : State) (a : Act) {streak : String → Nat}
    (ha : ∀ i, a ≠ .openFailed i false) (h : FollowsAll cfg streak s.slots) :
    FollowsAll cfg (streakAfter s a streak) (step cfg s a).slots := by
  by_cases hfails : ∃ id, a.failsOpen s id = true
  · obtain ⟨id, hfails⟩ := hfails
    cases a with
    | openFailed i counted =>
      cases counted with
      | false => exact absurd rfl (ha i)
      | true =>
        obtain ⟨t, hopening, -⟩ := (Option.any_eq_true _ _).mp hfails
        obtain ⟨w, hw, hphase⟩ := of_openingOf hopening
        have taken : Taken cfg s (.openFailed i true) _ := .openFailed i w t hw hphase
        rw [taken.step_eq]
        exact taken.follows ha h
    | _ => cases hfails
  · have hnot : ∀ id, a.failsOpen s id = false := fun id => by
      simpa using fun hid => hfails ⟨id, hid⟩
    rcases step_taken cfg s a with hsame | taken
    · rw [hsame]
      exact h.mono fun id => streakAfter_le (hnot id)
    · exact taken.follows ha h

theorem Input.Answered.counted {x : Input} (hx : x.Answered) {s : State} {a : Act}
    (h : x.act? s = some a) (j : Nat) : a ≠ .openFailed j false := by
  cases x with
  | act a' =>
    simp only [Input.act?] at h
    split at h
    · cases h
    · next hopen =>
      cases h
      rintro rfl
      exact hopen rfl
  | opens i d =>
    obtain ⟨t, -, rfl⟩ := Option.map_eq_some_iff.mp h
    exact openAct_counted hx j

theorem follows_trackedStep (cfg : SidecarConfig) (t : Tracked) (x : Input) (hx : x.Answered)
    (h : FollowsAll cfg t.streak t.pool.slots) :
    FollowsAll cfg (trackedStep cfg t x).streak (trackedStep cfg t x).pool.slots := by
  unfold trackedStep
  cases hact : x.act? t.pool with
  | none => exact h
  | some a =>
    dsimp only
    exact follows_step cfg t.pool a (hx.counted hact) h

theorem follows_start (cfg : SidecarConfig) (view : TunnelsView) :
    FollowsAll cfg (fun _ => 0) (start view).slots := by
  have hslots : EverySlot (fun _ slot => Follows cfg 0 slot.stats) (start view).slots :=
    everySlot_start view.ids (fun _ _ => follows_default) ∅ (everySlot_empty _)
  exact fun id => hslots.entry follows_default

theorem Follows.unhealthy {cfg : SidecarConfig} {s : State} {id : String} {n : Nat}
    (h : Follows cfg n (entry id s.slots).stats)
    (hbound : cfg.unhealthy_after_consecutive_failures < 2 ^ 32)
    (hn : cfg.unhealthy_after_consecutive_failures ≤ n) : Unhealthy s id := by
  have hcounted := h.counted
  have hmarked := h.marked (by omega)
  cases hslot : s.slots.lookup id with
  | none => simp [entry, hslot] at hmarked
  | some slot => exact ⟨slot, hslot, by simpa [entry, hslot] using hmarked⟩

/-- A failed open is noted exactly once unless its answer was lost; and in a run
whose opens lose no answer, a tunnel that as many opens in a row have failed for as
are configured, a 32-bit number, is unhealthy and no candidate of any selection. -/
theorem failed_opens_counted (cfg : SidecarConfig)
    (hbound : cfg.unhealthy_after_consecutive_failures < 2 ^ 32) (view : TunnelsView) :
    (∀ endpoint d e, (openTunnel endpoint d).1 = .error e →
      ((openTunnel endpoint d).2 = 1 ↔ ¬ d.AckLost)) ∧
    ∀ inputs, (tracked cfg view).EveryStep (fun _ _ x => x.Answered) inputs →
      (tracked cfg view).Always (fun _ t => ∀ id,
        cfg.unhealthy_after_consecutive_failures ≤ t.streak id →
          Unhealthy t.pool id ∧
            ∀ view', ∀ c ∈ candidates view' t.pool.slots, c.id ≠ id) inputs := by
  refine ⟨openTunnel_noted_iff, fun inputs hanswered => ?_⟩
  have hfollows : (tracked cfg view).Always
      (fun _ t => FollowsAll cfg t.streak t.pool.slots) inputs := by
    refine Machine.always_of_step (follows_start cfg view) (fun pre x h hx => ?_) hanswered
    rw [Machine.run_snoc]
    exact follows_trackedStep cfg _ x hx h
  intro pre hpre id hn
  have hunhealthy := (hfollows pre hpre id).unhealthy hbound hn
  refine ⟨hunhealthy, fun view' c hc hid => ?_⟩
  exact hunhealthy.not_candidate (.refl (candidates view' _)) (List.mem_map.mpr ⟨c, hc, hid⟩)

theorem failed_opens_counted_default :
    (∀ endpoint d e, (openTunnel endpoint d).1 = .error e →
      ((openTunnel endpoint d).2 = 1 ↔ ¬ d.AckLost)) ∧
    ∀ inputs, (tracked {} { tunnels := [edge [1]] }).EveryStep (fun _ _ x => x.Answered) inputs →
      (tracked {} { tunnels := [edge [1]] }).Always (fun _ t => ∀ id,
        SidecarConfig.unhealthy_after_consecutive_failures {} ≤ t.streak id →
          Unhealthy t.pool id ∧
            ∀ view', ∀ c ∈ candidates view' t.pool.slots, c.id ≠ id) inputs :=
  failed_opens_counted {} (by decide) { tunnels := [edge [1]] }

/-- The edge takes the Hello and does not answer. -/
def silent : Dialled := ⟨.done (), .done (), .done (), .elapsed⟩

/-- Three relays in a row find the edge silent. -/
def threeSilentOpens : List Input :=
  [0, 1, 2].flatMap fun i =>
    [.act (.request false), .act (.select i [edge [1]]), .act (.advance i), .act (.pop i),
      .opens i silent]

/-- The edge is still the candidate of the next relay. -/
theorem silent_opens_uncounted :
    openTunnel (edge [1]).endpoint silent = (.error "HelloAck read timeout", 0) ∧
    SidecarConfig.unhealthy_after_consecutive_failures {} = 3 ∧
    ((tracked {} { tunnels := [edge [1]] }).run threeSilentOpens).streak "edge-1" = 3 ∧
    candidates { tunnels := [edge [1]] }
      ((tracked {} { tunnels := [edge [1]] }).run threeSilentOpens).pool.slots = [edge [1]] := by
  refine ⟨rfl, rfl, by decide +kernel, by decide +kernel⟩

end MailCue.Tunnel.Sidecar.Pool
