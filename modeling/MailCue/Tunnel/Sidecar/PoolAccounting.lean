import MailCue.Tunnel.Sidecar.PoolSteps

/-!
# What the pool counts

A slot's in-flight counter is the number of its tunnel's connections that relays
and probes have out. The keepalive loop gives back, through the same release and
discard, connections it never counted, and a slot that was dropped comes back
with a counter that starts anew.
-/
namespace MailCue.Tunnel.Sidecar.Pool
open MailCue.Lib

def Worker.leases (w : Worker) (id : String) : Bool :=
  match w.phase with
  | .leased conn => conn.tunnel_id == id
  | _ => false

/-- The connections of a tunnel that are leased out. -/
def State.leases (s : State) (id : String) : Nat := s.workers.countP (·.leases id)

def Accounted (cfg : SidecarConfig) (s : State) : Prop :=
  EverySlot (fun id slot => slot.stats.inflight = s.leases id ∧
    slot.idle.length ≤ cfg.pool_idle_per_tunnel) s.slots

/-- A slot that is made anew, for a tunnel with this many leases out. -/
def MadeFor (s : State) (id : String) (leases : Nat) : Prop := id ∉ s.slots → s.leases id = leases

/-- A keepalive ping ends while none of its tunnel's connections is leased out. A
slot is made anew, by whichever step needs it first, while none is, but for the one
that the step itself gives back. And the leases are fewer than the counter holds. -/
def Counted (s : State) : Act → Prop
  | .pong => ∀ conn ids, s.keepalive = .pinging conn ids → s.leases conn.tunnel_id = 0
  | .pingFailed => ∀ conn ids, s.keepalive = .pinging conn ids → s.leases conn.tunnel_id = 0
  | .pingNext => ∀ id ids, s.keepalive = .round (id :: ids) → MadeFor s id 0
  | .ensureNext => ∀ id ids, s.reload = .ensuring (id :: ids) → MadeFor s id 0
  | .pop i => ∀ w t, s.workers[i]? = some w → w.phase = .popping t → MadeFor s t.id 0
  | .opened i => ∀ w t, s.workers[i]? = some w → w.phase = .opening t → MadeFor s t.id 0
  | .openFailed i counted => ∀ w t, s.workers[i]? = some w → w.phase = .opening t →
      counted = true → MadeFor s t.id 0
  | .mark i => ∀ w t conn, s.workers[i]? = some w → w.phase = .marking t conn →
      MadeFor s t.id 0 ∧ s.leases t.id + 1 < 2 ^ 64
  | .finish i _ => ∀ w conn, s.workers[i]? = some w → w.phase = .leased conn →
      MadeFor s conn.tunnel_id 1
  | .fail i => ∀ w conn, s.workers[i]? = some w → w.phase = .leased conn →
      MadeFor s conn.tunnel_id 1
  | _ => True

/-! ## Leases -/

theorem leases_set {s : State} {i : Nat} {w : Worker} (hw : s.workers[i]? = some w) (w' : Worker)
    (id : String) :
    (s.workers.set i w').countP (·.leases id) + (w.leases id).toNat =
      s.leases id + (w'.leases id).toNat := by
  obtain ⟨hi, hget⟩ := List.getElem?_eq_some_iff.mp hw
  have hpos : w.leases id = true → 0 < s.workers.countP (·.leases id) := fun hleases =>
    List.countP_pos_iff.mpr ⟨w, hget ▸ List.getElem_mem hi, hleases⟩
  rw [List.countP_set hi, hget, State.leases]
  cases hold : w.leases id with
  | true =>
    have := hpos hold
    cases w'.leases id <;> simp <;> omega
  | false => cases w'.leases id <;> simp

/-- A worker that neither takes nor gives back a connection of the tunnel. -/
theorem leases_set_same {s s' : State} {i : Nat} {w w' : Worker} (hw : s.workers[i]? = some w)
    (hworkers : s'.workers = s.workers.set i w') {id : String} (hsame : w'.leases id = w.leases id) :
    s'.leases id = s.leases id := by
  have hset := leases_set hw w' id
  rw [← hworkers, hsame] at hset
  exact Nat.add_right_cancel hset

theorem leases_of_leased {w : Worker} {conn : Conn} (h : w.phase = .leased conn) (id : String) :
    w.leases id = (conn.tunnel_id == id) := by
  unfold Worker.leases
  rw [h]

/-! ## One step -/

variable {cfg : SidecarConfig}

theorem Accounted.idle_le {s : State} (h : Accounted cfg s) (id : String) :
    (entry id s.slots).idle.length ≤ cfg.pool_idle_per_tunnel := by
  by_cases hid : id ∈ s.slots
  · exact (h id _ (lookup_of_mem hid)).2
  · rw [entry_of_not_mem hid]
    exact Nat.zero_le _

theorem Accounted.inflight {s : State} (h : Accounted cfg s) {id : String} (hmade : MadeFor s id 0) :
    (entry id s.slots).stats.inflight = s.leases id := by
  by_cases hid : id ∈ s.slots
  · exact (h id _ (lookup_of_mem hid)).1
  · rw [entry_of_not_mem hid, hmade hid]

/-- A connection given back is one less, counted or not. -/
theorem Accounted.inflight_pred {s : State} (h : Accounted cfg s) {id : String}
    (hmade : MadeFor s id 1) : (entry id s.slots).stats.inflight - 1 = s.leases id - 1 := by
  by_cases hid : id ∈ s.slots
  · rw [(h id _ (lookup_of_mem hid)).1]
  · rw [entry_of_not_mem hid, hmade hid]
    rfl

theorem Accounted.imp {s s' : State} (h : Accounted cfg s) (hslots : s'.slots = s.slots)
    (hleases : ∀ id, s'.leases id = s.leases id) : Accounted cfg s' := by
  unfold Accounted
  rw [hslots]
  intro id slot hslot
  rw [hleases]
  exact h id slot hslot

theorem Accounted.modify {s s' : State} (h : Accounted cfg s) (id : String)
    (f : TunnelSlot → TunnelSlot) (hslots : s'.slots = Pool.modify id f s.slots)
    (hleases : ∀ k, k ≠ id → s'.leases k = s.leases k)
    (hinflight : (f (entry id s.slots)).stats.inflight = s'.leases id)
    (hidle : (f (entry id s.slots)).idle.length ≤ cfg.pool_idle_per_tunnel) :
    Accounted cfg s' := by
  unfold Accounted
  rw [hslots]
  intro k slot hslot
  by_cases hk : k = id
  · subst hk
    rw [lookup_modify_self] at hslot
    cases hslot
    exact ⟨hinflight, hidle⟩
  · rw [lookup_modify_ne hk] at hslot
    rw [hleases k hk]
    exact h k slot hslot

theorem popped_idle_le {slot : TunnelSlot} (h : slot.idle.length ≤ cfg.pool_idle_per_tunnel) :
    slot.popped.idle.length ≤ cfg.pool_idle_per_tunnel := by
  rw [TunnelSlot.popped, List.length_drop]
  omega

theorem released_idle_le {slot : TunnelSlot} (h : slot.idle.length ≤ cfg.pool_idle_per_tunnel)
    (now : Nat) (conn : Conn) :
    (slot.released cfg now conn).idle.length ≤ cfg.pool_idle_per_tunnel := by
  unfold TunnelSlot.released
  dsimp only
  split
  · rw [List.length_append, List.length_singleton]
    omega
  · exact h

/-- A connection that was never counted is given back while none is leased. -/
theorem Accounted.inflight_uncounted {s : State} (h : Accounted cfg s) {id : String}
    (hnone : s.leases id = 0) : (entry id s.slots).stats.inflight - 1 = s.leases id := by
  rw [h.inflight fun _ => hnone, hnone]

/-- A worker goes on, taking and giving back nothing, over the slot of a tunnel. -/
theorem Accounted.moved {s s' : State} (h : Accounted cfg s) {i : Nat} {w w' : Worker}
    (hw : s.workers[i]? = some w) (hsame : ∀ k, w'.leases k = w.leases k) {id : String}
    (hmade : MadeFor s id 0) (f : TunnelSlot → TunnelSlot)
    (hslots : s'.slots = Pool.modify id f s.slots) (hworkers : s'.workers = s.workers.set i w')
    (hinflight : (f (entry id s.slots)).stats.inflight = (entry id s.slots).stats.inflight)
    (hidle : (f (entry id s.slots)).idle.length ≤ cfg.pool_idle_per_tunnel) :
    Accounted cfg s' := by
  have hleases : ∀ k, s'.leases k = s.leases k := fun k => leases_set_same hw hworkers (hsame k)
  refine h.modify id f hslots (fun k _ => hleases k) ?_ hidle
  rw [hinflight, h.inflight hmade, hleases]

/-- What a worker gives back is one lease less, of that tunnel. -/
theorem leases_given_back {s s' : State} {i : Nat} {w w' : Worker} {conn : Conn}
    (hw : s.workers[i]? = some w) (hphase : w.phase = .leased conn)
    (hworkers : s'.workers = s.workers.set i w') (hnone : ∀ k, w'.leases k = false) :
    (∀ k, k ≠ conn.tunnel_id → s'.leases k = s.leases k) ∧
      s'.leases conn.tunnel_id = s.leases conn.tunnel_id - 1 := by
  refine ⟨fun k hk => leases_set_same hw hworkers ?_, ?_⟩
  · rw [hnone, leases_of_leased hphase]
    simpa using fun h : conn.tunnel_id = k => hk h.symm
  · have hset := leases_set hw w' conn.tunnel_id
    rw [← hworkers, hnone, leases_of_leased hphase, beq_self_eq_true] at hset
    exact Nat.eq_sub_of_add_eq hset

theorem leases_pos {s : State} {i : Nat} {w : Worker} {conn : Conn} (hw : s.workers[i]? = some w)
    (hphase : w.phase = .leased conn) : 0 < s.leases conn.tunnel_id := by
  refine List.countP_pos_iff.mpr ⟨w, List.mem_of_getElem? hw, ?_⟩
  rw [leases_of_leased hphase, beq_self_eq_true]

/-- A worker gives its connection back, over the slot of its tunnel. -/
theorem Accounted.returned {s s' : State} (h : Accounted cfg s) {i : Nat} {w w' : Worker}
    {conn : Conn} (hw : s.workers[i]? = some w) (hphase : w.phase = .leased conn)
    (hnone : ∀ k, w'.leases k = false) (hmade : MadeFor s conn.tunnel_id 1)
    (f : TunnelSlot → TunnelSlot) (hslots : s'.slots = Pool.modify conn.tunnel_id f s.slots)
    (hworkers : s'.workers = s.workers.set i w')
    (hinflight : ∀ slot, (f slot).stats.inflight = slot.stats.inflight - 1)
    (hidle : (f (entry conn.tunnel_id s.slots)).idle.length ≤ cfg.pool_idle_per_tunnel) :
    Accounted cfg s' := by
  obtain ⟨hother, hsame⟩ := leases_given_back hw hphase hworkers hnone
  refine h.modify conn.tunnel_id f hslots hother ?_ hidle
  rw [hinflight, h.inflight_pred hmade, hsame]

/-- What a worker is handed is one lease more, of that tunnel. -/
theorem leases_taken {s s' : State} {i : Nat} {w w' : Worker} {conn : Conn}
    (hw : s.workers[i]? = some w) (hnone : ∀ k, w.leases k = false)
    (hworkers : s'.workers = s.workers.set i w') (hphase : w'.phase = .leased conn) :
    (∀ k, k ≠ conn.tunnel_id → s'.leases k = s.leases k) ∧
      s'.leases conn.tunnel_id = s.leases conn.tunnel_id + 1 := by
  refine ⟨fun k hk => leases_set_same hw hworkers ?_, ?_⟩
  · rw [hnone, leases_of_leased hphase]
    simpa using fun h : conn.tunnel_id = k => hk h.symm
  · have hset := leases_set hw w' conn.tunnel_id
    rw [← hworkers, hnone, leases_of_leased hphase, beq_self_eq_true] at hset
    exact hset

/-- A worker is handed a connection of the tunnel it asked for. -/
theorem Accounted.marked {s s' : State} (h : Accounted cfg s) (hfiled : Filed s) {i : Nat}
    {w w' : Worker} {t : Tunnel} {conn : Conn} (hw : s.workers[i]? = some w)
    (hphase : w.phase = .marking t conn) (hleased : w'.phase = .leased conn)
    (hmade : MadeFor s t.id 0) (hbound : s.leases t.id + 1 < 2 ^ 64)
    (hslots : s'.slots = markInflight t.id s.slots) (hworkers : s'.workers = s.workers.set i w') :
    Accounted cfg s' := by
  have hconn : conn.tunnel_id = t.id := hfiled.workers w (List.mem_of_getElem? hw) t conn hphase
  obtain ⟨hother, hsame⟩ :=
    leases_taken hw (by simp [Worker.leases, hphase]) hworkers hleased
  rw [hconn] at hother hsame
  refine h.modify t.id TunnelSlot.marked hslots hother ?_ (h.idle_le t.id)
  rw [TunnelSlot.marked, h.inflight hmade, saturatingInc, hsame]
  exact Nat.min_eq_left (Nat.le_sub_one_of_lt hbound)

theorem Taken.accounted {s s' : State} {a : Act} (taken : Taken cfg s a s') (hfiled : Filed s)
    (h : Accounted cfg s) (hcounted : Counted s a) : Accounted cfg s' := by
  cases taken with
  | tick | set | wake | snapshot | ensured | collect | rested => exact h
  | retain ids => exact EverySlot.retain h ids
  | ensure id ids hreload =>
    exact h.modify id (fun slot => slot) rfl (fun _ _ => rfl)
      (h.inflight (hcounted id ids hreload)) (h.idle_le id)
  | request probe =>
    refine h.imp rfl fun id => ?_
    simp [State.leases, Worker.leases]
  | selectRelay i w view picked hw hphase =>
    refine h.imp rfl fun id => leases_set_same hw rfl ?_
    simp [Worker.leases, hphase]
  | selectProbe i w view picked hw hphase =>
    refine h.imp rfl fun id => ?_
    have hmoved : (s.workers.set i { w with rest := [], phase := .between }).countP
        (·.leases id) = s.leases id := by
      have hset := leases_set hw { w with rest := [], phase := .between } id
      simpa [Worker.leases, hphase] using hset
    have hnone : (picked.map probeOne).countP (·.leases id) = 0 := by
      simp [List.countP_eq_zero, Worker.leases, probeOne]
    rw [State.leases, List.countP_append, hmoved, hnone, Nat.add_zero]
  | advance i w t rest hw hphase =>
    refine h.imp rfl fun id => leases_set_same hw rfl ?_
    simp [Worker.leases, hphase]
  | popNone i w t hw hphase hpop =>
    exact h.moved hw (by simp [Worker.leases, hphase]) (hcounted w t hw hphase) TunnelSlot.popped
      rfl rfl rfl (popped_idle_le (h.idle_le _))
  | popExpired i w t conn idle hw hphase =>
    exact h.modify t.id TunnelSlot.popped rfl (fun _ _ => rfl)
      (h.inflight (hcounted w t hw hphase)) (popped_idle_le (h.idle_le _))
  | popFresh i w t conn idle hw hphase =>
    exact h.moved hw (by simp [Worker.leases, hphase]) (hcounted w t hw hphase) TunnelSlot.popped
      rfl rfl rfl (popped_idle_le (h.idle_le _))
  | opened i w t hw hphase =>
    exact h.moved hw (by simp [Worker.leases, hphase]) (hcounted w t hw hphase)
      (TunnelSlot.opened s.now) rfl rfl rfl (h.idle_le _)
  | openFailed i w t hw hphase =>
    exact h.moved hw (by simp [Worker.leases, hphase]) (hcounted w t hw hphase rfl)
      (TunnelSlot.openFailed cfg) rfl rfl rfl (h.idle_le _)
  | openGivenUp i w t hw hphase =>
    refine h.imp rfl fun id => leases_set_same hw rfl ?_
    simp [Worker.leases, hphase]
  | mark i w t conn hw hphase =>
    obtain ⟨hmade, hbound⟩ := hcounted w t conn hw hphase
    exact h.marked hfiled hw hphase rfl hmade hbound rfl rfl
  | finish i w conn undelivered hw hphase =>
    exact h.returned hw hphase (fun _ => rfl) (hcounted w conn hw hphase)
      (TunnelSlot.released cfg s.now conn) rfl rfl (fun _ => rfl)
      (released_idle_le (h.idle_le _) _ _)
  | fail i w conn hw hphase =>
    exact h.returned hw hphase (fun _ => rfl) (hcounted w conn hw hphase)
      (TunnelSlot.discarded cfg) rfl rfl (fun _ => rfl) (h.idle_le _)
  | pingNone id ids hround =>
    exact h.modify id TunnelSlot.popped rfl (fun _ _ => rfl) (h.inflight (hcounted id ids hround))
      (popped_idle_le (h.idle_le _))
  | pingSome id ids conn idle hround =>
    exact h.modify id TunnelSlot.popped rfl (fun _ _ => rfl) (h.inflight (hcounted id ids hround))
      (popped_idle_le (h.idle_le _))
  | pong conn ids hpinging =>
    refine h.modify conn.tunnel_id (TunnelSlot.released cfg s.now conn) rfl (fun _ _ => rfl) ?_
      (released_idle_le (h.idle_le _) _ _)
    exact h.inflight_uncounted (hcounted conn ids hpinging)
  | pingFailed conn ids hpinging =>
    refine h.modify conn.tunnel_id (TunnelSlot.discarded cfg) rfl (fun _ _ => rfl) ?_ (h.idle_le _)
    exact h.inflight_uncounted (hcounted conn ids hpinging)

/-! ## A step that keeps the account is a counted one -/

theorem Accounted.of_modify {s s' : State} (h : Accounted cfg s') {id : String}
    {f : TunnelSlot → TunnelSlot} (hslots : s'.slots = Pool.modify id f s.slots) :
    (f (entry id s.slots)).stats.inflight = s'.leases id := by
  refine (h id _ ?_).1
  rw [hslots, lookup_modify_self]

/-- What makes a slot anew, and counts as it was, makes it for no lease. -/
theorem Accounted.made {s s' : State} (h : Accounted cfg s') {id : String}
    (f : TunnelSlot → TunnelSlot) (hslots : s'.slots = Pool.modify id f s.slots)
    (hf : (f {}).stats.inflight = 0) (hleases : s'.leases id = s.leases id) : MadeFor s id 0 := by
  intro hid
  have hinflight := h.of_modify hslots
  rw [entry_of_not_mem hid, hf, hleases] at hinflight
  exact hinflight.symm

/-- What counts one lease more had counted them, and did not overflow. -/
theorem Accounted.markable {s s' : State} (h : Accounted cfg s') {id : String} (hslots : s'.slots = markInflight id s.slots)
    (hleases : s'.leases id = s.leases id + 1) : MadeFor s id 0 ∧ s.leases id + 1 < 2 ^ 64 := by
  have hinflight : saturatingInc 64 (entry id s.slots).stats.inflight = s'.leases id :=
    h.of_modify hslots
  rw [hleases, saturatingInc] at hinflight
  refine ⟨fun hid => ?_, ?_⟩
  · rw [entry_of_not_mem hid] at hinflight
    simp at hinflight
    omega
  · have hle := Nat.min_le_right ((entry id s.slots).stats.inflight + 1) (2 ^ 64 - 1)
    rw [hinflight] at hle
    exact Nat.lt_of_le_pred (Nat.two_pow_pos 64) hle

theorem Accounted.given_back {s s' : State} (h : Accounted cfg s') {id : String}
    (f : TunnelSlot → TunnelSlot) (hslots : s'.slots = Pool.modify id f s.slots)
    (hf : (f {}).stats.inflight = 0) (hleases : s'.leases id = s.leases id - 1)
    (hpos : 0 < s.leases id) : MadeFor s id 1 := by
  intro hid
  have hinflight := h.of_modify hslots
  rw [entry_of_not_mem hid, hf, hleases] at hinflight
  omega

theorem Accounted.uncounted {s s' : State} (h : Accounted cfg s) (h' : Accounted cfg s')
    {id : String} (f : TunnelSlot → TunnelSlot) (hslots : s'.slots = Pool.modify id f s.slots)
    (hf : ∀ slot, (f slot).stats.inflight = slot.stats.inflight - 1)
    (hleases : s'.leases id = s.leases id) : s.leases id = 0 := by
  have hinflight := h'.of_modify hslots
  rw [hf, hleases] at hinflight
  by_cases hid : id ∈ s.slots
  · rw [(h id _ (lookup_of_mem hid)).1] at hinflight
    omega
  · rw [entry_of_not_mem hid] at hinflight
    exact hinflight.symm

theorem counted_of_accounted {s : State} {a : Act} (hfiled : Filed s) (h : Accounted cfg s)
    (h' : Accounted cfg (step cfg s a)) : Counted s a := by
  cases a with
  | tick | set | wake | snapshot | retain | request | select | advance | collect => trivial
  | ensureNext =>
    intro id ids hreload
    rw [(Taken.ensure id ids hreload).step_eq] at h'
    exact h'.made (fun slot => slot) rfl rfl rfl
  | pop i =>
    intro w t hw hphase
    cases hpop : (entry t.id s.slots).idle with
    | nil =>
      rw [(Taken.popNone i w t hw hphase hpop).step_eq] at h'
      exact h'.made TunnelSlot.popped rfl rfl (leases_set_same hw rfl (by simp [Worker.leases, hphase]))
    | cons conn idle =>
      cases hexpired : expired cfg s.now conn with
      | true =>
        rw [(Taken.popExpired i w t conn idle hw hphase hpop hexpired).step_eq] at h'
        exact h'.made TunnelSlot.popped rfl rfl rfl
      | false =>
        rw [(Taken.popFresh i w t conn idle hw hphase hpop hexpired).step_eq] at h'
        exact h'.made TunnelSlot.popped rfl rfl (leases_set_same hw rfl (by simp [Worker.leases, hphase]))
  | opened i =>
    intro w t hw hphase
    rw [(Taken.opened i w t hw hphase).step_eq] at h'
    exact h'.made (TunnelSlot.opened s.now) rfl rfl (leases_set_same hw rfl (by simp [Worker.leases, hphase]))
  | openFailed i counted =>
    intro w t hw hphase hcounted
    subst hcounted
    rw [(Taken.openFailed i w t hw hphase).step_eq] at h'
    exact h'.made (TunnelSlot.openFailed cfg) rfl rfl (leases_set_same hw rfl (by simp [Worker.leases, hphase]))
  | mark i =>
    intro w t conn hw hphase
    have hconn : conn.tunnel_id = t.id := hfiled.workers w (List.mem_of_getElem? hw) t conn hphase
    rw [(Taken.mark i w t conn hw hphase).step_eq] at h'
    exact h'.markable rfl (hconn ▸ (leases_taken hw (by simp [Worker.leases, hphase]) rfl rfl).2)
  | finish i undelivered =>
    intro w conn hw hphase
    rw [(Taken.finish i w conn undelivered hw hphase).step_eq] at h'
    exact h'.given_back (TunnelSlot.released cfg s.now conn) rfl rfl (leases_given_back hw hphase rfl fun _ => rfl).2
      (leases_pos hw hphase)
  | fail i =>
    intro w conn hw hphase
    rw [(Taken.fail i w conn hw hphase).step_eq] at h'
    exact h'.given_back (TunnelSlot.discarded cfg) rfl rfl (leases_given_back hw hphase rfl fun _ => rfl).2
      (leases_pos hw hphase)
  | pingNext =>
    intro id ids hround
    cases hpop : (entry id s.slots).idle with
    | nil =>
      rw [(Taken.pingNone id ids hround hpop).step_eq] at h'
      exact h'.made TunnelSlot.popped rfl rfl rfl
    | cons conn idle =>
      rw [(Taken.pingSome id ids conn idle hround hpop).step_eq] at h'
      exact h'.made TunnelSlot.popped rfl rfl rfl
  | pong =>
    intro conn ids hpinging
    rw [(Taken.pong conn ids hpinging).step_eq] at h'
    exact h.uncounted h' (TunnelSlot.released cfg s.now conn) rfl (fun _ => rfl) rfl
  | pingFailed =>
    intro conn ids hpinging
    rw [(Taken.pingFailed conn ids hpinging).step_eq] at h'
    exact h.uncounted h' (TunnelSlot.discarded cfg) rfl (fun _ => rfl) rfl

/-! ## Runs -/

theorem accounted_start (cfg : SidecarConfig) (view : TunnelsView) :
    Accounted cfg (start view) :=
  everySlot_start view.ids (fun _ _ => ⟨rfl, Nat.zero_le _⟩) ∅ (everySlot_empty _)

/-- In every state of a run the pool counts the leases, exactly when every step of
it was a counted one. -/
theorem counts_leases_iff (cfg : SidecarConfig) (view : TunnelsView) (inputs : List Act) :
    (pool cfg view).Always (fun _ s => Accounted cfg s) inputs ↔
      (pool cfg view).EveryStep (fun _ s a => Counted s a) inputs := by
  have hfiled : ∀ pre, pre <+: inputs → Filed ((pool cfg view).run pre) := filed_run cfg view inputs
  constructor
  · intro h pre a hpre
    have hbefore : pre <+: inputs := (List.prefix_append pre [a]).trans hpre
    have hafter := h _ hpre
    rw [Machine.run_snoc] at hafter
    exact counted_of_accounted (hfiled pre hbefore) (h pre hbefore) hafter
  · intro hguard
    have hboth : (pool cfg view).EveryStep (fun _ s a => Filed s ∧ Counted s a) inputs :=
      fun pre a hpre => ⟨hfiled pre ((List.prefix_append pre [a]).trans hpre), hguard pre a hpre⟩
    refine Machine.always_of_step (accounted_start cfg view) (fun pre a h hstep => ?_) hboth
    rw [Machine.run_snoc]
    exact step_of_taken h fun s' taken => taken.accounted hstep.1 h hstep.2

/-- Two connections of a tunnel are leased; one comes back, and the keepalive loop
pings it while the other is still out. -/
def pingedWhileLeased : List Act :=
  leaseOpened 0 (edge [1]) ++ leaseOpened 1 (edge [1]) ++
    [.finish 0 false, .collect ["edge-1"], .pingNext, .pong]

theorem ping_uncounts_lease :
    ¬ (pool {} { tunnels := [edge [1]] }).Always (fun _ s => Accounted {} s) pingedWhileLeased := by
  intro h
  have hzero : ∃ slot,
      ((pool {} { tunnels := [edge [1]] }).run pingedWhileLeased).slots.lookup "edge-1" = some slot ∧
        slot.stats.inflight = 0 :=
    ⟨_, Option.eq_some_of_isSome (by decide +kernel), by decide +kernel⟩
  have hone : ((pool {} { tunnels := [edge [1]] }).run pingedWhileLeased).leases "edge-1" = 1 := by
    decide +kernel
  obtain ⟨slot, hslot, hzero⟩ := hzero
  have hcount := (h _ (List.prefix_refl _) "edge-1" slot hslot).1
  rw [hzero, hone] at hcount
  exact Nat.zero_ne_one hcount

end MailCue.Tunnel.Sidecar.Pool
