import MailCue.Tunnel.Sidecar.PoolSteps

/-!
# Configuration freshness of the pool

A connection that `lease` hands out goes to the endpoint that is loaded for its
tunnel, and its peer proved the key that is loaded, and no slot is of a tunnel that
is not loaded, as long as every configuration covers what is in use when it comes.
The reload loop only ever drops slots by their id, and drops no more than that.
-/
namespace MailCue.Tunnel.Sidecar.Pool
open MailCue.Lib

set_option linter.dupNamespace false

structure Peer where
  id : String
  endpoint : String
  edge_pubkey : List UInt8
  deriving DecidableEq, Repr

def Tunnel.peer (t : Tunnel) : Peer := ⟨t.id, t.endpoint, t.edge_pubkey⟩

def Conn.peer (conn : Conn) : Peer := ⟨conn.tunnel_id, conn.endpoint, conn.edge_pubkey⟩

/-- The tunnel is loaded, with this endpoint and this key. -/
def TunnelsView.Lists (view : TunnelsView) (p : Peer) : Prop :=
  p.id ∈ view.ids ∧ ∀ t ∈ view.tunnels, t.id = p.id → t.peer = p

/-- No two entries of one id differ in endpoint or key. -/
def TunnelsView.Consistent (view : TunnelsView) : Prop :=
  ∀ t ∈ view.tunnels, ∀ u ∈ view.tunnels, t.id = u.id → t.peer = u.peer

def HandOut.Fresh (h : HandOut) : Prop :=
  h.view.Lists ⟨h.asked.id, h.conn.endpoint, h.conn.edge_pubkey⟩

structure Fresh (s : State) : Prop where
  handed : ∀ h ∈ s.handed, h.Fresh
  slots : ∀ id ∈ s.slots, id ∈ s.view.ids

/-! ## What is in use -/

/-- The peers of the tunnels a worker may still come to and of the connection it has. -/
def Worker.peers (w : Worker) : List Peer :=
  (match w.phase with
    | .selecting _ view => (view.tunnels.filter (·.enabled)).map Tunnel.peer
    | .between => []
    | .popping t => [t.peer]
    | .opening t => [t.peer]
    | .marking _ conn => [conn.peer]
    | .leased conn => [conn.peer]) ++ w.rest.map Tunnel.peer

/-- The ids the keepalive loop has still to come to. -/
def Keepalive.ids : Keepalive → List String
  | .sleeping => []
  | .round ids => ids
  | .pinging _ ids => ids

def Keepalive.peers : Keepalive → List Peer
  | .pinging conn _ => [conn.peer]
  | _ => []

/-- The ids the reload loop ensures a slot for. -/
def Reload.ids : Reload → List String
  | .retaining ids => ids
  | .ensuring ids => ids
  | _ => []

def TunnelsView.CoversSlot (view : TunnelsView) (id : String) (slot : TunnelSlot) : Prop :=
  id ∈ view.ids ∧ ∀ conn ∈ slot.idle, view.Lists conn.peer

/-- The configuration covers what the sidecar has in use: each slot, and each id a
loop has still to come to, is of a tunnel it lists; and it has, for the tunnel of
each idle or borrowed connection and each candidate of a relay, the endpoint and
the key that are in use. -/
structure Covers (view : TunnelsView) (s : State) : Prop where
  consistent : view.Consistent
  slots : EverySlot view.CoversSlot s.slots
  workers : ∀ w ∈ s.workers, ∀ p ∈ w.peers, view.Lists p
  round : ∀ id ∈ s.keepalive.ids, id ∈ view.ids
  pinging : ∀ p ∈ s.keepalive.peers, view.Lists p
  reload : ∀ id ∈ s.reload.ids, id ∈ view.ids

/-- A configuration is only ever loaded while it covers what is in use. -/
def CoveredReload (s : State) (a : Act) : Prop := ∀ view, a = .set view → Covers view s

theorem TunnelsView.Consistent.lists {view : TunnelsView} (h : view.Consistent) {t : Tunnel}
    (ht : t ∈ view.tunnels) : view.Lists t.peer :=
  ⟨List.mem_map_of_mem ht, fun u hu hid => h u hu t ht hid⟩

/-! ## One step -/

section step

variable {cfg : SidecarConfig} {view : TunnelsView} {s : State}

theorem Covers.modify (h : Covers view s) {id : String} (hid : id ∈ view.ids)
    {f : TunnelSlot → TunnelSlot}
    (hf : ∀ slot, (∀ conn ∈ slot.idle, view.Lists conn.peer) →
      ∀ conn ∈ (f slot).idle, view.Lists conn.peer) :
    EverySlot view.CoversSlot (Pool.modify id f s.slots) := by
  have hentry : view.CoversSlot id (entry id s.slots) := h.slots.entry ⟨hid, by simp⟩
  exact h.slots.modify ⟨hid, hf _ hentry.2⟩

theorem Covers.popped (h : Covers view s) {id : String} (hid : id ∈ view.ids) :
    EverySlot view.CoversSlot (Pool.modify id TunnelSlot.popped s.slots) :=
  h.modify hid fun _ hslot conn hconn => hslot conn (List.mem_of_mem_drop hconn)

theorem Covers.released (h : Covers view s) {conn : Conn} (hconn : view.Lists conn.peer)
    (now : Nat) :
    EverySlot view.CoversSlot (release cfg now conn s.slots) := by
  refine h.modify hconn.1 fun slot hslot other hother => ?_
  rcases mem_released hother with hold | rfl
  · exact hslot other hold
  · exact hconn

/-- A worker goes on over what the configuration lists. -/
theorem Covers.set (h : Covers view s) {i : Nat} {w : Worker} (hw : ∀ p ∈ w.peers, view.Lists p) :
    ∀ w' ∈ s.workers.set i w, ∀ p ∈ w'.peers, view.Lists p := by
  intro w' hw'
  rcases List.mem_or_eq_of_mem_set hw' with hold | rfl
  · exact h.workers w' hold
  · exact hw

theorem Covers.rest (h : Covers view s) {i : Nat} {w : Worker} (hw : s.workers[i]? = some w) :
    ∀ p ∈ w.rest.map Tunnel.peer, view.Lists p := fun p hp =>
  h.workers w (List.mem_of_getElem? hw) p (List.mem_append_right _ hp)

theorem Covers.worker (h : Covers view s) {i : Nat} {w : Worker} (hw : s.workers[i]? = some w) :
    ∀ p ∈ w.peers, view.Lists p := h.workers w (List.mem_of_getElem? hw)

theorem Covers.idle (h : Covers view s) {id : String} (hid : id ∈ view.ids) {conn : Conn}
    (hconn : conn ∈ (entry id s.slots).idle) : view.Lists conn.peer := by
  have hentry : view.CoversSlot id (entry id s.slots) := h.slots.entry ⟨hid, by simp⟩
  exact hentry.2 conn hconn

/-- What a worker selects it could come to before. -/
theorem Covers.picked (h : Covers view s) {i : Nat} {w : Worker} {probe : Bool}
    {selected : TunnelsView} {picked : List Tunnel} (hw : s.workers[i]? = some w)
    (hphase : w.phase = .selecting probe selected)
    (hpicked : picked.Perm (candidates selected s.slots)) :
    ∀ p ∈ picked.map Tunnel.peer, view.Lists p := by
  intro p hp
  obtain ⟨t, ht, rfl⟩ := List.mem_map.mp hp
  have hcandidate := List.mem_filter.mp (hpicked.mem_iff.mp ht)
  refine h.worker hw t.peer (List.mem_append_left _ ?_)
  rw [hphase]
  refine List.mem_map_of_mem (List.mem_filter.mpr ⟨hcandidate.1, ?_⟩)
  exact (Bool.and_eq_true_iff.mp hcandidate.2).1

/-- A worker without a tunnel of its own, with some of what it had still to come to. -/
theorem Covers.between (h : Covers view s) {i : Nat} {w w' : Worker} (hw : s.workers[i]? = some w)
    (hrest : w'.rest ⊆ w.rest) (hpeers : w'.peers = w'.rest.map Tunnel.peer) :
    ∀ p ∈ w'.peers, view.Lists p := by
  rw [hpeers]
  intro p hp
  obtain ⟨t, ht, rfl⟩ := List.mem_map.mp hp
  exact h.rest hw _ (List.mem_map_of_mem (hrest ht))

theorem Covers.marking (h : Covers view s) {i : Nat} {w w' : Worker} {conn : Conn}
    (hw : s.workers[i]? = some w) (hconn : view.Lists conn.peer)
    (hpeers : w'.peers = conn.peer :: w.rest.map Tunnel.peer) : ∀ p ∈ w'.peers, view.Lists p := by
  rw [hpeers]
  intro p hp
  rcases List.mem_cons.mp hp with rfl | hrest
  · exact hconn
  · exact h.rest hw p hrest

theorem Taken.covers {s' : State} {a : Act} (taken : Taken cfg s a s') (hfiled : Filed s)
    (h : Covers s.view s) (hreload : CoveredReload s a) : Covers s'.view s' := by
  obtain ⟨hconsistent, hslots, hworkers, hround, hpinging, hids⟩ := h
  have h : Covers s.view s := ⟨hconsistent, hslots, hworkers, hround, hpinging, hids⟩
  cases taken with
  | tick => exact { h with }
  | set view =>
    obtain ⟨hconsistent, hslots, hworkers, hround, hpinging, hids⟩ := hreload view rfl
    exact ⟨hconsistent, hslots, hworkers, hround, hpinging, hids⟩
  | wake => exact { h with reload := by simp [Reload.ids] }
  | snapshot => exact { h with reload := fun id hid => hid }
  | retain ids hretaining =>
    rw [hretaining] at hids
    exact { h with slots := hslots.retain ids, reload := hids }
  | ensure id ids hensuring =>
    rw [hensuring] at hids
    exact { h with
      slots := h.modify (hids id (List.mem_cons_self ..)) fun _ hslot => hslot
      reload := fun k hk => hids k (List.mem_cons_of_mem _ hk) }
  | ensured => exact { h with reload := by simp [Reload.ids] }
  | request probe =>
    refine { h with workers := fun w hw => ?_ }
    rcases List.mem_append.mp hw with hold | hnew
    · exact hworkers w hold
    · rw [List.mem_singleton.mp hnew]
      intro p hp
      obtain ⟨t, ht, rfl⟩ : ∃ t, t ∈ s.view.tunnels ∧ t.peer = p := by
        simp only [Worker.peers, List.map_nil, List.append_nil, List.mem_map,
          List.mem_filter] at hp
        obtain ⟨t, ht, rfl⟩ := hp
        exact ⟨t, ht.1, rfl⟩
      exact hconsistent.lists ht
  | selectRelay i w view picked hw hphase hpicked =>
    refine { h with workers := h.set fun p hp => ?_ }
    exact h.picked hw hphase hpicked p hp
  | selectProbe i w view picked hw hphase hpicked =>
    refine { h with workers := fun w' hw' => ?_ }
    rcases List.mem_append.mp hw' with hold | hnew
    · refine h.set ?_ w' hold
      exact h.between hw (List.nil_subset _) rfl
    · obtain ⟨t, ht, rfl⟩ := List.mem_map.mp hnew
      intro p hp
      apply h.picked hw hphase hpicked p
      rw [List.mem_singleton.mp hp]
      exact List.mem_map_of_mem ht
  | advance i w t rest hw hphase hrest =>
    refine { h with workers := h.set fun p hp => h.rest hw p ?_ }
    rw [hrest]
    exact hp
  | popNone i w t hw hphase =>
    have ht := h.worker hw
    rw [Worker.peers, hphase] at ht
    exact { h with
      slots := h.popped (ht t.peer (List.mem_cons_self ..)).1
      workers := h.set ht }
  | popExpired i w t conn idle hw hphase =>
    have ht := h.worker hw
    rw [Worker.peers, hphase] at ht
    exact { h with slots := h.popped (ht t.peer (List.mem_cons_self ..)).1 }
  | popFresh i w t conn idle hw hphase hpop =>
    have ht := h.worker hw
    rw [Worker.peers, hphase] at ht
    have hid := (ht t.peer (List.mem_cons_self ..)).1
    refine { h with slots := h.popped hid, workers := h.set ?_ }
    exact h.marking hw (h.idle hid (hpop ▸ List.mem_cons_self ..)) rfl
  | opened i w t hw hphase =>
    have ht := h.worker hw
    rw [Worker.peers, hphase] at ht
    exact { h with
      slots := h.modify (ht t.peer (List.mem_cons_self ..)).1 fun _ hslot => hslot
      workers := h.set ht }
  | openFailed i w t hw hphase =>
    have ht := h.worker hw
    rw [Worker.peers, hphase] at ht
    exact { h with
      slots := h.modify (ht t.peer (List.mem_cons_self ..)).1 fun _ hslot => hslot
      workers := h.set (h.between hw (List.Subset.refl _) rfl) }
  | openGivenUp i w t hw hphase => exact { h with workers := h.set (h.between hw (List.Subset.refl _) rfl) }
  | mark i w t conn hw hphase =>
    have hconn := h.worker hw
    rw [Worker.peers, hphase] at hconn
    have hid : t.id ∈ s.view.ids := by
      rw [← hfiled.workers w (List.mem_of_getElem? hw) t conn hphase]
      exact (hconn conn.peer (List.mem_cons_self ..)).1
    exact { h with slots := h.modify hid fun _ hslot => hslot, workers := h.set hconn }
  | finish i w conn undelivered hw hphase =>
    have hconn := h.worker hw
    rw [Worker.peers, hphase] at hconn
    refine { h with
      slots := h.released (hconn conn.peer (List.mem_cons_self ..)) s.now
      workers := h.set (h.between hw ?_ rfl) }
    dsimp only
    split
    · exact List.nil_subset _
    · exact List.Subset.refl _
  | fail i w conn hw hphase =>
    have hconn := h.worker hw
    rw [Worker.peers, hphase] at hconn
    exact { h with
      slots := h.modify (hconn conn.peer (List.mem_cons_self ..)).1 fun _ hslot => hslot
      workers := h.set (h.between hw (List.Subset.refl _) rfl) }
  | collect ids hsleeping hcollected =>
    refine { h with round := fun id hid => ?_, pinging := by simp [Keepalive.peers] }
    obtain ⟨e, he, rfl⟩ := List.mem_map.mp (hcollected.mem_iff.mp hid)
    have hslot : s.slots.lookup e.1 = some e.2 :=
      AList.mem_lookup_iff.mpr (List.mem_filter.mp he).1
    exact (hslots e.1 e.2 hslot).1
  | pingNone id ids hring =>
    rw [hring] at hround
    exact { h with
      slots := h.popped (hround id (List.mem_cons_self ..))
      round := fun k hk => hround k (List.mem_cons_of_mem _ hk)
      pinging := by simp [Keepalive.peers] }
  | pingSome id ids conn idle hring hpop =>
    rw [hring] at hround
    have hid := hround id (List.mem_cons_self ..)
    exact { h with
      slots := h.popped hid
      round := fun k hk => hround k (List.mem_cons_of_mem _ hk)
      pinging := fun p hp => by
        rw [List.mem_singleton.mp hp]
        exact h.idle hid (hpop ▸ List.mem_cons_self ..) }
  | rested => exact { h with round := by simp [Keepalive.ids], pinging := by simp [Keepalive.peers] }
  | pong conn ids hping =>
    rw [hping] at hpinging hround
    exact { h with
      slots := h.released (hpinging conn.peer (List.mem_cons_self ..)) s.now
      round := hround
      pinging := by simp [Keepalive.peers] }
  | pingFailed conn ids hping =>
    rw [hping] at hpinging hround
    exact { h with
      slots := h.modify (hpinging conn.peer (List.mem_cons_self ..)).1 fun _ hslot => hslot
      round := hround
      pinging := by simp [Keepalive.peers] }

/-- A connection is only ever handed out by the step that counts its lease. -/
theorem Taken.handed {s' : State} {a : Act} (taken : Taken cfg s a s') :
    s'.handed = s.handed ∨ ∃ (i : Nat) (w : Worker) (t : Tunnel) (conn : Conn),
      s.workers[i]? = some w ∧ w.phase = .marking t conn ∧ s'.handed = s.handed ++ [⟨t, conn, s.view⟩] := by
  cases taken with
  | mark i w t conn hw hphase => exact .inr ⟨i, w, t, conn, hw, hphase, rfl⟩
  | _ => exact .inl rfl

theorem Taken.fresh_handed {s' : State} {a : Act} (taken : Taken cfg s a s') (hfiled : Filed s)
    (h : Covers s.view s) (hfresh : ∀ given ∈ s.handed, given.Fresh) :
    ∀ given ∈ s'.handed, given.Fresh := by
  intro given hgiven
  rcases taken.handed with hsame | ⟨i, w, t, conn, hw, hphase, hmore⟩
  · exact hfresh given (hsame ▸ hgiven)
  · rw [hmore] at hgiven
    rcases List.mem_append.mp hgiven with hold | hnew
    · exact hfresh given hold
    · have hconn := h.worker hw
      rw [Worker.peers, hphase] at hconn
      rw [List.mem_singleton.mp hnew, HandOut.Fresh]
      dsimp only
      rw [← hfiled.workers w (List.mem_of_getElem? hw) t conn hphase]
      exact hconn conn.peer (List.mem_cons_self ..)

/-- What a run keeps. -/
structure Current (s : State) : Prop where
  covers : Covers s.view s
  handed : ∀ given ∈ s.handed, given.Fresh

theorem Current.fresh (h : Current s) : Fresh s :=
  ⟨h.handed, fun id hid => (h.covers.slots id _ (lookup_of_mem hid)).1⟩

theorem Taken.current {s' : State} {a : Act} (taken : Taken cfg s a s') (hfiled : Filed s)
    (h : Current s) (hreload : CoveredReload s a) : Current s' :=
  ⟨taken.covers hfiled h.covers hreload, taken.fresh_handed hfiled h.covers h.handed⟩

end step

/-! ## Runs -/

theorem covers_start {view loaded : TunnelsView} (hconsistent : loaded.Consistent)
    (hids : ∀ id ∈ view.ids, id ∈ loaded.ids) : Covers loaded (start view) where
  consistent := hconsistent
  slots := everySlot_start view.ids (fun id hid => ⟨hids id hid, by simp⟩) ∅ (everySlot_empty _)
  workers := by simp [start]
  round := by simp [start, Keepalive.ids]
  pinging := by simp [start, Keepalive.peers]
  reload := by simp [start, Reload.ids]

/-- A connection comes back to the pool, its tunnel's key is rotated and reloaded,
and the next relay asks for a connection. -/
def keyRotated : List Act :=
  leaseOpened 0 (edge [1]) ++ [.finish 0 false] ++ reloadTo { tunnels := [edge [2]] } ++
    leaseIdle 1 (edge [2])

/-- A tunnel is removed and the removal reloaded while a connection of it is leased. -/
def removedWhileLeased : List Act :=
  leaseOpened 0 (edge [1]) ++ reloadTo {} ++ [.finish 0 false]

end MailCue.Tunnel.Sidecar.Pool
