import MailCue.Tunnel.Sidecar.Pool

/-!
# The steps of the connection pool

Every step that changes anything, with the state it leads to, and what every run
keeps: a connection stays with the slot of the tunnel it was opened for.
-/
namespace MailCue.Tunnel.Sidecar.Pool
open MailCue.Lib

/-- Every step that changes anything. -/
inductive Taken (cfg : SidecarConfig) (s : State) : Act → State → Prop
  | tick (elapsed : Nat) : Taken cfg s (.tick elapsed) { s with now := s.now + elapsed }
  | set (view : TunnelsView) : Taken cfg s (.set view) { s with view, pending := true }
  | wake (hpending : s.pending = true) (hreload : s.reload = .waiting) :
      Taken cfg s .wake { s with pending := false, reload := .woken }
  | snapshot (hreload : s.reload = .woken) :
      Taken cfg s .snapshot { s with reload := .retaining s.view.ids }
  | retain (ids : List String) (hreload : s.reload = .retaining ids) :
      Taken cfg s .retain { s with slots := Pool.retain ids s.slots, reload := .ensuring ids }
  | ensure (id : String) (ids : List String) (hreload : s.reload = .ensuring (id :: ids)) :
      Taken cfg s .ensureNext { s with slots := Pool.ensure id s.slots, reload := .ensuring ids }
  | ensured (hreload : s.reload = .ensuring []) :
      Taken cfg s .ensureNext { s with reload := .waiting }
  | request (probe : Bool) :
      Taken cfg s (.request probe) { s with
        workers := s.workers ++
          [{ ordered := s.view.ordered_failover, phase := .selecting probe s.view }] }
  | selectRelay (i : Nat) (w : Worker) (view : TunnelsView) (picked : List Tunnel)
      (hw : s.workers[i]? = some w) (hphase : w.phase = .selecting false view)
      (hpicked : picked.Perm (candidates view s.slots)) :
      Taken cfg s (.select i picked) (s.setWorker i { w with rest := picked, phase := .between })
  | selectProbe (i : Nat) (w : Worker) (view : TunnelsView) (picked : List Tunnel)
      (hw : s.workers[i]? = some w) (hphase : w.phase = .selecting true view)
      (hpicked : picked.Perm (candidates view s.slots)) :
      Taken cfg s (.select i picked) { s with
        workers := s.workers.set i { w with rest := [], phase := .between } ++ picked.map probeOne }
  | advance (i : Nat) (w : Worker) (t : Tunnel) (rest : List Tunnel)
      (hw : s.workers[i]? = some w) (hphase : w.phase = .between) (hrest : w.rest = t :: rest) :
      Taken cfg s (.advance i) (s.setWorker i { w with phase := .popping t, rest })
  | popNone (i : Nat) (w : Worker) (t : Tunnel)
      (hw : s.workers[i]? = some w) (hphase : w.phase = .popping t)
      (hpop : (entry t.id s.slots).idle = []) :
      Taken cfg s (.pop i) { s.setWorker i { w with phase := .opening t } with
        slots := modify t.id TunnelSlot.popped s.slots }
  | popExpired (i : Nat) (w : Worker) (t : Tunnel) (conn : Conn) (idle : List Conn)
      (hw : s.workers[i]? = some w) (hphase : w.phase = .popping t)
      (hpop : (entry t.id s.slots).idle = conn :: idle) (hexpired : expired cfg s.now conn = true) :
      Taken cfg s (.pop i) { s with slots := modify t.id TunnelSlot.popped s.slots }
  | popFresh (i : Nat) (w : Worker) (t : Tunnel) (conn : Conn) (idle : List Conn)
      (hw : s.workers[i]? = some w) (hphase : w.phase = .popping t)
      (hpop : (entry t.id s.slots).idle = conn :: idle)
      (hexpired : expired cfg s.now conn = false) :
      Taken cfg s (.pop i) { s.setWorker i { w with phase := .marking t conn } with
        slots := modify t.id TunnelSlot.popped s.slots }
  | opened (i : Nat) (w : Worker) (t : Tunnel)
      (hw : s.workers[i]? = some w) (hphase : w.phase = .opening t) :
      Taken cfg s (.opened i)
        { s.setWorker i { w with phase := .marking t (openedConn s.now t) } with
          slots := noteOpened s.now t.id s.slots }
  | openFailed (i : Nat) (w : Worker) (t : Tunnel)
      (hw : s.workers[i]? = some w) (hphase : w.phase = .opening t) :
      Taken cfg s (.openFailed i true) { s.setWorker i { w with phase := .between } with
        slots := noteOpenFailure cfg t.id s.slots }
  | openGivenUp (i : Nat) (w : Worker) (t : Tunnel)
      (hw : s.workers[i]? = some w) (hphase : w.phase = .opening t) :
      Taken cfg s (.openFailed i false) (s.setWorker i { w with phase := .between })
  | mark (i : Nat) (w : Worker) (t : Tunnel) (conn : Conn)
      (hw : s.workers[i]? = some w) (hphase : w.phase = .marking t conn) :
      Taken cfg s (.mark i) { s.setWorker i { w with phase := .leased conn } with
        slots := markInflight t.id s.slots
        handed := s.handed ++ [⟨t, conn, s.view⟩] }
  | finish (i : Nat) (w : Worker) (conn : Conn) (undelivered : Bool)
      (hw : s.workers[i]? = some w) (hphase : w.phase = .leased conn) :
      Taken cfg s (.finish i undelivered) { s.setWorker i { w with
          phase := .between, rest := if w.ordered || !undelivered then [] else w.rest } with
        slots := release cfg s.now conn s.slots }
  | fail (i : Nat) (w : Worker) (conn : Conn)
      (hw : s.workers[i]? = some w) (hphase : w.phase = .leased conn) :
      Taken cfg s (.fail i) { s.setWorker i { w with phase := .between } with
        slots := discard cfg conn s.slots }
  | collect (ids : List String) (hsleeping : s.keepalive = .sleeping)
      (hids : ids.Perm s.idleIds) :
      Taken cfg s (.collect ids) { s with keepalive := .round ids }
  | pingNone (id : String) (ids : List String) (hround : s.keepalive = .round (id :: ids))
      (hpop : (entry id s.slots).idle = []) :
      Taken cfg s .pingNext
        { s with slots := modify id TunnelSlot.popped s.slots, keepalive := .round ids }
  | pingSome (id : String) (ids : List String) (conn : Conn) (idle : List Conn)
      (hround : s.keepalive = .round (id :: ids))
      (hpop : (entry id s.slots).idle = conn :: idle) :
      Taken cfg s .pingNext
        { s with slots := modify id TunnelSlot.popped s.slots, keepalive := .pinging conn ids }
  | rested (hround : s.keepalive = .round []) :
      Taken cfg s .pingNext { s with keepalive := .sleeping }
  | pong (conn : Conn) (ids : List String) (hpinging : s.keepalive = .pinging conn ids) :
      Taken cfg s .pong
        { s with slots := release cfg s.now conn s.slots, keepalive := .round ids }
  | pingFailed (conn : Conn) (ids : List String) (hpinging : s.keepalive = .pinging conn ids) :
      Taken cfg s .pingFailed
        { s with slots := discard cfg conn s.slots, keepalive := .round ids }

theorem onWorker_taken {cfg : SidecarConfig} {s : State} {a : Act} {i : Nat} {f : Worker → State}
    (h : ∀ w, s.workers[i]? = some w → f w = s ∨ Taken cfg s a (f w)) :
    s.onWorker i f = s ∨ Taken cfg s a (s.onWorker i f) := by
  unfold State.onWorker
  cases hw : s.workers[i]? with
  | none => exact .inl rfl
  | some w => exact h w hw

theorem step_taken (cfg : SidecarConfig) (s : State) (a : Act) :
    step cfg s a = s ∨ Taken cfg s a (step cfg s a) := by
  cases a with
  | tick elapsed => exact .inr (.tick elapsed)
  | set view => exact .inr (.set view)
  | wake =>
    rw [step]
    split
    · next h => exact .inr (.wake h.2 h.1)
    · exact .inl rfl
  | snapshot =>
    rw [step]
    split
    · next h => exact .inr (.snapshot h)
    · exact .inl rfl
  | retain =>
    rw [step]
    split
    · next ids h => exact .inr (.retain ids h)
    · exact .inl rfl
  | ensureNext =>
    rw [step]
    split
    · next id ids h => exact .inr (.ensure id ids h)
    · next h => exact .inr (.ensured h)
    · exact .inl rfl
  | request probe => exact .inr (.request probe)
  | select i picked =>
    refine onWorker_taken fun w hw => ?_
    cases hphase : w.phase with
    | selecting probe view =>
      by_cases hpicked : picked.isPerm (candidates view s.slots)
      · cases probe with
        | true =>
          simp only [workerStep, hphase, hpicked, if_true]
          exact .inr (.selectProbe i w view picked hw hphase (List.isPerm_iff.mp hpicked))
        | false =>
          simp only [workerStep, hphase, hpicked, if_true, Bool.false_eq_true, if_false]
          exact .inr (.selectRelay i w view picked hw hphase (List.isPerm_iff.mp hpicked))
      · left
        simp [workerStep, hphase, hpicked]
    | _ =>
      left
      simp only [workerStep, hphase]
  | advance i =>
    refine onWorker_taken fun w hw => ?_
    cases hphase : w.phase with
    | between =>
      cases hrest : w.rest with
      | nil =>
        left
        simp only [workerStep, hphase, hrest]
      | cons t rest =>
        simp only [workerStep, hphase, hrest]
        exact .inr (.advance i w t rest hw hphase hrest)
    | _ =>
      left
      simp only [workerStep, hphase]
  | pop i =>
    refine onWorker_taken fun w hw => ?_
    cases hphase : w.phase with
    | popping t =>
      cases hpop : (entry t.id s.slots).idle with
      | nil =>
        simp only [workerStep, hphase, popFront, hpop, List.head?_nil]
        exact .inr (.popNone i w t hw hphase hpop)
      | cons conn idle =>
        cases hexpired : expired cfg s.now conn with
        | true =>
          simp only [workerStep, hphase, popFront, hpop, List.head?_cons, hexpired, if_true]
          exact .inr (.popExpired i w t conn idle hw hphase hpop hexpired)
        | false =>
          simp only [workerStep, hphase, popFront, hpop, List.head?_cons, hexpired,
            Bool.false_eq_true, if_false]
          exact .inr (.popFresh i w t conn idle hw hphase hpop hexpired)
    | _ =>
      left
      simp only [workerStep, hphase]
  | opened i =>
    refine onWorker_taken fun w hw => ?_
    cases hphase : w.phase with
    | opening t =>
      simp only [workerStep, hphase]
      exact .inr (.opened i w t hw hphase)
    | _ =>
      left
      simp only [workerStep, hphase]
  | openFailed i counted =>
    refine onWorker_taken fun w hw => ?_
    cases hphase : w.phase with
    | opening t =>
      cases counted with
      | true =>
        simp only [workerStep, hphase, if_true]
        exact .inr (.openFailed i w t hw hphase)
      | false =>
        simp only [workerStep, hphase, Bool.false_eq_true, if_false]
        exact .inr (.openGivenUp i w t hw hphase)
    | _ =>
      left
      simp only [workerStep, hphase]
  | mark i =>
    refine onWorker_taken fun w hw => ?_
    cases hphase : w.phase with
    | marking t conn =>
      simp only [workerStep, hphase]
      exact .inr (.mark i w t conn hw hphase)
    | _ =>
      left
      simp only [workerStep, hphase]
  | finish i undelivered =>
    refine onWorker_taken fun w hw => ?_
    cases hphase : w.phase with
    | leased conn =>
      simp only [workerStep, hphase]
      exact .inr (.finish i w conn undelivered hw hphase)
    | _ =>
      left
      simp only [workerStep, hphase]
  | fail i =>
    refine onWorker_taken fun w hw => ?_
    cases hphase : w.phase with
    | leased conn =>
      simp only [workerStep, hphase]
      exact .inr (.fail i w conn hw hphase)
    | _ =>
      left
      simp only [workerStep, hphase]
  | collect ids =>
    rw [step]
    split
    · next h => exact .inr (.collect ids h.1 (List.isPerm_iff.mp h.2))
    · exact .inl rfl
  | pingNext =>
    cases hround : s.keepalive with
    | sleeping => exact .inl (by simp only [step, hround])
    | pinging conn ids => exact .inl (by simp only [step, hround])
    | round ids =>
      cases ids with
      | nil =>
        simp only [step, hround]
        exact .inr (.rested hround)
      | cons id ids =>
        cases hpop : (entry id s.slots).idle with
        | nil =>
          simp only [step, hround, popFront, hpop, List.head?_nil]
          exact .inr (.pingNone id ids hround hpop)
        | cons conn idle =>
          simp only [step, hround, popFront, hpop, List.head?_cons]
          exact .inr (.pingSome id ids conn idle hround hpop)
  | pong =>
    rw [step]
    split
    · next conn ids h => exact .inr (.pong conn ids h)
    · exact .inl rfl
  | pingFailed =>
    rw [step]
    split
    · next conn ids h => exact .inr (.pingFailed conn ids h)
    · exact .inl rfl

theorem Taken.step_eq {cfg : SidecarConfig} {s s' : State} {a : Act} (taken : Taken cfg s a s') :
    step cfg s a = s' := by
  cases taken with
  | tick | set | request => rfl
  | wake hpending hreload => simp only [step, hreload, hpending, and_self, if_true]
  | snapshot hreload => simp only [step, hreload, if_true]
  | retain ids hreload => simp only [step, hreload]
  | ensure id ids hreload => simp only [step, hreload]
  | ensured hreload => simp only [step, hreload]
  | selectRelay i w view picked hw hphase hpicked =>
    simp only [step, State.onWorker, hw, workerStep, hphase, List.isPerm_iff.mpr hpicked, if_true,
      Bool.false_eq_true, if_false]
  | selectProbe i w view picked hw hphase hpicked =>
    simp only [step, State.onWorker, hw, workerStep, hphase, List.isPerm_iff.mpr hpicked, if_true,
      State.setWorker]
  | advance i w t rest hw hphase hrest =>
    simp only [step, State.onWorker, hw, workerStep, hphase, hrest]
  | popNone i w t hw hphase hpop =>
    simp only [step, State.onWorker, hw, workerStep, hphase, popFront, hpop, List.head?_nil]
  | popExpired i w t conn idle hw hphase hpop hexpired =>
    simp only [step, State.onWorker, hw, workerStep, hphase, popFront, hpop, List.head?_cons,
      hexpired, if_true]
  | popFresh i w t conn idle hw hphase hpop hexpired =>
    simp only [step, State.onWorker, hw, workerStep, hphase, popFront, hpop, List.head?_cons,
      hexpired, Bool.false_eq_true, if_false]
  | opened i w t hw hphase => simp only [step, State.onWorker, hw, workerStep, hphase]
  | openFailed i w t hw hphase =>
    simp only [step, State.onWorker, hw, workerStep, hphase, if_true]
  | openGivenUp i w t hw hphase =>
    simp only [step, State.onWorker, hw, workerStep, hphase, Bool.false_eq_true, if_false,
      State.setWorker]
  | mark i w t conn hw hphase => simp only [step, State.onWorker, hw, workerStep, hphase]
  | finish i w conn undelivered hw hphase =>
    simp only [step, State.onWorker, hw, workerStep, hphase]
  | fail i w conn hw hphase => simp only [step, State.onWorker, hw, workerStep, hphase]
  | collect ids hsleeping hids =>
    simp only [step, hsleeping, List.isPerm_iff.mpr hids, and_self, if_true]
  | pingNone id ids hround hpop => simp only [step, hround, popFront, hpop, List.head?_nil]
  | pingSome id ids conn idle hround hpop =>
    simp only [step, hround, popFront, hpop, List.head?_cons]
  | rested hround => simp only [step, hround]
  | pong conn ids hpinging => simp only [step, hpinging]
  | pingFailed conn ids hpinging => simp only [step, hpinging]

/-! ## Slots -/

theorem lookup_of_mem {slots : Slots} {id : String} (h : id ∈ slots) :
    slots.lookup id = some (entry id slots) := by
  obtain ⟨slot, hslot⟩ := Option.isSome_iff_exists.mp (AList.lookup_isSome.mpr h)
  simp [entry, hslot]

theorem entry_of_not_mem {slots : Slots} {id : String} (h : id ∉ slots) : entry id slots = {} := by
  simp [entry, AList.lookup_eq_none.mpr h]

theorem entry_modify_self (id : String) (f : TunnelSlot → TunnelSlot) (slots : Slots) :
    entry id (modify id f slots) = f (entry id slots) := by
  rw [entry, lookup_modify_self, Option.getD_some]

theorem entry_modify_ne {id k : String} (h : k ≠ id) (f : TunnelSlot → TunnelSlot)
    (slots : Slots) : entry k (modify id f slots) = entry k slots := by
  rw [entry, lookup_modify_ne h, entry]

/-- `P` of every slot, under its tunnel's id. -/
def EverySlot (P : String → TunnelSlot → Prop) (slots : Slots) : Prop :=
  ∀ id slot, slots.lookup id = some slot → P id slot

theorem EverySlot.entry {P : String → TunnelSlot → Prop} {slots : Slots} (h : EverySlot P slots)
    {id : String} (hdefault : P id {}) : P id (entry id slots) := by
  unfold Pool.entry
  cases hslot : slots.lookup id with
  | none => exact hdefault
  | some slot => exact h id slot hslot

theorem EverySlot.modify {P : String → TunnelSlot → Prop} {slots : Slots} (h : EverySlot P slots)
    {id : String} {f : TunnelSlot → TunnelSlot} (hf : P id (f (Pool.entry id slots))) :
    EverySlot P (modify id f slots) := by
  intro k slot hslot
  by_cases hk : k = id
  · subst hk
    rw [lookup_modify_self] at hslot
    cases hslot
    exact hf
  · rw [lookup_modify_ne hk] at hslot
    exact h k slot hslot

theorem EverySlot.retain {P : String → TunnelSlot → Prop} {slots : Slots} (h : EverySlot P slots)
    (ids : List String) : EverySlot P (Pool.retain ids slots) := by
  intro k slot hslot
  rw [lookup_retain] at hslot
  split at hslot
  · exact h k slot hslot
  · cases hslot

theorem everySlot_start {P : String → TunnelSlot → Prop} (ids : List String)
    (hdefault : ∀ id ∈ ids, P id {}) (slots : Slots) (h : EverySlot P slots) :
    EverySlot P (ids.foldl (fun slots id => ensure id slots) slots) := by
  induction ids generalizing slots with
  | nil => exact h
  | cons id ids ih =>
    refine ih (fun k hk => hdefault k (List.mem_cons_of_mem _ hk)) _ (h.modify ?_)
    exact h.entry (hdefault id (List.mem_cons_self ..))

theorem everySlot_empty (P : String → TunnelSlot → Prop) : EverySlot P ∅ := by
  intro id slot hslot
  simp at hslot

/-! ## Filing -/

def FiledSlot (id : String) (slot : TunnelSlot) : Prop := ∀ conn ∈ slot.idle, conn.tunnel_id = id

/-- The connection a worker is about to be handed is of the tunnel it asked for. -/
def Worker.Filed (w : Worker) : Prop :=
  ∀ t conn, w.phase = .marking t conn → conn.tunnel_id = t.id

structure Filed (s : State) : Prop where
  slots : EverySlot FiledSlot s.slots
  workers : ∀ w ∈ s.workers, w.Filed

theorem filedSlot_default (id : String) : FiledSlot id {} := by
  intro conn hconn
  cases hconn

theorem Filed.modify {s : State} (h : Filed s) {id : String} {f : TunnelSlot → TunnelSlot}
    (hf : ∀ slot, FiledSlot id slot → FiledSlot id (f slot)) : EverySlot FiledSlot (modify id f s.slots) :=
  h.slots.modify (hf _ (h.slots.entry (filedSlot_default id)))

theorem Filed.popped {s : State} (h : Filed s) (id : String) :
    EverySlot FiledSlot (Pool.modify id TunnelSlot.popped s.slots) :=
  h.modify fun _ hslot conn hconn => hslot conn (List.mem_of_mem_drop hconn)

theorem Filed.idle_cons {s : State} (h : Filed s) {id : String} {conn : Conn} {idle : List Conn}
    (hpop : (entry id s.slots).idle = conn :: idle) : conn.tunnel_id = id :=
  h.slots.entry (filedSlot_default id) conn (hpop ▸ List.mem_cons_self ..)

/-- What a released slot holds was there, or is the connection given back. -/
theorem mem_released {cfg : SidecarConfig} {now : Nat} {conn other : Conn} {slot : TunnelSlot}
    (h : other ∈ (slot.released cfg now conn).idle) :
    other ∈ slot.idle ∨ other = { conn with last_used := now } := by
  simp only [TunnelSlot.released] at h
  split at h
  · exact (List.mem_append.mp h).imp_right List.mem_singleton.mp
  · exact .inl h

theorem Filed.release {s : State} (h : Filed s) (cfg : SidecarConfig) (now : Nat) (conn : Conn) :
    EverySlot FiledSlot (release cfg now conn s.slots) := by
  refine h.modify fun slot hslot other hother => ?_
  rcases mem_released hother with hold | rfl
  · exact hslot other hold
  · rfl

/-- A worker that goes to a phase without a connection about to be handed out. -/
theorem Worker.filed_of_ne {w : Worker} (h : ∀ t conn, w.phase ≠ .marking t conn) : w.Filed :=
  fun t conn hphase => absurd hphase (h t conn)

theorem Filed.set {s : State} (h : Filed s) {i : Nat} {w : Worker} (hw : w.Filed) :
    ∀ w' ∈ s.workers.set i w, w'.Filed := by
  intro w' hw'
  rcases List.mem_or_eq_of_mem_set hw' with hold | rfl
  · exact h.workers w' hold
  · exact hw

theorem Taken.filed {cfg : SidecarConfig} {s s' : State} {a : Act} (taken : Taken cfg s a s')
    (h : Filed s) : Filed s' := by
  cases taken with
  | tick | set | wake | snapshot | ensured | collect | rested => exact ⟨h.slots, h.workers⟩
  | retain ids => exact ⟨h.slots.retain ids, h.workers⟩
  | ensure id => exact ⟨h.modify fun _ hslot => hslot, h.workers⟩
  | request probe =>
    refine ⟨h.slots, fun w hw => ?_⟩
    rcases List.mem_append.mp hw with hold | hnew
    · exact h.workers w hold
    · rw [List.mem_singleton.mp hnew]
      exact Worker.filed_of_ne fun _ _ hphase => by cases hphase
  | selectRelay i w view picked =>
    exact ⟨h.slots, h.set (Worker.filed_of_ne fun _ _ hphase => by cases hphase)⟩
  | selectProbe i w view picked =>
    refine ⟨h.slots, fun w' hw' => ?_⟩
    rcases List.mem_append.mp hw' with hold | hnew
    · exact h.set (Worker.filed_of_ne fun _ _ hphase => by cases hphase) w' hold
    · obtain ⟨t, -, rfl⟩ := List.mem_map.mp hnew
      exact Worker.filed_of_ne fun _ _ hphase => by cases hphase
  | advance | openGivenUp =>
    exact ⟨h.slots, h.set (Worker.filed_of_ne fun _ _ hphase => by cases hphase)⟩
  | popNone i w t =>
    exact ⟨h.popped t.id, h.set (Worker.filed_of_ne fun _ _ hphase => by cases hphase)⟩
  | popExpired i w t => exact ⟨h.popped t.id, h.workers⟩
  | popFresh i w t conn idle hw hphase hpop =>
    refine ⟨h.popped t.id, h.set fun t' conn' hmarking => ?_⟩
    cases hmarking
    exact h.idle_cons hpop
  | opened i w t =>
    refine ⟨h.modify fun _ hslot => hslot, h.set fun t' conn' hmarking => ?_⟩
    cases hmarking
    rfl
  | openFailed i w t =>
    exact ⟨h.modify fun _ hslot => hslot,
      h.set (Worker.filed_of_ne fun _ _ hphase => by cases hphase)⟩
  | mark i w t =>
    exact ⟨h.modify fun _ hslot => hslot,
      h.set (Worker.filed_of_ne fun _ _ hphase => by cases hphase)⟩
  | finish i w conn =>
    exact ⟨h.release cfg s.now conn,
      h.set (Worker.filed_of_ne fun _ _ hphase => by cases hphase)⟩
  | fail i w conn =>
    exact ⟨h.modify fun _ hslot => hslot,
      h.set (Worker.filed_of_ne fun _ _ hphase => by cases hphase)⟩
  | pingNone id => exact ⟨h.popped id, h.workers⟩
  | pingSome id => exact ⟨h.popped id, h.workers⟩
  | pong conn => exact ⟨h.release cfg s.now conn, h.workers⟩
  | pingFailed conn => exact ⟨h.modify fun _ hslot => hslot, h.workers⟩

theorem filed_start (view : TunnelsView) : Filed (start view) :=
  ⟨everySlot_start view.ids (fun id _ => filedSlot_default id) ∅ (everySlot_empty _), by simp [start]⟩

/-- A property that every step which changes anything keeps is kept by every step. -/
theorem step_of_taken {cfg : SidecarConfig} {P : State → Prop} {s : State} {a : Act} (h : P s)
    (htaken : ∀ s', Taken cfg s a s' → P s') : P (step cfg s a) := by
  rcases step_taken cfg s a with hsame | taken
  · rwa [hsame]
  · exact htaken _ taken

theorem filed_run (cfg : SidecarConfig) (view : TunnelsView) (inputs : List Act) :
    (pool cfg view).Always (fun _ s => Filed s) inputs := by
  refine Machine.always_of_preserved inputs (filed_start view) fun pre a h => ?_
  rw [Machine.run_snoc]
  exact step_of_taken h fun s' taken => taken.filed h

/-! ## Acts that come together -/

def edge (edge_pubkey : List UInt8) : Tunnel :=
  { id := "edge-1", host := "192.0.2.1", port := 7843, edge_pubkey }

/-- A relay leases a connection of its one candidate, with none idle. -/
def leaseOpened (i : Nat) (t : Tunnel) : List Act :=
  [.request false, .select i [t], .advance i, .pop i, .opened i, .mark i]

/-- A relay leases a connection of its one candidate that was idle. -/
def leaseIdle (i : Nat) (t : Tunnel) : List Act :=
  [.request false, .select i [t], .advance i, .pop i, .mark i]

/-- A configuration is loaded and the reload loop takes it up. -/
def reloadTo (view : TunnelsView) : List Act :=
  [.set view, .wake, .snapshot, .retain] ++ List.replicate (view.tunnels.length + 1) .ensureNext

end MailCue.Tunnel.Sidecar.Pool
