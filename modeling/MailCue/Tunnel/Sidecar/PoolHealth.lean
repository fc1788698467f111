import MailCue.Tunnel.Sidecar.PoolSteps

/-!
# Recovery of the pool's health

An unhealthy tunnel is no relay's candidate any more, so that what can still mark
it healthy is what the sidecar has of it: an idle connection, a connection that is
borrowed or being opened, a relay that has it still among its candidates. Where none
of these is left, nothing but a new configuration can ever use the tunnel again.
-/
namespace MailCue.Tunnel.Sidecar.Pool
open MailCue.Lib

set_option linter.dupNamespace false

def TunnelsView.Enables (view : TunnelsView) (id : String) : Prop :=
  ∃ t ∈ view.tunnels, t.id = id ∧ t.enabled = true

def Unhealthy (s : State) (id : String) : Prop :=
  ∃ slot, s.slots.lookup id = some slot ∧ slot.stats.healthy = false

/-- What the sidecar does by itself, which loads no configuration. -/
def Act.loads : Act → Bool
  | .set _ => true
  | _ => false

/-- Some steps of the sidecar, none of which loads a configuration, mark the tunnel
healthy. -/
def CanRecover (cfg : SidecarConfig) (id : String) (s : State) : Prop :=
  CanReach (step cfg) (fun a => a.loads = false) (fun s => markedHealthy id s.slots = true) s

/-- Every enabled tunnel that is marked unhealthy can be marked healthy again. -/
def HealthCanRecover (cfg : SidecarConfig) (s : State) : Prop :=
  ∀ id, s.view.Enables id → Unhealthy s id → CanRecover cfg id s

/-! ## What is left of a tunnel -/

/-- The tunnels that a worker uses or has still to come to. -/
def Worker.ids (w : Worker) : List String :=
  match w.phase with
  | .selecting _ _ => []
  | .between => w.rest.map (·.id)
  | .popping t => t.id :: w.rest.map (·.id)
  | .opening t => t.id :: w.rest.map (·.id)
  | .marking t _ => t.id :: w.rest.map (·.id)
  | .leased conn => conn.tunnel_id :: w.rest.map (·.id)

def Keepalive.Holds (id : String) : Keepalive → Prop
  | .pinging conn _ => conn.tunnel_id = id
  | _ => False

/-- The reload loop is about to drop the tunnel's slot. -/
def Reload.Drops (id : String) : Reload → Prop
  | .retaining ids => id ∉ ids
  | _ => False

/-- The sidecar still has something of the tunnel, or is about to drop its slot. -/
inductive InReach (s : State) (id : String) : Prop
  | idle (hidle : (entry id s.slots).idle ≠ [])
  | worker (w : Worker) (hw : w ∈ s.workers) (hid : id ∈ w.ids)
  | pinging (hholds : s.keepalive.Holds id)
  | dropping (hdrops : s.reload.Drops id)

/-! ## Steps towards health -/

section towards

variable {cfg : SidecarConfig} {id : String} {s s' : State}

theorem Taken.recovers {a : Act} (taken : Taken cfg s a s') (hloads : a.loads = false)
    (h : CanRecover cfg id s') : CanRecover cfg id s := by
  rw [← taken.step_eq] at h
  exact .next hloads h

theorem markedHealthy_modify {f : TunnelSlot → TunnelSlot} {slots : Slots}
    (hf : (f (entry id slots)).stats.healthy = true) :
    markedHealthy id (modify id f slots) = true := by
  rw [markedHealthy, lookup_modify_self, Option.any_some, hf]

/-- A ping that is answered, or a lease that ends well. -/
theorem markedHealthy_release (now : Nat) (conn : Conn) (slots : Slots) :
    markedHealthy conn.tunnel_id (release cfg now conn slots) = true := markedHealthy_modify rfl

theorem recovers_pinging {conn : Conn} {ids : List String}
    (hpinging : s.keepalive = .pinging conn ids) : CanRecover cfg conn.tunnel_id s :=
  (Taken.pong conn ids hpinging).recovers rfl (.here (markedHealthy_release _ _ _))

theorem getElem?_setWorker {i : Nat} {w : Worker} (hw : s.workers[i]? = some w) (w' : Worker) :
    (s.workers.set i w')[i]? = some w' := by
  obtain ⟨hi, -⟩ := List.getElem?_eq_some_iff.mp hw
  rw [List.getElem?_set_self hi]

theorem recovers_leased {i : Nat} {w : Worker} {conn : Conn} (hw : s.workers[i]? = some w)
    (hphase : w.phase = .leased conn) : CanRecover cfg conn.tunnel_id s :=
  (Taken.finish i w conn false hw hphase).recovers rfl (.here (markedHealthy_release _ _ _))

theorem recovers_marking {i : Nat} {w : Worker} {t : Tunnel} {conn : Conn} (hfiled : Filed s)
    (hw : s.workers[i]? = some w) (hphase : w.phase = .marking t conn) :
    CanRecover cfg t.id s := by
  apply (Taken.mark i w t conn hw hphase).recovers rfl
  rw [← hfiled.workers w (List.mem_of_getElem? hw) t conn hphase]
  exact recovers_leased (getElem?_setWorker hw _) rfl

theorem recovers_opening {i : Nat} {w : Worker} {t : Tunnel} (hw : s.workers[i]? = some w)
    (hphase : w.phase = .opening t) : CanRecover cfg t.id s :=
  (Taken.opened i w t hw hphase).recovers rfl (.here (markedHealthy_modify rfl))

/-- `lease` pops until it has nothing to pop or a connection that is not expired. -/
theorem recovers_popping {i : Nat} {w : Worker} {t : Tunnel} (hfiled : Filed s)
    (hw : s.workers[i]? = some w) (hphase : w.phase = .popping t)
    (hopening : ∀ s, Filed s → s.workers[i]? = some { w with phase := .opening t } →
      CanRecover cfg id s)
    (hmarking : ∀ s conn, Filed s → s.workers[i]? = some { w with phase := .marking t conn } →
      CanRecover cfg id s) : CanRecover cfg id s := by
  induction hpop : (entry t.id s.slots).idle generalizing s with
  | nil =>
    have taken : Taken cfg s _ _ := .popNone i w t hw hphase hpop
    exact taken.recovers rfl (hopening _ (taken.filed hfiled) (getElem?_setWorker hw _))
  | cons conn idle ih =>
    cases hexpired : expired cfg s.now conn with
    | true =>
      have taken : Taken cfg s _ _ := .popExpired i w t conn idle hw hphase hpop hexpired
      refine taken.recovers rfl (ih (taken.filed hfiled) hw ?_)
      simp [entry, TunnelSlot.popped] at hpop ⊢
      simp [hpop]
    | false =>
      have taken : Taken cfg s _ _ := .popFresh i w t conn idle hw hphase hpop hexpired
      exact taken.recovers rfl (hmarking _ conn (taken.filed hfiled) (getElem?_setWorker hw _))

section passing

variable {i : Nat} {ordered : Bool} {rest : List Tunnel}
  (hbetween : ∀ s, Filed s → s.workers[i]? = some { ordered, rest, phase := .between } →
    CanRecover cfg id s)

include hbetween

/-- A worker that fails over keeps the candidates it has still to come to. -/
theorem recovers_past_leased {conn : Conn} (hfiled : Filed s)
    (hw : s.workers[i]? = some { ordered, rest, phase := .leased conn }) : CanRecover cfg id s := by
  have taken : Taken cfg s _ _ := .fail i _ conn hw rfl
  exact taken.recovers rfl (hbetween _ (taken.filed hfiled) (getElem?_setWorker hw _))

theorem recovers_past_marking {t : Tunnel} {conn : Conn} (hfiled : Filed s)
    (hw : s.workers[i]? = some { ordered, rest, phase := .marking t conn }) :
    CanRecover cfg id s := by
  have taken : Taken cfg s _ _ := .mark i _ t conn hw rfl
  apply taken.recovers rfl
  exact recovers_past_leased hbetween (taken.filed hfiled) (getElem?_setWorker hw _)

theorem recovers_past_opening {t : Tunnel} (hfiled : Filed s)
    (hw : s.workers[i]? = some { ordered, rest, phase := .opening t }) : CanRecover cfg id s := by
  have taken : Taken cfg s _ _ := .openGivenUp i _ t hw rfl
  exact taken.recovers rfl (hbetween _ (taken.filed hfiled) (getElem?_setWorker hw _))

theorem recovers_past_popping {t : Tunnel} (hfiled : Filed s)
    (hw : s.workers[i]? = some { ordered, rest, phase := .popping t }) : CanRecover cfg id s :=
  recovers_popping hfiled hw rfl (fun _ hfiled hw => recovers_past_opening hbetween hfiled hw)
    (fun _ _ hfiled hw => recovers_past_marking hbetween hfiled hw)

end passing

theorem recovers_popping_self {i : Nat} {w : Worker} {t : Tunnel} (hfiled : Filed s)
    (hw : s.workers[i]? = some w) (hphase : w.phase = .popping t) : CanRecover cfg t.id s :=
  recovers_popping hfiled hw hphase (fun _ _ hw => recovers_opening hw rfl)
    (fun _ _ hfiled hw => recovers_marking hfiled hw rfl)

/-- A relay comes to each of its candidates, if it fails with those before it. -/
theorem recovers_between {i : Nat} {ordered : Bool} {rest : List Tunnel}
    (hid : id ∈ rest.map (·.id)) (hfiled : Filed s)
    (hw : s.workers[i]? = some { ordered, rest, phase := .between }) : CanRecover cfg id s := by
  induction rest generalizing s with
  | nil => cases hid
  | cons t rest ih =>
    have taken : Taken cfg s _ _ := .advance i _ t rest hw rfl rfl
    apply taken.recovers rfl
    by_cases hself : t.id = id
    · subst hself
      exact recovers_popping_self (taken.filed hfiled) (getElem?_setWorker hw _) rfl
    · have hrest : id ∈ rest.map (·.id) := by
        rcases List.mem_cons.mp hid with heq | hrest
        · exact absurd heq.symm hself
        · exact hrest
      exact recovers_past_popping (fun s hfiled hw => ih hrest hfiled hw) (taken.filed hfiled)
        (getElem?_setWorker hw _)

theorem recovers_worker {w : Worker} (hfiled : Filed s) (hmem : w ∈ s.workers) (hid : id ∈ w.ids) :
    CanRecover cfg id s := by
  obtain ⟨i, hw⟩ := List.mem_iff_getElem?.mp hmem
  obtain ⟨ordered, rest, phase⟩ := w
  cases phase with
  | selecting => cases hid
  | between => exact recovers_between hid hfiled hw
  | popping t =>
    rcases List.mem_cons.mp hid with rfl | hrest
    · exact recovers_popping_self hfiled hw rfl
    · exact recovers_past_popping (fun _ => recovers_between hrest) hfiled hw
  | opening t =>
    rcases List.mem_cons.mp hid with rfl | hrest
    · exact recovers_opening hw rfl
    · exact recovers_past_opening (fun _ => recovers_between hrest) hfiled hw
  | marking t conn =>
    rcases List.mem_cons.mp hid with rfl | hrest
    · exact recovers_marking hfiled hw rfl
    · exact recovers_past_marking (fun _ => recovers_between hrest) hfiled hw
  | leased conn =>
    rcases List.mem_cons.mp hid with rfl | hrest
    · exact recovers_leased hw rfl
    · exact recovers_past_leased (fun _ => recovers_between hrest) hfiled hw

/-- The keepalive loop comes to the first tunnel of its round and, where its ping is
answered, past it. -/
theorem recovers_round_cons {k : String} {ids : List String} (hfiled : Filed s)
    (hround : s.keepalive = .round (k :: ids)) (hidle : (entry id s.slots).idle ≠ [])
    (hnext : ∀ s', k ≠ id → Filed s' → s'.keepalive = .round ids →
      (entry id s'.slots).idle ≠ [] → CanRecover cfg id s') : CanRecover cfg id s := by
  cases hpop : (entry k s.slots).idle with
  | nil =>
    have taken : Taken cfg s _ _ := .pingNone k ids hround hpop
    have hk : k ≠ id := by
      rintro rfl
      exact hidle hpop
    refine taken.recovers rfl (hnext _ hk (taken.filed hfiled) rfl ?_)
    rwa [entry_modify_ne hk.symm]
  | cons conn idle =>
    have taken : Taken cfg s _ _ := .pingSome k ids conn idle hround hpop
    apply taken.recovers rfl
    have hconn : conn.tunnel_id = k := hfiled.idle_cons hpop
    by_cases hk : k = id
    · rw [← hk, ← hconn]
      exact recovers_pinging rfl
    · have hpopped := taken.filed hfiled
      refine (Taken.pong conn ids rfl).recovers rfl
        (hnext _ hk ((Taken.pong conn ids rfl).filed hpopped) rfl ?_)
      rwa [release, hconn, entry_modify_ne (Ne.symm hk), entry_modify_ne (Ne.symm hk)]

theorem recovers_round_mem {ids : List String} (hfiled : Filed s) (hround : s.keepalive = .round ids)
    (hidle : (entry id s.slots).idle ≠ []) (hid : id ∈ ids) : CanRecover cfg id s := by
  induction ids generalizing s with
  | nil => cases hid
  | cons k ids ih =>
    refine recovers_round_cons hfiled hround hidle fun s' hk hfiled hround hidle => ?_
    rcases List.mem_cons.mp hid with heq | hrest
    · exact absurd heq.symm hk
    · exact ih hfiled hround hidle hrest

theorem mem_idleIds (hidle : (entry id s.slots).idle ≠ []) : id ∈ s.idleIds := by
  have hid : id ∈ s.slots := by
    by_contra habsent
    exact hidle (by rw [entry_of_not_mem habsent])
  refine List.mem_map.mpr ⟨⟨id, entry id s.slots⟩, List.mem_filter.mpr ⟨?_, ?_⟩, rfl⟩
  · exact AList.mem_lookup_iff.mp (lookup_of_mem hid)
  · simpa using hidle

theorem recovers_sleeping (hfiled : Filed s) (hsleeping : s.keepalive = .sleeping)
    (hidle : (entry id s.slots).idle ≠ []) : CanRecover cfg id s := by
  have taken : Taken cfg s _ _ := .collect s.idleIds hsleeping (List.Perm.refl _)
  exact taken.recovers rfl (recovers_round_mem (taken.filed hfiled) rfl hidle (mem_idleIds hidle))

/-- The round that is under way goes by, and the next one comes to the tunnel. -/
theorem recovers_round {ids : List String} (hfiled : Filed s) (hround : s.keepalive = .round ids)
    (hidle : (entry id s.slots).idle ≠ []) : CanRecover cfg id s := by
  induction ids generalizing s with
  | nil =>
    have taken : Taken cfg s _ _ := .rested hround
    exact taken.recovers rfl (recovers_sleeping (taken.filed hfiled) rfl hidle)
  | cons k ids ih =>
    exact recovers_round_cons hfiled hround hidle fun s' _ => ih

theorem recovers_idle (hfiled : Filed s) (hidle : (entry id s.slots).idle ≠ []) :
    CanRecover cfg id s := by
  cases hkeepalive : s.keepalive with
  | sleeping => exact recovers_sleeping hfiled hkeepalive hidle
  | round ids => exact recovers_round hfiled hkeepalive hidle
  | pinging conn ids =>
    have taken : Taken cfg s _ _ := .pong conn ids hkeepalive
    by_cases hid : conn.tunnel_id = id
    · rw [← hid]
      exact recovers_pinging hkeepalive
    · refine taken.recovers rfl (recovers_round (taken.filed hfiled) rfl ?_)
      rwa [release, entry_modify_ne (Ne.symm hid)]

/-! ## A slot that the reload loop drops -/

/-- What the reload loop retains is what is loaded, unless it is to wake again. -/
def UpToDate (s : State) : Prop :=
  ∀ ids, s.reload = .retaining ids → s.pending = false → ids = s.view.ids

theorem Taken.upToDate {a : Act} (taken : Taken cfg s a s') (h : UpToDate s) : UpToDate s' := by
  cases taken with
  | set view =>
    intro ids _ hpending
    cases hpending
  | wake | retain | ensure | ensured =>
    intro ids hretaining
    cases hretaining
  | snapshot hreload =>
    intro ids hretaining _
    cases hretaining
    rfl
  | _ => exact h

theorem recovers_ensuring {ids : List String} (hensuring : s.reload = .ensuring ids)
    (habsent : id ∉ s.slots) (hid : id ∈ ids) : CanRecover cfg id s := by
  induction ids generalizing s with
  | nil => cases hid
  | cons k ids ih =>
    have taken : Taken cfg s _ _ := .ensure k ids hensuring
    apply taken.recovers rfl
    by_cases hk : k = id
    · subst hk
      exact .here (markedHealthy_modify (by rw [entry_of_not_mem habsent]))
    · refine ih rfl ?_ ?_
      · rw [Pool.ensure, mem_modify]
        exact not_or.mpr ⟨Ne.symm hk, habsent⟩
      · exact (List.mem_cons.mp hid).resolve_left (Ne.symm hk)

theorem mem_of_retain {ids : List String} {slots : Slots} (h : id ∈ retain ids slots) :
    id ∈ slots := by
  by_contra habsent
  have hnone := AList.lookup_eq_none.mpr habsent
  rw [← AList.lookup_isSome, lookup_retain, hnone] at h
  simp at h

/-- The reload loop, once it is done, takes up what has been loaded since. -/
theorem recovers_dropped {ids : List String} (hensuring : s.reload = .ensuring ids)
    (habsent : id ∉ s.slots) (hpending : s.pending = true) (hid : id ∈ s.view.ids) :
    CanRecover cfg id s := by
  induction ids generalizing s with
  | nil =>
    apply (Taken.ensured hensuring).recovers rfl
    refine Taken.recovers (.wake ?_ rfl) rfl ?_
    · exact hpending
    apply (Taken.snapshot rfl).recovers rfl
    apply (Taken.retain _ rfl).recovers rfl
    refine recovers_ensuring rfl (fun hmem => habsent ?_) hid
    exact mem_of_retain hmem
  | cons k ids ih =>
    apply (Taken.ensure k ids hensuring).recovers rfl
    by_cases hk : k = id
    · subst hk
      exact .here (markedHealthy_modify (by rw [entry_of_not_mem habsent]))
    · refine ih rfl ?_ hpending hid
      rw [Pool.ensure, mem_modify]
      exact not_or.mpr ⟨Ne.symm hk, habsent⟩

theorem recovers_dropping (hupToDate : UpToDate s) (hdrops : s.reload.Drops id)
    (hloaded : id ∈ s.view.ids) : CanRecover cfg id s := by
  cases hreload : s.reload with
  | retaining ids =>
    rw [hreload, Reload.Drops] at hdrops
    have hpending : s.pending = true := by
      by_contra hnone
      have heq := hupToDate ids hreload (Bool.not_eq_true _ ▸ hnone)
      exact hdrops (heq ▸ hloaded)
    refine (Taken.retain ids hreload).recovers rfl (recovers_dropped rfl ?_ hpending hloaded)
    rw [← AList.lookup_eq_none, lookup_retain, if_neg hdrops]
  | _ =>
    rw [hreload] at hdrops
    exact hdrops.elim

theorem recovers_holding (hholds : s.keepalive.Holds id) : CanRecover cfg id s := by
  cases hkeepalive : s.keepalive with
  | pinging conn ids =>
    rw [hkeepalive, Keepalive.Holds] at hholds
    exact hholds ▸ recovers_pinging hkeepalive
  | _ =>
    rw [hkeepalive] at hholds
    exact hholds.elim

/-- What is in reach can be marked healthy. -/
theorem InReach.canRecover (h : InReach s id) (hfiled : Filed s) (hupToDate : UpToDate s)
    (hloaded : id ∈ s.view.ids) : CanRecover cfg id s := by
  cases h with
  | idle hidle => exact recovers_idle hfiled hidle
  | worker w hw hid => exact recovers_worker hfiled hw hid
  | pinging hholds => exact recovers_holding hholds
  | dropping hdrops => exact recovers_dropping hupToDate hdrops hloaded

end towards

/-! ## Frames -/

section frame

variable {cfg : SidecarConfig} {id : String} {s s' : State}

/-- One state's reach is another's, part by part. -/
theorem InReach.frame (h : InReach s id)
    (hidle : (entry id s.slots).idle ≠ [] → (entry id s'.slots).idle ≠ [])
    (hworkers : ∀ w ∈ s.workers, id ∈ w.ids → ∃ v ∈ s'.workers, id ∈ v.ids)
    (hkeepalive : s.keepalive.Holds id → s'.keepalive.Holds id)
    (hreload : s.reload.Drops id → s'.reload.Drops id) : InReach s' id := by
  cases h with
  | idle h => exact .idle (hidle h)
  | worker w hw hid =>
    obtain ⟨v, hv, hid⟩ := hworkers w hw hid
    exact .worker v hv hid
  | pinging hholds => exact .pinging (hkeepalive hholds)
  | dropping hdrops => exact .dropping (hreload hdrops)

theorem ids_same (id : String) (workers : List Worker) :
    ∀ w ∈ workers, id ∈ w.ids → ∃ v ∈ workers, id ∈ v.ids := fun w hw hid => ⟨w, hw, hid⟩

theorem ids_set {i : Nat} {w w' : Worker} (hw : s.workers[i]? = some w)
    (hids : id ∈ w.ids → id ∈ w'.ids) :
    ∀ v ∈ s.workers, id ∈ v.ids → ∃ v' ∈ s.workers.set i w', id ∈ v'.ids := by
  intro v hv hid
  obtain ⟨j, hj⟩ := List.mem_iff_getElem?.mp hv
  by_cases hij : i = j
  · subst hij
    obtain rfl : w = v := Option.some.inj (hw.symm.trans hj)
    exact ⟨w', List.mem_of_getElem? (getElem?_setWorker hw w'), hids hid⟩
  · exact ⟨v, List.mem_of_getElem? ((List.getElem?_set_ne hij).trans hj), hid⟩

theorem ids_of_set {i : Nat} {w w' : Worker} (hw : s.workers[i]? = some w)
    (hids : id ∈ w'.ids → id ∈ w.ids) :
    ∀ v ∈ s.workers.set i w', id ∈ v.ids → ∃ v' ∈ s.workers, id ∈ v'.ids := by
  intro v hv hid
  rcases List.mem_or_eq_of_mem_set hv with hold | rfl
  · exact ⟨v, hold, hid⟩
  · exact ⟨w, List.mem_of_getElem? hw, hids hid⟩

theorem idle_modify {k : String} {f : TunnelSlot → TunnelSlot} {slots : Slots}
    (hf : k = id → (f (entry k slots)).idle ≠ [] → (entry k slots).idle ≠ []) :
    (entry id (modify k f slots)).idle ≠ [] → (entry id slots).idle ≠ [] := by
  by_cases hk : k = id
  · subst hk
    rw [entry_modify_self]
    exact hf rfl
  · rw [entry_modify_ne (Ne.symm hk)]
    exact fun h => h

theorem idle_of_modify {k : String} {f : TunnelSlot → TunnelSlot} {slots : Slots}
    (hf : k = id → (entry k slots).idle ≠ [] → (f (entry k slots)).idle ≠ []) :
    (entry id slots).idle ≠ [] → (entry id (modify k f slots)).idle ≠ [] := by
  by_cases hk : k = id
  · subst hk
    rw [entry_modify_self]
    exact hf rfl
  · rw [entry_modify_ne (Ne.symm hk)]
    exact fun h => h

theorem Unhealthy.modify {k : String} {f : TunnelSlot → TunnelSlot} (h : Unhealthy s id)
    (hslots : s'.slots = Pool.modify k f s.slots)
    (hf : k = id → ∀ slot : TunnelSlot, slot.stats.healthy = false → (f slot).stats.healthy = false) :
    Unhealthy s' id := by
  obtain ⟨slot, hslot, hunhealthy⟩ := h
  by_cases hk : k = id
  · subst hk
    refine ⟨f slot, ?_, hf rfl slot hunhealthy⟩
    rw [hslots, lookup_modify_self, entry, hslot, Option.getD_some]
  · refine ⟨slot, ?_, hunhealthy⟩
    rw [hslots, lookup_modify_ne (Ne.symm hk), hslot]

theorem Unhealthy.of_modify {k : String} {f : TunnelSlot → TunnelSlot} (h : Unhealthy s' id)
    (hslots : s'.slots = Pool.modify k f s.slots)
    (hf : k = id → (f (entry k s.slots)).stats.healthy = false →
      (entry k s.slots).stats.healthy = false) : Unhealthy s id := by
  obtain ⟨slot, hslot, hunhealthy⟩ := h
  rw [hslots] at hslot
  by_cases hk : k = id
  · subst hk
    rw [lookup_modify_self] at hslot
    cases hslot
    have hentry := hf rfl hunhealthy
    by_cases hid : k ∈ s.slots
    · exact ⟨_, lookup_of_mem hid, hentry⟩
    · rw [entry_of_not_mem hid] at hentry
      cases hentry
  · rw [lookup_modify_ne (Ne.symm hk)] at hslot
    exact ⟨slot, hslot, hunhealthy⟩

/-- An unhealthy tunnel is no candidate. -/
theorem Unhealthy.not_candidate (h : Unhealthy s id) {view : TunnelsView} {picked : List Tunnel}
    (hpicked : picked.Perm (candidates view s.slots)) : id ∉ picked.map (·.id) := by
  intro hid
  obtain ⟨t, ht, rfl⟩ := List.mem_map.mp hid
  obtain ⟨slot, hslot, hunhealthy⟩ := h
  have hcandidate := (List.mem_filter.mp (hpicked.mem_iff.mp ht)).2
  rw [markedHealthy, hslot, Option.any_some, hunhealthy, Bool.and_false] at hcandidate
  cases hcandidate

end frame

/-! ## Out of reach -/

/-- An unhealthy tunnel that is loaded and out of reach. -/
structure Dead (id : String) (s : State) : Prop where
  filed : Filed s
  loaded : id ∈ s.view.ids
  unhealthy : Unhealthy s id
  out : ¬ InReach s id

section dead

variable {cfg : SidecarConfig} {id : String} {s s' : State}

theorem Dead.ids_out (h : Dead id s) {i : Nat} {w : Worker} (hw : s.workers[i]? = some w) :
    id ∉ w.ids := fun hid => h.out (.worker w (List.mem_of_getElem? hw) hid)

theorem Dead.idle_out (h : Dead id s) : (entry id s.slots).idle = [] := by
  by_contra hidle
  exact h.out (.idle hidle)

theorem Dead.conn_out (h : Dead id s) {i : Nat} {w : Worker} {conn : Conn}
    (hw : s.workers[i]? = some w) (hphase : w.phase = .leased conn) : conn.tunnel_id ≠ id := by
  rintro rfl
  apply h.ids_out hw
  rw [Worker.ids, hphase]
  exact List.mem_cons_self ..

theorem Dead.ping_out (h : Dead id s) {conn : Conn} {ids : List String}
    (hpinging : s.keepalive = .pinging conn ids) : conn.tunnel_id ≠ id := by
  intro hid
  refine h.out (.pinging ?_)
  rw [hpinging]
  exact hid

/-- What is left of the candidates of a relay that ends. -/
theorem mem_rest_of_finish {ended : Bool} {rest : List Tunnel}
    (hid : id ∈ (if ended then [] else rest).map (·.id)) : id ∈ rest.map (·.id) := by
  cases ended with
  | true => cases hid
  | false => exact hid

theorem popped_idle {id k : String} {slots : Slots} :
    (entry id (modify k TunnelSlot.popped slots)).idle ≠ [] → (entry id slots).idle ≠ [] := by
  refine idle_modify fun _ hidle hnil => hidle ?_
  rw [TunnelSlot.popped, hnil, List.drop_nil]

theorem failed_unhealthy {stats : TunnelStats} (h : stats.healthy = false) :
    (stats.failed cfg).healthy = false := by
  rw [TunnelStats.failed, h, Bool.false_and]

theorem Taken.dead {a : Act} (taken : Taken cfg s a s') (hloads : a.loads = false)
    (h : Dead id s) : Dead id s' := by
  have hfiled := taken.filed h.filed
  cases taken with
  | tick =>
    exact ⟨hfiled, h.loaded, h.unhealthy, fun hin =>
      h.out (hin.frame (fun h => h) (ids_same id _) (fun h => h) fun h => h)⟩
  | set => cases hloads
  | wake | ensured =>
    exact ⟨hfiled, h.loaded, h.unhealthy, fun hin =>
      h.out (hin.frame (fun h => h) (ids_same id _) (fun h => h) fun h => h.elim)⟩
  | snapshot hreload =>
    refine ⟨hfiled, h.loaded, h.unhealthy, fun hin =>
      h.out (hin.frame (fun h => h) (ids_same id _) (fun h => h) fun hdrops => ?_)⟩
    exact absurd h.loaded hdrops
  | retain ids hretaining =>
    have hid : id ∈ ids := by
      by_contra hout
      exact h.out (.dropping (by rw [hretaining]; exact hout))
    have hlookup : (Pool.retain ids s.slots).lookup id = s.slots.lookup id := by
      rw [lookup_retain, if_pos hid]
    refine ⟨hfiled, h.loaded, ?_, fun hin =>
      h.out (hin.frame ?_ (ids_same id _) (fun h => h) fun h => h.elim)⟩
    · rw [Unhealthy, hlookup]
      exact h.unhealthy
    · rw [entry, hlookup]
      exact fun h => h
  | ensure k ids hensuring =>
    refine ⟨hfiled, h.loaded, h.unhealthy.modify rfl fun _ _ hslot => hslot, fun hin =>
      h.out (hin.frame ?_ (ids_same id _) (fun h => h) fun h => h.elim)⟩
    exact idle_modify fun _ hidle => hidle
  | request probe =>
    refine ⟨hfiled, h.loaded, h.unhealthy, fun hin =>
      h.out (hin.frame (fun h => h) (fun w hw hid => ?_) (fun h => h) fun h => h)⟩
    rcases List.mem_append.mp hw with hold | hnew
    · exact ⟨w, hold, hid⟩
    · rw [List.mem_singleton.mp hnew] at hid
      cases hid
  | selectRelay i w view picked hw hphase hpicked =>
    refine ⟨hfiled, h.loaded, h.unhealthy, fun hin =>
      h.out (hin.frame (fun h => h) (ids_of_set hw fun hid => ?_) (fun h => h) fun h => h)⟩
    exact absurd hid (h.unhealthy.not_candidate hpicked)
  | selectProbe i w view picked hw hphase hpicked =>
    refine ⟨hfiled, h.loaded, h.unhealthy, fun hin =>
      h.out (hin.frame (fun h => h) (fun v hv hid => ?_) (fun h => h) fun h => h)⟩
    rcases List.mem_append.mp hv with hold | hnew
    · refine ids_of_set hw (fun hid => ?_) v hold hid
      cases hid
    · obtain ⟨t, ht, rfl⟩ := List.mem_map.mp hnew
      rw [List.mem_singleton.mp hid] at h
      exact absurd (List.mem_map_of_mem ht) (h.unhealthy.not_candidate hpicked)
  | advance i w t rest hw hphase hrest =>
    refine ⟨hfiled, h.loaded, h.unhealthy, fun hin =>
      h.out (hin.frame (fun h => h) (ids_of_set hw fun hid => ?_) (fun h => h) fun h => h)⟩
    rw [Worker.ids, hphase, hrest]
    exact hid
  | popNone i w t hw hphase hpop =>
    refine ⟨hfiled, h.loaded, h.unhealthy.modify rfl fun _ _ hslot => hslot, fun hin =>
      h.out (hin.frame popped_idle (ids_of_set hw fun hid => ?_) (fun h => h) fun h => h)⟩
    rw [Worker.ids, hphase]
    exact hid
  | popExpired i w t conn idle hw hphase =>
    exact ⟨hfiled, h.loaded, h.unhealthy.modify rfl fun _ _ hslot => hslot, fun hin =>
      h.out (hin.frame popped_idle (ids_same id _) (fun h => h) fun h => h)⟩
  | popFresh i w t conn idle hw hphase hpop =>
    refine ⟨hfiled, h.loaded, h.unhealthy.modify rfl fun _ _ hslot => hslot, fun hin =>
      h.out (hin.frame popped_idle (ids_of_set hw fun hid => ?_) (fun h => h) fun h => h)⟩
    rw [Worker.ids, hphase]
    exact hid
  | opened i w t hw hphase =>
    have ht : t.id ≠ id := by
      rintro rfl
      apply h.ids_out hw
      rw [Worker.ids, hphase]
      exact List.mem_cons_self ..
    refine ⟨hfiled, h.loaded, h.unhealthy.modify rfl fun hk => absurd hk ht, fun hin =>
      h.out (hin.frame (idle_modify fun hk => absurd hk ht) (ids_of_set hw fun hid => ?_)
        (fun h => h) fun h => h)⟩
    rw [Worker.ids, hphase]
    exact hid
  | openFailed i w t hw hphase =>
    refine ⟨hfiled, h.loaded, h.unhealthy.modify rfl fun _ _ hslot => failed_unhealthy hslot,
      fun hin => h.out (hin.frame (idle_modify fun _ hidle => hidle)
        (ids_of_set hw fun hid => ?_) (fun h => h) fun h => h)⟩
    rw [Worker.ids, hphase]
    exact List.mem_cons_of_mem _ hid
  | openGivenUp i w t hw hphase =>
    refine ⟨hfiled, h.loaded, h.unhealthy, fun hin =>
      h.out (hin.frame (fun h => h) (ids_of_set hw fun hid => ?_) (fun h => h) fun h => h)⟩
    rw [Worker.ids, hphase]
    exact List.mem_cons_of_mem _ hid
  | mark i w t conn hw hphase =>
    refine ⟨hfiled, h.loaded, h.unhealthy.modify rfl fun _ _ hslot => hslot, fun hin =>
      h.out (hin.frame (idle_modify fun _ hidle => hidle) (ids_of_set hw fun hid => ?_)
        (fun h => h) fun h => h)⟩
    rw [Worker.ids, hphase]
    dsimp only
    rw [← h.filed.workers w (List.mem_of_getElem? hw) t conn hphase]
    exact hid
  | finish i w conn undelivered hw hphase =>
    have hconn := h.conn_out hw hphase
    refine ⟨hfiled, h.loaded, h.unhealthy.modify rfl fun hk => absurd hk hconn, fun hin =>
      h.out (hin.frame (idle_modify fun hk => absurd hk hconn) (ids_of_set hw fun hid => ?_)
        (fun h => h) fun h => h)⟩
    rw [Worker.ids, hphase]
    exact List.mem_cons_of_mem _ (mem_rest_of_finish hid)
  | fail i w conn hw hphase =>
    refine ⟨hfiled, h.loaded, h.unhealthy.modify rfl fun _ _ hslot => failed_unhealthy hslot,
      fun hin => h.out (hin.frame (idle_modify fun _ hidle => hidle)
        (ids_of_set hw fun hid => ?_) (fun h => h) fun h => h)⟩
    rw [Worker.ids, hphase]
    exact List.mem_cons_of_mem _ hid
  | collect | rested =>
    exact ⟨hfiled, h.loaded, h.unhealthy, fun hin =>
      h.out (hin.frame (fun h => h) (ids_same id _) (fun h => h.elim) fun h => h)⟩
  | pingNone k ids hround hpop =>
    exact ⟨hfiled, h.loaded, h.unhealthy.modify rfl fun _ _ hslot => hslot, fun hin =>
      h.out (hin.frame popped_idle (ids_same id _) (fun h => h.elim) fun h => h)⟩
  | pingSome k ids conn idle hround hpop =>
    refine ⟨hfiled, h.loaded, h.unhealthy.modify rfl fun _ _ hslot => hslot, fun hin =>
      h.out (hin.frame popped_idle (ids_same id _) (fun hholds => ?_) fun h => h)⟩
    obtain rfl : k = id := (h.filed.idle_cons hpop).symm.trans hholds
    rw [h.idle_out] at hpop
    cases hpop
  | pong conn ids hpinging =>
    have hconn : conn.tunnel_id ≠ id := h.ping_out hpinging
    exact ⟨hfiled, h.loaded, h.unhealthy.modify rfl fun hk => absurd hk hconn, fun hin =>
      h.out (hin.frame (idle_modify fun hk => absurd hk hconn) (ids_same id _) (fun h => h.elim)
        fun h => h)⟩
  | pingFailed conn ids hpinging =>
    exact ⟨hfiled, h.loaded, h.unhealthy.modify rfl fun _ _ hslot => failed_unhealthy hslot,
      fun hin => h.out (hin.frame (idle_modify fun _ hidle => hidle) (ids_same id _)
        (fun h => h.elim) fun h => h)⟩

theorem Dead.not_recovers (h : Dead id s) : ¬ CanRecover cfg id s := by
  refine not_canReach_of_preserved h (fun s a hloads h => ?_) fun s h hhealthy => ?_
  · exact step_of_taken h fun s' taken => taken.dead hloads h
  · obtain ⟨slot, hslot, hunhealthy⟩ := h.unhealthy
    rw [markedHealthy, hslot, Option.any_some, hunhealthy] at hhealthy
    cases hhealthy

/-- An unhealthy tunnel can be marked healthy exactly when it is in reach. -/
theorem canRecover_iff (hfiled : Filed s) (hupToDate : UpToDate s) (hloaded : id ∈ s.view.ids)
    (hunhealthy : Unhealthy s id) : CanRecover cfg id s ↔ InReach s id := by
  constructor
  · intro h
    by_contra hout
    exact Dead.not_recovers ⟨hfiled, hloaded, hunhealthy, hout⟩ h
  · exact fun h => h.canRecover hfiled hupToDate hloaded

end dead

/-! ## What a step may give up -/

/-- The tunnel is unhealthy, or one more failure makes it so. -/
def OneFailureLeft (cfg : SidecarConfig) (s : State) (id : String) : Prop :=
  (entry id s.slots).stats.healthy = false ∨
    cfg.unhealthy_after_consecutive_failures ≤
      saturatingInc 32 (entry id s.slots).stats.consecutive_failures

/-- A step that leaves an enabled tunnel unhealthy, and one that leaves a candidate
of a relay aside, leaves it in reach by something else than what the step gives up;
and a configuration enables no tunnel that is unhealthy and out of reach. -/
def Spares (cfg : SidecarConfig) (s : State) : Act → Prop
  | .set view => ∀ id, view.Enables id → Unhealthy s id → InReach s id
  | .openFailed i counted => ∀ w t, s.workers[i]? = some w → w.phase = .opening t →
      s.view.Enables t.id → (if counted then OneFailureLeft cfg s t.id else Unhealthy s t.id) →
      InReach (s.setWorker i { w with phase := .between }) t.id
  | .finish i undelivered => ∀ w conn, s.workers[i]? = some w → w.phase = .leased conn →
      (w.ordered || !undelivered) = true → ∀ t ∈ w.rest, t.id ≠ conn.tunnel_id →
      s.view.Enables t.id → Unhealthy s t.id →
      InReach (s.setWorker i { w with phase := .between, rest := [] }) t.id
  | .fail i => ∀ w conn, s.workers[i]? = some w → w.phase = .leased conn →
      s.view.Enables conn.tunnel_id → OneFailureLeft cfg s conn.tunnel_id →
      InReach (s.setWorker i { w with phase := .between }) conn.tunnel_id
  | .pingFailed => ∀ conn ids, s.keepalive = .pinging conn ids →
      s.view.Enables conn.tunnel_id → OneFailureLeft cfg s conn.tunnel_id →
      InReach { s with keepalive := .round ids } conn.tunnel_id
  | _ => True

/-- Every enabled tunnel that is unhealthy is in reach. -/
def Spared (s : State) : Prop := ∀ id, s.view.Enables id → Unhealthy s id → InReach s id

section spared

variable {cfg : SidecarConfig} {s s' : State}

theorem TunnelsView.Enables.mem {view : TunnelsView} {id : String} (h : view.Enables id) :
    id ∈ view.ids := by
  obtain ⟨t, ht, rfl, -⟩ := h
  exact List.mem_map_of_mem ht

theorem healthCanRecover_iff (hfiled : Filed s) (hupToDate : UpToDate s) :
    HealthCanRecover cfg s ↔ Spared s :=
  forall_congr' fun _ => forall_congr' fun henables => forall_congr' fun hunhealthy =>
    canRecover_iff hfiled hupToDate henables.mem hunhealthy

theorem oneFailureLeft_iff (id : String) :
    ((entry id s.slots).stats.failed cfg).healthy = false ↔ OneFailureLeft cfg s id := by
  rw [TunnelStats.failed, OneFailureLeft, Bool.and_eq_false_iff, decide_eq_false_iff_not, not_lt]

theorem Unhealthy.healthy_modify {k : String} {f : TunnelSlot → TunnelSlot}
    (h : Unhealthy s' k) (hslots : s'.slots = Pool.modify k f s.slots) :
    (f (entry k s.slots)).stats.healthy = false := by
  obtain ⟨slot, hslot, hunhealthy⟩ := h
  rw [hslots, lookup_modify_self] at hslot
  cases hslot
  exact hunhealthy

theorem Unhealthy.ne_of_modify {id k : String} {f : TunnelSlot → TunnelSlot}
    (h : Unhealthy s' id) (hslots : s'.slots = Pool.modify k f s.slots)
    (hf : (f (entry k s.slots)).stats.healthy = true) : k ≠ id := by
  rintro rfl
  have hunhealthy := h.healthy_modify hslots
  rw [hf] at hunhealthy
  cases hunhealthy

theorem Reload.drops_elim {id : String} {r r' : Reload} (heq : r = r') (h : r.Drops id)
    (hnot : ¬ r'.Drops id) {p : Prop} : p := (hnot (heq ▸ h)).elim

theorem Keepalive.holds_elim {id : String} {k k' : Keepalive} (heq : k = k') (h : k.Holds id)
    (hnot : ¬ k'.Holds id) {p : Prop} : p := (hnot (heq ▸ h)).elim

/-- The worker that a step leaves with a tunnel. -/
theorem InReach.of_set {id : String} {i : Nat} {w w' : Worker} (hw : s.workers[i]? = some w)
    (hworkers : s'.workers = s.workers.set i w') (hid : id ∈ w'.ids) : InReach s' id :=
  .worker w' (hworkers ▸ List.mem_of_getElem? (getElem?_setWorker hw w')) hid

theorem Taken.spared {a : Act} (taken : Taken cfg s a s') (hfiled : Filed s) (h : Spared s)
    (hspares : Spares cfg s a) : Spared s' := by
  intro id henables hunhealthy
  cases taken with
  | tick =>
    exact (h id henables hunhealthy).frame (fun h => h) (ids_same id _) (fun h => h) fun h => h
  | set view =>
    exact (hspares id henables hunhealthy).frame (fun h => h) (ids_same id _) (fun h => h)
      fun h => h
  | wake hpending hreload =>
    exact (h id henables hunhealthy).frame (fun h => h) (ids_same id _) (fun h => h)
      fun hdrops => Reload.drops_elim hreload hdrops fun h => h
  | snapshot hreload =>
    exact (h id henables hunhealthy).frame (fun h => h) (ids_same id _) (fun h => h)
      fun hdrops => Reload.drops_elim hreload hdrops fun h => h
  | retain ids hretaining =>
    have hid : id ∈ ids := by
      obtain ⟨slot, hslot, -⟩ := hunhealthy
      by_contra hout
      rw [lookup_retain, if_neg hout] at hslot
      cases hslot
    have hlookup : (Pool.retain ids s.slots).lookup id = s.slots.lookup id := by
      rw [lookup_retain, if_pos hid]
    rw [Unhealthy, hlookup] at hunhealthy
    refine (h id henables hunhealthy).frame ?_ (ids_same id _) (fun h => h)
      fun hdrops => Reload.drops_elim hretaining hdrops fun h => h hid
    rw [entry, entry, hlookup]
    exact fun h => h
  | ensure k ids hensuring =>
    have hslots : Pool.ensure k s.slots = modify k (fun slot => slot) s.slots := rfl
    exact (h id henables (hunhealthy.of_modify hslots fun _ h => h)).frame
      (idle_of_modify fun _ h => h) (ids_same id _) (fun h => h)
      fun hdrops => Reload.drops_elim hensuring hdrops fun h => h
  | ensured hreload =>
    exact (h id henables hunhealthy).frame (fun h => h) (ids_same id _) (fun h => h)
      fun hdrops => Reload.drops_elim hreload hdrops fun h => h
  | request probe =>
    exact (h id henables hunhealthy).frame (fun h => h)
      (fun w hw hid => ⟨w, List.mem_append_left _ hw, hid⟩) (fun h => h) fun h => h
  | selectRelay i w view picked hw hphase hpicked =>
    refine (h id henables hunhealthy).frame (fun h => h) (ids_set hw fun hid => ?_) (fun h => h)
      fun h => h
    rw [Worker.ids, hphase] at hid
    cases hid
  | selectProbe i w view picked hw hphase hpicked =>
    refine (h id henables hunhealthy).frame (fun h => h) (fun v hv hid => ?_) (fun h => h)
      fun h => h
    obtain ⟨v', hv', hid'⟩ := ids_set hw (fun hid => by
      rw [Worker.ids, hphase] at hid
      cases hid) v hv hid
    exact ⟨v', List.mem_append_left _ hv', hid'⟩
  | advance i w t rest hw hphase hrest =>
    refine (h id henables hunhealthy).frame (fun h => h) (ids_set hw fun hid => ?_) (fun h => h)
      fun h => h
    rw [Worker.ids, hphase, hrest] at hid
    exact hid
  | popNone i w t hw hphase hpop =>
    refine (h id henables (hunhealthy.of_modify rfl fun _ h => h)).frame
      (idle_of_modify fun _ hidle => absurd hpop hidle) (ids_set hw fun hid => ?_) (fun h => h)
      fun h => h
    rw [Worker.ids, hphase] at hid
    exact hid
  | popExpired i w t conn idle hw hphase =>
    by_cases ht : t.id = id
    · subst ht
      refine .worker w (List.mem_of_getElem? hw) ?_
      rw [Worker.ids, hphase]
      exact List.mem_cons_self ..
    · exact (h id henables (hunhealthy.of_modify rfl fun _ h => h)).frame
        (idle_of_modify fun hk => absurd hk ht) (ids_same id _) (fun h => h) fun h => h
  | popFresh i w t conn idle hw hphase hpop =>
    by_cases ht : t.id = id
    · exact .of_set hw rfl (ht ▸ List.mem_cons_self ..)
    · refine (h id henables (hunhealthy.of_modify rfl fun _ h => h)).frame
        (idle_of_modify fun hk => absurd hk ht) (ids_set hw fun hid => ?_) (fun h => h) fun h => h
      rw [Worker.ids, hphase] at hid
      exact hid
  | opened i w t hw hphase =>
    have ht : t.id ≠ id := hunhealthy.ne_of_modify rfl rfl
    refine (h id henables (hunhealthy.of_modify rfl fun hk => absurd hk ht)).frame
      (idle_of_modify fun hk => absurd hk ht) (ids_set hw fun hid => ?_) (fun h => h) fun h => h
    rw [Worker.ids, hphase] at hid
    exact hid
  | openFailed i w t hw hphase =>
    by_cases ht : t.id = id
    · subst ht
      have hleft : OneFailureLeft cfg s t.id :=
        (oneFailureLeft_iff t.id).mp (hunhealthy.healthy_modify rfl)
      exact (hspares w t hw hphase henables hleft).frame (idle_of_modify fun _ h => h)
        (ids_same _ _) (fun h => h) fun h => h
    · refine (h id henables (hunhealthy.of_modify rfl fun hk => absurd hk ht)).frame
        (idle_of_modify fun hk => absurd hk ht) (ids_set hw fun hid => ?_) (fun h => h) fun h => h
      rw [Worker.ids, hphase] at hid
      exact (List.mem_cons.mp hid).resolve_left (Ne.symm ht)
  | openGivenUp i w t hw hphase =>
    by_cases ht : t.id = id
    · subst ht
      exact hspares w t hw hphase henables hunhealthy
    · refine (h id henables hunhealthy).frame (fun h => h) (ids_set hw fun hid => ?_) (fun h => h)
        fun h => h
      rw [Worker.ids, hphase] at hid
      exact (List.mem_cons.mp hid).resolve_left (Ne.symm ht)
  | mark i w t conn hw hphase =>
    refine (h id henables (hunhealthy.of_modify rfl fun _ h => h)).frame
      (idle_of_modify fun _ h => h) (ids_set hw fun hid => ?_) (fun h => h) fun h => h
    rw [Worker.ids, hphase] at hid
    rw [Worker.ids]
    dsimp only
    rw [hfiled.workers w (List.mem_of_getElem? hw) t conn hphase]
    exact hid
  | finish i w conn undelivered hw hphase =>
    have hconn : conn.tunnel_id ≠ id := hunhealthy.ne_of_modify rfl rfl
    have hbefore : Unhealthy s id := hunhealthy.of_modify rfl fun hk => absurd hk hconn
    by_cases hended : (w.ordered || !undelivered) = true ∧ id ∈ w.rest.map (·.id)
    · obtain ⟨hended, hid⟩ := hended
      obtain ⟨t, ht, rfl⟩ := List.mem_map.mp hid
      rw [if_pos hended] at *
      exact (hspares w conn hw hphase hended t ht (Ne.symm hconn) henables hbefore).frame
        (idle_of_modify fun hk => absurd hk hconn) (ids_same _ _) (fun h => h) fun h => h
    · refine (h id henables hbefore).frame (idle_of_modify fun hk => absurd hk hconn)
        (ids_set hw fun hid => ?_) (fun h => h) fun h => h
      rw [Worker.ids, hphase] at hid
      have hrest := (List.mem_cons.mp hid).resolve_left (Ne.symm hconn)
      rw [Worker.ids]
      dsimp only
      rw [if_neg fun hend => hended ⟨hend, hrest⟩]
      exact hrest
  | fail i w conn hw hphase =>
    by_cases hconn : conn.tunnel_id = id
    · subst hconn
      have hleft : OneFailureLeft cfg s conn.tunnel_id :=
        (oneFailureLeft_iff conn.tunnel_id).mp (hunhealthy.healthy_modify rfl)
      exact (hspares w conn hw hphase henables hleft).frame (idle_of_modify fun _ h => h)
        (ids_same _ _) (fun h => h) fun h => h
    · refine (h id henables (hunhealthy.of_modify rfl fun hk => absurd hk hconn)).frame
        (idle_of_modify fun hk => absurd hk hconn) (ids_set hw fun hid => ?_) (fun h => h)
        fun h => h
      rw [Worker.ids, hphase] at hid
      exact (List.mem_cons.mp hid).resolve_left (Ne.symm hconn)
  | collect ids hsleeping hids =>
    exact (h id henables hunhealthy).frame (fun h => h) (ids_same id _)
      (fun hholds => Keepalive.holds_elim hsleeping hholds fun h => h) fun h => h
  | pingNone k ids hround hpop =>
    exact (h id henables (hunhealthy.of_modify rfl fun _ h => h)).frame
      (idle_of_modify fun _ hidle => absurd hpop hidle) (ids_same id _)
      (fun hholds => Keepalive.holds_elim hround hholds fun h => h) fun h => h
  | pingSome k ids conn idle hround hpop =>
    by_cases hk : k = id
    · exact .pinging ((hfiled.idle_cons hpop).trans hk)
    · exact (h id henables (hunhealthy.of_modify rfl fun _ h => h)).frame
        (idle_of_modify fun heq => absurd heq hk) (ids_same id _)
        (fun hholds => Keepalive.holds_elim hround hholds fun h => h) fun h => h
  | rested hround =>
    exact (h id henables hunhealthy).frame (fun h => h) (ids_same id _)
      (fun hholds => Keepalive.holds_elim hround hholds fun h => h) fun h => h
  | pong conn ids hpinging =>
    have hconn : conn.tunnel_id ≠ id := hunhealthy.ne_of_modify rfl rfl
    exact (h id henables (hunhealthy.of_modify rfl fun hk => absurd hk hconn)).frame
      (idle_of_modify fun hk => absurd hk hconn) (ids_same id _)
      (fun hholds => Keepalive.holds_elim hpinging hholds hconn) fun h => h
  | pingFailed conn ids hpinging =>
    by_cases hconn : conn.tunnel_id = id
    · subst hconn
      have hleft : OneFailureLeft cfg s conn.tunnel_id :=
        (oneFailureLeft_iff conn.tunnel_id).mp (hunhealthy.healthy_modify rfl)
      exact (hspares conn ids hpinging henables hleft).frame (idle_of_modify fun _ h => h)
        (ids_same _ _) (fun h => h) fun h => h
    · exact (h id henables (hunhealthy.of_modify rfl fun hk => absurd hk hconn)).frame
        (idle_of_modify fun hk => absurd hk hconn) (ids_same id _)
        (fun hholds => Keepalive.holds_elim hpinging hholds hconn) fun h => h

theorem Unhealthy.of_left {k : String} {f : TunnelSlot → TunnelSlot}
    (hslots : s'.slots = Pool.modify k f s.slots)
    (hf : (f (entry k s.slots)).stats.healthy = false) : Unhealthy s' k :=
  ⟨_, by rw [hslots, lookup_modify_self], hf⟩

/-- A step after which every enabled tunnel is spared gave up none of the last. -/
theorem spares_of_spared {a : Act} (h : Spared (step cfg s a)) : Spares cfg s a := by
  cases a with
  | set view =>
    intro id henables hunhealthy
    exact (h id henables hunhealthy).frame (fun h => h) (ids_same id _) (fun h => h) fun h => h
  | openFailed i counted =>
    intro w t hw hphase henables hleft
    cases counted with
    | true =>
      rw [(Taken.openFailed i w t hw hphase).step_eq] at h
      have hunhealthy := (oneFailureLeft_iff t.id).mpr hleft
      exact (h t.id henables (.of_left rfl hunhealthy)).frame (idle_modify fun _ h => h)
        (ids_same _ _) (fun h => h) fun h => h
    | false =>
      rw [(Taken.openGivenUp i w t hw hphase).step_eq] at h
      exact h t.id henables hleft
  | finish i undelivered =>
    intro w conn hw hphase hended t ht hconn henables hunhealthy
    rw [(Taken.finish i w conn undelivered hw hphase).step_eq, if_pos hended] at h
    exact (h t.id henables (hunhealthy.modify rfl fun hk => absurd hk.symm hconn)).frame
      (idle_modify fun hk => absurd hk.symm hconn) (ids_same _ _) (fun h => h) fun h => h
  | fail i =>
    intro w conn hw hphase henables hleft
    rw [(Taken.fail i w conn hw hphase).step_eq] at h
    have hunhealthy := (oneFailureLeft_iff conn.tunnel_id).mpr hleft
    exact (h conn.tunnel_id henables (.of_left rfl hunhealthy)).frame (idle_modify fun _ h => h)
      (ids_same _ _) (fun h => h) fun h => h
  | pingFailed =>
    intro conn ids hpinging henables hleft
    rw [(Taken.pingFailed conn ids hpinging).step_eq] at h
    have hunhealthy := (oneFailureLeft_iff conn.tunnel_id).mpr hleft
    exact (h conn.tunnel_id henables (.of_left rfl hunhealthy)).frame (idle_modify fun _ h => h)
      (ids_same _ _) (fun h => h) fun h => h
  | _ => trivial

end spared

/-! ## Runs -/

theorem upToDate_step (cfg : SidecarConfig) {s : State} (a : Act) (h : Filed s ∧ UpToDate s) :
    Filed (step cfg s a) ∧ UpToDate (step cfg s a) :=
  ⟨step_of_taken h.1 fun _ taken => taken.filed h.1,
    step_of_taken h.2 fun _ taken => taken.upToDate h.2⟩

theorem upToDate_start (view : TunnelsView) : UpToDate (start view) := by
  intro ids hretaining
  cases hretaining

theorem upToDate_run (cfg : SidecarConfig) (view : TunnelsView) (inputs : List Act) :
    (pool cfg view).Always (fun _ s => Filed s ∧ UpToDate s) inputs := by
  refine Machine.always_of_preserved inputs ⟨filed_start view, upToDate_start view⟩
    fun pre a h => ?_
  rw [Machine.run_snoc]
  exact upToDate_step cfg a h

theorem spared_start (view : TunnelsView) : Spared (start view) := by
  rintro id - ⟨slot, hslot, hunhealthy⟩
  have hhealthy : EverySlot (fun _ slot => slot.stats.healthy = true) (start view).slots := by
    refine everySlot_start view.ids (fun _ _ => ?_) ∅ (everySlot_empty _)
    rfl
  rw [hhealthy id slot hslot] at hunhealthy
  cases hunhealthy

/-- In every state of a run every enabled unhealthy tunnel can be marked healthy
again, exactly when no step of it gave up the last that was in reach of one. -/
theorem health_recovers_iff (cfg : SidecarConfig) (view : TunnelsView) (inputs : List Act) :
    (pool cfg view).Always (fun _ s => HealthCanRecover cfg s) inputs ↔
      (pool cfg view).EveryStep (fun _ s a => Spares cfg s a) inputs := by
  refine Machine.always_iff_everyStep (upToDate_run cfg view inputs) ?_
    (fun pre a hinv h hspares => ?_) (fun pre a hinv h => ?_)
  · exact (healthCanRecover_iff (filed_start view) (upToDate_start view)).mpr (spared_start view)
  · rw [Machine.run_snoc]
    have hafter := upToDate_step cfg a hinv
    have hspared := (healthCanRecover_iff hinv.1 hinv.2).mp h
    apply (healthCanRecover_iff hafter.1 hafter.2).mpr
    exact step_of_taken hspared fun s' taken => taken.spared hinv.1 hspared hspares
  · rw [Machine.run_snoc] at h
    have hafter := upToDate_step cfg a hinv
    exact spares_of_spared ((healthCanRecover_iff hafter.1 hafter.2).mp h)

/-- Three relays in a row cannot open a connection to the one tunnel. -/
def threeFailedOpens : List Act :=
  [0, 1, 2].flatMap fun i =>
    [.request false, .select i [edge [1]], .advance i, .pop i, .openFailed i true]

theorem failed_opens_are_final :
    ¬ (pool {} { tunnels := [edge [1]] }).Always (fun _ s => HealthCanRecover {} s)
      threeFailedOpens := by
  intro h
  have hinv := upToDate_run {} { tunnels := [edge [1]] } _ _ (List.prefix_refl threeFailedOpens)
  have hunhealthy : ∃ slot, ((pool {} { tunnels := [edge [1]] }).run threeFailedOpens).slots.lookup
      "edge-1" = some slot ∧ slot.stats.healthy = false :=
    ⟨_, Option.eq_some_of_isSome (by decide +kernel), by decide +kernel⟩
  have hin : InReach ((pool {} { tunnels := [edge [1]] }).run threeFailedOpens) "edge-1" :=
    (healthCanRecover_iff hinv.1 hinv.2).mp (h _ (List.prefix_refl _)) "edge-1"
      ⟨edge [1], by decide +kernel, rfl, rfl⟩ hunhealthy
  cases hin with
  | idle hidle => exact hidle (by decide +kernel)
  | worker w hw hid =>
    have hnone : ∀ w ∈ ((pool {} { tunnels := [edge [1]] }).run threeFailedOpens).workers,
        w.ids = [] := by decide +kernel
    rw [hnone w hw] at hid
    cases hid
  | pinging hholds =>
    have hsleeping : ((pool {} { tunnels := [edge [1]] }).run threeFailedOpens).keepalive =
        .sleeping := by decide +kernel
    exact Keepalive.holds_elim hsleeping hholds fun h => h
  | dropping hdrops =>
    have hwaiting : ((pool {} { tunnels := [edge [1]] }).run threeFailedOpens).reload =
        .waiting := by decide +kernel
    exact Reload.drops_elim hwaiting hdrops fun h => h

end MailCue.Tunnel.Sidecar.Pool
