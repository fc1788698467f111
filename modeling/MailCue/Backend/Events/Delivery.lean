import MailCue.Backend.Events.Bus

/-!
# What a subscriber receives

Every message for its mailboxes from its subscription on, in order and once, up to where it
is removed or its queue is full, and nothing after that.
-/
namespace MailCue.Backend.Events
open MailCue.Lib

variable {lower : Text → Text} {bus : EventBus} {subscriber : Subscriber}

/-- No two subscribers share a queue, and each has one that was made. -/
structure OwnQueues (bus : EventBus) : Prop where
  made : ∀ s ∈ bus.subscribers.rows, s.queue < bus.made
  own : ∀ s ∈ bus.subscribers.rows, ∀ s' ∈ bus.subscribers.rows, s.queue = s'.queue → s = s'

theorem OwnQueues.nodup (h : OwnQueues bus) : (bus.subscribers.rows.map Subscriber.queue).Nodup :=
  List.Nodup.map_on h.own (List.Nodup.of_map _ bus.subscribers.nodup)

/-! ## The loop of a publish -/

section
variable {message : Message} {event_mailbox : Option Text}
  (state : (Nat → Queue) × List String)

theorem offer_other {n : Nat} (h : subscriber.queue ≠ n) :
    (EventBus.offer message event_mailbox state subscriber).1 n = state.1 n := by
  unfold EventBus.offer
  dsimp only
  split
  · rfl
  · split
    · rfl
    · exact Function.update_of_ne h.symm _ _

theorem offer_own :
    (EventBus.offer message event_mailbox state subscriber).1 subscriber.queue =
      if subscriber.allows event_mailbox && !(state.1 subscriber.queue).isFull then
        (state.1 subscriber.queue).put message
      else state.1 subscriber.queue := by
  unfold EventBus.offer
  cases subscriber.allows event_mailbox with
  | false => simp
  | true =>
    cases hfull : (state.1 subscriber.queue).isFull with
    | true => simp [hfull]
    | false => simp [hfull]

theorem mem_offer_stale (client_id : String) :
    client_id ∈ (EventBus.offer message event_mailbox state subscriber).2 ↔
      client_id ∈ state.2 ∨ (subscriber.client_id = client_id ∧
        subscriber.allows event_mailbox = true ∧ (state.1 subscriber.queue).isFull = true) := by
  unfold EventBus.offer
  cases subscriber.allows event_mailbox with
  | false => simp
  | true =>
    cases hfull : (state.1 subscriber.queue).isFull with
    | true => simp [hfull, eq_comm]
    | false => simp [hfull]

/-- A queue that none of the subscribers has is left alone. -/
theorem foldl_offer_other {subscribers : List Subscriber} {n : Nat}
    (h : n ∉ subscribers.map Subscriber.queue) :
    (subscribers.foldl (EventBus.offer message event_mailbox) state).1 n = state.1 n := by
  induction subscribers generalizing state with
  | nil => rfl
  | cons s subscribers ih =>
    rw [List.map_cons, List.mem_cons, not_or] at h
    rw [List.foldl_cons, ih _ h.2, offer_other _ (Ne.symm h.1)]

/-- The queue of a subscriber takes the message where it may. -/
theorem foldl_offer_own {subscribers : List Subscriber}
    (hnodup : (subscribers.map Subscriber.queue).Nodup) (hmem : subscriber ∈ subscribers) :
    (subscribers.foldl (EventBus.offer message event_mailbox) state).1 subscriber.queue =
      if subscriber.allows event_mailbox && !(state.1 subscriber.queue).isFull then
        (state.1 subscriber.queue).put message
      else state.1 subscriber.queue := by
  induction subscribers generalizing state with
  | nil => cases hmem
  | cons s subscribers ih =>
    rw [List.map_cons, List.nodup_cons] at hnodup
    rw [List.foldl_cons]
    rcases List.mem_cons.mp hmem with rfl | hmem
    · rw [foldl_offer_other _ hnodup.1, offer_own]
    · have hother : s.queue ≠ subscriber.queue := fun heq =>
        hnodup.1 (heq ▸ List.mem_map_of_mem hmem)
      rw [ih _ hnodup.2 hmem, offer_other _ hother]

/-- Stale are the subscribers that the message finds with a full queue. -/
theorem mem_foldl_stale {subscribers : List Subscriber}
    (hnodup : (subscribers.map Subscriber.queue).Nodup) (client_id : String) :
    client_id ∈ (subscribers.foldl (EventBus.offer message event_mailbox) state).2 ↔
      client_id ∈ state.2 ∨ ∃ s ∈ subscribers, s.client_id = client_id ∧
        s.allows event_mailbox = true ∧ (state.1 s.queue).isFull = true := by
  induction subscribers generalizing state with
  | nil => simp
  | cons s subscribers ih =>
    rw [List.map_cons, List.nodup_cons] at hnodup
    have hkept : ∀ s' ∈ subscribers,
        (EventBus.offer message event_mailbox state s).1 s'.queue = state.1 s'.queue :=
      fun s' hs' => offer_other state fun heq => hnodup.1 (heq ▸ List.mem_map_of_mem hs')
    rw [List.foldl_cons, ih _ hnodup.2, mem_offer_stale, List.exists_mem_cons_iff, or_assoc]
    refine or_congr_right (or_congr_right (exists_congr fun s' => and_congr_right fun hs' => ?_))
    rw [hkept s' hs']

end

/-! ## One step -/

section
variable {event_type : String} {data : Json.Fields}

theorem publish_queues (bus : EventBus) (event_type : String) (data : Json.Fields) :
    (bus.publish lower event_type data).queues = (bus.subscribers.rows.foldl
      (EventBus.offer ⟨event_type, data⟩ (eventMailbox lower event_type data))
        (bus.queues, [])).1 := rfl

/-- A publish removes the subscribers that it finds with full queues. -/
theorem mem_publish (h : OwnQueues bus) :
    subscriber ∈ (bus.publish lower event_type data).subscribers.rows ↔
      subscriber ∈ bus.subscribers.rows ∧ ¬Removes lower bus subscriber (.publish event_type data) := by
  change subscriber ∈ (List.foldl Table.erase bus.subscribers _).rows ↔ _
  rw [Table.mem_foldl_erase, mem_foldl_stale _ h.nodup]
  refine and_congr_right fun hmem => not_congr ?_
  constructor
  · rintro (hnone | ⟨s, hs, hid, hfull⟩)
    · cases hnone
    · obtain rfl := List.inj_on_of_nodup_map bus.subscribers.nodup hs hmem hid
      exact hfull
  · exact fun hfull => .inr ⟨subscriber, hmem, rfl, hfull⟩

theorem ownQueues_step (h : OwnQueues bus) (op : Op) : OwnQueues (bus.step lower op) := by
  cases op with
  | subscribe client_id allowed_mailboxes =>
    constructor
    · intro s hs
      change s.queue < bus.made + 1
      rcases Table.mem_put.mp hs with rfl | ⟨hs, -⟩
      · exact Nat.lt_succ_self _
      · exact Nat.lt_succ_of_lt (h.made s hs)
    · intro s hs s' hs' hqueue
      rcases Table.mem_put.mp hs with rfl | ⟨hs, -⟩
      · rcases Table.mem_put.mp hs' with rfl | ⟨hs', -⟩
        · rfl
        · exact absurd hqueue (h.made s' hs').ne'
      · rcases Table.mem_put.mp hs' with rfl | ⟨hs', -⟩
        · exact absurd hqueue (h.made s hs).ne
        · exact h.own s hs s' hs' hqueue
  | unsubscribe client_id =>
    have hsubset : ∀ s ∈ (bus.unsubscribe client_id).subscribers.rows, s ∈ bus.subscribers.rows :=
      fun s hs => (Table.mem_erase.mp hs).1
    exact ⟨fun s hs => h.made s (hsubset s hs),
      fun s hs s' hs' => h.own s (hsubset s hs) s' (hsubset s' hs')⟩
  | publish event_type data =>
    have hsubset : ∀ s ∈ (bus.publish lower event_type data).subscribers.rows,
        s ∈ bus.subscribers.rows := fun s hs => ((mem_publish h).mp hs).1
    exact ⟨fun s hs => h.made s (hsubset s hs),
      fun s hs s' hs' => h.own s (hsubset s hs) s' (hsubset s' hs')⟩
  | take n => exact ⟨h.made, h.own⟩

theorem take_received (bus : EventBus) (m n : Nat) :
    ((bus.step lower (.take m)).queues n).received = (bus.queues n).received := by
  simp only [EventBus.step, Function.update_apply]
  split
  · rename_i heq
    rw [heq, Queue.received_take]
  · rfl

/-- A subscriber that is not removed stays, and its queue receives what is for it. -/
theorem step_stays (h : OwnQueues bus) (hmem : subscriber ∈ bus.subscribers.rows) {op : Op}
    (hop : ¬Removes lower bus subscriber op) {allowed_mailboxes : List Text}
    (hallowed : subscriber.allowed_mailboxes = allowed_mailboxes.map lower) :
    subscriber ∈ (bus.step lower op).subscribers.rows ∧
      ((bus.step lower op).queues subscriber.queue).received =
        (bus.queues subscriber.queue).received ++ (delivery lower allowed_mailboxes op).toList := by
  cases op with
  | subscribe client_id others =>
    refine ⟨Table.mem_put.mpr (.inr ⟨hmem, Ne.symm hop⟩), ?_⟩
    have hold : subscriber.queue ≠ bus.made := (h.made _ hmem).ne
    simp [EventBus.step, EventBus.subscribe, delivery, Function.update_of_ne hold]
  | unsubscribe client_id =>
    exact ⟨Table.mem_erase.mpr ⟨hmem, Ne.symm hop⟩, by simp [EventBus.step, EventBus.unsubscribe,
      delivery]⟩
  | take n => exact ⟨hmem, by rw [take_received]; simp [delivery]⟩
  | publish event_type data =>
    refine ⟨(mem_publish h).mpr ⟨hmem, hop⟩, ?_⟩
    change ((bus.publish lower event_type data).queues _).received = _
    rw [publish_queues, foldl_offer_own _ h.nodup hmem]
    have hsame : subscriber.allows (eventMailbox lower event_type data) =
        (eventMailbox lower event_type data).any (· ∈ allowed_mailboxes.map lower) := by
      rw [Subscriber.allows, hallowed]
    simp only [delivery, ← hsame]
    simp only [Removes, not_and, Bool.not_eq_true] at hop
    cases hallows : subscriber.allows (eventMailbox lower event_type data) with
    | false => simp
    | true => simp [hop hallows]

/-- A subscriber that is removed receives nothing of that step. -/
theorem step_removes (h : OwnQueues bus) (hmem : subscriber ∈ bus.subscribers.rows) {op : Op}
    (hop : Removes lower bus subscriber op) :
    (∀ s ∈ (bus.step lower op).subscribers.rows, s.queue ≠ subscriber.queue) ∧
      ((bus.step lower op).queues subscriber.queue).received =
        (bus.queues subscriber.queue).received := by
  have hself : ∀ s ∈ bus.subscribers.rows, s.queue = subscriber.queue → s = subscriber :=
    fun s hs hqueue => h.own s hs _ hmem hqueue
  have hold : subscriber.queue ≠ bus.made := (h.made _ hmem).ne
  cases op with
  | subscribe client_id others =>
    constructor
    · intro s hs hqueue
      rcases Table.mem_put.mp hs with rfl | ⟨hs, hother⟩
      · exact hold hqueue.symm
      · exact hother (hself s hs hqueue ▸ hop.symm)
    · simp [EventBus.step, EventBus.subscribe, Function.update_of_ne hold]
  | unsubscribe client_id =>
    constructor
    · intro s hs hqueue
      obtain ⟨hs, hother⟩ := Table.mem_erase.mp hs
      exact hother (hself s hs hqueue ▸ hop.symm)
    · rfl
  | publish event_type data =>
    constructor
    · intro s hs hqueue
      obtain ⟨hs, hstays⟩ := (mem_publish h).mp hs
      exact hstays (hself s hs hqueue ▸ hop)
    · change ((bus.publish lower event_type data).queues _).received = _
      rw [publish_queues, foldl_offer_own _ h.nodup hmem, hop.1, hop.2]
      rfl
  | take n => exact hop.elim

/-- A queue without a subscriber receives nothing. -/
theorem step_gone {n : Nat} (h : OwnQueues bus) (hn : n < bus.made)
    (hgone : ∀ s ∈ bus.subscribers.rows, s.queue ≠ n) (op : Op) :
    (∀ s ∈ (bus.step lower op).subscribers.rows, s.queue ≠ n) ∧
      ((bus.step lower op).queues n).received = (bus.queues n).received := by
  cases op with
  | subscribe client_id others =>
    constructor
    · intro s hs
      rcases Table.mem_put.mp hs with rfl | ⟨hs, -⟩
      · exact hn.ne'
      · exact hgone s hs
    · simp [EventBus.step, EventBus.subscribe, Function.update_of_ne hn.ne]
  | unsubscribe client_id => exact ⟨fun s hs => hgone s (Table.mem_erase.mp hs).1, rfl⟩
  | publish event_type data =>
    refine ⟨fun s hs => hgone s ((mem_publish h).mp hs).1, ?_⟩
    have hnone : n ∉ bus.subscribers.rows.map Subscriber.queue := by
      intro hmem
      obtain ⟨s, hs, hqueue⟩ := List.mem_map.mp hmem
      exact hgone s hs hqueue
    change ((bus.publish lower event_type data).queues n).received = _
    rw [publish_queues, foldl_offer_other _ hnone]
  | take m => exact ⟨hgone, take_received bus m n⟩

theorem made_le_step (bus : EventBus) (op : Op) : bus.made ≤ (bus.step lower op).made := by
  cases op with
  | subscribe client_id others => exact Nat.le_succ _
  | unsubscribe client_id => exact le_refl _
  | publish event_type data => exact le_refl _
  | take n => exact le_refl _

end

/-! ## Every run -/

theorem ownQueues_run (lower : Text → Text) (ops : List Op) :
    OwnQueues ((eventBus lower).run ops) := by
  have halways : (eventBus lower).Always (fun _ bus => OwnQueues bus) ops := by
    refine Machine.always_of_preserved ops ⟨by simp [eventBus, EventBus.start, Table.empty],
      by simp [eventBus, EventBus.start, Table.empty]⟩ fun pre op h => ?_
    rw [Machine.run_snoc]
    exact ownQueues_step h op
  exact halways ops (List.prefix_refl ops)

/-- What follows a subscription, up to where the subscriber is removed, and what was received
of it. -/
structure Served (lower : Text → Text) (pre : List Op) (subscriber : Subscriber)
    (allowed_mailboxes : List Text) (kept after : List Op) : Prop where
  stays : ∀ before op, before ++ [op] <+: kept →
    ¬Removes lower ((eventBus lower).run (pre ++ before)) subscriber op
  ends : ∀ op, after.head? = some op →
    Removes lower ((eventBus lower).run (pre ++ kept)) subscriber op
  received : (((eventBus lower).run (pre ++ (kept ++ after))).queues subscriber.queue).received =
    kept.filterMap (delivery lower allowed_mailboxes)
  /-- Whether it is still registered. -/
  registered : if after = [] then
      subscriber ∈ ((eventBus lower).run (pre ++ kept)).subscribers.rows
    else ∀ s ∈ ((eventBus lower).run (pre ++ (kept ++ after))).subscribers.rows,
      s.queue ≠ subscriber.queue

theorem Served.snoc {pre : List Op} {allowed_mailboxes : List Text} {kept after : List Op}
    (hallowed : subscriber.allowed_mailboxes = allowed_mailboxes.map lower)
    (hmade : subscriber.queue < ((eventBus lower).run (pre ++ (kept ++ after))).made)
    (h : Served lower pre subscriber allowed_mailboxes kept after) (op : Op) :
    ∃ kept' after', kept ++ after ++ [op] = kept' ++ after' ∧
      Served lower pre subscriber allowed_mailboxes kept' after' := by
  have hown := ownQueues_run lower (pre ++ (kept ++ after))
  have hreceived := h.received
  have hregistered := h.registered
  have hrun : (eventBus lower).run (pre ++ (kept ++ after ++ [op])) =
      ((eventBus lower).run (pre ++ (kept ++ after))).step lower op := by
    rw [← List.append_assoc, Machine.run_snoc]
    rfl
  by_cases hafter : after = []
  · subst hafter
    simp only [List.append_nil, if_true] at *
    by_cases hop : Removes lower ((eventBus lower).run (pre ++ kept)) subscriber op
    · -- here the subscriber is removed
      obtain ⟨hgone, hsame⟩ := step_removes hown hregistered hop
      refine ⟨kept, [op], rfl, h.stays, ?_, ?_, ?_⟩
      · rintro _ ⟨⟩
        exact hop
      · rw [hrun, hsame, hreceived]
      · rw [if_neg (List.cons_ne_nil _ _), hrun]
        exact hgone
    · obtain ⟨hstays, hmore⟩ := step_stays hown hregistered hop hallowed
      refine ⟨kept ++ [op], [], by simp, ?_, by simp, ?_, ?_⟩
      · intro before op' hprefix
        rcases List.prefix_concat_iff.mp hprefix with heq | hprefix
        · obtain ⟨rfl, hlast⟩ := List.append_inj' heq rfl
          cases hlast
          exact hop
        · exact h.stays before op' hprefix
      · rw [List.append_nil, hrun, hmore, hreceived, List.filterMap_append]
        rfl
      · rw [if_pos rfl, hrun]
        exact hstays
  · rw [if_neg hafter] at hregistered
    obtain ⟨hgone, hsame⟩ := step_gone hown hmade hregistered op
    refine ⟨kept, after ++ [op], by simp, h.stays, ?_, ?_, ?_⟩
    · intro op' hhead
      rw [List.head?_append_of_ne_nil _ hafter] at hhead
      exact h.ends op' hhead
    · rw [← List.append_assoc kept after [op], hrun, hsame, hreceived]
    · rw [if_neg (by simp), ← List.append_assoc kept after [op], hrun]
      exact hgone

theorem served_subscribe (lower : Text → Text) (pre : List Op) (client_id : String)
    (allowed_mailboxes : List Text) :
    Served lower (pre ++ [.subscribe client_id allowed_mailboxes])
      ⟨client_id, ((eventBus lower).run pre).made, allowed_mailboxes.map lower⟩ allowed_mailboxes
      [] [] := by
  have hrun : (eventBus lower).run (pre ++ [.subscribe client_id allowed_mailboxes]) =
      ((eventBus lower).run pre).subscribe lower client_id allowed_mailboxes := by
    rw [Machine.run_snoc]
    rfl
  refine ⟨by simp, by simp, ?_, ?_⟩
  · simp [hrun, EventBus.subscribe, Queue.received, Queue.empty]
  · rw [if_pos rfl, List.append_nil, hrun]
    exact Table.mem_put.mpr (.inl rfl)

theorem exists_served (lower : Text → Text) (pre rest : List Op) (client_id : String)
    (allowed_mailboxes : List Text) :
    ∃ kept after, rest = kept ++ after ∧
      Served lower (pre ++ [.subscribe client_id allowed_mailboxes])
        ⟨client_id, ((eventBus lower).run pre).made, allowed_mailboxes.map lower⟩ allowed_mailboxes
        kept after := by
  have hmade : ∀ ops, ((eventBus lower).run pre).made < ((eventBus lower).run
      (pre ++ [.subscribe client_id allowed_mailboxes] ++ ops)).made := by
    intro ops
    induction ops using List.reverseRecOn with
    | nil =>
      rw [List.append_nil, Machine.run_snoc]
      exact Nat.lt_succ_self _
    | append_singleton ops op ih =>
      rw [← List.append_assoc, Machine.run_snoc]
      exact ih.trans_le (made_le_step _ op)
  induction rest using List.reverseRecOn with
  | nil => exact ⟨[], [], rfl, served_subscribe lower pre client_id allowed_mailboxes⟩
  | append_singleton rest op ih =>
    obtain ⟨kept, after, rfl, hserved⟩ := ih
    exact hserved.snoc rfl (hmade _) op

/-- A message that is sent has a mailbox that is allowed. -/
theorem mailbox_of_delivery {allowed_mailboxes : List Text} {op : Op} {message : Message}
    (h : delivery lower allowed_mailboxes op = some message) :
    ∃ mailbox ∈ allowed_mailboxes.map lower,
      eventMailbox lower message.event message.data = some mailbox := by
  cases op with
  | publish event_type data =>
    simp only [delivery] at h
    split at h
    · rename_i hany
      obtain rfl := Option.some.inj h
      obtain ⟨mailbox, hmailbox, hallowed⟩ := (Option.any_eq_true _ _).mp hany
      exact ⟨mailbox, of_decide_eq_true hallowed, hmailbox⟩
    · cases h
  | subscribe client_id others => cases h
  | unsubscribe client_id => cases h
  | take n => cases h

/-- **Delivery**: whatever the order of the steps, a subscriber's queue receives the messages
for its mailboxes up to the step that removes it. -/
theorem queue_receives (lower : Text → Text) (pre rest : List Op) (client_id : String)
    (allowed_mailboxes : List Text) :
    let queue := ((eventBus lower).run pre).made
    let subscriber : Subscriber := ⟨client_id, queue, allowed_mailboxes.map lower⟩
    let subscribed := pre ++ [.subscribe client_id allowed_mailboxes]
    let received := (((eventBus lower).run (subscribed ++ rest)).queues queue).received
    ∃ kept after, rest = kept ++ after ∧
      (∀ before op, before ++ [op] <+: kept →
        ¬Removes lower ((eventBus lower).run (subscribed ++ before)) subscriber op) ∧
      (∀ op, after.head? = some op →
        Removes lower ((eventBus lower).run (subscribed ++ kept)) subscriber op) ∧
      received = kept.filterMap (delivery lower allowed_mailboxes) ∧
      ∀ message ∈ received, ∃ mailbox ∈ allowed_mailboxes.map lower,
        eventMailbox lower message.event message.data = some mailbox := by
  intro queue subscriber subscribed received
  obtain ⟨kept, after, rfl, hserved⟩ := exists_served lower pre rest client_id allowed_mailboxes
  refine ⟨kept, after, rfl, hserved.stays, hserved.ends, hserved.received, fun message hmessage => ?_⟩
  rw [show received = _ from hserved.received] at hmessage
  obtain ⟨op, -, hop⟩ := List.mem_filterMap.mp hmessage
  exact mailbox_of_delivery hop

/-- Of two subscribers only the one of the mailbox is told of a message. -/
example : let bus := (eventBus id).run [.subscribe "ann" ["ann@x".toList],
      .subscribe "bob" ["bob@x".toList],
      .publish "email.received" [("mailbox", .str "bob@x".toList)]]
    ((bus.queues 0).received.length, (bus.queues 1).received.length) = (0, 1) := by
  decide

end MailCue.Backend.Events
