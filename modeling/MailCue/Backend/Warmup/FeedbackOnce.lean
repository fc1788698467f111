import Mathlib
import MailCue.Backend.Warmup.DeliveryFeedback

/-!
# Each delivery report once

A message leaves the queue of every campaign on its mailbox as soon as one of them
fetches it, whether or not it is a report, is about that campaign or is committed. So a
report comes to its campaigns once, and a letter stays unread, only where each poll
fetches nothing but reports, none about a campaign other than the one that commits them.
-/
namespace MailCue.Backend.Warmup.Feedback
open MailCue.Lib

variable (reader : DsnReader) (campaigns : Campaigns)

/-! ## What is claimed of a state -/

/-- A poll whose messages the server all hands out and whose rows are committed. -/
def Act.Successful : Act → Prop
  | .arrive _ _ => False
  | .poll _ run => run.served = true

def State.eventsOf (s : State) (id : String) : List WarmupEvent :=
  s.events.filter fun event => event.campaign_id == id

/-- What the events of a campaign, one after another, make of its provider rows. -/
def replay (events : List WarmupEvent) : Campaign :=
  events.foldl (fun c event => c.feedback event.account.provider event.created_at event.failure)
    created

/-- What a campaign has been told is what its rows and its count say. -/
def Ledger (s : State) : Prop :=
  ∀ id, s.campaigns id = replay (s.eventsOf id) ∧ s.total_failed id = (s.eventsOf id).length

/-- Letters are unread, and polls can still come to where each campaign has been told
what a message of its mailbox reports to it, row by row and no row twice. -/
structure Kept (s : State) : Prop where
  letters : ∀ address n m, (s.mailboxes address).contentAt n = some m → m.isDsn = false →
    (s.mailboxes address).unreadAt n = true
  ledger : Ledger s
  once : ∀ id c n m, campaigns id = some c →
    (s.mailboxes c.local_address).contentAt n = some m →
    CanReach (step reader campaigns) Act.Successful
      (fun s' => s'.applied id n = reader.reports c m) s

/-- A poll fetches nothing but reports, and none that says something to a campaign it
does not commit it for. -/
def TakesOnlyItsOwn (s : State) : Act → Prop
  | .arrive _ _ => True
  | .poll id run => ∀ c, campaigns id = some c →
    ∀ n ∈ run.fetched (s.mailboxes c.local_address), ∀ m,
      (s.mailboxes c.local_address).contentAt n = some m →
      m.isDsn = true ∧
        ∀ id' c', campaigns id' = some c' → c'.local_address = c.local_address →
          (id' = id → run.failed.isSome = true) → reader.reports c' m = []

/-! ## One poll -/

section Poll

variable {reader} {campaigns} {c : WarmupCampaign} {run : PollRun} {inbox : UnreadQueue Message}
variable {n : Nat} {m : Message}

theorem byEmail_isSome {recipient : Text} (h : recipient ∈ reader.expectedRecipients c) :
    (reader.byEmail c recipient).isSome = true := by
  obtain ⟨account, haccount, rfl⟩ := List.mem_map.mp h
  rw [DsnReader.byEmail, Option.isSome_map, List.find?_isSome]
  exact ⟨account, List.mem_reverse.mpr haccount, by simp⟩

/-- Each row about a recipient is reported. -/
theorem length_reports (m : Message) : (reader.reports c m).length = (reader.parsed c m).length := by
  rw [DsnReader.reports, List.length_filterMap_eq_countP, List.countP_eq_length]
  intro row hrow
  have hmem : decide (row.recipient ∈ reader.expectedRecipients c) = true :=
    (List.mem_filter.mp hrow).2
  rw [Option.isSome_map]
  exact byEmail_isSome (of_decide_eq_true hmem)

theorem fetched_sublist (run : PollRun) (inbox : UnreadQueue Message) :
    (run.fetched inbox).Sublist (inbox.newest pollWindow) := by
  refine List.filter_sublist.trans ?_
  cases run.failed with
  | none => exact List.Sublist.refl _
  | some k => exact List.take_sublist _ _

theorem unreadAt_of_fetched (h : n ∈ run.fetched inbox) : inbox.unreadAt n = true :=
  UnreadQueue.mem_newest ((fetched_sublist run inbox).mem h)

theorem fetched_nodup (run : PollRun) (inbox : UnreadQueue Message) : (run.fetched inbox).Nodup :=
  (inbox.newest_nodup pollWindow).sublist (fetched_sublist run inbox)

theorem fetched_of_served (h : run.served = true) (inbox : UnreadQueue Message) :
    run.fetched inbox = inbox.newest pollWindow := by
  simp only [PollRun.served, Bool.and_eq_true, Option.isNone_iff_eq_none, List.isEmpty_iff] at h
  simp [PollRun.fetched, h.1, h.2]

/-- The STORE adds nothing to what the FETCH has marked. -/
theorem fetchLocalDsns_inbox (c : WarmupCampaign) (inbox : UnreadQueue Message) (run : PollRun) :
    (fetchLocalDsns reader c inbox run).1 = inbox.markSeen (run.fetched inbox) := by
  refine UnreadQueue.markSeen_markSeen _ fun n hn => ?_
  obtain ⟨⟨uid, row⟩, hrow, rfl⟩ := List.mem_map.mp hn
  obtain ⟨uid', huid, hpair⟩ := List.mem_flatMap.mp hrow
  obtain ⟨row', -, hsame⟩ := List.mem_map.mp hpair
  cases hsame
  exact huid

/-- The reports a poll brings, with the messages they come from. -/
def reported (reader : DsnReader) (c : WarmupCampaign) (inbox : UnreadQueue Message)
    (run : PollRun) : List (Nat × WarmupAccount × DeliveryFailure) :=
  (run.fetched inbox).flatMap fun uid =>
    ((inbox.contentAt uid).elim [] (reader.reports c)).map fun report => (uid, report)

theorem reported_eq (c : WarmupCampaign) (inbox : UnreadQueue Message) (run : PollRun) :
    ((fetchLocalDsns reader c inbox run).2.filterMap fun (uid, row) =>
      (reader.byEmail c row.recipient).map fun account => (uid, account, row.failure)) =
      reported reader c inbox run := by
  unfold fetchLocalDsns reported
  rw [List.filterMap_flatMap]
  refine congrArg (List.flatMap · (run.fetched inbox)) (funext fun uid => ?_)
  cases inbox.contentAt uid with
  | none => rfl
  | some m =>
    simp only [Option.elim_some, DsnReader.reports, List.filterMap_map, List.map_filterMap,
      Option.map_map]
    rfl

theorem length_reported (c : WarmupCampaign) (inbox : UnreadQueue Message) (run : PollRun) :
    (fetchLocalDsns reader c inbox run).2.length = (reported reader c inbox run).length := by
  unfold fetchLocalDsns reported
  simp only [List.length_flatMap, List.length_map]
  refine congrArg (fun f => ((run.fetched inbox).map f).sum) (funext fun uid => ?_)
  cases inbox.contentAt uid with
  | none => rfl
  | some m => exact (length_reports m).symm

/-- The reports a poll commits. -/
def news (reader : DsnReader) (c : WarmupCampaign) (inbox : UnreadQueue Message)
    (run : PollRun) : List (Nat × WarmupAccount × DeliveryFailure) :=
  if run.failed.isSome then [] else reported reader c inbox run

/-- A poll marks what it fetched as read and tells the campaign what it commits. -/
theorem ingest_eq (s : State) (id : String) (c : WarmupCampaign) (run : PollRun) :
    s.ingest reader id c run =
      let inbox := s.mailboxes c.local_address
      let news := news reader c inbox run
      { mailboxes := Function.update s.mailboxes c.local_address
          (inbox.markSeen (run.fetched inbox))
        campaigns := Function.update s.campaigns id
          (ingestDeliveryFeedback (s.campaigns id) run.now (news.map (·.2)))
        total_failed := Function.update s.total_failed id (s.total_failed id + news.length)
        events := s.events ++ news.map fun (uid, report) => deliveryEvent id run.now uid report } := by
  by_cases hfailed : run.failed.isSome = true
  · simp [State.ingest, fetchLocalDsns_inbox, news, hfailed, ingestDeliveryFeedback]
  · simp only [State.ingest, fetchLocalDsns_inbox, news, hfailed, reported_eq, length_reported]
    rfl

theorem eventsOf_ingest (s : State) (id : String) (c : WarmupCampaign) (run : PollRun)
    (id' : String) :
    (s.ingest reader id c run).eventsOf id' =
      s.eventsOf id' ++
        if id' = id then
          (news reader c (s.mailboxes c.local_address) run).map fun (uid, report) =>
            deliveryEvent id run.now uid report
        else [] := by
  rw [ingest_eq]
  simp only [State.eventsOf, List.filter_append]
  congr 1
  by_cases hid : id' = id
  · subst hid
    rw [if_pos rfl, List.filter_eq_self]
    intro event hevent
    obtain ⟨⟨uid, report⟩, -, rfl⟩ := List.mem_map.mp hevent
    simp [deliveryEvent]
  · rw [if_neg hid, List.filter_eq_nil_iff]
    intro event hevent
    obtain ⟨⟨uid, report⟩, -, rfl⟩ := List.mem_map.mp hevent
    simpa [deliveryEvent] using Ne.symm hid

theorem applied_eq (s : State) (id : String) (n : Nat) :
    s.applied id n = ((s.eventsOf id).filter fun event => event.uid == n).map (·.report) := by
  rw [State.applied, State.eventsOf, List.filter_filter]
  simp only [Bool.and_comm]

/-- Of lists under different names, those under one name. -/
theorem flatMap_of_nodup {β : Type} {uids : List Nat} (h : uids.Nodup) (n : Nat)
    (f : Nat → List β) :
    (uids.flatMap fun uid => if uid = n then f uid else []) = if n ∈ uids then f n else [] := by
  induction uids with
  | nil => rfl
  | cons uid uids ih =>
    obtain ⟨hfresh, hrest⟩ := List.nodup_cons.mp h
    rw [List.flatMap_cons, ih hrest]
    by_cases huid : uid = n
    · subst huid
      simp [hfresh]
    · simp [huid, Ne.symm huid]

/-- Of the events of one message, what they tell from another one. -/
theorem told_deliveryEvents (reports : List (WarmupAccount × DeliveryFailure)) (id : String)
    (now : Int) (uid n : Nat) :
    ((reports.map (deliveryEvent id now uid)).filter fun event => event.uid == n).map (·.report) =
      if uid = n then reports else [] := by
  induction reports with
  | nil => simp
  | cons report reports ih =>
    have hsame : (deliveryEvent id now uid report).report = report := rfl
    rw [List.map_cons, List.filter_cons]
    by_cases h : uid = n
    · rw [if_pos h] at ih ⊢
      rw [if_pos (by simp [deliveryEvent, h]), List.map_cons, ih, hsame]
    · rw [if_neg h] at ih ⊢
      rw [if_neg (by simpa [deliveryEvent] using h), ih]

/-- A poll tells its campaign what the messages it fetched report, unless it fails. -/
theorem applied_ingest (s : State) (id : String)
    (hm : (s.mailboxes c.local_address).contentAt n = some m) :
    (s.ingest reader id c run).applied id n =
      s.applied id n ++
        if run.failed = none ∧ n ∈ run.fetched (s.mailboxes c.local_address) then
          reader.reports c m
        else [] := by
  rw [applied_eq, applied_eq, eventsOf_ingest, if_pos rfl, List.filter_append, List.map_append, news]
  congr 1
  cases hfailed : run.failed with
  | some k => simp
  | none =>
    simp only [Option.isSome_none, Bool.false_eq_true, if_false, reported, List.map_flatMap,
      List.map_map, Function.comp_def, List.filter_flatMap, told_deliveryEvents, true_and]
    rw [flatMap_of_nodup (fetched_nodup run _) n fun uid =>
      ((s.mailboxes c.local_address).contentAt uid).elim [] (reader.reports c), hm]
    rfl

theorem applied_ingest_of_ne {id id' : String} (h : id' ≠ id) (s : State) (c : WarmupCampaign)
    (run : PollRun) (n : Nat) : (s.ingest reader id c run).applied id' n = s.applied id' n := by
  rw [applied_eq, applied_eq, eventsOf_ingest, if_neg h, List.append_nil]

theorem mem_news {uid : Nat} {report : WarmupAccount × DeliveryFailure}
    (h : (uid, report) ∈ news reader c inbox run) : uid ∈ run.fetched inbox := by
  unfold news at h
  split at h
  · cases h
  obtain ⟨uid', huid, hpair⟩ := List.mem_flatMap.mp h
  obtain ⟨report', -, hsame⟩ := List.mem_map.mp hpair
  cases hsame
  exact huid

/-- Who wrote a new event, and about what. -/
theorem mem_events_ingest {s : State} {id : String} {event : WarmupEvent}
    (h : event ∈ (s.ingest reader id c run).events) :
    event ∈ s.events ∨
      event.campaign_id = id ∧ event.uid ∈ run.fetched (s.mailboxes c.local_address) := by
  rw [ingest_eq] at h
  rcases List.mem_append.mp h with hold | hnew
  · exact .inl hold
  · obtain ⟨⟨uid, report⟩, hreport, rfl⟩ := List.mem_map.mp hnew
    exact .inr ⟨rfl, mem_news hreport⟩

theorem mailboxes_ingest (s : State) (id : String) (c : WarmupCampaign) (run : PollRun)
    (address : Text) :
    (s.ingest reader id c run).mailboxes address =
      if address = c.local_address then
        (s.mailboxes address).markSeen (run.fetched (s.mailboxes address))
      else s.mailboxes address := by
  rw [ingest_eq]
  by_cases h : address = c.local_address
  · subst h
    simp
  · simp [h]

/-! ## What holds in every state -/

/-- What a campaign was told came from messages of its mailbox that are read. -/
def FromRead (campaigns : Campaigns) (s : State) : Prop :=
  ∀ event ∈ s.events, ∃ c, campaigns event.campaign_id = some c ∧
    (s.mailboxes c.local_address).readAt event.uid = true

theorem FromRead.arrive {s : State} (h : FromRead campaigns s) (address : Text) (m : Message) :
    FromRead campaigns (step reader campaigns s (.arrive address m)) := by
  intro event hevent
  obtain ⟨c, hc, hread⟩ := h event hevent
  refine ⟨c, hc, ?_⟩
  by_cases haddress : c.local_address = address
  · subst haddress
    simpa [step] using UnreadQueue.readAt_arrive m hread
  · simpa [step, haddress] using hread

theorem readAt_ingest {s : State} {address : Text} (id : String) (c : WarmupCampaign)
    (run : PollRun) (h : (s.mailboxes address).readAt n = true) :
    ((s.ingest reader id c run).mailboxes address).readAt n = true := by
  rw [mailboxes_ingest]
  split
  · exact UnreadQueue.readAt_markSeen _ h
  · exact h

theorem FromRead.ingest {s : State} {id : String} (h : FromRead campaigns s)
    (hc : campaigns id = some c) (run : PollRun) :
    FromRead campaigns (s.ingest reader id c run) := by
  intro event hevent
  rcases mem_events_ingest hevent with hold | ⟨rfl, hfetched⟩
  · obtain ⟨c', hc', hread⟩ := h event hold
    exact ⟨c', hc', readAt_ingest id c run hread⟩
  · refine ⟨c, hc, ?_⟩
    rw [mailboxes_ingest, if_pos rfl]
    exact UnreadQueue.readAt_markSeen_of_mem _ hfetched (unreadAt_of_fetched hfetched)

theorem Ledger.ingest {s : State} (h : Ledger s) (id : String) (c : WarmupCampaign)
    (run : PollRun) : Ledger (s.ingest reader id c run) := by
  intro id'
  obtain ⟨hrows, hcount⟩ := h id'
  rw [eventsOf_ingest, ingest_eq]
  by_cases hid : id' = id
  · subst hid
    simp only [Function.update_self, if_true]
    refine ⟨?_, ?_⟩
    · rw [hrows, ingestDeliveryFeedback, replay, replay, List.foldl_append, List.foldl_map,
        List.foldl_map]
      rfl
    · rw [hcount, List.length_append, List.length_map]
  · simp only [Function.update_of_ne hid, if_neg hid, List.append_nil]
    exact ⟨hrows, hcount⟩

theorem FromRead.step {s : State} (h : FromRead campaigns s) (a : Act) :
    FromRead campaigns (step reader campaigns s a) := by
  cases a with
  | arrive address m => exact h.arrive address m
  | poll id run =>
    simp only [Feedback.step]
    cases hc : campaigns id with
    | none => exact h
    | some c => exact h.ingest hc run

theorem Ledger.step {s : State} (h : Ledger s) (a : Act) :
    Ledger (step reader campaigns s a) := by
  cases a with
  | arrive address m => exact h
  | poll id run =>
    simp only [Feedback.step]
    cases campaigns id with
    | none => exact h
    | some c => exact h.ingest id c run

variable (reader) (campaigns) in
theorem polls_keep (inputs : List Act) :
    (polls reader campaigns).Always (fun _ s => FromRead campaigns s ∧ Ledger s) inputs := by
  refine Machine.always_of_preserved inputs ⟨?_, fun id => ⟨rfl, rfl⟩⟩ ?_
  · intro event hevent
    cases hevent
  · rintro pre a ⟨hread, hledger⟩
    rw [Machine.run_snoc]
    exact ⟨hread.step a, hledger.step a⟩

/-- Nothing was told from a message that is not read. -/
theorem FromRead.applied_nil {s : State} {id : String} (h : FromRead campaigns s)
    (hc : campaigns id = some c) (hn : (s.mailboxes c.local_address).readAt n = false) :
    s.applied id n = [] := by
  rw [State.applied, List.map_eq_nil_iff, List.filter_eq_nil_iff]
  intro event hevent hmatch
  simp only [Bool.and_eq_true, beq_iff_eq] at hmatch
  obtain ⟨c', hc', hread⟩ := h event hevent
  rw [hmatch.1, hc] at hc'
  cases hc'
  rw [hmatch.2, hn] at hread
  cases hread

end Poll

/-! ## What polls can still come to -/

section LongRun

variable {reader} {campaigns} {c : WarmupCampaign} {s : State} {id : String} {n : Nat} {m : Message}

theorem content_step {address : Text} (a : Act)
    (hm : (s.mailboxes address).contentAt n = some m) :
    ((step reader campaigns s a).mailboxes address).contentAt n = some m := by
  cases a with
  | arrive address' m' =>
    by_cases h : address = address'
    · subst h
      simpa [step] using UnreadQueue.contentAt_arrive_of_some hm
    · simpa [step, h] using hm
  | poll id run =>
    simp only [step]
    cases campaigns id with
    | none => exact hm
    | some c =>
      simp only
      rw [mailboxes_ingest]
      split
      · simpa using hm
      · exact hm

theorem readAt_step {address : Text} (a : Act) (h : (s.mailboxes address).readAt n = true) :
    ((step reader campaigns s a).mailboxes address).readAt n = true := by
  cases a with
  | arrive address' m' =>
    by_cases haddress : address = address'
    · subst haddress
      simpa [step] using UnreadQueue.readAt_arrive m' h
    · simpa [step, haddress] using h
  | poll id run =>
    simp only [step]
    cases campaigns id with
    | none => exact h
    | some c => exact readAt_ingest id c run h

/-- A message that is read is never told again. -/
theorem applied_step_of_read (hc : campaigns id = some c)
    (hm : (s.mailboxes c.local_address).contentAt n = some m)
    (hread : (s.mailboxes c.local_address).readAt n = true) (a : Act) :
    (step reader campaigns s a).applied id n = s.applied id n := by
  cases a with
  | arrive address m' => rfl
  | poll id' run =>
    simp only [step]
    cases hc' : campaigns id' with
    | none => rfl
    | some c' =>
      by_cases hid : id = id'
      · subst hid
        obtain rfl : c = c' := by simpa [hc] using hc'
        have hnot : n ∉ run.fetched (s.mailboxes c.local_address) := fun hn => by
          have hunread := unreadAt_of_fetched hn
          rw [UnreadQueue.not_unreadAt_of_readAt hread] at hunread
          cases hunread
        simp only
        rw [applied_ingest s id hm, if_neg fun h => hnot h.2, List.append_nil]
      · exact applied_ingest_of_ne hid s c' run n

def servedPoll : PollRun := ⟨0, [], none⟩

/-- The polls of one campaign come to every unread message of its mailbox. -/
theorem canReach_of_unread (hread : FromRead campaigns s) (hc : campaigns id = some c)
    (hm : (s.mailboxes c.local_address).contentAt n = some m)
    (hunread : (s.mailboxes c.local_address).unreadAt n = true) :
    CanReach (step reader campaigns) Act.Successful
      (fun s' => s'.applied id n = reader.reports c m) s := by
  refine canReach_of_decreasing (Q := fun s : State => FromRead campaigns s ∧
      (s.mailboxes c.local_address).contentAt n = some m ∧
      ((s.mailboxes c.local_address).unreadAt n = true ∨ s.applied id n = reader.reports c m))
    (fun s => (s.mailboxes c.local_address).unseen.length) ?_ ⟨hread, hm, .inl hunread⟩
  rintro s ⟨hread, hm, hunread | happlied⟩
  · right
    have hpoll : step reader campaigns s (.poll id servedPoll) =
        s.ingest reader id c servedPoll := by simp only [step, hc]
    have hfetched : servedPoll.fetched (s.mailboxes c.local_address) =
        (s.mailboxes c.local_address).newest pollWindow := fetched_of_served rfl _
    refine ⟨.poll id servedPoll, rfl, ⟨hread.step _, content_step _ hm, ?_⟩, ?_⟩
    · rw [hpoll]
      by_cases hn : n ∈ servedPoll.fetched (s.mailboxes c.local_address)
      · right
        have hnil := hread.applied_nil hc (n := n)
          (by simpa [UnreadQueue.unreadAt_eq_not_readAt hm] using hunread)
        rw [applied_ingest s id hm, if_pos ⟨rfl, hn⟩, hnil, List.nil_append]
      · left
        rw [mailboxes_ingest, if_pos rfl]
        simp [hunread, hn]
    · have hpos := List.length_pos_of_mem (UnreadQueue.mem_unseen.mpr hunread)
      rw [hpoll, mailboxes_ingest, if_pos rfl, hfetched, UnreadQueue.unseen_markSeen_newest]
      simp only [pollWindow]
      omega
  · exact .inl happlied

theorem canReach_iff (hread : FromRead campaigns s) (hc : campaigns id = some c)
    (hm : (s.mailboxes c.local_address).contentAt n = some m) :
    CanReach (step reader campaigns) Act.Successful
        (fun s' => s'.applied id n = reader.reports c m) s ↔
      (s.mailboxes c.local_address).unreadAt n = true ∨ s.applied id n = reader.reports c m := by
  constructor
  · intro hreach
    by_contra hnot
    obtain ⟨hunread, happlied⟩ := not_or.mp hnot
    have hreadAt := UnreadQueue.readAt_of_not_unreadAt hm (Bool.eq_false_iff.mpr hunread)
    refine not_canReach_of_preserved (Q := fun s' : State =>
      (s'.mailboxes c.local_address).contentAt n = some m ∧
        (s'.mailboxes c.local_address).readAt n = true ∧ s'.applied id n ≠ reader.reports c m)
      ⟨hm, hreadAt, happlied⟩ ?_ (fun s' hs' => hs'.2.2) hreach
    rintro s' a - ⟨hm', hread', happlied'⟩
    refine ⟨content_step a hm', readAt_step a hread', ?_⟩
    rw [applied_step_of_read hc hm' hread' a]
    exact happlied'
  · rintro (hunread | happlied)
    · exact canReach_of_unread hread hc hm hunread
    · exact .here happlied

/-- The same of the flags alone: what is read has been told. -/
structure Settled (reader : DsnReader) (campaigns : Campaigns) (s : State) : Prop where
  letters : ∀ address n m, (s.mailboxes address).contentAt n = some m → m.isDsn = false →
    (s.mailboxes address).unreadAt n = true
  told : ∀ id c n m, campaigns id = some c →
    (s.mailboxes c.local_address).contentAt n = some m →
    (s.mailboxes c.local_address).unreadAt n = true ∨ s.applied id n = reader.reports c m

theorem kept_iff (hread : FromRead campaigns s) (hledger : Ledger s) :
    Kept reader campaigns s ↔ Settled reader campaigns s := by
  constructor
  · intro h
    exact ⟨h.letters, fun id c n m hc hm => (canReach_iff hread hc hm).mp (h.once id c n m hc hm)⟩
  · intro h
    exact ⟨h.letters, hledger, fun id c n m hc hm =>
      (canReach_iff hread hc hm).mpr (h.told id c n m hc hm)⟩

/-- What arrives is unread, and no flag is changed. -/
theorem unreadAt_arrive {address address' : Text} {m' : Message}
    (h : ((step reader campaigns s (.arrive address m)).mailboxes address').contentAt n = some m') :
    ((step reader campaigns s (.arrive address m)).mailboxes address').unreadAt n = true ∨
      (s.mailboxes address').contentAt n = some m' ∧
        ((step reader campaigns s (.arrive address m)).mailboxes address').unreadAt n =
          (s.mailboxes address').unreadAt n := by
  by_cases haddress : address' = address
  · subst haddress
    simp only [step, Function.update_self] at h ⊢
    rcases UnreadQueue.contentAt_arrive h with hold | ⟨-, -, hnew⟩
    · exact .inr ⟨hold, UnreadQueue.unreadAt_arrive_of_content hold⟩
    · exact .inl hnew
  · simp only [step, Function.update_of_ne haddress] at h ⊢
    exact .inr ⟨h, trivial⟩

theorem Settled.arrive (h : Settled reader campaigns s) (address : Text) (m : Message) :
    Settled reader campaigns (step reader campaigns s (.arrive address m)) := by
  refine ⟨fun address' n m' hm' hletter => ?_, fun id c n m' hc hm' => ?_⟩
  · rcases unreadAt_arrive hm' with hnew | ⟨hold, hsame⟩
    · exact hnew
    · rw [hsame]
      exact h.letters address' n m' hold hletter
  · rcases unreadAt_arrive hm' with hnew | ⟨hold, hsame⟩
    · exact .inl hnew
    · rw [hsame]
      exact h.told id c n m' hc hold

/-- A message of the mailbox behind a poll: unread where it was and was not fetched. -/
theorem unreadAt_ingest (s : State) (id : String) (c : WarmupCampaign) (run : PollRun)
    (address : Text) (n : Nat) :
    ((s.ingest reader id c run).mailboxes address).unreadAt n =
      ((s.mailboxes address).unreadAt n &&
        !decide (address = c.local_address ∧ n ∈ run.fetched (s.mailboxes address))) := by
  rw [mailboxes_ingest]
  by_cases h : address = c.local_address <;> simp [h]

theorem contentAt_ingest (s : State) (id : String) (c : WarmupCampaign) (run : PollRun)
    (address : Text) (n : Nat) :
    ((s.ingest reader id c run).mailboxes address).contentAt n =
      (s.mailboxes address).contentAt n := by
  rw [mailboxes_ingest]
  split <;> simp

/-- A poll that takes only its own leaves the state settled. -/
theorem Settled.ingest (h : Settled reader campaigns s) (hread : FromRead campaigns s)
    (hc : campaigns id = some c) (run : PollRun)
    (hown : TakesOnlyItsOwn reader campaigns s (.poll id run)) :
    Settled reader campaigns (s.ingest reader id c run) := by
  refine ⟨fun address n m hm hletter => ?_, fun id' c' n m hc' hm => ?_⟩
  · rw [contentAt_ingest] at hm
    have hunread := h.letters address n m hm hletter
    have hnot : ¬ (address = c.local_address ∧ n ∈ run.fetched (s.mailboxes address)) := by
      rintro ⟨rfl, hn⟩
      have hdsn := (hown c hc n hn m hm).1
      rw [hletter] at hdsn
      cases hdsn
    rw [unreadAt_ingest, hunread, decide_eq_false hnot]
    rfl
  · rw [contentAt_ingest] at hm
    by_cases hn : c'.local_address = c.local_address ∧ n ∈ run.fetched (s.mailboxes c'.local_address)
    · -- fetched: told now if it is this campaign's, and there is nothing to tell otherwise
      obtain ⟨hsame, hfetched⟩ := hn
      right
      have hunread := unreadAt_of_fetched hfetched
      have hnil := hread.applied_nil hc' (n := n)
        (by simpa [UnreadQueue.unreadAt_eq_not_readAt hm] using hunread)
      have hothers := (hown c hc n (hsame ▸ hfetched) m (hsame ▸ hm)).2 id' c' hc' hsame
      by_cases hid : id' = id
      · subst hid
        obtain rfl : c = c' := by simpa [hc] using hc'
        rw [applied_ingest s id' hm, hnil, List.nil_append]
        cases hfailed : run.failed with
        | none => rw [if_pos ⟨rfl, hfetched⟩]
        | some k => rw [if_neg (by simp), hothers fun _ => by simp [hfailed]]
      · rw [applied_ingest_of_ne hid, hnil, hothers fun h => absurd h hid]
    · rcases h.told id' c' n m hc' hm with hunread | happlied
      · left
        rw [unreadAt_ingest, hunread, decide_eq_false hn]
        rfl
      · right
        by_cases hid : id' = id
        · subst hid
          obtain rfl : c = c' := by simpa [hc] using hc'
          rw [applied_ingest s id' hm, if_neg fun hboth => hn ⟨rfl, hboth.2⟩, List.append_nil,
            happlied]
        · rw [applied_ingest_of_ne hid, happlied]

/-- After a poll that does not, the state is not settled. -/
theorem takesOnlyItsOwn_of_settled (hread : FromRead campaigns s) (run : PollRun)
    (hc : campaigns id = some c) (h : Settled reader campaigns (s.ingest reader id c run)) :
    TakesOnlyItsOwn reader campaigns s (.poll id run) := by
  rintro c' hc' n hn m hm
  obtain rfl : c = c' := by simpa [hc] using hc'
  have hgone : ((s.ingest reader id c run).mailboxes c.local_address).unreadAt n = false := by
    rw [unreadAt_ingest]
    simp [hn]
  constructor
  · by_contra hletter
    have hunread := h.letters c.local_address n m (by rwa [contentAt_ingest])
      (Bool.eq_false_iff.mpr hletter)
    rw [hgone] at hunread
    cases hunread
  · intro id' c' hc'' hsame hlost
    have hm' : (s.mailboxes c'.local_address).contentAt n = some m := hsame ▸ hm
    have hunread := unreadAt_of_fetched hn
    have hnil := hread.applied_nil hc'' (n := n) (by
      rw [hsame]
      simpa [UnreadQueue.unreadAt_eq_not_readAt hm] using hunread)
    rcases h.told id' c' n m hc'' (by rwa [contentAt_ingest]) with hstill | happlied
    · rw [hsame, hgone] at hstill
      cases hstill
    · rw [← happlied]
      by_cases hid : id' = id
      · subst hid
        obtain rfl : c = c' := by simpa [hc] using hc''
        have hfailed : run.failed ≠ none := by simpa [Option.isSome_iff_ne_none] using hlost rfl
        rw [applied_ingest s id' hm, hnil, if_neg fun hboth => hfailed hboth.1]
        rfl
      · rw [applied_ingest_of_ne hid, hnil]

end LongRun

/-! ## How fast the queue empties -/

/-- A successful poll of the campaign. -/
def Act.serves (id : String) : Act → Bool
  | .arrive _ _ => false
  | .poll id' run => id' == id && run.served

def Act.deliversTo (address : Text) : Act → Prop
  | .arrive address' _ => address' = address
  | .poll _ _ => False

section Emptying

variable {campaigns} {c : WarmupCampaign} {id : String}

theorem unseen_step (hc : campaigns id = some c) (s : State) (a : Act)
    (ha : ¬ a.deliversTo c.local_address) :
    ((step reader campaigns s a).mailboxes c.local_address).unseen.length ≤
      (s.mailboxes c.local_address).unseen.length - pollWindow * (if a.serves id then 1 else 0) := by
  cases a with
  | arrive address m =>
    have hother : c.local_address ≠ address := fun h => ha h.symm
    simp [step, Act.serves, hother]
  | poll id' run =>
    by_cases hserves : (Act.poll id' run).serves id = true
    · obtain ⟨hid, hserved⟩ : id' = id ∧ run.served = true := by simpa [Act.serves] using hserves
      subst hid
      rw [if_pos hserves, Nat.mul_one]
      simp only [step, hc]
      rw [mailboxes_ingest, if_pos rfl, fetched_of_served hserved,
        UnreadQueue.unseen_markSeen_newest]
    · rw [if_neg hserves, Nat.mul_zero, Nat.sub_zero]
      simp only [step]
      cases campaigns id' with
      | none => exact le_rfl
      | some c' =>
        simp only
        rw [mailboxes_ingest]
        split
        · exact UnreadQueue.unseen_markSeen_le _
        · exact le_rfl

/-- While nothing arrives, every successful poll takes a window off the queue. -/
theorem unseen_run (hc : campaigns id = some c) (pre post : List Act)
    (hquiet : ∀ a ∈ post, ¬ a.deliversTo c.local_address) :
    (((polls reader campaigns).run (pre ++ post)).mailboxes c.local_address).unseen.length ≤
      (((polls reader campaigns).run pre).mailboxes c.local_address).unseen.length -
        pollWindow * post.countP (·.serves id) := by
  induction post using List.reverseRecOn with
  | nil => simp
  | append_singleton post a ih =>
    have hbefore := ih fun a' ha' => hquiet a' (List.mem_append_left _ ha')
    have hlast := unseen_step reader hc ((polls reader campaigns).run (pre ++ post)) a
      (hquiet a (by simp))
    rw [← List.append_assoc, Machine.run_snoc, List.countP_append, List.countP_singleton,
      Nat.mul_add]
    change ((step reader campaigns _ a).mailboxes c.local_address).unseen.length ≤ _
    omega

end Emptying

/-! ## Every run -/

/-- **Every report once, every letter unread.** A run of arrivals and polls keeps both in
reach exactly where each poll takes only its own; and there a campaign has been told what
all of its messages report after as many successful polls as the queue has windows. -/
theorem feedback_once_iff (inputs : List Act) :
    ((polls reader campaigns).Always (fun _ s => Kept reader campaigns s) inputs ↔
      (polls reader campaigns).EveryStep (fun _ s a => TakesOnlyItsOwn reader campaigns s a)
        inputs) ∧
    ((polls reader campaigns).EveryStep (fun _ s a => TakesOnlyItsOwn reader campaigns s a)
        inputs →
      ∀ id c pre post, campaigns id = some c → inputs = pre ++ post →
        (∀ a ∈ post, ¬ a.deliversTo c.local_address) →
        (((polls reader campaigns).run pre).mailboxes c.local_address).unseen.length ≤
          pollWindow * post.countP (·.serves id) →
        ∀ n m, (((polls reader campaigns).run inputs).mailboxes c.local_address).contentAt n =
            some m →
          ((polls reader campaigns).run inputs).applied id n = reader.reports c m) := by
  have hiff : (polls reader campaigns).Always (fun _ s => Kept reader campaigns s) inputs ↔
      (polls reader campaigns).EveryStep (fun _ s a => TakesOnlyItsOwn reader campaigns s a)
        inputs := by
    refine Machine.always_iff_everyStep (polls_keep reader campaigns inputs) ?_ ?_ ?_
    · rw [kept_iff (fun event hevent => by cases hevent) fun id => ⟨rfl, rfl⟩]
      refine ⟨fun address n m hm => ?_, fun id c n m _ hm => ?_⟩ <;> cases hm
    · rintro pre a ⟨hread, hledger⟩ hkept hown
      rw [Machine.run_snoc]
      refine (kept_iff (hread.step a) (hledger.step a)).mpr ?_
      have hsettled := (kept_iff hread hledger).mp hkept
      cases a with
      | arrive address m => exact hsettled.arrive address m
      | poll id run =>
        simp only [step]
        cases hc : campaigns id with
        | none => exact hsettled
        | some c => exact hsettled.ingest hread hc run hown
    · rintro pre a ⟨hread, hledger⟩ hkept
      rw [Machine.run_snoc] at hkept
      have hsettled := (kept_iff (hread.step a) (hledger.step a)).mp hkept
      cases a with
      | arrive address m => trivial
      | poll id run =>
        intro c hc
        simp only [step, hc] at hsettled
        exact takesOnlyItsOwn_of_settled hread run hc hsettled c hc
  refine ⟨hiff, fun hown id c pre post hc hsplit hquiet hpolls n m hm => ?_⟩
  have hread := (polls_keep reader campaigns inputs inputs (List.prefix_refl _)).1
  have hkept := hiff.mpr hown inputs (List.prefix_refl _)
  have hempty : (((polls reader campaigns).run inputs).mailboxes
      c.local_address).unseen.length = 0 := by
    have hrun := unseen_run reader hc pre post hquiet
    rw [← hsplit] at hrun
    omega
  rcases (canReach_iff hread hc hm).mp (hkept.once id c n m hc hm) with hunread | happlied
  · have hpos := List.length_pos_of_mem (UnreadQueue.mem_unseen.mpr hunread)
    omega
  · exact happlied

/-! ## One mailbox, two campaigns -/

def asciiReader : DsnReader where
  lowering := .asciiOnly
  isDigit := Char.isDigit
  isWord c := c.isAlphanum || c == '_'
  ascii_digit := Emails.PyText.asciiOnly.ascii_digit
  ascii_word := Emails.PyText.asciiOnly.ascii_word
  decimal c := c.toNat - '0'.toNat
  ascii_decimal _ _ := rfl

def pool : Text := "pool@corp.test".toList

def toSeed : WarmupCampaign := ⟨pool, [⟨⟨"seed", "gmail"⟩, "Seed@gmail.test".toList⟩]⟩

def toOther : WarmupCampaign := ⟨pool, [⟨⟨"other", "gmail"⟩, "other@gmail.test".toList⟩]⟩

def bothOnPool : Campaigns
  | "seed" => some toSeed
  | "other" => some toOther
  | _ => none

def seedOnPool : Campaigns
  | "seed" => some toSeed
  | _ => none

def letter : Message := ⟨[⟨"text/plain", []⟩]⟩

def seedFailed : Message :=
  ⟨[⟨"multipart/report", []⟩, ⟨"message/delivery-status", [⟨[
    ("Final-Recipient".toList, "rfc822; seed@gmail.test".toList), ("Action".toList, "failed".toList),
    ("Status".toList, "5.1.1".toList),
    ("Diagnostic-Code".toList, "smtp; 550 5.1.1 unknown".toList)]⟩]⟩]⟩

def seedFailure : DeliveryFailure := ⟨some 550, some "5.1.1", some "smtp; 550 5.1.1 unknown"⟩

theorem reports_seedFailed :
    asciiReader.reports toSeed seedFailed = [(⟨"seed", "gmail"⟩, seedFailure)] := rfl

/-- One campaign, and its report polled once. -/
theorem feedback_once_seed :
    ((polls asciiReader seedOnPool).run
        [.arrive pool seedFailed, .poll "seed" servedPoll]).applied "seed" 0 =
      [(⟨"seed", "gmail"⟩, seedFailure)] := by
  have harrived : (polls asciiReader seedOnPool).EveryStep
      (fun _ s a => TakesOnlyItsOwn asciiReader seedOnPool s a)
      ([] ++ [.arrive pool seedFailed]) := (Machine.everyStep_nil _).snoc trivial
  have hpolled : (polls asciiReader seedOnPool).EveryStep
      (fun _ s a => TakesOnlyItsOwn asciiReader seedOnPool s a)
      ([] ++ [.arrive pool seedFailed] ++ [.poll "seed" servedPoll]) := by
    refine harrived.snoc fun c hc n hn m hm => ?_
    obtain rfl : toSeed = c := by simpa [seedOnPool] using hc
    obtain rfl : n = 0 := List.mem_singleton.mp hn
    obtain rfl : seedFailed = m := Option.some.inj hm
    refine ⟨rfl, fun id' c' hc' _ hfailed => ?_⟩
    have hid : id' = "seed" := by
      unfold seedOnPool at hc'
      split at hc'
      · rfl
      · cases hc'
    cases hfailed hid
  have htold := (feedback_once_iff asciiReader seedOnPool _).2 hpolled "seed" toSeed
    [.arrive pool seedFailed] [.poll "seed" servedPoll] rfl rfl
    (fun a ha => by
      obtain rfl := List.mem_singleton.mp ha
      exact id) (by decide) 0 seedFailed rfl
  exact htold.trans reports_seedFailed

/-- A letter in the mailbox is read; a report about one campaign is gone behind a poll of
the other, and behind a poll of its own that fails before the commit. -/
theorem flag_is_lost :
    (((polls asciiReader bothOnPool).run
        [.arrive pool letter, .poll "seed" servedPoll]).mailboxes pool).unreadAt 0 = false ∧
      ¬ Kept asciiReader bothOnPool ((polls asciiReader bothOnPool).run
        [.arrive pool letter, .poll "seed" servedPoll]) ∧
      ¬ Kept asciiReader bothOnPool ((polls asciiReader bothOnPool).run
        [.arrive pool seedFailed, .poll "other" servedPoll]) ∧
      ¬ Kept asciiReader bothOnPool ((polls asciiReader bothOnPool).run
        [.arrive pool seedFailed, .poll "seed" { servedPoll with failed := some 1 }]) := by
  have hlost : ∀ inputs : List Act,
      (((polls asciiReader bothOnPool).run inputs).mailboxes pool).contentAt 0 = some seedFailed →
      (((polls asciiReader bothOnPool).run inputs).mailboxes pool).unreadAt 0 = false →
      ((polls asciiReader bothOnPool).run inputs).events = [] →
      ¬ Kept asciiReader bothOnPool ((polls asciiReader bothOnPool).run inputs) := by
    intro inputs hm hgone hnone hkept
    have hread := (polls_keep asciiReader bothOnPool inputs inputs (List.prefix_refl _)).1
    have hreach := hkept.once "seed" toSeed 0 seedFailed rfl hm
    rcases (canReach_iff hread rfl hm).mp hreach with hunread | happlied
    · rw [show toSeed.local_address = pool from rfl, hgone] at hunread
      cases hunread
    · rw [State.applied, hnone, reports_seedFailed] at happlied
      cases happlied
  refine ⟨by decide, fun hkept => ?_, hlost _ rfl (by decide) rfl, hlost _ rfl (by decide) rfl⟩
  have hunread := hkept.letters pool 0 letter rfl rfl
  revert hunread
  decide

end MailCue.Backend.Warmup.Feedback
