import MailCue.Tunnel.Edge.Alignment

/-!
# The message and the next MX

A session that breaks off is followed by one with the next MX, wherever it broke off. Where
the message and its end were out and only the reply was lost, the host may have the
message. The sessions of a request are those of its groups one after another, a group's the
hosts of its domain up to the first that reached the recipients, and a recipient is named
in one group only.
-/
namespace MailCue.Tunnel.Edge
open MailCue.Lib MailCue.Tunnel.Proto MailCue.Tunnel.Edge.SmtpClient

/-! ## What became of the message -/

def acceptedRcpts (log : List Event) : List String :=
  ((rcptAnswers log).filter (·.2.is2xx)).map (·.1)

def bodyOut (log : List Event) : Bool :=
  log.any fun e =>
    match e with
    | .body _ _ _ => true
    | _ => false

def replyLost (log : List Event) : Bool :=
  log.any fun e =>
    match e with
    | .body _ _ (.lost _) => true
    | _ => false

/-- The recipients the message goes out for. -/
def transmitted (log : List Event) : List String := if bodyOut log then acceptedRcpts log else []

/-- The recipients the host may have taken the message for: it has the whole of it, and has
not refused it. -/
def mayHaveAccepted (log : List Event) : List String :=
  if replyLost log || (finalAnswers log).any Reply.is2xx then acceptedRcpts log else []

/-- No message goes to a second MX for a recipient that an earlier one may have it for. -/
def SentOnce (net : Net) (calls : List SmtpDelivery) : Prop :=
  ∀ (n m : Nat) (d e : SmtpDelivery), n < m → calls[n]? = some d → calls[m]? = some e →
    d.mx_host ≠ e.mx_host → ∀ rcpt ∈ mayHaveAccepted (net.session (calls.take n) d).2,
      rcpt ∉ transmitted (net.session (calls.take m) e).2

theorem mem_acceptedRcpts {log : List Event} {rcpt : String} :
    rcpt ∈ acceptedRcpts log ↔ ∃ reply, (rcpt, reply) ∈ rcptAnswers log ∧ reply.is2xx = true := by
  simp [acceptedRcpts]

/-- A session asks about its own recipients only. -/
theorem acceptedRcpts_subset (peer : Peer) (d : SmtpDelivery) :
    ∀ rcpt ∈ acceptedRcpts (peer.deliver d []).2, rcpt ∈ d.recipients := by
  have hasks : ∀ e ∈ (peer.deliver d []).2,
      ∀ secure rcpt answer, e = .command secure (.rcpt rcpt) answer → rcpt ∈ d.recipients := by
    refine Talk.Gives.run (peer.deliver_gives d (events_untouched fun e hquiet => ?_)
      fun secure _ => peer.transaction_emits d ?_ ?_ ?_ fun _ => ⟨?_, ?_⟩)
    · rintro secure rcpt answer rfl
      cases hquiet
    · rintro answer _ rcpt _ ⟨⟩
    · rintro answer _ rcpt _ ⟨⟩
    · rintro rcpt hrcpt answer _ _ _ ⟨⟩
      exact hrcpt
    · rintro answer _ rcpt _ ⟨⟩
    · rintro octets answer _ rcpt _ ⟨⟩
  intro rcpt hrcpt
  obtain ⟨reply, hanswer, -⟩ := mem_acceptedRcpts.mp hrcpt
  obtain ⟨e, he, hmatch⟩ := List.mem_filterMap.mp hanswer
  split at hmatch
  · cases hmatch
    exact hasks _ he _ _ _ rfl
  · cases hmatch

/-- A host that may have the message though the session did not reach the recipients is one
whose reply was lost. -/
theorem replyLost_of_mayHaveAccepted {peer : Peer} {d : SmtpDelivery} {rcpt : String}
    (h : rcpt ∈ mayHaveAccepted (peer.deliver d []).2)
    (hreached : ¬ Reached (peer.deliver d []).1) :
    replyLost (peer.deliver d []).2 = true ∧ rcpt ∈ acceptedRcpts (peer.deliver d []).2 := by
  unfold mayHaveAccepted at h
  split at h
  · rename_i hmay
    refine ⟨?_, h⟩
    have hnone : finalAnswers (peer.deliver d []).2 = [] := by
      by_contra hsome
      exact hreached ((deliver_reports peer d).replied hsome)
    simpa [hnone] using hmay
  · cases h

/-! ## The sessions of a group -/

/-- The deliveries to the hosts of a domain, in MX order. -/
def hostsOf (sub : Submission) (group_rcpts : List String)
    (attempts : List (MxRecord × UInt16)) : List SmtpDelivery :=
  attempts.filterMap fun (mx, port) =>
    if port ≠ 25 then none else some (sub.delivery mx port group_rcpts)

def hostsFor (sub : Submission) (g : Group) : List SmtpDelivery :=
  match sub.world.resolveMx g.1 with
  | .error _ => []
  | .ok mxs => hostsOf sub (g.2.map (·.2))
      (mxs.flatMap fun mx => sub.cfg.allowed_smtp_ports.map fun port => (mx, port))

/-- No session with the hosts in front of this one reaches the recipients. -/
def Untold (world : World) (before hosts : List SmtpDelivery) (j : Nat) : Prop :=
  ∀ (k : Nat) (d : SmtpDelivery), k < j → hosts[k]? = some d →
    ¬ Reached (world.deliver (before ++ hosts.take k) d)

theorem untold_cons {world : World} {before hosts : List SmtpDelivery} {d : SmtpDelivery} {j : Nat}
    (h : ¬ Reached (world.deliver before d)) :
    Untold world before (d :: hosts) (j + 1) ↔ Untold world (before ++ [d]) hosts j := by
  constructor
  · intro hall k e hk he
    have hlater := hall (k + 1) e (by omega) he
    rwa [List.take_succ_cons, List.append_cons] at hlater
  · intro hall k e hk he
    cases k with
    | zero =>
      cases he
      simpa using h
    | succ k =>
      rw [List.take_succ_cons, List.append_cons]
      exact hall k e (by omega) he

/-- The walk holds sessions with the first hosts, as far as none has reached the recipients. -/
theorem walkMx_calls (sub : Submission) (group_rcpts : List String)
    (attempts : List (MxRecord × UInt16)) (calls : List SmtpDelivery) (last_skip : Option String) :
    ∃ n, (walkMx sub group_rcpts attempts calls last_skip).1 =
        calls ++ (hostsOf sub group_rcpts attempts).take n ∧
      ∀ j, j < (hostsOf sub group_rcpts attempts).length →
        (j < n ↔ Untold sub.world calls (hostsOf sub group_rcpts attempts) j) := by
  induction attempts generalizing calls last_skip with
  | nil => exact ⟨0, by simp [walkMx], fun j hj => absurd hj (Nat.not_lt_zero j)⟩
  | cons attempt rest ih =>
    obtain ⟨mx, port⟩ := attempt
    rw [walkMx]
    split
    · rename_i hport
      have hskip : hostsOf sub group_rcpts ((mx, port) :: rest) = hostsOf sub group_rcpts rest := by
        simp [hostsOf, hport]
      rw [hskip]
      exact ih calls last_skip
    · rename_i hport
      obtain rfl : port = 25 := of_not_not hport
      have htake : hostsOf sub group_rcpts ((mx, 25) :: rest) =
          sub.delivery mx 25 group_rcpts :: hostsOf sub group_rcpts rest := rfl
      rw [htake]
      -- a session that did not reach the recipients, and the rest of the walk
      have hon : ∀ skip, ¬ Reached (sub.world.deliver calls (sub.delivery mx 25 group_rcpts)) →
          ∃ n, (walkMx sub group_rcpts rest (calls ++ [sub.delivery mx 25 group_rcpts]) skip).1 =
              calls ++ (sub.delivery mx 25 group_rcpts :: hostsOf sub group_rcpts rest).take n ∧
            ∀ j, j < (sub.delivery mx 25 group_rcpts :: hostsOf sub group_rcpts rest).length →
              (j < n ↔ Untold sub.world calls
                (sub.delivery mx 25 group_rcpts :: hostsOf sub group_rcpts rest) j) := by
        intro skip hreached
        obtain ⟨n, hcalls, hwalked⟩ := ih (calls ++ [sub.delivery mx 25 group_rcpts]) skip
        refine ⟨n + 1, by simp [hcalls], fun j hj => ?_⟩
        cases j with
        | zero => exact iff_of_true (Nat.succ_pos n) fun k _ hk => absurd hk (Nat.not_lt_zero k)
        | succ j =>
          rw [untold_cons hreached, ← hwalked j (by simpa using hj)]
          omega
      dsimp only
      split
      · rename_i hdeliver
        exact hon _ (by rw [hdeliver]; rintro ⟨_, ⟨⟩⟩)
      · rename_i outcomes hdeliver
        refine ⟨1, rfl, fun j hj => ?_⟩
        cases j with
        | zero => exact iff_of_true Nat.one_pos fun k _ hk => absurd hk (Nat.not_lt_zero k)
        | succ j =>
          refine iff_of_false (by omega) fun hall => ?_
          have hfirst := hall 0 _ (Nat.succ_pos j) rfl
          rw [List.take_zero, List.append_nil, hdeliver] at hfirst
          exact hfirst ⟨outcomes, rfl⟩
      · rename_i hdeliver
        exact hon _ (by rw [hdeliver]; rintro ⟨_, ⟨⟩⟩)

theorem attemptGroup_calls (sub : Submission) (calls : List SmtpDelivery) (g : Group) :
    ∃ n, (attemptGroup sub calls g).1 = calls ++ (hostsFor sub g).take n ∧
      ∀ j, j < (hostsFor sub g).length → (j < n ↔ Untold sub.world calls (hostsFor sub g) j) := by
  cases h : sub.world.resolveMx g.1 with
  | error e =>
    rw [attemptGroup_of_error h, hostsFor, h]
    exact ⟨0, by simp, fun j hj => absurd hj (Nat.not_lt_zero j)⟩
  | ok mxs =>
    rw [attemptGroup_of_ok h, hostsFor, h]
    exact walkMx_calls sub _ _ calls none

/-! ## The sessions of a request -/

/-- A session of the group, where the group's sessions stand in the record. -/
theorem getElem_of_prefix {before hosts all : List SmtpDelivery} {n j : Nat} {d : SmtpDelivery}
    (h : before ++ hosts.take n <+: all) (hj : j < n) (hd : hosts[j]? = some d) :
    all[before.length + j]? = some d ∧ all.take (before.length + j) = before ++ hosts.take j := by
  obtain ⟨rest, rfl⟩ := h
  have hlong : j < hosts.length := (List.getElem?_eq_some_iff.mp hd).1
  have hroom : j < (hosts.take n).length := by
    rw [List.length_take]
    omega
  rw [List.append_assoc]
  constructor
  · rw [List.getElem?_append_right (Nat.le_add_right _ _), Nat.add_sub_cancel_left,
      List.getElem?_append_left hroom, List.getElem?_take_of_lt hj, hd]
  · rw [List.take_length_add_append, List.take_append_of_le_length (Nat.le_of_lt hroom),
      List.take_take, Nat.min_eq_left (Nat.le_of_lt hj)]

/-- A session that is held stands behind those of the groups before. -/
theorem session_held (sub : Submission) {pre : List Group} (post : List Group) {g : Group}
    {j : Nat} {d : SmtpDelivery} (hd : (hostsFor sub g)[j]? = some d)
    (hheld : Untold sub.world (sessionsAfter sub pre []) (hostsFor sub g) j) :
    (sessionsAfter sub (pre ++ g :: post) [])[(sessionsAfter sub pre []).length + j]? = some d ∧
      (sessionsAfter sub (pre ++ g :: post) []).take ((sessionsAfter sub pre []).length + j) =
        sessionsAfter sub pre [] ++ (hostsFor sub g).take j := by
  obtain ⟨n, hcalls, hwalked⟩ := attemptGroup_calls sub (sessionsAfter sub pre []) g
  have hj : j < n := (hwalked j (List.getElem?_eq_some_iff.mp hd).1).mpr hheld
  have hprefix : sessionsAfter sub pre [] ++ (hostsFor sub g).take n <+:
      sessionsAfter sub (pre ++ g :: post) [] := by
    rw [sessionsAfter_append, ← hcalls]
    exact sessionsAfter_grows sub post _
  exact getElem_of_prefix hprefix hj hd

/-- Every session is held with a host of some group. -/
theorem session_of {sub : Submission} {groups : List Group} {calls : List SmtpDelivery} {n : Nat}
    {d : SmtpDelivery} (hn : calls.length ≤ n) (hd : (sessionsAfter sub groups calls)[n]? = some d) :
    ∃ pre g post i, groups = pre ++ g :: post ∧ n = (sessionsAfter sub pre calls).length + i ∧
      (hostsFor sub g)[i]? = some d ∧
      Untold sub.world (sessionsAfter sub pre calls) (hostsFor sub g) i ∧
      (sessionsAfter sub groups calls).take n =
        sessionsAfter sub pre calls ++ (hostsFor sub g).take i := by
  induction groups generalizing calls with
  | nil =>
    rw [sessionsAfter, List.foldl_nil, List.getElem?_eq_none hn] at hd
    cases hd
  | cons g rest ih =>
    obtain ⟨k, hcalls, hwalked⟩ := attemptGroup_calls sub calls g
    have hgrown : sessionsAfter sub (g :: rest) calls =
        sessionsAfter sub rest (attemptGroup sub calls g).1 := rfl
    by_cases hin : n < (attemptGroup sub calls g).1.length
    · -- a session of this group
      obtain ⟨i, rfl⟩ := Nat.exists_eq_add_of_le hn
      rw [hcalls, List.length_append, List.length_take] at hin
      obtain ⟨e, he⟩ : ∃ e, (hostsFor sub g)[i]? = some e :=
        ⟨_, List.getElem?_eq_getElem (by omega)⟩
      rw [hcalls] at hgrown
      have hprefix : calls ++ (hostsFor sub g).take k <+: sessionsAfter sub (g :: rest) calls := by
        rw [hgrown]
        exact sessionsAfter_grows sub rest _
      obtain ⟨hsession, htake⟩ := getElem_of_prefix hprefix (by omega) he
      rw [hsession] at hd
      cases hd
      exact ⟨[], g, rest, i, rfl, rfl, he, (hwalked i (by omega)).mp (by omega), htake⟩
    · obtain ⟨pre, g', post, i, rfl, hlength, hhost, hheld, htake⟩ :=
        ih (Nat.not_lt.mp hin) hd
      exact ⟨g :: pre, g', post, i, rfl, hlength, hhost, hheld, htake⟩

/-! ## When the message goes out once -/

/-- Of the hosts of a domain, with none before the second reaching the recipients, none
loses the reply to the message for a recipient that a later one takes and is sent the
message for. -/
def NoSecondTaker (net : Net) (world : World) (before hosts : List SmtpDelivery) : Prop :=
  ∀ (i j : Nat) (d e : SmtpDelivery), i < j → hosts[i]? = some d → hosts[j]? = some e →
    d.mx_host ≠ e.mx_host → Untold world before hosts j →
    replyLost (net.session (before ++ hosts.take i) d).2 = true →
    ∀ rcpt ∈ acceptedRcpts (net.session (before ++ hosts.take i) d).2,
      rcpt ∉ transmitted (net.session (before ++ hosts.take j) e).2

theorem Untold.mono {world : World} {before hosts : List SmtpDelivery} {i j : Nat}
    (h : Untold world before hosts j) (hij : i ≤ j) : Untold world before hosts i :=
  fun k d hk hd => h k d (by omega) hd

theorem recipients_of_hostsFor {sub : Submission} {g : Group} {d : SmtpDelivery}
    (h : d ∈ hostsFor sub g) : d.recipients = g.2.map (·.2) := by
  unfold hostsFor at h
  split at h
  · cases h
  · obtain ⟨⟨mx, port⟩, -, hmatch⟩ := List.mem_filterMap.mp h
    obtain ⟨-, hd⟩ := Option.ite_none_left_eq_some.mp hmatch
    cases hd
    rfl

/-- A session of a request is with a host that was resolved for the domain of its
recipients, on port 25. -/
theorem mem_handleRelay {cfg : EdgeConfig} {world : World} {helo_name envelope_from : String}
    {recipients : List String} {raw_message : Bytes} {opts : RelayOpts} {d : SmtpDelivery}
    (h : d ∈ (handleRelay cfg world helo_name envelope_from recipients raw_message opts).2) :
    rejectRelay cfg envelope_from recipients raw_message = none ∧
    ∃ (domain : String) (mxs : List MxRecord) (mx : MxRecord) (group_rcpts : List String),
      world.resolveMx domain = .ok mxs ∧ mx ∈ mxs ∧ 25 ∈ cfg.allowed_smtp_ports ∧
      d = Submission.delivery ⟨cfg, world, helo_name, envelope_from, raw_message, opts⟩ mx 25
        group_rcpts ∧
      ∀ rcpt ∈ group_rcpts, rcpt ∈ recipients ∧ domainOf rcpt = some domain := by
  unfold handleRelay at h
  cases hreject : rejectRelay cfg envelope_from recipients raw_message with
  | some rej =>
    rw [hreject] at h
    cases h
  | none =>
    rw [hreject] at h
    cases hgroups : groupByDomain 0 [] recipients with
    | error rej =>
      rw [hgroups] at h
      cases h
    | ok by_domain =>
      rw [hgroups] at h
      dsimp only at h
      rw [relayGroups_calls] at h
      obtain ⟨n, hn⟩ := List.mem_iff_getElem?.mp h
      obtain ⟨pre, g, post, i, rfl, -, hhost, -, -⟩ := session_of (Nat.zero_le n) hn
      have hmembers := (grouped hgroups).members g (by simp)
      have hd := List.mem_of_getElem? hhost
      unfold hostsFor at hd
      split at hd
      · cases hd
      · rename_i mxs hmxs
        obtain ⟨⟨mx, port⟩, hattempt, hmatch⟩ := List.mem_filterMap.mp hd
        obtain ⟨mx', hmx, hport⟩ := List.mem_flatMap.mp hattempt
        obtain ⟨port', hallowed, heq⟩ := List.mem_map.mp hport
        cases heq
        obtain ⟨hport25, hd⟩ := Option.ite_none_left_eq_some.mp hmatch
        obtain rfl : port = 25 := of_not_not hport25
        refine ⟨rfl, g.1, mxs, mx, g.2.map (·.2), hmxs, hmx, hallowed, (Option.some.inj hd).symm,
          fun rcpt hrcpt => ?_⟩
        rw [hmembers] at hrcpt
        obtain ⟨⟨place, _⟩, hmem, rfl⟩ := List.mem_map.mp hrcpt
        obtain ⟨hin, hdomain⟩ := mem_members.mp hmem
        exact ⟨List.mem_of_getElem? hin, hdomain⟩

theorem groupByDomain_of_domains {idx : Nat} {groups : List Group} {recipients : List String}
    (h : ∀ rcpt ∈ recipients, rsplitOnce rcpt '@' ≠ none) :
    ∃ by_domain, groupByDomain idx groups recipients = .ok by_domain := by
  induction recipients generalizing idx groups with
  | nil => exact ⟨groups, rfl⟩
  | cons rcpt rest ih =>
    obtain ⟨⟨local_part, domain⟩, hsplit⟩ :=
      Option.ne_none_iff_exists'.mp (h rcpt List.mem_cons_self)
    rw [groupByDomain, hsplit]
    exact ih fun r hr => h r (List.mem_cons_of_mem rcpt hr)

theorem rsplitOnce_of_isValidMailbox {s : String} (h : isValidMailbox s = true) :
    rsplitOnce s '@' ≠ none := by
  intro hnone
  unfold isValidMailbox at h
  rw [hnone] at h
  split at h <;> cases h

/-- What a request that is not refused names. -/
theorem rejectRelay_eq_none {cfg : EdgeConfig} {envelope_from : String} {recipients : List String}
    {raw_message : Bytes} (h : rejectRelay cfg envelope_from recipients raw_message = none) :
    isValidMailboxOrEmpty envelope_from = true ∧ recipients ≠ [] ∧
      ∀ rcpt ∈ recipients, isValidMailbox rcpt = true := by
  unfold rejectRelay at h
  split at h
  · cases h
  · rename_i hsender
    split at h
    · cases h
    · rename_i hempty
      split at h
      · cases h
      · split at h
        · cases h
        · split at h
          · cases h
          · rename_i hfind
            refine ⟨by simpa using hsender, by simpa using hempty, fun rcpt hrcpt => ?_⟩
            simpa using List.find?_eq_none.mp hfind rcpt hrcpt

/-- A request that is not refused connects to the first host of a recipient's domain. -/
theorem handleRelay_connects {cfg : EdgeConfig} {world : World} {helo_name envelope_from : String}
    {recipients : List String} {raw_message : Bytes} {opts : RelayOpts} {rcpt domain : String}
    {mx : MxRecord} {rest : List MxRecord}
    (haccepted : rejectRelay cfg envelope_from recipients raw_message = none)
    (hport : 25 ∈ cfg.allowed_smtp_ports) (hrcpt : rcpt ∈ recipients)
    (hdomain : domainOf rcpt = some domain) (hmx : world.resolveMx domain = .ok (mx :: rest)) :
    ∃ d ∈ (handleRelay cfg world helo_name envelope_from recipients raw_message opts).2,
      rcpt ∈ d.recipients ∧ d.helo_name = helo_name := by
  let sub : Submission := ⟨cfg, world, helo_name, envelope_from, raw_message, opts⟩
  have hvalid := (rejectRelay_eq_none haccepted).2.2
  obtain ⟨by_domain, hgroups⟩ := @groupByDomain_of_domains 0 [] recipients fun r hr =>
    rsplitOnce_of_isValidMailbox (hvalid r hr)
  obtain ⟨i, hi⟩ := List.mem_iff_getElem?.mp hrcpt
  obtain ⟨g, hg, hkey⟩ := (grouped hgroups).covers i rcpt hi
  obtain rfl : domain = g.1 := Option.some.inj (hdomain.symm.trans hkey)
  have hmember : rcpt ∈ g.2.map (·.2) := by
    rw [(grouped hgroups).members g hg]
    exact List.mem_map.mpr ⟨(i, rcpt), mem_members.mpr ⟨hi, hkey⟩, rfl⟩
  have hhost : sub.delivery mx 25 (g.2.map (·.2)) ∈ hostsFor sub g := by
    rw [hostsFor, hmx]
    refine List.mem_filterMap.mpr ⟨(mx, 25), List.mem_flatMap.mpr ⟨mx, List.mem_cons_self, ?_⟩, rfl⟩
    exact List.mem_map_of_mem hport
  obtain ⟨d, later, hhosts⟩ := List.exists_cons_of_ne_nil (List.ne_nil_of_mem hhost)
  have hd : d ∈ hostsFor sub g := by
    rw [hhosts]
    exact List.mem_cons_self
  obtain ⟨pre, post, rfl⟩ := List.append_of_mem hg
  have hfirst : (hostsFor sub g)[0]? = some d := by
    rw [hhosts]
    rfl
  have hheld := (@session_held sub pre post g 0 d hfirst
    fun k _ hk => absurd hk (Nat.not_lt_zero k)).1
  refine ⟨d, ?_, ?_, ?_⟩
  · unfold handleRelay
    rw [haccepted, hgroups]
    dsimp only
    rw [relayGroups_calls]
    exact List.mem_of_getElem? hheld
  · rw [recipients_of_hostsFor hd]
    exact hmember
  · unfold hostsFor at hd
    split at hd
    · cases hd
    · obtain ⟨⟨host, port⟩, -, hmatch⟩ := List.mem_filterMap.mp hd
      obtain ⟨-, heq⟩ := Option.ite_none_left_eq_some.mp hmatch
      rw [← Option.some.inj heq]
      rfl

/-- A recipient is named in one group. -/
theorem Grouped.same {recipients : List String} {pre pre' post post' : List Group} {g g' : Group}
    {rcpt : String} (h : Grouped recipients (pre ++ g :: post))
    (heq : pre ++ g :: post = pre' ++ g' :: post') (hg : rcpt ∈ g.2.map (·.2))
    (hg' : rcpt ∈ g'.2.map (·.2)) : pre = pre' ∧ g = g' := by
  have hdomain : ∀ {x : Group}, x ∈ pre ++ g :: post → rcpt ∈ x.2.map (·.2) →
      domainOf rcpt = some x.1 := by
    intro x hx hrcpt
    rw [h.members x hx] at hrcpt
    obtain ⟨⟨i, _⟩, hmem, rfl⟩ := List.mem_map.mp hrcpt
    exact (mem_members.mp hmem).2
  have hin : g' ∈ pre ++ g :: post := by
    rw [heq]
    exact List.mem_append_right _ List.mem_cons_self
  have hsame := (hdomain (List.mem_append_right _ List.mem_cons_self) hg).symm.trans
    (hdomain hin hg')
  have hpre : pre = pre' := by
    have hsorted' : Sorted (pre' ++ g' :: post') := heq ▸ h.sorted
    rw [← takeWhile_ne h.sorted, ← takeWhile_ne hsorted', heq, Option.some.inj hsame]
  refine ⟨hpre, ?_⟩
  rw [hpre] at heq
  exact (List.cons.inj (List.append_cancel_left heq)).1

section
variable {cfg : EdgeConfig} {resolveMx : String → Except String (List MxRecord)} {net : Net}
  {helo_name envelope_from : String} {raw_message : Bytes} {opts : RelayOpts}

/-- The sessions of a request that is not refused. -/
theorem sentOnce_sessionsAfter {recipients : List String} {by_domain : List Group}
    (hgroups : Grouped recipients by_domain) :
    let sub : Submission :=
      ⟨cfg, .ofNet resolveMx net, helo_name, envelope_from, raw_message, opts⟩
    SentOnce net (sessionsAfter sub by_domain []) ↔
      ∀ pre g post, by_domain = pre ++ g :: post →
        NoSecondTaker net sub.world (sessionsAfter sub pre []) (hostsFor sub g) := by
  intro sub
  constructor
  · rintro honce pre g post rfl i j d e hij hd he hne huntold hlost rcpt hrcpt
    obtain ⟨hn, htaken⟩ := session_held sub post hd (huntold.mono (Nat.le_of_lt hij))
    obtain ⟨hm, htaken'⟩ := session_held sub post he huntold
    have hmay : rcpt ∈ mayHaveAccepted
        (net.session (sessionsAfter sub pre [] ++ (hostsFor sub g).take i) d).2 := by
      rw [mayHaveAccepted, hlost, Bool.true_or, if_pos rfl]
      exact hrcpt
    rw [← htaken] at hmay
    rw [← htaken']
    exact honce _ _ d e (by omega) hn hm hne rcpt hmay
  · intro hcond n m d e hnm hd he hne rcpt hmay htrans
    obtain ⟨pre, g, post, i, hsplit, rfl, hhost, -, htaken⟩ := session_of (Nat.zero_le n) hd
    obtain ⟨pre', g', post', j, hsplit', rfl, hhost', huntold, htaken'⟩ :=
      session_of (Nat.zero_le m) he
    rw [htaken] at hmay
    rw [htaken'] at htrans
    have hrcpt : rcpt ∈ g.2.map (·.2) := by
      rw [← recipients_of_hostsFor (List.mem_of_getElem? hhost)]
      exact acceptedRcpts_subset _ d rcpt (List.mem_ite_nil_right.mp hmay).2
    have hrcpt' : rcpt ∈ g'.2.map (·.2) := by
      rw [← recipients_of_hostsFor (List.mem_of_getElem? hhost')]
      exact acceptedRcpts_subset _ e rcpt (List.mem_ite_nil_right.mp htrans).2
    subst hsplit
    obtain ⟨rfl, rfl⟩ := hgroups.same hsplit' hrcpt hrcpt'
    have hij : i < j := by omega
    obtain ⟨hlost, haccepted⟩ :=
      replyLost_of_mayHaveAccepted hmay (huntold i d hij hhost)
    exact hcond pre g post rfl i j d e hij hhost hhost' hne huntold hlost rcpt haccepted htrans

/-- The message goes to one host at most exactly where no reply to it is lost before a host
that takes it too. -/
theorem handleRelay_sentOnce_iff (recipients : List String) :
    SentOnce net (handleRelay cfg (.ofNet resolveMx net) helo_name envelope_from recipients
      raw_message opts).2 ↔
      (rejectRelay cfg envelope_from recipients raw_message = none →
        ∀ pre g post, groupByDomain 0 [] recipients = .ok (pre ++ g :: post) →
          let sub : Submission :=
            ⟨cfg, .ofNet resolveMx net, helo_name, envelope_from, raw_message, opts⟩
          NoSecondTaker net sub.world (sessionsAfter sub pre []) (hostsFor sub g)) := by
  have hnone : SentOnce net [] := by
    rintro n m d e - ⟨⟩
  unfold handleRelay
  cases rejectRelay cfg envelope_from recipients raw_message with
  | some rej => exact iff_of_true hnone fun h => nomatch h
  | none =>
    cases hgroups : groupByDomain 0 [] recipients with
    | error rej => exact iff_of_true hnone fun _ pre g post h => nomatch h
    | ok by_domain =>
      dsimp only
      rw [relayGroups_calls]
      refine Iff.trans (sentOnce_sessionsAfter (grouped hgroups)) ?_
      constructor
      · rintro h - pre g post ⟨⟩
        exact h pre g post rfl
      · rintro h pre g post rfl
        exact h rfl pre g post rfl

end

/-- A host that takes the message and its end, and whose reply does not come. -/
def silent : Peer where
  __ := picky ""
  body _ _ _ := .lost "timed out"

/-- The first host has the message, and the second is sent it too. -/
theorem silent_sentTwice :
    ¬ SentOnce (fun _ d => if d.mx_host = "mx1" then silent else picky "")
      (handleRelay .default (.ofNet (fun _ => .ok [⟨"mx1", 10⟩, ⟨"mx2", 20⟩])
        fun _ d => if d.mx_host = "mx1" then silent else picky "")
        "helo" "" ["a@y.org"] [] .default).2 := by
  intro h
  let world : World := .ofNet (fun _ => .ok [⟨"mx1", 10⟩, ⟨"mx2", 20⟩])
    fun _ d => if d.mx_host = "mx1" then silent else picky ""
  let sub : Submission := ⟨.default, world, "helo", "", [], .default⟩
  have hcalls : (handleRelay .default world "helo" "" ["a@y.org"] [] .default).2 =
      [sub.delivery ⟨"mx1", 10⟩ 25 ["a@y.org"], sub.delivery ⟨"mx2", 20⟩ 25 ["a@y.org"]] := by
    decide +kernel
  refine h 0 1 _ _ Nat.zero_lt_one (by rw [hcalls]; rfl) (by rw [hcalls]; rfl) ?_ "a@y.org" ?_ ?_
  all_goals decide +kernel

end MailCue.Tunnel.Edge
