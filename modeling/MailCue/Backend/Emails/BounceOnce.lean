import Mathlib.Order.MinMax
import MailCue.Backend.Emails.BounceScanner

/-!
# Each bounce once

The watermark says up to which UID the mailbox has been examined. It moves past
whatever was not on the page, did not come back from the server or was recorded
by a scan that raised later, so a notification below it has been recorded once
only if every scan listed, fetched and finished what it moved past.
-/
namespace MailCue.Backend.Emails.Bounce
open MailCue.Lib

variable (scanner : Scanner)

/-- Every qualifying notification at or below the watermark has all its records, once. -/
def ExactlyOnce (s : State) : Prop :=
  ∀ m ∈ s.inbox.messages, scanner.Qualifies m → m.uid ≤ s.last_uid →
    s.recorded.filter (·.uid == m.uid) = scanner.records m

/-- A scan that ends has listed and fetched each new notification at or below
the highest message it listed; a scan that raises has recorded nothing before. -/
def CleanScan (s : State) : Act → Prop
  | .scan ⟨some header, body, none⟩ =>
    ∀ m ∈ s.inbox.messages, scanner.Qualifies m → s.last_uid < m.uid →
      (∃ listed ∈ Scanner.listing s header, m.uid ≤ listed.uid) →
      m ∈ Scanner.listing s header ∧ body m.uid = true
  | .scan ⟨some header, body, some k⟩ => (scanner.effects s header body).take k = []
  | _ => True

/-! ## What a scan records -/

theorem records_uid {m : Received} {r : Record} (h : r ∈ scanner.records m) : r.uid = m.uid := by
  unfold Scanner.records at h
  split at h
  · obtain ⟨entry, -, hr⟩ := List.mem_flatMap.mp h
    split at hr
    · split at hr
      · rcases List.mem_cons.mp hr with rfl | hr
        · rfl
        · obtain rfl := List.mem_singleton.mp hr
          rfl
      · cases hr
    · cases hr
  · cases h

theorem listing_sublist (s : State) (header : Nat → Bool) :
    (Scanner.listing s header).Sublist s.inbox.messages.reverse :=
  List.filter_sublist.trans ((List.take_sublist _ _).trans (List.drop_sublist _ _))

theorem mem_inbox_of_listing {s : State} {header : Nat → Bool} {m : Received}
    (h : m ∈ Scanner.listing s header) : m ∈ s.inbox.messages := by
  simpa using (listing_sublist s header).mem h

theorem inbox_eq_of_uid {inbox : Inbox} {m m' : Received} (hm : m ∈ inbox.messages)
    (hm' : m' ∈ inbox.messages) (huid : m.uid = m'.uid) : m = m' := by
  have hnodup : (inbox.messages.map (·.uid)).Nodup :=
    List.pairwise_map.mpr (inbox.ascending.imp Nat.ne_of_lt)
  exact List.inj_on_of_nodup_map hnodup hm hm' huid

theorem listing_nodup (s : State) (header : Nat → Bool) :
    ((Scanner.listing s header).map (·.uid)).Nodup := by
  have hnodup : (s.inbox.messages.reverse.map (·.uid)).Nodup := by
    rw [List.map_reverse, List.nodup_reverse]
    exact List.pairwise_map.mpr (s.inbox.ascending.imp Nat.ne_of_lt)
  exact hnodup.sublist ((listing_sublist s header).map _)

/-- Of the records of messages with different UIDs, those under one UID are the
records of its message. -/
theorem filter_records (ms : List Received) (hnodup : (ms.map (·.uid)).Nodup) (m : Received)
    (hsame : ∀ m' ∈ ms, m'.uid = m.uid → m' = m) :
    (ms.flatMap scanner.records).filter (·.uid == m.uid) =
      if ∃ m' ∈ ms, m'.uid = m.uid then scanner.records m else [] := by
  induction ms with
  | nil => simp
  | cons head tail ih =>
    obtain ⟨hhead, htail⟩ := List.nodup_cons.mp hnodup
    have hrest := ih htail fun m' hm' => hsame m' (List.mem_cons_of_mem _ hm')
    rw [List.flatMap_cons, List.filter_append, hrest]
    by_cases huid : head.uid = m.uid
    · obtain rfl := hsame head List.mem_cons_self huid
      have hall : (scanner.records head).filter (·.uid == head.uid) = scanner.records head := by
        refine List.filter_eq_self.mpr fun r hr => ?_
        simpa using records_uid scanner hr
      have hnone : ¬ ∃ m' ∈ tail, m'.uid = head.uid := by
        rintro ⟨m', hm', hsame'⟩
        exact hhead (List.mem_map.mpr ⟨m', hm', hsame'⟩)
      rw [hall, if_neg hnone, if_pos ⟨head, List.mem_cons_self, rfl⟩, List.append_nil]
    · have hnone : (scanner.records head).filter (·.uid == m.uid) = [] := by
        refine List.filter_eq_nil_iff.mpr fun r hr => ?_
        simpa [records_uid scanner hr] using huid
      rw [hnone, List.nil_append]
      simp [huid]

theorem effects_uid {s : State} {header body : Nat → Bool} {r : Record}
    (h : r ∈ scanner.effects s header body) :
    ∃ m ∈ Scanner.listing s header, s.last_uid < m.uid ∧ r.uid = m.uid := by
  obtain ⟨m, hm, hr⟩ := List.mem_flatMap.mp h
  have hcandidate := List.mem_of_mem_filter hm
  obtain ⟨hlisted, hnew⟩ := List.mem_filter.mp hcandidate
  simp only [Bool.and_eq_true, decide_eq_true_eq] at hnew
  exact ⟨m, hlisted, hnew.1, records_uid scanner hr⟩

/-- The records of a scan under the UID of a message it listed and fetched, where
it qualifies, and of any other where not. -/
theorem filter_effects {s : State} {header body : Nat → Bool} {m : Received}
    (hm : m ∈ s.inbox.messages) (hnew : s.last_uid < m.uid)
    (hfetched : scanner.Qualifies m → m ∈ Scanner.listing s header ∧ body m.uid = true) :
    (scanner.effects s header body).filter (·.uid == m.uid) =
      if scanner.isCandidate m then scanner.records m else [] := by
  have hsub : ((scanner.candidates s header).filter fun m => body m.uid).Sublist
      (Scanner.listing s header) := List.filter_sublist.trans List.filter_sublist
  have hsame : ∀ m' ∈ (scanner.candidates s header).filter fun m => body m.uid,
      m'.uid = m.uid → m' = m := fun m' hm' huid =>
    inbox_eq_of_uid (mem_inbox_of_listing (hsub.mem hm')) hm huid
  have hnodup := (listing_nodup s header).sublist (hsub.map (·.uid))
  rw [Scanner.effects, filter_records scanner _ hnodup m hsame]
  by_cases hcandidate : scanner.isCandidate m
  · rw [if_pos hcandidate]
    split
    · rfl
    · rename_i hnot
      by_contra hne
      obtain ⟨hlisted, hbody⟩ := hfetched ⟨hcandidate, fun h => hne h.symm⟩
      exact hnot ⟨m, by simp [Scanner.candidates, hlisted, hnew, hcandidate, hbody], rfl⟩
  · rw [if_neg hcandidate, if_neg]
    rintro ⟨m', hm', huid⟩
    obtain rfl := hsame m' hm' huid
    have hmem := List.of_mem_filter (List.mem_of_mem_filter hm')
    simp [hcandidate] at hmem

theorem foldl_max_le {ms : List Received} {start n : Nat} :
    n ≤ ms.foldl (fun highest m => max highest m.uid) start ↔ n ≤ start ∨ ∃ m ∈ ms, n ≤ m.uid := by
  induction ms generalizing start with
  | nil => simp
  | cons m ms ih => rw [List.foldl_cons, ih, le_max_iff]; simp [or_assoc]

/-! ## Every run -/

/-- What holds of the records besides the claim itself. -/
structure Examined (s : State) : Prop where
  below : ∀ r ∈ s.recorded, r.uid ≤ s.last_uid
  watermark : s.last_uid < s.inbox.uidnext
  once : ∀ m ∈ s.inbox.messages, m.uid ≤ s.last_uid →
    s.recorded.filter (·.uid == m.uid) = if scanner.isCandidate m then scanner.records m else []

theorem Examined.exactlyOnce {s : State} (h : Examined scanner s) : ExactlyOnce scanner s := by
  intro m hm hqualifies hle
  rw [h.once m hm hle, if_pos hqualifies.1]

theorem Examined.arrive {s : State} (h : Examined scanner s) (gap : Nat) (m : Received) :
    Examined scanner { s with inbox := s.inbox.arrive gap m } := by
  refine ⟨h.below, ?_, fun m' hm' hle => ?_⟩
  · have hlt := h.watermark
    simp only [Inbox.arrive]
    omega
  · rcases List.mem_append.mp hm' with hold | hnew
    · exact h.once m' hold hle
    · obtain rfl := List.mem_singleton.mp hnew
      have hlt := h.watermark
      simp only at hle
      omega

theorem Examined.scan {s : State} (h : Examined scanner s) (header body : Nat → Bool)
    (hclean : CleanScan scanner s (.scan ⟨some header, body, none⟩)) :
    Examined scanner { s with
      recorded := s.recorded ++ scanner.effects s header body
      last_uid := Scanner.highest s header } := by
  have hle : s.last_uid ≤ Scanner.highest s header := foldl_max_le.mpr (.inl le_rfl)
  refine ⟨fun r hr => ?_, ?_, fun m hm hbelow => ?_⟩
  · rcases List.mem_append.mp hr with hold | hnew
    · exact (h.below r hold).trans hle
    · obtain ⟨m, hlisted, -, huid⟩ := effects_uid scanner hnew
      exact foldl_max_le.mpr (.inr ⟨m, hlisted, huid.le⟩)
  · by_contra hnot
    rcases foldl_max_le.mp (not_lt.mp hnot) with hlast | ⟨m, hlisted, hlast⟩
    · exact absurd h.watermark (not_lt.mpr hlast)
    · exact absurd (s.inbox.fresh m (mem_inbox_of_listing hlisted)) (not_lt.mpr hlast)
  · rw [List.filter_append]
    by_cases hnew : s.last_uid < m.uid
    · -- nothing was recorded above the old watermark
      have hnone : s.recorded.filter (·.uid == m.uid) = [] := by
        refine List.filter_eq_nil_iff.mpr fun r hr => ?_
        have hr' := h.below r hr
        simp only [beq_iff_eq]
        omega
      have hlisted : ∃ listed ∈ Scanner.listing s header, m.uid ≤ listed.uid :=
        (foldl_max_le.mp hbelow).resolve_left (not_le.mpr hnew)
      rw [hnone, List.nil_append]
      exact filter_effects scanner hm hnew fun hqualifies => hclean m hm hqualifies hnew hlisted
    · have hnone : (scanner.effects s header body).filter (·.uid == m.uid) = [] := by
        refine List.filter_eq_nil_iff.mpr fun r hr => ?_
        obtain ⟨m', -, hm', huid⟩ := effects_uid scanner hr
        simp only [beq_iff_eq]
        omega
      rw [hnone, List.append_nil]
      exact h.once m hm (not_lt.mp hnew)

theorem Examined.step {s : State} (h : Examined scanner s) (a : Act)
    (hclean : CleanScan scanner s a) : Examined scanner (step scanner s a) := by
  cases a with
  | arrive gap m => exact h.arrive scanner gap m
  | scan run =>
    obtain ⟨header, body, raised⟩ := run
    cases header with
    | none => exact h
    | some header =>
      cases raised with
      | none => exact h.scan scanner header body hclean
      | some k =>
        have hsame : Bounce.step scanner s (.scan ⟨some header, body, some k⟩) = s := by
          simp only [Bounce.step, Scanner.scanMailbox]
          rw [show (scanner.effects s header body).take k = [] from hclean, List.append_nil]
        rw [hsame]
        exact h

/-- **Each notification once.** In every state of a run whose scans are clean,
whatever arrives in between. -/
theorem scan_exactly_once (inputs : List Act)
    (h : (scans scanner).EveryStep (fun _ s a => CleanScan scanner s a) inputs) :
    (scans scanner).Always (fun _ s => ExactlyOnce scanner s) inputs := by
  have hinv : (scans scanner).Always (fun _ s => Examined scanner s) inputs := by
    refine Machine.always_of_step ?_ ?_ h
    · exact ⟨by simp [scans], Nat.zero_lt_one, by simp [scans, emptyInbox]⟩
    · intro pre a hpre hclean
      rw [Machine.run_snoc]
      exact hpre.step scanner a hclean
  exact fun pre hpre => (hinv pre hpre).exactlyOnce scanner

def anyAddress : Scanner := ⟨.asciiOnly, fun _ => true⟩

def failedEntry : DsnRecipient := ⟨"bob@corp.test", "failed", some "5.1.1", some 550⟩

def notification : Received :=
  ⟨0, "MAILER-DAEMON@mx.corp.test", "Undelivered", ⟨true, [failedEntry]⟩⟩

def servedScan : ScanRun := ⟨some fun _ => true, fun _ => true, none⟩

theorem scan_exactly_once_notification :
    ExactlyOnce anyAddress ((scans anyAddress).run [.arrive 0 notification, .scan servedScan]) := by
  have harrived : (scans anyAddress).EveryStep (fun _ s a => CleanScan anyAddress s a)
      ([] ++ [.arrive 0 notification]) := (Machine.everyStep_nil _).snoc trivial
  have hscanned : (scans anyAddress).EveryStep (fun _ s a => CleanScan anyAddress s a)
      ([] ++ [.arrive 0 notification] ++ [.scan servedScan]) := by
    refine harrived.snoc fun m hm _ _ _ => ?_
    obtain rfl : m = { notification with uid := 1 } := List.mem_singleton.mp hm
    exact ⟨List.mem_singleton.mpr rfl, rfl⟩
  exact scan_exactly_once anyAddress _ hscanned _ (List.prefix_refl _)

/-- The body of the one notification does not come back, and the watermark moves
past it. A scan that raises behind its two records leaves the watermark, and the
next scan records both again. -/
theorem scan_skips_and_repeats :
    ((scans anyAddress).run [.arrive 0 notification,
        .scan { servedScan with body := fun _ => false }]).last_uid = 1 ∧
      ((scans anyAddress).run [.arrive 0 notification,
        .scan { servedScan with body := fun _ => false }]).recorded = [] ∧
      ¬ ExactlyOnce anyAddress ((scans anyAddress).run [.arrive 0 notification,
        .scan { servedScan with body := fun _ => false }]) ∧
      ¬ ExactlyOnce anyAddress ((scans anyAddress).run [.arrive 0 notification,
        .scan { servedScan with raised := some 2 }, .scan servedScan]) := by
  have hqualifies : anyAddress.Qualifies { notification with uid := 1 } := by
    constructor <;> decide
  refine ⟨by decide, by decide, fun h => ?_, fun h => ?_⟩
  · have hrecords := h { notification with uid := 1 } (List.mem_singleton.mpr rfl) hqualifies
      (by decide)
    revert hrecords
    decide
  · have hrecords := h { notification with uid := 1 } (List.mem_singleton.mpr rfl) hqualifies
      (by decide)
    revert hrecords
    decide

end MailCue.Backend.Emails.Bounce
