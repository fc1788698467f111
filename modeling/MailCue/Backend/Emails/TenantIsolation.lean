import Mathlib.Algebra.Order.Ring.Unbundled.Rat
import Mathlib.Data.List.Find
import MailCue.Backend.Emails.BounceFeedback

/-!
# Bounce feedback of one tenant and the rows of another

Two queries select by the hash of the address and not by the owner: a bounce
resolves every staged recipient that waits on it, and an outcome is scored by
the newest prediction for it. Where another tenant has neither for any address
that is reported, its rows stay as they are and nothing of them shows. The
domain and provider aggregates and the suppressions they feed are shared by
design: they are the same as long as the outcomes behind them are.
-/
namespace MailCue.Backend.Emails.Bounce

/-- The rows of one tenant. -/
structure Rows where
  canaries : List Canary
  predictions : List Prediction
  feedback : List FeedbackRow

def Database.rows (db : Database) (owner : String → Bool) : Rows where
  canaries := db.canaries.filter fun canary => owner canary.user_id
  predictions := db.predictions.filter fun p => owner p.user_id
  feedback := db.feedback.filter fun row => owner row.user_id

def Database.ownedBy (db : Database) (user_id : String) : Rows := db.rows (· == user_id)

/-- The databases differ in rows of this tenant, if at all. -/
def AgreeOff (user_id : String) (db db' : Database) : Prop :=
  db.rows (· != user_id) = db'.rows (· != user_id)

/-- The write meets no row of this tenant: no recipient that waits for the
bounce, and no prediction for the address that no other tenant has a newer one
than. -/
def Separate (services : Services) (user_id : String) (db : Database) (now : Int) : Write → Prop
  | .bounce r => ∀ canary ∈ db.canaries, canary.user_id = user_id → ∀ row ∈ canary.recipients,
      row.email_hash = services.emailHash r.email → row.status ≠ .sent
  | .feedback r => ∀ p ∈ db.matching (services.emailHash r.email) now, p.user_id = user_id →
      ∃ q ∈ db.matching (services.emailHash r.email) now,
        q.user_id ≠ user_id ∧ p.created_at < q.created_at

/-! ## The newest prediction -/

def isNewest (ps : List Prediction) (p : Prediction) : Bool :=
  ps.all fun q => q.created_at ≤ p.created_at

theorem isNewest_iff {ps : List Prediction} {p : Prediction} :
    isNewest ps p = true ↔ ∀ q ∈ ps, q.created_at ≤ p.created_at := by
  simp [isNewest]

/-- It is the first one that none of the others is newer than. -/
theorem newest_eq_find (ps : List Prediction) : newest ps = ps.find? (isNewest ps) := by
  induction ps with
  | nil => rfl
  | cons p rest ih =>
    cases hrest : newest rest with
    | none =>
      have hnil : rest = [] := by
        cases rest with
        | nil => rfl
        | cons q more =>
          simp only [newest] at hrest
          split at hrest <;> cases hrest
      subst hnil
      simp [newest, isNewest]
    | some q =>
      rw [hrest] at ih
      have hmax := isNewest_iff.mp (List.find?_some ih.symm)
      have hq : q ∈ rest := List.mem_of_find?_eq_some ih.symm
      simp only [newest, hrest]
      by_cases hlt : p.created_at < q.created_at
      · have hp : ¬ isNewest (p :: rest) p = true := fun h =>
          absurd (isNewest_iff.mp h q (List.mem_cons_of_mem _ hq)) (not_le.mpr hlt)
        rw [if_pos hlt, List.find?_cons_of_neg hp, ih]
        refine List.find?_congr fun r hr => ?_
        rw [Bool.eq_iff_iff, isNewest_iff, isNewest_iff, List.forall_mem_cons]
        exact ⟨fun h => ⟨(hlt.le).trans (h q hq), h⟩, fun h => h.2⟩
      · have hp : isNewest (p :: rest) p = true := by
          rw [isNewest_iff, List.forall_mem_cons]
          exact ⟨le_rfl, fun r hr => (hmax r hr).trans (not_lt.mp hlt)⟩
        rw [if_neg hlt, List.find?_cons_of_pos hp]

theorem newest_filter (keep : Prediction → Bool) (ps : List Prediction)
    (h : ∀ p ∈ ps, keep p = false → ∃ q ∈ ps, keep q = true ∧ p.created_at < q.created_at) :
    newest (ps.filter keep) = newest ps := by
  rw [newest_eq_find, newest_eq_find, List.find?_filter]
  refine List.find?_congr fun p hp => ?_
  rw [Bool.eq_iff_iff, decide_eq_true_eq, isNewest_iff, isNewest_iff]
  simp only [List.mem_filter, and_imp]
  constructor
  · rintro ⟨-, hmax⟩ q hq
    cases hkeep : keep q with
    | true => exact hmax q hq hkeep
    | false =>
      obtain ⟨x, hx, hkeepx, hlt⟩ := h q hq hkeep
      exact hlt.le.trans (hmax x hx hkeepx)
  · intro hmax
    refine ⟨?_, fun q hq _ => hmax q hq⟩
    by_contra hkeep
    obtain ⟨q, hq, -, hlt⟩ := h p hp (by simpa using hkeep)
    exact absurd (hmax q hq) (not_le.mpr hlt)

theorem predictedScore_congr {services : Services} {user_id : String} {db db' : Database} {now : Int}
    {r : Report} (hagree : AgreeOff user_id db db') (h : Separate services user_id db now (.feedback r))
    (h' : Separate services user_id db' now (.feedback r)) :
    db.predictedScore (services.emailHash r.email) now =
      db'.predictedScore (services.emailHash r.email) now := by
  have hoff : ∀ db : Database, Separate services user_id db now (.feedback r) →
      newest (db.matching (services.emailHash r.email) now) =
        newest ((db.rows (· != user_id)).predictions.filter fun p =>
          p.email_hash == services.emailHash r.email &&
            now - days predictionMatchDays ≤ p.created_at) := by
    intro db hdb
    have hkeep : ∀ p ∈ db.matching (services.emailHash r.email) now,
        (p.user_id != user_id) = false → ∃ q ∈ db.matching (services.emailHash r.email) now,
          (q.user_id != user_id) = true ∧ p.created_at < q.created_at := by
      intro p hp howner
      obtain ⟨q, hq, hother, hlt⟩ := hdb p hp (by simpa using howner)
      exact ⟨q, hq, by simpa using hother, hlt⟩
    rw [← newest_filter (fun p => p.user_id != user_id) _ hkeep]
    simp only [Database.matching, Database.rows, List.filter_filter, Bool.and_comm]
  rw [Database.predictedScore, Database.predictedScore, hoff db h, hoff db' h', hagree]

/-! ## One write -/

section
variable (services : Services) {a b : String} {now : Int}

/-- The suppressions are all it writes. -/
theorem maybeSuppressDomain_eq (db : Database) (domain : String) :
    maybeSuppressDomain db now domain =
      { db with suppressions := (maybeSuppressDomain db now domain).suppressions } := by
  unfold maybeSuppressDomain
  dsimp only
  split
  · rfl
  · split <;> rfl

theorem maybeSuppressDomain_congr {db db' : Database} (domain : String)
    (hfeedback : db.feedback = db'.feedback) (hsuppressions : db.suppressions = db'.suppressions) :
    (maybeSuppressDomain db now domain).suppressions =
      (maybeSuppressDomain db' now domain).suppressions := by
  unfold maybeSuppressDomain
  rw [hfeedback]
  dsimp only
  split
  · exact hsuppressions
  · split
    · exact hsuppressions
    · simp only [hsuppressions]

/-- What a report about the user's own mail makes of the outcomes. -/
def reported (user_id : String) (now : Int) (r : Report) (score : Option Rat)
    (feedback : List FeedbackRow) : List FeedbackRow :=
  (feedback.filter fun row =>
    !(row.user_id == user_id && row.occurred_at < now - days historyDays)) ++
  [{ user_id := user_id
     email_hash := services.emailHash r.email
     domain := services.lower r.domain
     outcome := r.outcome
     smtp_code := r.smtp_code
     enhanced_status := r.enhanced_status
     provider_id := services.providerIdForDomain r.domain
     source := r.source
     predicted_score := score
     occurred_at := now }]

theorem recordValidationFeedback_spec (a : String) (now : Int) (db : Database) (r : Report) :
    (recordValidationFeedback services a now r db).canaries = db.canaries ∧
      (recordValidationFeedback services a now r db).predictions = db.predictions ∧
      (recordValidationFeedback services a now r db).feedback = reported services a now r
        (db.predictedScore (services.emailHash r.email) now) db.feedback := by
  unfold recordValidationFeedback
  dsimp only
  split
  · rw [maybeSuppressDomain_eq]
    exact ⟨rfl, rfl, rfl⟩
  · exact ⟨rfl, rfl, rfl⟩

theorem reported_filter (owner : String → Bool) (r : Report) (score : Option Rat)
    (feedback : List FeedbackRow) :
    (reported services a now r score feedback).filter (fun row => owner row.user_id) =
      if owner a then reported services a now r score (feedback.filter fun row => owner row.user_id)
      else feedback.filter fun row => owner row.user_id := by
  unfold reported
  rw [List.filter_append, List.filter_filter]
  cases howner : owner a with
  | true => simp [howner, List.filter_filter, Bool.and_comm]
  | false =>
    simp only [howner, List.filter_cons_of_neg, Bool.false_eq_true, not_false_eq_true,
      List.filter_nil, List.append_nil, if_false]
    refine List.filter_congr fun row _ => ?_
    by_cases hrow : row.user_id = a
    · simp [hrow, howner]
    · simp [hrow]

/-- The rows of another tenant through a write that meets none of them. -/
theorem write_ownedBy (hab : a ≠ b) (db : Database) (w : Write)
    (h : Separate services b db now w) :
    (w.run services a now db).ownedBy b = db.ownedBy b ∧
      (w.run services a now db).predictions = db.predictions := by
  cases w with
  | feedback r =>
    obtain ⟨hcanaries, hpredictions, hfeedback⟩ :=
      recordValidationFeedback_spec services a now db r
    have hother : (a == b) = false := by simpa using hab
    refine ⟨?_, hpredictions⟩
    simp only [Database.ownedBy, Database.rows, Write.run, hcanaries, hpredictions, hfeedback,
      reported_filter services (· == b), hother, Bool.false_eq_true, if_false]
  | bounce r =>
    refine ⟨?_, rfl⟩
    have hsame : ∀ canary ∈ db.canaries, canary.user_id = b →
        canary.applyBounce services now r = canary := by
      intro canary hcanary howner
      have hrows : (canary.recipients.map fun row =>
          if row.email_hash = services.emailHash r.email ∧ row.status = .sent then row.resolve now r
          else row) = canary.recipients := by
        refine (List.map_congr_left fun row hrow => ?_).trans (List.map_id _)
        exact if_neg fun hmatch => h canary hcanary howner row hrow hmatch.1 hmatch.2
      simp only [Canary.applyBounce, hrows]
    have hcanaries : (db.canaries.map (Canary.applyBounce services now r)).filter
        (fun canary => canary.user_id == b) = db.canaries.filter fun canary => canary.user_id == b := by
      rw [List.filter_map]
      refine (List.map_congr_left fun canary hcanary => ?_).trans (List.map_id _)
      obtain ⟨hmem, howner⟩ := List.mem_filter.mp hcanary
      exact hsame canary hmem (by simpa [Canary.applyBounce] using howner)
    simp only [Database.ownedBy, Database.rows, Write.run, applyBounce, hcanaries]

/-- Two databases that differ in the rows of one tenant, through a write that
meets none of them in either. -/
theorem write_agreeOff {db db' : Database} (hagree : AgreeOff b db db') (w : Write)
    (h : Separate services b db now w) (h' : Separate services b db' now w) :
    AgreeOff b (w.run services a now db) (w.run services a now db') ∧
      (db.feedback = db'.feedback → db.suppressions = db'.suppressions →
        (w.run services a now db).feedback = (w.run services a now db').feedback ∧
        (w.run services a now db).suppressions = (w.run services a now db').suppressions) := by
  cases w with
  | feedback r =>
    have hscore := predictedScore_congr hagree h h'
    obtain ⟨hcanaries, hpredictions, hfeedback⟩ :=
      recordValidationFeedback_spec services a now db r
    obtain ⟨hcanaries', hpredictions', hfeedback'⟩ :=
      recordValidationFeedback_spec services a now db' r
    obtain ⟨hsame1, hsame2, hsame3⟩ := Rows.mk.inj hagree
    refine ⟨?_, fun hall hsuppressions => ⟨?_, ?_⟩⟩
    · simp only [AgreeOff, Database.rows, Write.run, hcanaries, hcanaries', hpredictions,
        hpredictions', hfeedback, hfeedback', reported_filter services (· != b), hsame1, hsame2,
        hsame3, hscore]
    · rw [Write.run, hfeedback, Write.run, hfeedback', hscore, hall]
    · simp only [Write.run, recordValidationFeedback]
      split
      · refine maybeSuppressDomain_congr (services.lower r.domain) ?_ hsuppressions
        simp only [hall, hscore]
      · exact hsuppressions
  | bounce r =>
    obtain ⟨hsame1, hsame2, hsame3⟩ := Rows.mk.inj hagree
    refine ⟨?_, fun hall hsuppressions => ⟨hall, hsuppressions⟩⟩
    have hmap : ∀ db : Database, (db.canaries.map (Canary.applyBounce services now r)).filter
        (fun canary => canary.user_id != b) =
        (db.canaries.filter fun canary => canary.user_id != b).map
          (Canary.applyBounce services now r) := by
      intro db
      rw [List.filter_map]
      rfl
    simp only [AgreeOff, Database.rows, Write.run, applyBounce, hmap, hsame1, hsame2, hsame3]

/-- Whether a write meets rows of a tenant depends on its rows and the predictions alone. -/
theorem separate_congr {db db' : Database} (hrows : db'.ownedBy b = db.ownedBy b)
    (hpredictions : db'.predictions = db.predictions) (w : Write)
    (h : Separate services b db now w) : Separate services b db' now w := by
  cases w with
  | feedback r => simpa [Separate, Database.matching, hpredictions] using h
  | bounce r =>
    intro canary hcanary howner
    have hmem : canary ∈ (db'.ownedBy b).canaries := by
      simp [Database.ownedBy, Database.rows, hcanary, howner]
    rw [hrows] at hmem
    exact h canary (List.mem_of_mem_filter hmem) howner

/-! ## Every sequence of requests -/

/-- The writes of a sequence of requests, each with the time of its request. -/
def timedWrites (ops : List Op) : List (Int × Write) :=
  ops.flatMap fun op => (op.writes services).map fun w => (op.now, w)

theorem run_eq_foldl (user_id : String) (db : Database) (ops : List Op) :
    run services user_id db ops =
      (timedWrites services ops).foldl (fun db (now, w) => w.run services user_id now db) db := by
  induction ops generalizing db with
  | nil => rfl
  | cons op ops ih =>
    have hop : ∀ (ws : List Write) (db : Database),
        ws.foldl (Write.run services user_id op.now) db =
          (ws.map fun w => (op.now, w)).foldl
            (fun db (now, w) => w.run services user_id now db) db := by
      intro ws db
      rw [List.foldl_map]
    rw [show run services user_id db (op :: ops) =
      run services user_id (op.run services user_id db) ops from rfl, ih]
    simp only [timedWrites, List.flatMap_cons, List.foldl_append, Op.run, hop]

theorem writes_isolated (hab : a ≠ b) (ws : List (Int × Write)) (db db' : Database)
    (hagree : AgreeOff b db db')
    (h : ∀ w ∈ ws, Separate services b db w.1 w.2 ∧ Separate services b db' w.1 w.2) :
    let after := ws.foldl (fun db (now, w) => w.run services a now db) db
    let after' := ws.foldl (fun db (now, w) => w.run services a now db) db'
    after.ownedBy b = db.ownedBy b ∧ AgreeOff b after after' ∧
      (db.feedback = db'.feedback → db.suppressions = db'.suppressions →
        after.feedback = after'.feedback ∧ after.suppressions = after'.suppressions) := by
  induction ws generalizing db db' with
  | nil => exact ⟨rfl, hagree, fun hfeedback hsuppressions => ⟨hfeedback, hsuppressions⟩⟩
  | cons head rest ih =>
    obtain ⟨now, w⟩ := head
    obtain ⟨hw, hw'⟩ := h _ List.mem_cons_self
    obtain ⟨hrows, hpredictions⟩ := write_ownedBy services hab db w hw
    obtain ⟨hrows', hpredictions'⟩ := write_ownedBy services hab db' w hw'
    obtain ⟨hagree1, hshared⟩ := write_agreeOff services (a := a) hagree w hw hw'
    obtain ⟨hown, hoff, hrest⟩ := ih _ _ hagree1 fun w' hmem =>
      ⟨separate_congr services hrows hpredictions w'.2 (h w' (List.mem_cons_of_mem _ hmem)).1,
        separate_congr services hrows' hpredictions' w'.2 (h w' (List.mem_cons_of_mem _ hmem)).2⟩
    refine ⟨hown.trans hrows, hoff, fun hfeedback hsuppressions => ?_⟩
    obtain ⟨hfeedback1, hsuppressions1⟩ := hshared hfeedback hsuppressions
    exact hrest hfeedback1 hsuppressions1

theorem ownedBy_of_agreeOff (hab : a ≠ b) {db db' : Database} (h : AgreeOff b db db') :
    db.ownedBy a = db'.ownedBy a := by
  have hother : ∀ user_id : String, (user_id == a && user_id != b) = (user_id == a) := by
    intro user_id
    by_cases huser : user_id = a
    · simp [huser, hab]
    · simp [huser]
  have hown : ∀ db : Database, db.ownedBy a =
      ⟨(db.rows (· != b)).canaries.filter fun canary => canary.user_id == a,
        (db.rows (· != b)).predictions.filter fun p => p.user_id == a,
        (db.rows (· != b)).feedback.filter fun row => row.user_id == a⟩ := by
    intro db
    simp only [Database.ownedBy, Database.rows, List.filter_filter, hother]
  rw [hown db, hown db', h]

/-- **Feedback stays with its tenant.** Whatever `a` reports, ingests and scans,
as long as no address of it waits for a bounce in a staged send of `b` or has its
newest prediction from `b`: the rows of `b` stay as they are, and the rows of `a`
are the same whatever rows `b` has. The shared tables are the same as well where
only canaries and predictions of `b` differ. No response reads the database. -/
theorem feedback_isolates_tenants (hab : a ≠ b) (db db' : Database) (hagree : AgreeOff b db db')
    (ops : List Op)
    (h : ∀ w ∈ timedWrites services ops,
      Separate services b db w.1 w.2 ∧ Separate services b db' w.1 w.2) :
    (run services a db ops).ownedBy b = db.ownedBy b ∧
      (run services a db ops).ownedBy a = (run services a db' ops).ownedBy a ∧
      (db.feedback = db'.feedback → db.suppressions = db'.suppressions →
        (run services a db ops).feedback = (run services a db' ops).feedback ∧
        (run services a db ops).suppressions = (run services a db' ops).suppressions) := by
  obtain ⟨hown, hoff, hshared⟩ :=
    writes_isolated services hab (timedWrites services ops) db db' hagree h
  rw [run_eq_foldl, run_eq_foldl]
  exact ⟨hown, ownedBy_of_agreeOff hab hoff, hshared⟩

end

def plainServices : Services where
  emailHash := id
  lower := id
  validDomain _ := some "corp.test"
  providerIdForDomain _ := none
  dsnIngestEnabled := true

def bounceOf (email : String) : Op where
  now := 0
  request := .ingest ⟨true, [⟨email, "failed", some "5.1.1", some 550⟩]⟩

/-- The second tenant waits for bob, whom it has scored before. -/
def twoTenants : Database where
  canaries := [⟨"1", "a", [⟨"eve@corp.test", .sent, none, none, none⟩]⟩,
    ⟨"2", "b", [⟨"bob@corp.test", .sent, none, none, none⟩]⟩]
  predictions := [⟨"b", "bob@corp.test", 1, 0⟩]
  feedback := []
  suppressions _ := none

def firstTenant : Database :=
  { twoTenants with
    canaries := [⟨"1", "a", [⟨"eve@corp.test", .sent, none, none, none⟩]⟩]
    predictions := [] }

theorem firstTenant_agrees : AgreeOff "b" twoTenants firstTenant := by
  simp [AgreeOff, Database.rows, twoTenants, firstTenant]

theorem feedback_isolates_tenants_eve :
    (run plainServices "a" twoTenants [bounceOf "eve@corp.test"]).ownedBy "b" =
      twoTenants.ownedBy "b" := by
  refine (feedback_isolates_tenants plainServices (by decide) twoTenants firstTenant
    firstTenant_agrees [bounceOf "eve@corp.test"] fun w hw => ?_).1
  have hreport : w.2.report.email = "eve@corp.test" := by
    simp only [timedWrites, List.flatMap_cons, List.flatMap_nil, List.append_nil, List.mem_map] at hw
    obtain ⟨write, hwrite, rfl⟩ := hw
    rcases List.mem_cons.mp hwrite with rfl | hwrite
    · rfl
    · obtain rfl := List.mem_singleton.mp hwrite
      rfl
  obtain ⟨now, write⟩ := w
  cases write with
  | feedback r =>
    have hemail : r.email = "eve@corp.test" := hreport
    constructor <;>
      simp [Separate, Database.matching, twoTenants, firstTenant, plainServices, hemail]
  | bounce r =>
    have hemail : r.email = "eve@corp.test" := hreport
    constructor <;> simp [Separate, twoTenants, firstTenant, plainServices, hemail]

/-- The first tenant ingests a bounce of bob: the staged send of the second is
resolved, and the outcome of the first carries the score of the second. -/
theorem bounce_crosses_tenants :
    AgreeOff "b" twoTenants firstTenant ∧
      ((run plainServices "a" twoTenants [bounceOf "bob@corp.test"]).ownedBy "b").canaries ≠
        (twoTenants.ownedBy "b").canaries ∧
      ((run plainServices "a" twoTenants [bounceOf "bob@corp.test"]).ownedBy "a").feedback.map
        (·.predicted_score.isSome) = [true] ∧
      ((run plainServices "a" firstTenant [bounceOf "bob@corp.test"]).ownedBy "a").feedback.map
        (·.predicted_score.isSome) = [false] :=
  ⟨firstTenant_agrees, by decide, by decide, by decide⟩

end MailCue.Backend.Emails.Bounce
