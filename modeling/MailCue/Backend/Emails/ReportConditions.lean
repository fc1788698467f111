import MailCue.Backend.Emails.DeliverabilityScore

/-!
# What a report needs

When `score_deliverability` returns a report: the points of a check are in their range by its
type, and the scores in that of percentages, so that all depends on what is raised.
-/
namespace MailCue.Backend.Emails.Deliverability
open MailCue.Lib

section
variable (lib : Library)

/-! ## Conditions -/

/-- What reading the content raises, if anything, is caught. -/
def Part.Readable (part : Part) : Prop :=
  ∀ raised, part.content = .error raised → raised = .lookupError ∨ raised = .unicodeError

def Part.shown (part : Part) : Text :=
  match part.content with
  | .ok value => value
  | .error _ => part.replaced

def Library.shownBodies (msg : Message) : Bodies :=
  lib.bodiesOf (msg.bodies.map fun part => (part.content_type, part.shown))

def Library.Splits (url : Text) : Prop := ∃ parsed, Url.urlsplit lib.nfkc url = some parsed

def Library.isUnsafeLink (link : Text) : Bool := (Url.urlsplit lib.nfkc link).any lib.isUnsafe

/-- The link splits, and so does the URL its label shows, where it has a host. -/
def Library.LabelSplits (link : Text × Text) : Prop :=
  ∃ target, Url.urlsplit lib.nfkc link.1 = some target ∧
    ∀ shown, lib.labelUrl target link.2 = some shown → lib.Splits shown

/-- What is displayed of a link whose label shows another host. -/
def Library.displayed (link : Text × Text) : Option Text := do
  let target ← Url.urlsplit lib.nfkc link.1
  let label ← Url.urlsplit lib.nfkc (← lib.labelUrl target link.2)
  lib.mismatch target label

/-- What a message needs to be scored. -/
structure Library.Scorable (msg : Message) : Prop where
  header : msg.raised = none
  contents : ∀ part ∈ msg.bodies, part.Readable
  preheader : ∀ block, (lib.shownBodies msg).html ≠ [] →
    lib.hiddenBlock ((lib.shownBodies msg).html.take 20000) = some block →
      Succeeds (lib.unescape (dropTags block))
  links : ∀ link ∈ (lib.shownBodies msg).inspector.links, lib.Splits link
  unsafe_links : ∀ link ∈ ((lib.shownBodies msg).inspector.links.filter lib.isUnsafeLink).take 10,
    lib.isUnicode link = true
  labels : ∀ link ∈ (lib.shownBodies msg).inspector.link_labels, lib.LabelSplits link
  mismatched : ∀ text ∈
    ((lib.shownBodies msg).inspector.link_labels.filterMap lib.displayed).take 10,
    lib.isUnicode text = true

/-! ## Bodies -/

theorem text_gives (part : Part) : GivesWhen part.Readable part.text part.shown where
  gives h := by
    unfold Part.text Part.shown
    cases hcontent : part.content with
    | ok value => rfl
    | error raised =>
      obtain rfl | rfl := h raised hcontent
      · rfl
      · rfl
  condition_of h := by
    intro raised hcontent
    unfold Part.text at h
    rw [hcontent] at h
    cases raised with
    | lookupError => exact .inl rfl
    | unicodeError => exact .inr rfl
    | _ => exact absurd h (not_succeeds_error _)

theorem messageBodies_gives (msg : Message) :
    GivesWhen (∀ part ∈ msg.bodies, part.Readable) (lib.messageBodies msg)
      (lib.shownBodies msg) :=
  (GivesWhen.mapM msg.bodies fun part => (text_gives part).map).map

/-! ## Links -/

theorem succeeds_urlparse_bind {α : Type} {url : Text}
    {next : Url.SplitResult → Except Raised α} :
    Succeeds (lib.urlparse url >>= next) ↔
      ∃ parsed, Url.urlsplit lib.nfkc url = some parsed ∧ Succeeds (next parsed) := by
  rw [succeeds_bind]
  unfold Library.urlparse
  cases Url.urlsplit lib.nfkc url with
  | none => simp
  | some parsed => simp

theorem isUnsafeLink_gives (link : Text) :
    GivesWhen (lib.Splits link)
      (do return (link, lib.isUnsafe (← lib.urlparse link))) (link, lib.isUnsafeLink link) where
  gives := by
    rintro ⟨parsed, h⟩
    simp only [Library.urlparse, Library.isUnsafeLink, h]
    rfl
  condition_of h := by
    obtain ⟨parsed, hparsed, _⟩ := (succeeds_urlparse_bind lib).mp h
    exact ⟨parsed, hparsed⟩

theorem unsafeLinks_gives (links : List Text) :
    GivesWhen (∀ link ∈ links, lib.Splits link) (lib.unsafeLinks links)
      (links.filter lib.isUnsafeLink) := by
  have h := (GivesWhen.mapM links (isUnsafeLink_gives lib)).map
    (f := fun parsed => (parsed.filter (·.2)).map (·.1))
  have hfilter : ((links.map fun link => (link, lib.isUnsafeLink link)).filter (·.2)).map (·.1) =
      links.filter lib.isUnsafeLink := by
    rw [List.filter_map, List.map_map]
    exact List.map_id _
  rw [hfilter] at h
  exact h

/-- What one turn of the loop over the labels gives. -/
def Library.identityOf (link : Text × Text) : Bool × Option Text :=
  ((Url.urlsplit lib.nfkc link.1).any (·.scheme == "http".toList), lib.displayed link)

theorem labelIdentity_gives (link : Text × Text) :
    GivesWhen (lib.LabelSplits link) (lib.labelIdentity link) (lib.identityOf link) where
  gives := by
    rintro ⟨target, htarget, hshown⟩
    cases hlabel : lib.labelUrl target link.2 with
    | none => simp [Library.labelIdentity, Library.identityOf, Library.displayed,
        Library.urlparse, htarget, hlabel, bind, Except.bind, pure, Except.pure]
    | some shown =>
      obtain ⟨label, hsplit⟩ := hshown shown hlabel
      simp [Library.labelIdentity, Library.identityOf, Library.displayed,
        Library.urlparse, htarget, hlabel, hsplit, bind, Except.bind, pure, Except.pure]
  condition_of h := by
    obtain ⟨target, htarget, hnext⟩ := (succeeds_urlparse_bind lib).mp h
    refine ⟨target, htarget, fun shown hlabel => ?_⟩
    simp only [hlabel] at hnext
    obtain ⟨label, hsplit, _⟩ := (succeeds_urlparse_bind lib).mp hnext
    exact ⟨label, hsplit⟩

/-! ## Details -/

theorem isUnicode_ascii {text : Text} (h : ∀ c ∈ text, Text.ascii c = true) :
    lib.isUnicode text = true := by
  have hnone : text.any lib.isSurrogate = false :=
    List.any_eq_false.mpr fun c hc => by simp [lib.isSurrogate_ascii c (h c hc)]
  simp [Library.isUnicode, hnone]

theorem ascii_number (n : Nat) : ∀ c ∈ number n, Text.ascii c = true := by
  intro c hc
  have hdigit : c.isDigit = true := Nat.isDigit_of_mem_toDigits (by decide) (by decide) hc
  simp only [Char.isDigit, Bool.and_eq_true, decide_eq_true_eq] at hdigit
  have hle : c.toNat ≤ 57 := hdigit.2
  simp only [Text.ascii, decide_eq_true_eq]
  omega

theorem checked_gives (found : ScoredCheck) :
    GivesWhen (∀ text ∈ found.details, lib.isUnicode text = true) (lib.checked found) found where
  gives h := if_pos (List.all_eq_true.mpr h)
  condition_of h := by
    by_contra hrefused
    rw [← List.all_eq_true] at hrefused
    rw [Library.checked, if_neg hrefused] at h
    exact not_succeeds_error _ h

theorem linkHygiene_details (links unsafe_links : List Text) :
    (linkHygiene links unsafe_links).details = unsafe_links.take 10 := by
  unfold linkHygiene
  cases unsafe_links with
  | nil => rfl
  | cons link rest => rfl

/-- The number of insecure links is taken. -/
theorem linkIdentity_details (identities : List (Bool × Option Text)) :
    (∀ text ∈ (linkIdentity identities).details, lib.isUnicode text = true) ↔
      ∀ text ∈ (identities.filterMap (·.2)).take 10, lib.isUnicode text = true := by
  unfold linkIdentity
  cases hmismatched : identities.filterMap (·.2) with
  | cons text rest => exact Iff.rfl
  | nil =>
    refine iff_of_true ?_ (by simp)
    simp only [List.isEmpty_nil, Bool.not_true, Bool.false_eq_true, if_false]
    split
    · intro text htext
      rw [check, List.mem_singleton] at htext
      rw [htext]
      refine isUnicode_ascii lib fun c hc => ?_
      rcases List.mem_append.mp hc with hlabel | hnumber
      · exact List.all_eq_true.mp (by decide) c hlabel
      · exact ascii_number _ c hnumber
    · intro text htext
      cases htext

/-! ## The content -/

theorem succeeds_preheaderText (html : Text) :
    Succeeds (lib.preheaderText html) ↔ ∀ block, html ≠ [] →
      lib.hiddenBlock (html.take 20000) = some block →
        Succeeds (lib.unescape (dropTags block)) := by
  unfold Library.preheaderText
  cases html with
  | nil => simp
  | cons c rest =>
    simp only [List.isEmpty_cons, Bool.false_eq_true, if_false, ne_eq, reduceCtorEq,
      not_false_eq_true, forall_const]
    cases lib.hiddenBlock ((c :: rest).take 20000) with
    | none => simp
    | some block =>
      rw [succeeds_bind_of_forall fun text => iff_true_intro (succeeds_pure _), and_true]
      simp

/-- The checks of the content are made of each message that can be scored. -/
theorem succeeds_contentChecks (msg : Message) (hread : msg.raised = none) :
    Succeeds (lib.contentChecks msg) ↔ lib.Scorable msg := by
  have hcontent : Succeeds (lib.contentChecks msg) ↔
      (∀ part ∈ msg.bodies, part.Readable) ∧
      Succeeds (lib.preheaderText (lib.shownBodies msg).html) ∧
      (∀ link ∈ (lib.shownBodies msg).inspector.links, lib.Splits link) ∧
      (∀ link ∈ ((lib.shownBodies msg).inspector.links.filter lib.isUnsafeLink).take 10,
        lib.isUnicode link = true) ∧
      (∀ link ∈ (lib.shownBodies msg).inspector.link_labels, lib.LabelSplits link) ∧
      ∀ text ∈ ((lib.shownBodies msg).inspector.link_labels.filterMap lib.displayed).take 10,
        lib.isUnicode text = true := by
    unfold Library.contentChecks
    rw [(messageBodies_gives lib msg).succeeds_bind]
    refine and_congr_right fun _ => succeeds_bind_of_forall fun preheader => ?_
    rw [(unsafeLinks_gives lib _).succeeds_bind, (checked_gives lib _).succeeds_bind,
      linkHygiene_details, (GivesWhen.mapM _ (labelIdentity_gives lib)).succeeds_bind,
      (checked_gives lib _).succeeds_bind, linkIdentity_details, List.filterMap_map]
    simp only [succeeds_pure, and_true]
    rfl
  rw [hcontent, succeeds_preheaderText]
  constructor
  · rintro ⟨hcontents, hpreheader, hlinks, hunsafe, hlabels, hmismatched⟩
    exact ⟨hread, hcontents, hpreheader, hlinks, hunsafe, hlabels, hmismatched⟩
  · rintro ⟨_, hcontents, hpreheader, hlinks, hunsafe, hlabels, hmismatched⟩
    exact ⟨hcontents, hpreheader, hlinks, hunsafe, hlabels, hmismatched⟩

end

/-! ## Scores -/

structure DeliverabilityCategory.WellScored (category : DeliverabilityCategory) : Prop where
  checks : ∀ check ∈ category.checks, 0 ≤ check.points ∧ check.points ≤ check.max_points
  score : ∀ score ∈ category.score, 0 ≤ score ∧ score ≤ 100

structure DeliverabilityReport.WellScored (report : DeliverabilityReport) : Prop where
  categories : ∀ category ∈ report.categories, category.WellScored
  score : 0 ≤ report.score ∧ report.score ≤ 100

theorem percentage_bounds {points max_points : Rat} (hnonneg : 0 ≤ points)
    (hle : points ≤ max_points) :
    0 ≤ percentage points max_points ∧ percentage points max_points ≤ 100 := by
  have hmax : 0 ≤ max_points := hnonneg.trans hle
  have hquotient : points / max_points ≤ 1 := div_le_one_of_le₀ hle hmax
  constructor
  · have hlow : ((0 : Int) : Rat) ≤ points / max_points * 100 := by
      push_cast
      positivity
    calc (0 : Int) = Rounding.roundHalfEven ((0 : Int) : Rat) :=
          (Rounding.roundHalfEven_intCast 0).symm
      _ ≤ percentage points max_points := Rounding.roundHalfEven_mono hlow
  · have hhigh : points / max_points * 100 ≤ ((100 : Int) : Rat) := by
      push_cast
      linarith
    calc percentage points max_points
      _ ≤ Rounding.roundHalfEven ((100 : Int) : Rat) := Rounding.roundHalfEven_mono hhigh
      _ = 100 := Rounding.roundHalfEven_intCast 100

theorem pointsOf_nonneg (checks : List ScoredCheck) : 0 ≤ pointsOf checks := by
  refine List.sum_nonneg fun points hpoints => ?_
  obtain ⟨found, -, rfl⟩ := List.mem_map.mp hpoints
  exact found.points_nonneg

theorem pointsOf_le (checks : List ScoredCheck) : pointsOf checks ≤ maxPointsOf checks :=
  List.sum_le_sum fun found _ => found.points_le

theorem wellScored_categoryOf (id title : String) (checks : List ScoredCheck) :
    (categoryOf id title checks).WellScored where
  checks found _ := ⟨found.points_nonneg, found.points_le⟩
  score := by
    intro score hscore
    simp only [categoryOf] at hscore
    split at hscore
    · cases hscore
    · cases hscore
      exact percentage_bounds (pointsOf_nonneg checks) (pointsOf_le checks)

theorem wellScored_scoreDeliverability {lib : Library} {raw : List UInt8}
    {report : DeliverabilityReport} (h : lib.scoreDeliverability raw = .ok report) :
    report.WellScored := by
  obtain ⟨_, -, h⟩ := ok_of_bind h
  obtain ⟨content, -, h⟩ := ok_of_bind h
  cases h
  refine ⟨fun category hcategory => ?_, ?_⟩
  · simp only [List.mem_cons, List.not_mem_nil, or_false] at hcategory
    obtain rfl | rfl | rfl | rfl | rfl | rfl := hcategory <;> exact wellScored_categoryOf _ _ _
  · dsimp only
    split
    · exact ⟨le_refl _, by decide⟩
    · exact ⟨le_max_left _ _, max_le (by decide) (min_le_left _ _)⟩

theorem succeeds_scoreDeliverability (lib : Library) (raw : List UInt8) :
    Succeeds (lib.scoreDeliverability raw) ↔ lib.Scorable (lib.message_from_bytes raw) := by
  have hread : GivesWhen ((lib.message_from_bytes raw).raised = none)
      (lib.message_from_bytes raw).read () := by
    unfold Message.read
    cases (lib.message_from_bytes raw).raised with
    | none => exact ⟨fun _ => rfl, fun _ => rfl⟩
    | some raised => exact ⟨nofun, fun h => absurd h (not_succeeds_error raised)⟩
  unfold Library.scoreDeliverability
  rw [hread.succeeds_bind, succeeds_bind_of_forall fun content => iff_true_intro (succeeds_pure _),
    and_true]
  constructor
  · rintro ⟨hraised, hcontent⟩
    exact (succeeds_contentChecks lib _ hraised).mp hcontent
  · intro h
    exact ⟨h.header, (succeeds_contentChecks lib _ h.header).mpr h⟩

end MailCue.Backend.Emails.Deliverability
