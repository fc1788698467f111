import MailCue.Backend.Deliverability.LiveLinks
import MailCue.Backend.Emails.ForgedHeaders
import MailCue.Backend.Emails.InspectorCounts
import MailCue.Backend.Emails.ReportConditions

/-!
# What live links need

When `analyze_links` returns a category, and with it both reports on a message. A link with
brackets around no address ends both.
-/
namespace MailCue.Backend.LiveLinks
open MailCue.Lib
open Emails.Inspector (Event ContentInspector)
open Emails.Deliverability (Raised Part Message Library percentage_bounds)

section
variable (net : Network)

/-! ## Conditions -/

/-- No size of an element is refused, and what the parser raises, if anything, is caught. -/
structure Network.Inspects (text : Text) : Prop where
  sizes : ∀ event ∈ (net.parser text).1, event.raises net.characters = false
  raised : ∀ raised, (net.parser text).2 = some raised →
    raised = .lookupError ∨ raised = .unicodeError

structure Network.PartInspects (part : Part) : Prop where
  content : part.Readable
  html : ∀ body, part.content = .ok body → net.Inspects (body.take 2000000)

/-- The links found in the part. -/
def Network.shownLinks (part : Part) : List Text :=
  match part.content with
  | .error _ => []
  | .ok body =>
    match net.parser (body.take 2000000) with
    | (events, none) => (Emails.Inspector.feed net.characters events {}).links
    | (_, some _) => []

def Network.linksOf (msg : Message) : List Text :=
  ((msg.parts.filter isHtml).map net.shownLinks).flatten.eraseDups.take MAX_LINKS

/-- What resolving the host and the requests raise, if anything, is caught. -/
structure Network.Reaches (parsed : Url.SplitResult) (host : Text) (port : Nat) : Prop where
  resolved : ∀ raised, net.getaddrinfo host port = .error raised →
    raised = .osError ∨ raised = .timeoutError
  visited : ∀ address rest raised, net.publicAddresses host port = .ok (address :: rest) →
    net.statusCode (pinnedUrl parsed port (defaultPort parsed) address) host = .error raised →
      raised ∈ [.httpError, .osError, .timeoutError]

/-- The link splits, pydantic takes what is shown of it, and where it is checked it has a port
and can be reached. -/
def Network.Probes (url : Text) : Prop :=
  ∃ parsed, Url.urlsplit net.nfkc url = some parsed ∧ net.isUnicode (displayUrl parsed) = true ∧
    ∀ host, net.checkedHost parsed = some host → ∃ port, linkPort parsed = .ok port ∧
      (port = 80 ∨ port = 443 → net.Reaches parsed host port)

/-- What a message needs for its links to be checked. -/
structure Network.Visitable (msg : Message) : Prop where
  parts : ∀ part ∈ msg.parts.filter isHtml, net.PartInspects part
  links : ∀ link ∈ net.linksOf msg, net.Probes link

/-! ## Links -/

theorem feedAll_gives (py : Emails.Inspector.Characters) (events : List Event)
    (s : ContentInspector) :
    GivesWhen (∀ event ∈ events, event.raises py = false) (feedAll py events s)
      (Emails.Inspector.feed py events s) := by
  induction events generalizing s with
  | nil => exact ⟨fun _ => rfl, fun _ => List.forall_mem_nil _⟩
  | cons event rest ih =>
    obtain ⟨hquiet, hraising⟩ := Emails.Inspector.handle_run py event s
    rw [feedAll, Emails.Inspector.feed, List.forall_mem_cons]
    cases hraises : event.raises py with
    | false =>
      obtain ⟨s', hhandle, -⟩ := hquiet hraises
      simp only [hhandle, true_and]
      exact ih s'
    | true =>
      obtain ⟨s', hhandle, -⟩ := hraising hraises
      simp only [hhandle]
      exact ⟨fun h => absurd h.1.symm Bool.false_ne_true, fun h => absurd h (not_succeeds_error _)⟩

/-- A handler raises no error that is suppressed. -/
theorem feedAll_error {py : Emails.Inspector.Characters} {events : List Event}
    {s : ContentInspector} {raised : Raised} (h : feedAll py events s = .error raised) :
    raised = .other := by
  induction events generalizing s with
  | nil => cases h
  | cons event rest ih =>
    rw [feedAll] at h
    split at h
    · exact ih h
    · cases h
      rfl

theorem suppressed_gives (raised : Raised) :
    GivesWhen (raised = .lookupError ∨ raised = .unicodeError) (suppressed (.error raised)) [] := by
  cases raised with
  | lookupError => exact ⟨fun _ => rfl, fun _ => .inl rfl⟩
  | unicodeError => exact ⟨fun _ => rfl, fun _ => .inr rfl⟩
  | _ => exact ⟨by simp, fun h => absurd h (not_succeeds_error _)⟩

theorem inspected_gives (text : Text) :
    GivesWhen (net.Inspects text) (suppressed do return (← net.inspected text).links)
      (match net.parser text with
        | (events, none) => (Emails.Inspector.feed net.characters events {}).links
        | (_, some _) => []) := by
  have hfeed := feedAll_gives net.characters (net.parser text).1 {}
  unfold Network.inspected
  cases hfed : feedAll net.characters (net.parser text).1 {} with
  | error raised =>
    obtain rfl := feedAll_error hfed
    refine ⟨fun h => ?_, fun h => absurd h (not_succeeds_error _)⟩
    rw [hfeed.gives h.sizes] at hfed
    cases hfed
  | ok s =>
    have hsizes := hfeed.condition_of ⟨s, hfed⟩
    rw [hfeed.gives hsizes] at hfed
    cases hfed
    rcases hparsed : net.parser text with ⟨events, _ | raised⟩
    · rw [hparsed] at hsizes
      exact ⟨fun _ => rfl, fun _ => ⟨by rwa [hparsed], by simp [hparsed]⟩⟩
    · obtain ⟨hgives, hcondition⟩ := suppressed_gives raised
      constructor
      · intro h
        exact hgives (h.raised raised (by rw [hparsed]))
      · intro h
        refine ⟨hsizes, fun again hagain => ?_⟩
        rw [hparsed] at hagain
        cases hagain
        exact hcondition h

theorem partLinks_gives (part : Part) :
    GivesWhen (net.PartInspects part) (net.partLinks part) (net.shownLinks part) := by
  unfold Network.partLinks Network.shownLinks
  cases hcontent : part.content with
  | ok body =>
    obtain ⟨hgives, hcondition⟩ := inspected_gives net (body.take 2000000)
    constructor
    · intro h
      exact hgives (h.html body hcontent)
    · intro h
      refine ⟨by simp [Part.Readable, hcontent], fun again hagain => ?_⟩
      rw [hcontent] at hagain
      cases hagain
      exact hcondition h
  | error raised =>
    obtain ⟨hgives, hcondition⟩ := suppressed_gives raised
    constructor
    · intro h
      exact hgives (h.content raised hcontent)
    · intro h
      refine ⟨fun again hagain => ?_, by simp [hcontent]⟩
      rw [hcontent] at hagain
      cases hagain
      exact hcondition h

theorem extractLinks_gives (raw : List UInt8) :
    GivesWhen
      (∀ part ∈ (net.message_from_bytes raw).parts.filter isHtml, net.PartInspects part)
      (net.extractLinks raw) (net.linksOf (net.message_from_bytes raw)) :=
  (GivesWhen.mapM _ (partLinks_gives net)).map

/-! ## Requests -/

@[simp]
theorem succeeds_evidence {parsed : Url.SplitResult} {code : EvidenceCode}
    {value : EvidenceValue} {description : String} :
    Succeeds (net.evidence parsed code value description) ↔
      net.isUnicode (displayUrl parsed) = true := by
  unfold Network.evidence
  split
  · rename_i hunicode
    simp [hunicode]
  · rename_i hrefused
    simp [hrefused]

theorem succeeds_publicAddresses {host : Text} {port : Nat} :
    Succeeds (net.publicAddresses host port) ↔ ∀ raised,
      net.getaddrinfo host port = .error raised → raised = .osError ∨ raised = .timeoutError := by
  unfold Network.publicAddresses
  cases net.getaddrinfo host port with
  | error raised => cases raised <;> simp
  | ok resolved =>
    refine iff_of_true ?_ nofun
    dsimp only
    split
    · exact succeeds_ok _
    · split <;> exact succeeds_ok _

theorem succeeds_visit {parsed : Url.SplitResult} {host : Text} {port : Nat} {address : Text} :
    Succeeds (net.visit parsed host port address) ↔
      net.isUnicode (displayUrl parsed) = true ∧ ∀ raised,
        net.statusCode (pinnedUrl parsed port (defaultPort parsed) address) host =
          .error raised → raised ∈ [.httpError, .osError, .timeoutError] := by
  unfold Network.visit
  cases net.statusCode (pinnedUrl parsed port (defaultPort parsed) address) host with
  | ok status_code => simp
  | error raised =>
    dsimp only
    split
    · rename_i hcaught
      rw [succeeds_evidence]
      refine ⟨fun hunicode => ⟨hunicode, fun again hagain => ?_⟩, And.left⟩
      cases hagain
      exact hcaught
    · rename_i huncaught
      exact iff_of_false (not_succeeds_error _) fun h => huncaught (h.2 raised rfl)

/-- A host on a web port is resolved, and its first address visited. -/
theorem succeeds_reach {parsed : Url.SplitResult} {host : Text} {port : Nat}
    {code : EvidenceCode} {value : EvidenceValue} {description : String} :
    Succeeds (do
      match ← net.publicAddresses host port with
      | [] => net.evidence parsed code value description
      | address :: _ => net.visit parsed host port address) ↔
    net.isUnicode (displayUrl parsed) = true ∧ net.Reaches parsed host port := by
  constructor
  · intro h
    obtain ⟨addresses, haddresses, hnext⟩ := succeeds_bind.mp h
    have hresolved := (succeeds_publicAddresses net).mp ⟨addresses, haddresses⟩
    cases addresses with
    | nil =>
      refine ⟨(succeeds_evidence net).mp hnext, hresolved, fun address rest raised hagain => ?_⟩
      rw [haddresses] at hagain
      cases hagain
    | cons address rest =>
      obtain ⟨hunicode, hvisited⟩ := (succeeds_visit net).mp hnext
      refine ⟨hunicode, hresolved, fun again others raised hagain => ?_⟩
      rw [haddresses] at hagain
      cases hagain
      exact hvisited raised
  · rintro ⟨hunicode, hresolved, hvisited⟩
    obtain ⟨addresses, haddresses⟩ := (succeeds_publicAddresses net).mpr hresolved
    refine succeeds_bind.mpr ⟨addresses, haddresses, ?_⟩
    cases addresses with
    | nil => exact (succeeds_evidence net).mpr hunicode
    | cons address rest =>
      refine (succeeds_visit net).mpr ⟨hunicode, fun raised => ?_⟩
      exact hvisited address rest raised haddresses

theorem succeeds_probe (url : Text) : Succeeds (net.probe url) ↔ net.Probes url := by
  unfold Network.probe Network.Probes
  rw [Emails.Deliverability.succeeds_urlparse_bind]
  refine exists_congr fun parsed => and_congr_right fun _ => ?_
  cases net.checkedHost parsed with
  | none => simp
  | some host =>
    simp only [Option.some.injEq, forall_eq']
    rw [succeeds_bind]
    have hport : ∀ port, Succeeds (do
        if port = 80 ∨ port = 443 then
          match ← net.publicAddresses host port with
          | [] =>
            net.evidence parsed .unsafe_or_unresolved (.text "not_checked")
              "The host did not resolve exclusively to globally routable addresses."
          | address :: _ => net.visit parsed host port address
        else
          net.evidence parsed .blocked_port (.text "not_checked")
            "The destination uses a port outside the allowed web ports.") ↔
        net.isUnicode (displayUrl parsed) = true ∧
          (port = 80 ∨ port = 443 → net.Reaches parsed host port) := by
      intro port
      split
      · rename_i hweb
        rw [succeeds_reach]
        simp [hweb]
      · rename_i hother
        simp [hother]
    constructor
    · rintro ⟨port, hlink, hnext⟩
      obtain ⟨hunicode, hreaches⟩ := (hport port).mp hnext
      exact ⟨hunicode, port, hlink, hreaches⟩
    · rintro ⟨hunicode, port, hlink, hreaches⟩
      exact ⟨port, hlink, (hport port).mpr ⟨hunicode, hreaches⟩⟩

/-! ## The category -/

theorem succeeds_analyzeLinks (raw : List UInt8) :
    Succeeds (net.analyzeLinks raw) ↔ net.Visitable (net.message_from_bytes raw) := by
  unfold Network.analyzeLinks
  rw [(extractLinks_gives net raw).succeeds_bind]
  have hlinks : Succeeds (do
      if (net.linksOf (net.message_from_bytes raw)).isEmpty then return noLinks
      else return linkCategory (← (net.linksOf (net.message_from_bytes raw)).mapM net.probe)) ↔
      ∀ link ∈ net.linksOf (net.message_from_bytes raw), net.Probes link := by
    split
    · rename_i hempty
      rw [List.isEmpty_iff.mp hempty]
      simp
    · rw [succeeds_bind_of_forall fun evidence => iff_true_intro (succeeds_pure _), and_true,
        succeeds_mapM]
      simp only [succeeds_probe]
  rw [hlinks]
  exact ⟨fun h => ⟨h.1, h.2⟩, fun h => ⟨h.parts, h.links⟩⟩

theorem wellScored_linkCategory (evidence : List DeliverabilityEvidence) :
    (linkCategory evidence).WellScored where
  checks found _ := ⟨found.points_nonneg, found.points_le⟩
  score := by
    intro score hscore
    simp only [linkCategory] at hscore
    split at hscore
    · cases hscore
    · rename_i hchecked
      cases hscore
      rw [worth, if_neg hchecked]
      exact percentage_bounds (linkPoints_nonneg _ _) (linkPoints_le _ _)

theorem wellScored_analyzeLinks {raw : List UInt8} {category : LinkCategory}
    (h : net.analyzeLinks raw = .ok category) : category.WellScored := by
  obtain ⟨links, -, h⟩ := ok_of_bind h
  split at h
  · cases h
    exact ⟨fun found _ => ⟨found.points_nonneg, found.points_le⟩, nofun⟩
  · obtain ⟨evidence, -, h⟩ := ok_of_bind h
    cases h
    exact wellScored_linkCategory evidence

/-! ## Both reports -/

/-- Both are returned, with checks and scores in their ranges, of exactly the messages that can
be scored and whose links can be checked. -/
theorem deliverability_returned_iff (raw : List UInt8) :
    ((∃ report, net.scoreDeliverability raw = .ok report ∧ report.WellScored) ∧
      ∃ category, net.analyzeLinks raw = .ok category ∧ category.WellScored) ↔
    net.Scorable (net.message_from_bytes raw) ∧ net.Visitable (net.message_from_bytes raw) := by
  rw [← Emails.Deliverability.succeeds_scoreDeliverability, ← succeeds_analyzeLinks]
  constructor
  · rintro ⟨⟨report, hreport, -⟩, category, hcategory, -⟩
    exact ⟨⟨report, hreport⟩, category, hcategory⟩
  · rintro ⟨⟨report, hreport⟩, category, hcategory⟩
    exact ⟨⟨report, hreport, Emails.Deliverability.wellScored_scoreDeliverability hreport⟩,
      category, hcategory, wellScored_analyzeLinks net hcategory⟩

end

/-! ## Brackets -/

def bracketMail : List UInt8 :=
  "Content-Type: text/html\n\n<a href=\"http://[\">x</a>".toUTF8.toList

def bracketPart : Part where
  content_type := "text/html".toList
  disposition := none
  content := .ok "<a href=\"http://[\">x</a>".toList
  replaced := "<a href=\"http://[\">x</a>".toList
  filename := none
  size := 24

/-- Libraries that read this mail, and a network without answers. -/
def bracketNetwork : Network where
  toReceiver := Emails.Deliverability.plainReceiver
  message_from_bytes _ :=
    ⟨[⟨"Content-Type".toList, "text/html".toList⟩], none, false, [bracketPart]⟩
  characters :=
    { lower := Text.asciiLower
      fold := Char.toLower
      decimal := fun c => if c.isDigit then some (c.toNat - '0'.toNat) else none
      isDigit := Char.isDigit
      isDigit_of_decimal := by
        intro c h
        split at h
        · assumption
        · cases h }
  parser _ :=
    ([.starttag "a".toList [("href".toList, some "http://[".toList)], .data "x".toList,
      .endtag "a".toList], none)
  unescape := .ok
  nfkc := id
  isUpper text := text.any Char.isUpper && !text.any Char.isLower
  isSurrogate _ := false
  isSurrogate_ascii _ _ := rfl
  parsesDate _ := false
  contrastFailures _ := []
  marginAtLeast _ _ _ := false
  general := id
  getaddrinfo _ _ := .error .osError
  request _ _ _ := .error .httpError
  ipv6 := .exploded

/-- A link with a bracket ends both reports. -/
theorem bracket_ends_reports :
    ¬ (∃ report, bracketNetwork.scoreDeliverability bracketMail = .ok report) ∧
      ¬ ∃ category, bracketNetwork.analyzeLinks bracketMail = .ok category := by
  have hrefused : Url.urlsplit bracketNetwork.nfkc "http://[".toList = none := by decide
  constructor
  · intro h
    have hscorable := (Emails.Deliverability.succeeds_scoreDeliverability _ _).mp h
    obtain ⟨parsed, hparsed⟩ := hscorable.links "http://[".toList (by decide)
    rw [hrefused] at hparsed
    cases hparsed
  · intro h
    have hvisitable := (succeeds_analyzeLinks _ _).mp h
    obtain ⟨parsed, hparsed, -⟩ := hvisitable.links "http://[".toList (by decide)
    rw [hrefused] at hparsed
    cases hparsed

end MailCue.Backend.LiveLinks
