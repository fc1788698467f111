import MailCue.Backend.Sandbox.TwilioWebhooks

/-!
# What a receiver computes

The signature of a Twilio webhook against the one that a receiver computes from the URL and
the fields of the body. The signer leaves out fields without a value, which the body has as
empty texts, and signs the media of a status callback, which its body does not have.
-/
namespace MailCue.Backend.Sandbox.Twilio
open MailCue.Lib

/-! ## The property -/

/-- The documented scheme: the URL, and the fields in the order of their names. -/
def expectedSignature (mac : Mac) (auth_token url : Text) (fields : List (Text × Text)) : Text :=
  mac auth_token (url ++ joined (Form.byName fields))

section
variable (py : Python) (mac : Mac) (requested : Text → Text) (d : Form.Utf8Decoder)
  (message : SandboxMessage) (provider_record : SandboxProvider)
  (endpoint : SandboxWebhookEndpoint)

/-- The signature of the webhook is the one its receiver computes, who sees the URL as the
client requests it. -/
def Authentic : Prop :=
  ∀ request, deliverToEndpoint py mac message provider_record endpoint = some request →
    ∀ signature, request.headers.lookup signatureHeader = some signature →
      signature = expectedSignature mac (authToken py provider_record) (requested request.url)
        (Form.parse d request.body)

end

/-- No field is without a value, and a status callback has no media. -/
def FieldsAgree (message : SandboxMessage) : Prop :=
  accountSid message ≠ .null ∧ fromNumber message ≠ .null ∧ toNumber message ≠ .null ∧
    ∀ media_urls, mediaUrls message = some media_urls →
      if isInbound message then ∀ url ∈ media_urls, url ≠ .null else media_urls = []

/-- Neither URL is the other with text behind it that begins like the fields. -/
def Apart (url other : Text) : Prop :=
  ∀ rest, url ≠ other ++ 'A' :: rest ∧ other ≠ url ++ 'A' :: rest

/-! ## The names of the fields -/

section
variable {message : SandboxMessage} {media_urls : List Json}

/-- What stands in front of the media in the order of the names. -/
def frontFields (message : SandboxMessage) : List (Text × Json) :=
  [field "AccountSid" (accountSid message), field "ApiVersion" (text "2010-04-01"),
    field "Body" (text (message.content.getD "")), field "From" (fromNumber message)]

/-- What stands behind them. -/
def backFields (message : SandboxMessage) (media_urls : List Json) : List (Text × Json) :=
  [field "MessageSid" (.str (sid message))] ++
    (if isInbound message then [] else [field "MessageStatus" (text "queued")]) ++
    [field "NumMedia" (.str (Nat.toDigits 10 media_urls.length)), field "NumSegments" (text "1"),
      field "SmsMessageSid" (.str (sid message)), field "SmsSid" (.str (sid message)),
      field "To" (toNumber message)]

/-- The media that are sent. -/
def sentMedia (message : SandboxMessage) (media_urls : List Json) : List (Text × Json) :=
  if isInbound message then mediaFields media_urls else []

theorem perm_formParams : (frontFields message ++ mediaFields media_urls ++
    backFields message media_urls).Perm (formParams message media_urls) := by
  classical
  refine List.perm_iff_count.mpr fun entry => ?_
  simp only [frontFields, backFields, formParams, List.count_append, List.count_cons,
    List.count_nil]
  omega

/-- The status of what the worker sends is `queued`. -/
theorem perm_payloadFields {event_type : Text} (h : statusOf event_type = "queued".toList) :
    (frontFields message ++ sentMedia message media_urls ++
      backFields message media_urls).Perm (payloadFields message event_type media_urls) := by
  classical
  refine List.perm_iff_count.mpr fun entry => ?_
  unfold sentMedia frontFields backFields payloadFields text
  rw [h]
  split
  · simp only [List.count_append, List.count_cons, List.count_nil]
    omega
  · simp only [List.count_append, List.count_cons, List.count_nil]
    omega

/-- The names of the media begin alike and have digits. -/
theorem of_mem_mediaFields {entry : Text × Json} (h : entry ∈ mediaFields media_urls) :
    (∃ rest, entry.1 = "Media".toList ++ rest) ∧ entry.1.any Char.isDigit = true := by
  obtain ⟨⟨url, idx⟩, -, hentry⟩ := List.mem_flatMap.mp h
  have hdigit : (Nat.toDigits 10 idx).any Char.isDigit = true := by
    obtain ⟨c, rest, hdigits⟩ :=
      List.exists_cons_of_ne_nil (Nat.toDigits_ne_nil (b := 10) (n := idx))
    refine List.any_eq_true.mpr ⟨c, hdigits ▸ List.mem_cons_self, ?_⟩
    exact Nat.isDigit_of_mem_toDigits (by decide) (by decide) (hdigits ▸ List.mem_cons_self)
  simp only [List.mem_cons, List.not_mem_nil, or_false] at hentry
  rcases hentry with rfl | rfl
  · exact ⟨⟨_, rfl⟩, by rw [List.any_append, hdigit, Bool.or_true]⟩
  · exact ⟨⟨_, rfl⟩, by rw [List.any_append, hdigit, Bool.or_true]⟩

theorem toDigits_injective {m n : Nat} (h : Nat.toDigits 10 m = Nat.toDigits 10 n) : m = n := by
  rw [← Nat.ofDigitChars_ten_toDigits (n := m), ← Nat.ofDigitChars_ten_toDigits (n := n), h]

theorem nodup_mediaFields : (Form.names (mediaFields media_urls)).Nodup := by
  have hindices : media_urls.zipIdx.Pairwise fun a b => a.2 ≠ b.2 := by
    have hnodup : (media_urls.zipIdx.map Prod.snd).Nodup := by
      rw [List.zipIdx_map_snd]
      exact List.nodup_range'
    rwa [List.Nodup, List.pairwise_map] at hnodup
  rw [Form.names, mediaFields, List.map_flatMap, List.nodup_flatMap]
  refine ⟨fun entry _ => by simp, hindices.imp fun {a b} hne => ?_⟩
  have hdigits : ¬Nat.toDigits 10 b.2 = Nat.toDigits 10 a.2 :=
    fun heq => hne (toDigits_injective heq.symm)
  simp [hdigits]

def frontNames : List Text :=
  ["AccountSid".toList, "ApiVersion".toList, "Body".toList, "From".toList]

/-- All names there may be behind the media. -/
def backNames : List Text :=
  ["MessageSid".toList, "MessageStatus".toList, "NumMedia".toList, "NumSegments".toList,
    "SmsMessageSid".toList, "SmsSid".toList, "To".toList]

theorem names_backFields : (Form.names (backFields message media_urls)).Sublist backNames := by
  unfold backFields
  split
  · exact .cons_cons _ (.cons _ (.refl _))
  · exact .refl _

section
variable {media : List (Text × Json)} (hmedia : media ⊆ mediaFields media_urls)
include hmedia

theorem of_mem_names {name : Text} (h : name ∈ Form.names media) :
    (∃ rest, name = "Media".toList ++ rest) ∧ name.any Char.isDigit = true := by
  obtain ⟨entry, hentry, rfl⟩ := List.mem_map.mp h
  exact of_mem_mediaFields (hmedia hentry)

/-- In the order of the names the media stand behind `From` and in front of `MessageSid`. -/
theorem pairwise_fields (hsorted : media.Pairwise Form.NameLe) :
    (frontFields message ++ media ++ backFields message media_urls).Pairwise Form.NameLe := by
  have hfront : ∀ name ∈ frontNames, ∀ rest, Form.textLe name ("Media".toList ++ rest) = true := by
    intro name hname rest
    simp only [frontNames, List.mem_cons, List.not_mem_nil, or_false] at hname
    rcases hname with rfl | rfl | rfl | rfl
    all_goals rfl
  have hback : ∀ name ∈ backNames, ∀ rest, Form.textLe ("Media".toList ++ rest) name = true := by
    intro name hname rest
    simp only [backNames, List.mem_cons, List.not_mem_nil, or_false] at hname
    rcases hname with rfl | rfl | rfl | rfl | rfl | rfl | rfl
    all_goals rfl
  have hends : (frontNames ++ backNames).Pairwise fun s t => Form.textLe s t = true := by decide
  have hkept := hends.sublist ((List.Sublist.refl frontNames).append
    (@names_backFields message media_urls))
  rw [List.pairwise_append] at hkept
  rw [Form.pairwise_nameLe_iff, Form.names_append, Form.names_append, List.pairwise_append,
    List.pairwise_append]
  refine ⟨⟨hkept.1, Form.pairwise_nameLe_iff.mp hsorted, fun name hname other hother => ?_⟩,
    hkept.2.1, fun name hname other hother => ?_⟩
  · obtain ⟨⟨rest, rfl⟩, -⟩ := of_mem_names hmedia hother
    exact hfront name hname rest
  · rcases List.mem_append.mp hname with hname | hname
    · exact hkept.2.2 name hname other hother
    · obtain ⟨⟨rest, rfl⟩, -⟩ := of_mem_names hmedia hname
      exact hback other (names_backFields.subset hother) rest

/-- All names differ. -/
theorem nodup_fields (hnodup : (Form.names media).Nodup) :
    (Form.names (frontFields message ++ media ++ backFields message media_urls)).Nodup := by
  have hplain : ∀ name ∈ frontNames ++ backNames, name.any Char.isDigit = false := by decide
  have hends : (frontNames ++ backNames).Nodup := by decide
  have hkept := hends.sublist ((List.Sublist.refl frontNames).append
    (@names_backFields message media_urls))
  have hdiffer : ∀ name ∈ Form.names media, name ∉ frontNames ++ backNames := by
    intro name hname hmem
    have hdigit := (of_mem_names hmedia hname).2
    rw [hplain name hmem] at hdigit
    cases hdigit
  have hperm : (Form.names media ++ (frontNames ++ Form.names (backFields message media_urls))).Perm
      (Form.names (frontFields message ++ media ++ backFields message media_urls)) := by
    rw [Form.names_append, Form.names_append, ← List.append_assoc]
    exact List.perm_append_comm.append_right _
  refine hperm.nodup (List.nodup_append.mpr ⟨hnodup, hkept, fun name hname other hother heq => ?_⟩)
  refine hdiffer name hname (heq ▸ ?_)
  exact ((List.Sublist.refl frontNames).append names_backFields).subset hother

theorem byName_fields (hnodup : (Form.names media).Nodup) {fields : List (Text × Json)}
    (hperm : (frontFields message ++ media ++ backFields message media_urls).Perm fields) :
    (Form.names fields).Nodup ∧ Form.byName fields =
      frontFields message ++ Form.byName media ++ backFields message media_urls := by
  have hnames : (Form.names fields).Nodup := (hperm.map Prod.fst).nodup (nodup_fields hmedia hnodup)
  refine ⟨hnames, Form.byName_eq hnames ?_ ?_⟩
  · exact (((Form.perm_byName media).append_left _).append_right _).trans hperm
  · exact pairwise_fields (fun entry hentry => hmedia ((Form.perm_byName media).subset hentry))
      (Form.pairwise_byName media)

end

end

/-! ## What is signed and what is sent -/

section
variable (py : Python)

def signedText (fields : List (Text × Json)) : Text := joined (fields.filterMap (signedPair py))

def sentText (fields : List (Text × Json)) : Text := joined (fields.map (sentPair py))

variable {py} {entry : Text × Json} {fields more : List (Text × Json)}

theorem signedText_append :
    signedText py (fields ++ more) = signedText py fields ++ signedText py more := by
  rw [signedText, List.filterMap_append, joined, List.flatMap_append]
  rfl

theorem sentText_append :
    sentText py (fields ++ more) = sentText py fields ++ sentText py more := by
  rw [sentText, List.map_append, joined, List.flatMap_append]
  rfl

theorem signedPair_of_ne (h : entry.2 ≠ .null) :
    signedPair py entry = some (sentPair py entry) := by
  obtain ⟨name, value⟩ := entry
  cases value with
  | null => exact absurd rfl h
  | bool b => rfl
  | num n => rfl
  | str s => rfl
  | arr elements => rfl
  | obj fields => rfl

theorem name_of_signedPair (entry : Text × Json) (pair : Text × Text)
    (h : signedPair py entry = some pair) : pair.1 = entry.1 := by
  by_cases hnull : entry.2 = .null
  · rw [signedPair, hnull] at h
    cases h
  · rw [signedPair_of_ne hnull] at h
    obtain rfl := Option.some.inj h
    unfold sentPair
    split
    · rfl
    · rfl

/-- A field without a value is not signed. -/
theorem signedText_of_null (h : entry.2 = .null) :
    signedText py (entry :: fields) = signedText py fields := by
  have hnone : signedPair py entry = none := by rw [signedPair, h]
  rw [signedText, List.filterMap_cons_none hnone]
  rfl

theorem signedText_of_ne (h : entry.2 ≠ .null) : signedText py (entry :: fields) =
    (sentPair py entry).1 ++ (sentPair py entry).2 ++ signedText py fields := by
  rw [signedText, List.filterMap_cons_some (signedPair_of_ne h), joined, List.flatMap_cons]
  rfl

theorem sentText_cons : sentText py (entry :: fields) =
    (sentPair py entry).1 ++ (sentPair py entry).2 ++ sentText py fields := by
  rw [sentText, List.map_cons, joined, List.flatMap_cons]
  rfl

theorem signedText_eq (h : ∀ entry ∈ fields, entry.2 ≠ .null) :
    signedText py fields = sentText py fields := by
  induction fields with
  | nil => rfl
  | cons entry fields ih =>
    obtain ⟨hentry, hfields⟩ := List.forall_mem_cons.mp h
    rw [signedText_of_ne hentry, sentText_cons, ih hfields]

theorem name_sentPair (entry : Text × Json) : (sentPair py entry).1 = entry.1 := by
  unfold sentPair
  split
  · rfl
  · rfl

/-- Less is signed than is sent where a field has no value. -/
theorem signedText_length (hnames : ∀ entry ∈ fields, entry.1 ≠ []) :
    (signedText py fields).length ≤ (sentText py fields).length ∧
      ((signedText py fields).length = (sentText py fields).length →
        ∀ entry ∈ fields, entry.2 ≠ .null) := by
  induction fields with
  | nil => exact ⟨Nat.le_refl _, fun _ => nofun⟩
  | cons entry fields ih =>
    obtain ⟨hname, hfields⟩ := List.forall_mem_cons.mp hnames
    obtain ⟨hle, hall⟩ := ih hfields
    have hpos : 0 < (sentPair py entry).1.length := by
      rw [name_sentPair]
      exact List.length_pos_of_ne_nil hname
    by_cases hnull : entry.2 = .null
    · rw [signedText_of_null hnull, sentText_cons]
      simp only [List.length_append]
      exact ⟨by omega, fun heq => by omega⟩
    · rw [signedText_of_ne hnull, sentText_cons]
      simp only [List.length_append]
      refine ⟨by omega, fun heq => List.forall_mem_cons.mpr ⟨hnull, hall (by omega)⟩⟩

theorem signedText_eq_iff (hnames : ∀ entry ∈ fields, entry.1 ≠ []) :
    signedText py fields = sentText py fields ↔ ∀ entry ∈ fields, entry.2 ≠ .null :=
  ⟨fun h => (signedText_length hnames).2 (congrArg List.length h), signedText_eq⟩

end

/-! ## Where they agree -/

section
variable {py : Python} {message : SandboxMessage} {media_urls : List Json}

theorem forall_mediaFields :
    (∀ entry ∈ mediaFields media_urls, entry.2 ≠ .null) ↔ ∀ url ∈ media_urls, url ≠ .null := by
  constructor
  · intro h url hurl
    obtain ⟨idx, hidx⟩ := List.mem_iff_getElem?.mp hurl
    have hmem : (url, idx) ∈ media_urls.zipIdx := List.mk_mem_zipIdx_iff_getElem?.mpr hidx
    exact h _ (List.mem_flatMap.mpr ⟨_, hmem, List.mem_cons_self⟩)
  · intro h entry hentry
    obtain ⟨⟨url, idx⟩, hurl, hentry⟩ := List.mem_flatMap.mp hentry
    simp only [List.mem_cons, List.not_mem_nil, or_false] at hentry
    rcases hentry with rfl | rfl
    · exact h url (List.fst_mem_of_mem_zipIdx hurl)
    · nofun

theorem names_ne_nil {media : List (Text × Json)} (hmedia : media ⊆ mediaFields media_urls) :
    ∀ entry ∈ media ++ backFields message media_urls, entry.1 ≠ [] := by
  intro entry hentry hnil
  rcases List.mem_append.mp hentry with hentry | hentry
  · obtain ⟨⟨rest, hname⟩, -⟩ := of_mem_mediaFields (hmedia hentry)
    rw [hnil] at hname
    cases hname
  · have hall : [] ∉ backNames := by decide
    refine hall (names_backFields.subset (List.mem_map.mpr ⟨entry, hentry, hnil⟩))

theorem frontFields_append (more : List (Text × Json)) : frontFields message ++ more =
    field "AccountSid" (accountSid message) :: field "ApiVersion" (text "2010-04-01") ::
      field "Body" (text (message.content.getD "")) ::
      field "From" (fromNumber message) :: more := rfl

/-- What is signed begins with `A`, and so does what is sent. -/
theorem head_signedText (more : List (Text × Json)) :
    ∃ rest, signedText py (frontFields message ++ more) = 'A' :: rest := by
  by_cases hnull : accountSid message = .null
  · rw [frontFields, List.cons_append, signedText_of_null hnull]
    exact ⟨_, rfl⟩
  · rw [frontFields, List.cons_append, signedText_of_ne hnull, name_sentPair]
    exact ⟨_, rfl⟩

theorem head_sentText (more : List (Text × Json)) :
    ∃ rest, sentText py (frontFields message ++ more) = 'A' :: rest := by
  rw [frontFields, List.cons_append, sentText_cons, name_sentPair]
  exact ⟨_, rfl⟩

theorem frontFields_ne_null (haccount : accountSid message ≠ .null)
    (hfrom : fromNumber message ≠ .null) : ∀ entry ∈ frontFields message, entry.2 ≠ .null := by
  intro entry hentry
  simp only [frontFields, List.mem_cons, List.not_mem_nil, or_false] at hentry
  rcases hentry with rfl | rfl | rfl | rfl
  · exact haccount
  · nofun
  · nofun
  · exact hfrom

/-- In front of the media the same is signed as is sent, where that goes on with `M`. -/
theorem front_of_eq {signed sent : List (Text × Json)}
    (hsigned : ∃ rest, signedText py signed = 'M' :: rest)
    (h : signedText py (frontFields message ++ signed) =
      sentText py (frontFields message ++ sent)) :
    accountSid message ≠ .null ∧ fromNumber message ≠ .null ∧
      signedText py signed = sentText py sent := by
  have htext : ∀ name s, (field name (text s)).2 ≠ .null := fun _ _ => nofun
  have haccount : accountSid message ≠ .null := by
    intro hnull
    rw [frontFields_append, frontFields_append, signedText_of_null hnull,
      signedText_of_ne (htext _ _), sentText_cons, name_sentPair, name_sentPair] at h
    -- `ApiVersion` against `AccountSid`
    exact absurd (List.cons.inj (List.cons.inj h).2).1 (by decide)
  have hfrom : fromNumber message ≠ .null := by
    intro hnull
    rw [frontFields_append, frontFields_append, signedText_of_ne haccount, sentText_cons,
      List.append_cancel_left_eq, signedText_of_ne (htext _ _), sentText_cons,
      List.append_cancel_left_eq, signedText_of_ne (htext _ _), sentText_cons,
      List.append_cancel_left_eq, signedText_of_null hnull, sentText_cons, name_sentPair] at h
    -- what follows against `From`
    obtain ⟨rest, hrest⟩ := hsigned
    rw [hrest] at h
    exact absurd (List.cons.inj h).1 (by decide)
  refine ⟨haccount, hfrom, ?_⟩
  rw [signedText_append, sentText_append, signedText_eq (frontFields_ne_null haccount hfrom)] at h
  exact List.append_cancel_left h

/-- What is signed of the media. -/
theorem signedText_media {media : List (Text × Json)} (hmedia : media ⊆ mediaFields media_urls) :
    ((∀ entry ∈ media, entry.2 = .null) ∧ signedText py media = []) ∨
      ∃ rest, signedText py media = "Media".toList ++ rest := by
  induction media with
  | nil => exact .inl ⟨nofun, rfl⟩
  | cons entry media ih =>
    obtain ⟨hentry, hrest⟩ := List.cons_subset.mp hmedia
    by_cases hnull : entry.2 = .null
    · rw [signedText_of_null hnull]
      exact (ih hrest).imp_left fun h => ⟨List.forall_mem_cons.mpr ⟨hnull, h.1⟩, h.2⟩
    · obtain ⟨⟨rest, hname⟩, -⟩ := of_mem_mediaFields hentry
      rw [signedText_of_ne hnull, name_sentPair, hname, List.append_assoc, List.append_assoc]
      exact .inr ⟨_, rfl⟩

/-- Media have a type, which is a value. -/
theorem eq_nil_of_null (h : ∀ entry ∈ mediaFields media_urls, entry.2 = .null) :
    media_urls = [] := by
  cases media_urls with
  | nil => rfl
  | cons url rest =>
    have hmem : ("MediaContentType".toList ++ Nat.toDigits 10 0, text "image/jpeg") ∈
        mediaFields (url :: rest) := by
      simp [mediaFields]
    cases h _ hmem

theorem head_sentText_back :
    ∃ rest, sentText py (backFields message media_urls) = "Mes".toList ++ rest := by
  rw [backFields, List.append_assoc, List.singleton_append, sentText_cons, name_sentPair]
  exact ⟨_, rfl⟩

theorem head_signedText_back :
    ∃ rest, signedText py (backFields message media_urls) = "Mes".toList ++ rest := by
  have hne : (field "MessageSid" (.str (sid message))).2 ≠ .null := nofun
  rw [backFields, List.append_assoc, List.singleton_append, signedText_of_ne hne, name_sentPair]
  exact ⟨_, rfl⟩

theorem mem_backFields {entry : Text × Json} (h : entry ∈ backFields message media_urls) :
    entry = field "To" (toNumber message) ∨ entry.2 ≠ .null := by
  unfold backFields at h
  split at h
  all_goals
    simp only [List.append_nil, List.cons_append, List.nil_append, List.mem_cons, List.not_mem_nil,
      or_false] at h
  · rcases h with rfl | rfl | rfl | rfl | rfl | rfl
    all_goals first
      | exact .inl rfl
      | exact .inr nofun
  · rcases h with rfl | rfl | rfl | rfl | rfl | rfl | rfl
    all_goals first
      | exact .inl rfl
      | exact .inr nofun

theorem to_mem_backFields : field "To" (toNumber message) ∈ backFields message media_urls := by
  simp [backFields]

section
variable (hmedia : mediaUrls message = some media_urls)
include hmedia

theorem fieldsAgree_iff : FieldsAgree message ↔ accountSid message ≠ .null ∧
    fromNumber message ≠ .null ∧ toNumber message ≠ .null ∧
      if isInbound message then ∀ url ∈ media_urls, url ≠ .null else media_urls = [] := by
  simp [FieldsAgree, hmedia]

/-- The texts are one where nothing lacks a value and no media are signed that are not sent. -/
theorem signedText_eq_sentText_iff :
    signedText py (frontFields message ++ (Form.byName (mediaFields media_urls) ++
        backFields message media_urls)) =
      sentText py (frontFields message ++ (Form.byName (sentMedia message media_urls) ++
        backFields message media_urls)) ↔ FieldsAgree message := by
  have hmem : ∀ entry, entry ∈ Form.byName (mediaFields media_urls) ↔
      entry ∈ mediaFields media_urls := fun entry => (Form.perm_byName _).mem_iff
  have hsub : Form.byName (mediaFields media_urls) ⊆ mediaFields media_urls :=
    fun entry => (hmem entry).mp
  obtain ⟨back, hback⟩ := @head_signedText_back py message media_urls
  obtain ⟨sent, hsent⟩ := @head_sentText_back py message media_urls
  rw [fieldsAgree_iff hmedia]
  constructor
  · intro h
    have hhead : ∃ rest, signedText py (Form.byName (mediaFields media_urls) ++
        backFields message media_urls) = 'M' :: rest := by
      rw [signedText_append]
      rcases @signedText_media py media_urls _ hsub with ⟨-, hnil⟩ | ⟨rest, hrest⟩
      · rw [hnil, hback]
        exact ⟨_, rfl⟩
      · rw [hrest]
        exact ⟨_, rfl⟩
    obtain ⟨haccount, hfrom, hrest⟩ := front_of_eq hhead h
    refine ⟨haccount, hfrom, ?_⟩
    cases hinbound : isInbound message with
    | true =>
      rw [sentMedia, hinbound, if_pos rfl, signedText_eq_iff (names_ne_nil hsub)] at hrest
      have hto := hrest _ (List.mem_append_right _ to_mem_backFields)
      refine ⟨hto, ?_⟩
      rw [if_pos rfl, ← forall_mediaFields]
      exact fun entry hentry => hrest entry (List.mem_append_left _ ((hmem entry).mpr hentry))
    | false =>
      have hnone : Form.byName (sentMedia message media_urls) = [] := by
        rw [sentMedia, hinbound]
        rfl
      rw [hnone, List.nil_append, signedText_append] at hrest
      rcases @signedText_media py media_urls _ hsub with ⟨hnull, hnil⟩ | ⟨rest, hmedia⟩
      · rw [hnil, List.nil_append] at hrest
        have hnames := @names_ne_nil message media_urls [] (List.nil_subset _)
        rw [List.nil_append] at hnames
        refine ⟨(signedText_eq_iff hnames).mp hrest _ to_mem_backFields, ?_⟩
        exact eq_nil_of_null fun entry hentry => hnull entry ((hmem entry).mpr hentry)
      · -- `Media` against `MessageSid`
        rw [hmedia, hsent] at hrest
        exact absurd (List.cons.inj (List.cons.inj (List.cons.inj hrest).2).2).1 (by decide)
  · rintro ⟨haccount, hfrom, hto, hurls⟩
    have hsame : Form.byName (sentMedia message media_urls) =
        Form.byName (mediaFields media_urls) := by
      unfold sentMedia
      split
      · rfl
      · rename_i houtbound
        rw [if_neg houtbound] at hurls
        rw [hurls]
        rfl
    rw [hsame]
    have hvalues : ∀ url ∈ media_urls, url ≠ .null := by
      split at hurls
      · exact hurls
      · rw [hurls]
        nofun
    refine signedText_eq fun entry hentry => ?_
    rcases List.mem_append.mp hentry with hfront | hentry
    · exact frontFields_ne_null haccount hfrom entry hfront
    · rcases List.mem_append.mp hentry with hmedia | hback
      · exact forall_mediaFields.mpr hvalues entry ((hmem entry).mp hmedia)
      · rcases mem_backFields hback with rfl | hne
        · exact hto
        · exact hne

end

/-! ## The signature of a webhook -/

variable {requested : Text → Text} {d : Form.Utf8Decoder} {provider_record : SandboxProvider}
  {endpoint : SandboxWebhookEndpoint} (hmedia : mediaUrls message = some media_urls)
  (htoken : authToken py provider_record ≠ [])
include hmedia htoken

omit hmedia htoken in
theorem lookup_makeTwilioSigner (mac : Mac) (auth_token url : Text)
    (form_params : List (Text × Json)) (headers : Headers) :
    (makeTwilioSigner py mac auth_token url form_params headers).lookup signatureHeader =
      some (mac auth_token (signingBase py url form_params)) := by
  have hnone : (headers.filter (·.1 != signatureHeader)).lookup signatureHeader = none := by
    refine List.lookup_eq_none_iff.mpr fun entry hentry => ?_
    have hkept := (List.mem_filter.mp hentry).2
    simpa [bne_comm] using hkept
  rw [makeTwilioSigner, List.lookup_append, hnone]
  simp

omit hmedia htoken in
theorem signingBase_formParams (url : Text) : signingBase py url (formParams message media_urls) =
    url ++ signedText py (frontFields message ++ (Form.byName (mediaFields media_urls) ++
      backFields message media_urls)) := by
  obtain ⟨hnames, hsorted⟩ := byName_fields (List.Subset.refl _) nodup_mediaFields
    (@perm_formParams message media_urls)
  rw [signingBase, Form.sortedPairs_eq (Form.nodup_names_filterMap hnames name_of_signedPair),
    Form.byName_filterMap hnames name_of_signedPair, hsorted, List.append_assoc]
  rfl

omit hmedia htoken in
/-- What a receiver puts together of the body. -/
theorem joined_parse {event_type : Text} (h : statusOf event_type = "queued".toList) :
    joined (Form.byName (Form.parse d (serialisePayload py
        (payloadFields message event_type media_urls)))) =
      sentText py (frontFields message ++ (Form.byName (sentMedia message media_urls) ++
        backFields message media_urls)) := by
  have hsub : sentMedia message media_urls ⊆ mediaFields media_urls := by
    unfold sentMedia
    split
    · exact List.Subset.refl _
    · exact List.nil_subset _
  have hnodup : (Form.names (sentMedia message media_urls)).Nodup := by
    unfold sentMedia
    split
    · exact nodup_mediaFields
    · exact List.nodup_nil
  obtain ⟨hnames, hsorted⟩ := byName_fields hsub hnodup (@perm_payloadFields message media_urls _ h)
  rw [serialisePayload, Form.parse_urlencode, Form.byName_map hnames name_sentPair, hsorted,
    List.append_assoc]
  rfl

/-- What is posted: the signature is that of the URL and the fields with a value. -/
theorem deliverToEndpoint_eq (mac : Mac) : ∃ event_type, statusOf event_type = "queued".toList ∧
    deliverToEndpoint py mac message provider_record endpoint = some {
      url := rewriteLocalhostUrl py endpoint.url.toList
      headers := makeTwilioSigner py mac (authToken py provider_record)
        (rewriteLocalhostUrl py endpoint.url.toList) (formParams message media_urls)
        [("Content-Type", "application/x-www-form-urlencoded".toList),
          ("User-Agent", "MailCue-Sandbox/1.0".toList)]
      body := serialisePayload py (payloadFields message event_type media_urls) } := by
  refine ⟨if isInbound message then "message.received".toList else "message.created".toList, ?_, ?_⟩
  · split
    · decide
    · decide
  · have hpayload : ∀ event_type, buildWebhookPayload message event_type =
        some (payloadFields message event_type media_urls) := by
      intro event_type
      rw [buildWebhookPayload, hmedia]
      rfl
    have hsigner : ∀ url, buildWebhookSigner py mac message provider_record url = some (some
        (makeTwilioSigner py mac (authToken py provider_record) url
          (formParams message media_urls))) := by
      intro url
      rw [buildWebhookSigner, if_neg htoken, hmedia]
      rfl
    simp only [deliverToEndpoint, hpayload, hsigner, Option.bind_eq_bind, Option.bind_some]
    rfl

/-- Whatever the MAC, the signatures are one where what they are of is. -/
theorem authentic_iff : (∀ mac, Authentic py mac requested d message provider_record endpoint) ↔
    rewriteLocalhostUrl py endpoint.url.toList ++
        signedText py (frontFields message ++ (Form.byName (mediaFields media_urls) ++
          backFields message media_urls)) =
      requested (rewriteLocalhostUrl py endpoint.url.toList) ++
        sentText py (frontFields message ++ (Form.byName (sentMedia message media_urls) ++
          backFields message media_urls)) := by
  constructor
  · intro h
    obtain ⟨event_type, hstatus, hdeliver⟩ := deliverToEndpoint_eq hmedia htoken fun _ base => base
    have hsame := h _ _ hdeliver
    simp only [lookup_makeTwilioSigner, Option.some.injEq, forall_eq', expectedSignature,
      signingBase_formParams, joined_parse hstatus] at hsame
    exact hsame
  · intro h mac request hrequest signature hsignature
    obtain ⟨event_type, hstatus, hdeliver⟩ := deliverToEndpoint_eq hmedia htoken mac
    obtain rfl := Option.some.inj (hdeliver.symm.trans hrequest)
    simp only [lookup_makeTwilioSigner, Option.some.injEq] at hsignature
    simp only [← hsignature, expectedSignature, signingBase_formParams, joined_parse hstatus, h]

/-- The signature is the receiver's where no field lacks a value, a status callback has no
media, and the URL is requested as it is written. -/
theorem signature_authentic_iff
    (happart : Apart (requested (rewriteLocalhostUrl py endpoint.url.toList))
      (rewriteLocalhostUrl py endpoint.url.toList)) :
    (∀ mac, Authentic py mac requested d message provider_record endpoint) ↔
      FieldsAgree message ∧ requested (rewriteLocalhostUrl py endpoint.url.toList) =
        rewriteLocalhostUrl py endpoint.url.toList := by
  rw [authentic_iff hmedia htoken, ← @signedText_eq_sentText_iff py message media_urls hmedia]
  generalize rewriteLocalhostUrl py endpoint.url.toList = url at happart ⊢
  constructor
  · intro h
    obtain ⟨signed, hsigned⟩ := @head_signedText py message (Form.byName (mediaFields media_urls) ++
      backFields message media_urls)
    obtain ⟨sent, hsent⟩ := @head_sentText py message (Form.byName (sentMedia message media_urls) ++
      backFields message media_urls)
    have hurl : requested url = url := by
      rw [hsigned, hsent] at h
      rcases List.append_eq_append_iff.mp h with ⟨rest, hlong, hrest⟩ | ⟨rest, hlong, hrest⟩
      · cases rest with
        | nil => rw [hlong, List.append_nil]
        | cons c rest =>
          obtain rfl := (List.cons.inj hrest).1
          exact absurd hlong (happart rest).1
      · cases rest with
        | nil => exact (hlong.trans (List.append_nil _)).symm
        | cons c rest =>
          obtain rfl := (List.cons.inj hrest).1
          exact absurd hlong (happart rest).2
    rw [hurl, List.append_cancel_left_eq] at h
    exact ⟨h, hurl⟩
  · rintro ⟨hsame, hurl⟩
    rw [hsame, hurl]

end

/-! ## Two messages -/

def exampleProvider : SandboxProvider where
  id := "p1"
  user_id := "u1"
  provider_type := "twilio"
  name := "Twilio"
  credentials := [("account_sid", text "AC1"), ("auth_token", text "secret")]
  created_at := 0

def exampleEndpoint : SandboxWebhookEndpoint where
  id := "e1"
  provider_id := "p1"
  url := "https://hooks.example.com/sms"
  secret := none
  event_types := []
  created_at := 0

def inboundSms : SandboxMessage where
  id := "m1"
  provider_id := "p1"
  conversation_id := none
  direction := "inbound"
  sender := "+14155550101"
  content := some "Grüße & more"
  metadata_json := [("media_urls", .arr [text "https://example.com/a.jpg"])]
  created_at := 0

def outboundMms : SandboxMessage :=
  { inboundSms with direction := "outbound" }

theorem mediaUrls_inboundSms : mediaUrls inboundSms = some [text "https://example.com/a.jpg"] := rfl

theorem mediaUrls_outboundMms : mediaUrls outboundMms = some [text "https://example.com/a.jpg"] :=
  rfl

theorem apart_id (url : Text) : Apart (id url) url := by
  intro rest
  have hne : url ≠ url ++ 'A' :: rest := fun heq => by simpa using congrArg List.length heq
  exact ⟨hne, hne⟩

/-- An inbound message with media carries the signature that its receiver computes. -/
theorem signature_authentic_for_inbound_mms : FieldsAgree inboundSms ∧
    ∀ mac, Authentic .plain mac id .replacing inboundSms exampleProvider exampleEndpoint := by
  have hagree : FieldsAgree inboundSms := (fieldsAgree_iff mediaUrls_inboundSms).mpr
    ⟨nofun, nofun, nofun, by simp [inboundSms, isInbound, text]⟩
  exact ⟨hagree, (signature_authentic_iff mediaUrls_inboundSms (by decide) (apart_id _)).mpr
    ⟨hagree, id_eq _⟩⟩

/-- The same media in a status callback are signed and not sent. -/
theorem signature_not_authentic_for_outbound_mms :
    ¬∀ mac, Authentic .plain mac id .replacing outboundMms exampleProvider exampleEndpoint := by
  intro h
  have hsame := (authentic_iff mediaUrls_outboundMms (by decide)).mp h
  have hagree :=
    (signedText_eq_sentText_iff mediaUrls_outboundMms).mp (List.append_cancel_left hsame)
  have hnone := ((fieldsAgree_iff mediaUrls_outboundMms).mp hagree).2.2.2
  rw [if_neg (by decide)] at hnone
  cases hnone

end MailCue.Backend.Sandbox.Twilio
