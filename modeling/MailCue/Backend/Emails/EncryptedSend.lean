import MailCue.Backend.Emails.SendEmail
import MailCue.Backend.Gpg.SharedKeyring
import MailCue.Lib.Base64

/-!
# Encrypted mail and its recipients

A message is encrypted to the keys of its To addresses and submitted for those in Cc
and Bcc as well. What is submitted shows of the body and the attachments nothing but
what is encrypted, and has no Bcc field.
-/
namespace MailCue.Backend.Emails
open MailCue.Lib MailCue.Backend.Gpg

/-- What is encrypted tells its keys and is opened to what went in. -/
structure OpenPgpMessages extends OpenPgp where
  message_encrypted : ∀ data fingerprints,
    message (encrypted data fingerprints) = some (fingerprints, data)

/-! ## The keys of an address -/

section
variable (pgp : OpenPgpMessages) (keyserver : Text → Option Text) (user_id : String)

/-- An active key the user has for the address, or the one the keyserver has. -/
def KeyOf (addr : Text) (fingerprint : String) (s : Gpg.State (Keyring String)) : Prop :=
  (∃ k ∈ s.gpg_keys.rows, k.serves addr user_id = true ∧ k.fingerprint = fingerprint) ∨
  ∃ k, (fetchKeyFromKeyserver pgp.gnupg addr (keyserver addr) user_id true s).1 = .ok k ∧
    k.fingerprint = fingerprint

/-- The search of `recipientKeys` for one address. -/
def recipientKey (addr : Text) (s : Gpg.State (Keyring String)) :
    Option GpgKey × Gpg.State (Keyring String) :=
  match getKeyForAddress s.gpg_keys addr user_id with
  | some key => (some key, s)
  | none =>
    match fetchKeyFromKeyserver pgp.gnupg addr (keyserver addr) user_id true s with
    | (.ok key, s) => (some key, s)
    | (.error _, s) => (none, s)

/-- The states the search for keys goes through. -/
def moments : List Text → Gpg.State (Keyring String) → List (Gpg.State (Keyring String))
  | [], s => [s]
  | addr :: recipients, s => s :: moments recipients (recipientKey pgp keyserver user_id addr s).2

/-- A key of the address at some moment while those of the recipients are looked up. -/
def Known (recipients : List Text) (s : Gpg.State (Keyring String)) (addr : Text)
    (fingerprint : String) : Prop :=
  ∃ t ∈ moments pgp keyserver user_id recipients s, KeyOf pgp keyserver user_id addr fingerprint t

variable {pgp keyserver user_id} {addr : Text} {recipients : List Text}
variable {s s' : Gpg.State (Keyring String)} {fingerprints : List String}

theorem keyOf_recipientKey {key : GpgKey}
    (h : (recipientKey pgp keyserver user_id addr s).1 = some key) :
    KeyOf pgp keyserver user_id addr key.fingerprint s := by
  unfold recipientKey at h
  split at h
  · rename_i found hfound
    obtain rfl := Option.some.inj h
    exact .inl ⟨found, List.mem_of_find?_eq_some hfound, List.find?_some hfound, rfl⟩
  · split at h
    · rename_i fetched after hfetch
      obtain rfl := Option.some.inj h
      exact .inr ⟨fetched, by rw [hfetch], rfl⟩
    · cases h

theorem recipientKeys_cons (addr : Text) (recipients : List Text) (s : Gpg.State (Keyring String)) :
    recipientKeys pgp.gnupg keyserver user_id (addr :: recipients) s =
      match recipientKey pgp keyserver user_id addr s with
      | (none, s) => (.error (.valueError ("No public key found for ".toList ++ addr)), s)
      | (some key, s) =>
        match recipientKeys pgp.gnupg keyserver user_id recipients s with
        | (.ok fingerprints, s) => (.ok (key.fingerprint :: fingerprints), s)
        | (.error failure, s) => (.error failure, s) := by
  rw [recipientKeys, recipientKey]
  cases getKeyForAddress s.gpg_keys addr user_id with
  | some key =>
    dsimp only
    rcases recipientKeys pgp.gnupg keyserver user_id recipients s with ⟨_ | _, _⟩ <;> rfl
  | none =>
    rcases fetchKeyFromKeyserver pgp.gnupg addr (keyserver addr) user_id true s with
      ⟨failure | key, after⟩
    · rfl
    · dsimp only
      rcases recipientKeys pgp.gnupg keyserver user_id recipients after with ⟨_ | _, _⟩ <;> rfl

theorem recipientKeys_cons_ok
    (h : recipientKeys pgp.gnupg keyserver user_id (addr :: recipients) s =
      (.ok fingerprints, s')) :
    ∃ key rest, (recipientKey pgp keyserver user_id addr s).1 = some key ∧
      recipientKeys pgp.gnupg keyserver user_id recipients
        (recipientKey pgp keyserver user_id addr s).2 = (.ok rest, s') ∧
      fingerprints = key.fingerprint :: rest := by
  rw [recipientKeys_cons] at h
  generalize recipientKey pgp keyserver user_id addr s = found at h ⊢
  obtain ⟨key, after⟩ := found
  cases key with
  | none => cases (Prod.mk.inj h).1
  | some key =>
    dsimp only at h ⊢
    split at h
    · rename_i rest final hrest
      obtain ⟨hkeys, rfl⟩ := Prod.mk.inj h
      exact ⟨key, rest, rfl, hrest, (Except.ok.inj hkeys).symm⟩
    · cases (Prod.mk.inj h).1

/-- Each recipient has one of the keys that are found. -/
theorem known_of_recipientKeys
    (h : recipientKeys pgp.gnupg keyserver user_id recipients s = (.ok fingerprints, s')) :
    ∀ addr ∈ recipients, ∃ f ∈ fingerprints, Known pgp keyserver user_id recipients s addr f := by
  induction recipients generalizing s fingerprints with
  | nil => simp
  | cons first recipients ih =>
    obtain ⟨key, rest, hkey, hrest, rfl⟩ := recipientKeys_cons_ok h
    intro addr haddr
    rcases List.mem_cons.mp haddr with rfl | hlater
    · exact ⟨key.fingerprint, List.mem_cons_self, s, List.mem_cons_self, keyOf_recipientKey hkey⟩
    · obtain ⟨f, hf, t, ht, hkeyOf⟩ := ih hrest addr hlater
      exact ⟨f, List.mem_cons_of_mem _ hf, t, List.mem_cons_of_mem _ ht, hkeyOf⟩

end

/-! ## What is submitted -/

section
variable {Wire : Type} (c : Composer) (p : EmailLibrary Wire) (pgp : OpenPgpMessages)
variable (detached : Keyring String → Bytes → String → Except Text Bytes)
variable (request : SendEmailRequest) (around : Surroundings) (s : Gpg.State (Keyring String))
variable (sign : Bool) (gpg_user_id : Option String) (keyserver : Text → Option Text)

/-- The message, signed if it is to be, before it is encrypted. -/
def clearBytes : Except Failure Wire := do
  let raw_bytes ← messageBytes c p request around (some s)
  signBytes p detached request sign gpg_user_id raw_bytes s

def SendEmailRequest.withoutContent (request : SendEmailRequest) : SendEmailRequest :=
  { request with body := [], body_type := "plain", attachments := [] }

/-- The fields in front of what is encrypted, read off the request without its content. -/
def outerFields (sender : Text) : List Header :=
  let fields := (messageHeaders request.withoutContent around sender).map (p.reread .compat32)
  if sign then fields.map (p.reread .smtp) else fields

/-- The message holds its content encrypted to these keys, and beside it nothing that
depends on the body or the attachments. -/
structure Sealed (message : Entity) (fingerprints : List String) : Prop where
  encrypted : ∃ payload raw_bytes body_bytes, message.payload = some payload ∧
    clearBytes c p detached request around s sign gpg_user_id = .ok raw_bytes ∧
    p.asBytes .smtp (pgpMimeBody (p.messageFromBytes raw_bytes)) = some body_bytes ∧
    pgp.message payload = some (fingerprints, p.octets body_bytes)
  wrapped : ∃ payload sender raw_bytes, message.payload = some payload ∧
    senderField c request.withoutContent around.display_name = .ok sender ∧
    p.asBytes .smtp (encryptedMessage
      (mimeHeaders encryptedType ++ outerFields p request around sign sender) payload) =
        some raw_bytes ∧
    message = p.messageFromBytes raw_bytes

/-- Encrypted to a key of each recipient it is for, without a field for blind copies. -/
structure Covers (submission : SmtpCall) : Prop where
  recipients : submission.recipients = request.all_recipients
  no_bcc : ∀ h ∈ submission.message.headers, h.isBcc = false
  everyone : ∃ user_id fingerprints, gpg_user_id = some user_id ∧
    Sealed c p pgp detached request around s sign gpg_user_id submission.message fingerprints ∧
    ∀ addr ∈ submission.recipients, ∃ f ∈ fingerprints,
      Known pgp keyserver user_id request.to_addresses s addr f

def HasKey (addr : Text) : Prop :=
  ∃ user_id fingerprint, gpg_user_id = some user_id ∧
    Known pgp keyserver user_id request.to_addresses s addr fingerprint

/-- Only a message that covers every recipient is submitted, and none where one of them
has no key. -/
def CoversRecipients (outcome : SendOutcome (Keyring String)) : Prop :=
  (∀ submission, outcome.submitted = some submission →
    Covers c p pgp detached request around s sign gpg_user_id keyserver submission) ∧
  ((∃ addr ∈ request.all_recipients, ¬ HasKey pgp request s gpg_user_id keyserver addr) →
    outcome.submitted = none)

/-- The message cannot be made, signed or encrypted. -/
def Refused : Prop :=
  ∃ failure, (finalBytes c p pgp.gnupg detached request around (some s) sign true gpg_user_id
    keyserver).1 = .error failure

/-- Everyone in Cc and Bcc has a key that is found for someone in To. -/
def CopiesShareKeys : Prop :=
  ∃ user_id fingerprints after, gpg_user_id = some user_id ∧
    recipientKeys pgp.gnupg keyserver user_id request.to_addresses s = (.ok fingerprints, after) ∧
    ∀ addr ∈ request.cc_addresses ++ request.bcc_addresses, ∃ f ∈ fingerprints,
      Known pgp keyserver user_id request.to_addresses s addr f

variable {c p pgp detached request around s sign gpg_user_id keyserver}
variable {raw_bytes sealed : Wire} {fingerprints : List String} {user_id : String}

theorem outer_map {fields : List Header} (policy : Policy)
    (h : ∀ field ∈ fields, field.isOuter = true ∧ field.isNamed = true) :
    ∀ field ∈ fields.map (p.reread policy), field.isOuter = true ∧ field.isNamed = true := by
  intro field hfield
  obtain ⟨written, hwritten, rfl⟩ := List.mem_map.mp hfield
  have hname := p.reread_name policy written
  have hsame : ∀ g g' : Header, g.name = g'.name →
      g.isOuter = g'.isOuter ∧ g.isNamed = g'.isNamed := by
    intro g g' hg
    simp [Header.isOuter, Header.isBcc, Header.isContent, Header.isNamed, hg]
  rw [(hsame _ _ hname).1, (hsame _ _ hname).2]
  exact h written hwritten

theorem outerFields_outer (sender : Text) :
    ∀ field ∈ outerFields p request around sign sender,
      field.isOuter = true ∧ field.isNamed = true := by
  unfold outerFields
  split
  · exact outer_map .smtp (outer_map .compat32 messageHeaders_outer)
  · exact outer_map .compat32 messageHeaders_outer

theorem clearBytes_outer
    (h : clearBytes c p detached request around s sign gpg_user_id = .ok raw_bytes) :
    ∃ sender, senderField c request.withoutContent around.display_name = .ok sender ∧
      (p.messageFromBytes raw_bytes).headers.filter Header.isOuter =
        outerFields p request around sign sender := by
  obtain ⟨plain, hplain, hsigned⟩ := ok_of_bind h
  obtain ⟨msg, hmsg, hwritten⟩ := ok_of_bind hplain
  obtain ⟨content_type, sender, hsender, hheaders⟩ := buildMessage_headers c hmsg
  have hplainOuter := p.outer_read_of_mime hheaders messageHeaders_outer (written_ok hwritten)
  refine ⟨sender, hsender, ?_⟩
  unfold signBytes at hsigned
  unfold outerFields
  split at hsigned
  · rename_i hsign
    split at hsigned
    · cases hsigned
    · obtain ⟨sig, hsigned⟩ := signMessage_ok p hsigned
      rw [hplainOuter] at hsigned
      rw [if_pos hsign]
      exact p.outer_read_of_mime rfl (outer_map .compat32 messageHeaders_outer) hsigned
  · rename_i hsign
    rw [if_neg hsign, ← Except.ok.inj hsigned]
    exact hplainOuter

theorem sealed_of_encryptTo {ring : Keyring String}
    (hclear : clearBytes c p detached request around s sign gpg_user_id = .ok raw_bytes)
    (h : encryptTo p pgp.gnupg ring raw_bytes fingerprints = .ok sealed) :
    Sealed c p pgp detached request around s sign gpg_user_id (p.messageFromBytes sealed)
      fingerprints := by
  obtain ⟨sender, hsender, houter⟩ := clearBytes_outer hclear
  obtain ⟨body_bytes, payload, hbody, hencrypt, hwritten⟩ := encryptTo_ok p pgp.gnupg h
  have hpayload := payload_encryptedMessage p hwritten
  have hmessage : pgp.message payload = some (fingerprints, p.octets body_bytes) := by
    change (if ∀ f ∈ fingerprints, f ∈ ring.publicKeys then
      .ok (pgp.encrypted (p.octets body_bytes) fingerprints) else _) = Except.ok payload at hencrypt
    split at hencrypt
    · rw [← Except.ok.inj hencrypt]
      exact pgp.message_encrypted _ _
    · cases hencrypt
  rw [houter] at hwritten
  exact ⟨⟨payload, raw_bytes, body_bytes, hpayload, hclear, hbody, hmessage⟩,
    ⟨payload, sender, sealed, hpayload, hsender, hwritten, rfl⟩⟩

/-- A message is encrypted to one list of keys. -/
theorem Sealed.unique {message : Entity} {fingerprints' : List String}
    (h : Sealed c p pgp detached request around s sign gpg_user_id message fingerprints)
    (h' : Sealed c p pgp detached request around s sign gpg_user_id message fingerprints') :
    fingerprints = fingerprints' := by
  obtain ⟨payload, _, _, hpayload, -, -, hmessage⟩ := h.encrypted
  obtain ⟨payload', _, _, hpayload', -, -, hmessage'⟩ := h'.encrypted
  obtain rfl := Option.some.inj (hpayload.symm.trans hpayload')
  exact (Prod.mk.inj (Option.some.inj (hmessage.symm.trans hmessage'))).1

theorem Sealed.no_bcc {message : Entity}
    (h : Sealed c p pgp detached request around s sign gpg_user_id message fingerprints) :
    ∀ h ∈ message.headers, h.isBcc = false := by
  obtain ⟨payload, sender, raw_bytes, -, -, hwritten, rfl⟩ := h.wrapped
  refine p.no_bcc_read ?_ ?_ hwritten
  · intro field hfield
    rcases List.mem_append.mp hfield with hmime | houter
    · exact isNamed_mimeHeaders _ field hmime
    · exact (outerFields_outer sender field houter).2
  · intro field hfield
    rcases List.mem_append.mp hfield with hmime | houter
    · simp only [mimeHeaders, List.mem_cons, List.not_mem_nil, or_false] at hmime
      rcases hmime with rfl | rfl <;> rfl
    · have houter := (outerFields_outer sender field houter).1
      simp only [Header.isOuter, Bool.not_eq_true', Bool.or_eq_false_iff] at houter
      exact houter.1

theorem finalBytes_ok {db : Option (Gpg.State (Keyring String))}
    (h : finalBytes c p pgp.gnupg detached request around (some s) sign true gpg_user_id keyserver =
      (.ok sealed, db)) :
    ∃ user_id clear fingerprints after, gpg_user_id = some user_id ∧
      clearBytes c p detached request around s sign gpg_user_id = .ok clear ∧
      recipientKeys pgp.gnupg keyserver user_id request.to_addresses s =
        (.ok fingerprints, after) ∧
      encryptTo p pgp.gnupg after.ring clear fingerprints = .ok sealed := by
  unfold finalBytes at h
  split at h
  · cases (Prod.mk.inj h).1
  · rename_i raw_bytes hplain
    have hresult := (Prod.mk.inj h).1
    split at hresult
    · cases hresult
    · rename_i clear hclear
      rw [if_pos rfl] at hresult
      split at hresult
      · cases hresult
      · rename_i user_id
        unfold sealMessage at hresult
        split at hresult
        · cases hresult
        · rename_i fingerprints after hkeys
          refine ⟨user_id, clear, fingerprints, after, rfl, ?_, hkeys, hresult⟩
          unfold clearBytes
          rw [hplain]
          exact hclear

theorem known_all (hkeys : ∀ addr ∈ request.to_addresses, ∃ f ∈ fingerprints,
      Known pgp keyserver user_id request.to_addresses s addr f)
    (hcopies : ∀ addr ∈ request.cc_addresses ++ request.bcc_addresses, ∃ f ∈ fingerprints,
      Known pgp keyserver user_id request.to_addresses s addr f) :
    ∀ addr ∈ request.all_recipients, ∃ f ∈ fingerprints,
      Known pgp keyserver user_id request.to_addresses s addr f := by
  intro addr haddr
  rw [SendEmailRequest.all_recipients, List.append_assoc] at haddr
  rcases List.mem_append.mp haddr with hto | hcopy
  · exact hkeys addr hto
  · exact hcopies addr hcopy

/-- It covers every recipient exactly where those who get copies have keys that are
found for the To addresses anyway, or where nothing is sent. -/
theorem sendEmail_covers_iff {Wire : Type} (c : Composer) (p : EmailLibrary Wire)
    (pgp : OpenPgpMessages) (detached : Keyring String → Bytes → String → Except Text Bytes)
    (request : SendEmailRequest) (around : Surroundings) (s : Gpg.State (Keyring String))
    (sign : Bool) (gpg_user_id : Option String) (keyserver : Text → Option Text)
    (accepted : Bool) :
    CoversRecipients c p pgp detached request around s sign gpg_user_id keyserver
        (sendEmail c p pgp.gnupg detached request around (some s) sign true gpg_user_id keyserver
          accepted) ↔
      Refused c p pgp detached request around s sign gpg_user_id keyserver ∨
        CopiesShareKeys pgp request s gpg_user_id keyserver := by
  unfold sendEmail
  cases hfinal : finalBytes c p pgp.gnupg detached request around (some s) sign true gpg_user_id
    keyserver with
  | mk result db =>
  cases result with
  | error failure =>
    exact iff_of_true ⟨nofun, fun _ => rfl⟩ (.inl ⟨failure, by rw [hfinal]⟩)
  | ok sealed =>
    obtain ⟨user_id, clear, fingerprints, after, huser, hclear, hkeys, hencrypt⟩ :=
      finalBytes_ok hfinal
    have hsealed := sealed_of_encryptTo hclear hencrypt
    constructor
    · rintro ⟨hcovers, -⟩
      obtain ⟨-, -, user, others, huser', hothers, hall⟩ := hcovers _ rfl
      obtain rfl := hsealed.unique hothers
      obtain rfl := Option.some.inj (huser.symm.trans huser')
      refine .inr ⟨user_id, fingerprints, after, huser, hkeys, fun addr haddr => hall addr ?_⟩
      rw [SendEmailRequest.all_recipients, List.append_assoc]
      exact List.mem_append_right _ haddr
    · rintro (⟨failure, hrefused⟩ | ⟨user, found, later, huser', hfound, hcopies⟩)
      · rw [hfinal] at hrefused
        cases hrefused
      · obtain rfl := Option.some.inj (huser.symm.trans huser')
        obtain rfl := Except.ok.inj (Prod.mk.inj (hkeys.symm.trans hfound)).1
        have hall := known_all (known_of_recipientKeys hkeys) hcopies
        constructor
        · intro submission hsubmission
          obtain rfl := Option.some.inj hsubmission
          exact ⟨rfl, hsealed.no_bcc, user_id, fingerprints, huser, hsealed, hall⟩
        · rintro ⟨addr, haddr, hnone⟩
          obtain ⟨f, -, hknown⟩ := hall addr haddr
          exact absurd ⟨user_id, f, huser, hknown⟩ hnone

end

/-! ## A recipient without a key -/

/-- The names of the keys in front of the data, each part behind an octet that no name
has. -/
def encodeFor (data : Bytes) (fingerprints : List String) : Bytes :=
  [255].intercalate (fingerprints.map (fun f => Utf8.encode f.toList) ++ [[]]) ++ 254 :: data

def decodeFor (octets : Bytes) : Option (List String × Bytes) :=
  match octets.dropWhile (· != 254) with
  | [] => none
  | _ :: data =>
    let names := ((octets.takeWhile (· != 254)).splitOn 255).dropLast
    some (names.map fun name => String.ofList ((Utf8.decode? name).getD []), data)

theorem decodeFor_encodeFor (data : Bytes) (fingerprints : List String) :
    decodeFor (encodeFor data fingerprints) = some (fingerprints, data) := by
  let names := fingerprints.map (fun f => Utf8.encode f.toList) ++ [[]]
  have hnames : ∀ octet : UInt8, 248 ≤ octet.toNat → ∀ name ∈ names, octet ∉ name := by
    intro octet hhigh name hname hmem
    rcases List.mem_append.mp hname with hkey | hlast
    · obtain ⟨f, -, rfl⟩ := List.mem_map.mp hkey
      have hlow := Utf8.toNat_lt_of_mem hmem
      omega
    · rw [List.mem_singleton.mp hlast] at hmem
      cases hmem
  have hbefore : ∀ octet ∈ [255].intercalate names, (octet != 254) = true := by
    intro octet hmem
    rcases Text.mem_intercalate hmem with rfl | ⟨name, hname, hoctet⟩
    · rfl
    · rw [bne_iff_ne]
      rintro rfl
      exact hnames 254 (by decide) name hname hoctet
  have hdecode : ∀ f : String,
      String.ofList ((Utf8.decode? (Utf8.encode f.toList)).getD []) = f := by
    intro f
    rw [Utf8.decode?_eq_some_iff.mpr rfl, Option.getD_some, String.ofList_toList]
  change decodeFor ([255].intercalate names ++ 254 :: data) = _
  unfold decodeFor
  rw [List.dropWhile_append_of_pos hbefore, List.takeWhile_append_of_pos hbefore]
  have hsplit : ([255].intercalate names).splitOn 255 = names :=
    List.splitOn_intercalate 255 (hnames 255 (by decide)) (by simp [names])
  simp [hsplit, names, hdecode, Function.comp_def]

/-- A world of one key, that of erin@x. -/
def erinPgp : OpenPgpMessages where
  keys _ := []
  generated _ _ := .error []
  describe fingerprint := { fingerprint := fingerprint, uids := ["Erin <erin@x>".toList] }
  armor _ := []
  message := decodeFor
  encrypted := encodeFor
  verify _ _ _ := ⟨false, none, "no public key".toList, none, none⟩
  message_encrypted := decodeFor_encodeFor

/-- Messages whose fields are on one line are read as they were written. -/
def plainLibrary : EmailLibrary Entity where
  asBytes _ e := some e
  messageFromBytes e := e
  octets e :=
    let lines (e : Entity) : Bytes := Utf8.encode (e.headers.flatMap fun h =>
      h.name ++ ": ".toList ++ h.value ++ "\r\n".toList) ++ [13, 10] ++ e.content.getD []
    lines e ++ e.parts.flatMap lines
  reread _ h := h
  reread_name _ _ := rfl
  headers_read _ e raw _ h := by rw [← Option.some.inj h, List.map_id']
  parts_read _ e raw _ h := by rw [← Option.some.inj h]

def plainComposer : Composer where
  htmlToPlainText text := text
  closeVoidElements text := text
  lower := Text.asciiLower
  disposition filename := "attachment; filename=\"".toList ++ filename ++ "\"".toList
  b64decode data :=
    match Base64.decode true data with
    | some octets => .ok octets
    | none => .error "Incorrect padding".toList
  formataddr name address := .ok (name ++ " <".toList ++ address ++ ">".toList)
  encode text := .ok (Utf8.encode text)

def copyToDana : SendEmailRequest :=
  { from_address := "alice@x".toList, to_addresses := ["erin@x".toList],
    cc_addresses := ["dana@x".toList], subject := "hi".toList, body := "secret".toList }

def aroundAlice : Surroundings :=
  ⟨"x".toList, "Mon, 01 Jan 2024 00:00:00 +0000".toList, "<1@x>".toList, none⟩

/-- The user has the key of erin@x, and none of dana@x. -/
def keysOfAlice : Gpg.State (Keyring String) where
  ring := ⟨["AA"], [], by simp⟩
  gpg_keys := KeyTable.empty.add "alice"
    { user_id := some "alice", mailbox_address := "erin@x".toList, fingerprint := "AA" } rfl rfl

theorem copy_not_covered :
    ¬ CoversRecipients plainComposer plainLibrary erinPgp (fun _ _ _ => .error []) copyToDana
      aroundAlice keysOfAlice false (some "alice") (fun _ => none)
      (sendEmail plainComposer plainLibrary erinPgp.gnupg (fun _ _ _ => .error []) copyToDana
        aroundAlice (some keysOfAlice) false true (some "alice") (fun _ => none) true) := by
  rintro ⟨-, hnone⟩
  have hsubmitted : (sendEmail plainComposer plainLibrary erinPgp.gnupg (fun _ _ _ => .error [])
      copyToDana aroundAlice (some keysOfAlice) false true (some "alice") (fun _ => none)
        true).submitted.isSome = true := by
    decide +kernel
  have hdana : ¬ HasKey erinPgp copyToDana keysOfAlice (some "alice") (fun _ => none)
      "dana@x".toList := by
    rintro ⟨user_id, f, huser, t, ht, hkey⟩
    obtain rfl := Option.some.inj huser
    have hsame : moments erinPgp (fun _ => none) "alice" copyToDana.to_addresses keysOfAlice =
        [keysOfAlice, keysOfAlice] := rfl
    rw [hsame] at ht
    simp only [List.mem_cons, List.not_mem_nil, or_false, or_self] at ht
    subst ht
    rcases hkey with ⟨k, hk, hserves, -⟩ | ⟨k, hfetch, -⟩
    · obtain rfl := List.mem_singleton.mp hk
      revert hserves
      decide
    · cases hfetch
  rw [hnone ⟨"dana@x".toList, by decide, hdana⟩] at hsubmitted
  cases hsubmitted

end MailCue.Backend.Emails
