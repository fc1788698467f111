import MailCue.Backend.Mailboxes.Service
import MailCue.Backend.Mailboxes.UsersFile
import MailCue.Lib.Percent

/-!
# The checked mailbox and the one used

backend/app/mailboxes/router.py `verify_mailbox_access`, the endpoints that call it
with a caller's string, and backend/app/emails/service.py `_ensure_dovecot_user`,
which every IMAP connection begins with. The check percent-decodes and lower-cases
the string; the endpoints then use it as it came, or decoded. Dovecot folds the
case of ASCII in a login name, and Postfix in an address.
-/
namespace MailCue.Backend.Mailboxes
open MailCue.Lib MailCue.Lib.Percent

/-! ## The check -/

structure Auth where
  user_id : String
  is_admin : Bool
  /-- Lower-cased; `none` for no restriction. -/
  allowed_mailboxes : Option (List Text)

def Auth.mailboxAllowed (s : Server) (auth : Auth) (address : Text) : Bool :=
  auth.allowed_mailboxes.all fun allowed => allowed.contains (s.lower address)

/-- The lookup of the check, which registers the Maildirs before it gives up. -/
def findMailbox (s : Server) (t : Table) (maildirs : List (Text × Text)) (address : Text) :
    Except MailCueError (Text × Mailbox) × Table :=
  match getMailboxByAddress s t address with
  | .ok found => (.ok found, t)
  | .error _ =>
    let t := syncFilesystemMailboxes s t maildirs
    (getMailboxByAddress s t address, t)

/-- The address of the row that was checked. -/
def verifyMailboxAccess (s : Server) (d : Decoder) (auth : Auth) (t : Table)
    (maildirs : List (Text × Text)) (mailbox_address : Text) : Except MailCueError Text × Table :=
  let decoded := s.lower (unquote d mailbox_address)
  match findMailbox s t maildirs decoded with
  | (.error e, t) => (.error e, t)
  | (.ok (address, mailbox), t) =>
    if mailbox.user_id ≠ some auth.user_id ∧ !(auth.is_admin && mailbox.is_catchall) then
      (.error (authorizationError "You do not have access to this mailbox"), t)
    else if !auth.mailboxAllowed s decoded then
      (.error (authorizationError "This API key is not permitted to access this mailbox"), t)
    else if s.hides mailbox then
      (.error (notFoundError "Mailbox" (String.ofList decoded)), t)
    else (.ok address, t)

/-! ## The account behind a connection -/

/-- What `_ensure_dovecot_user` reads: `str.casefold`, `doveadm pw`, and of the
settings the storage path, resolved, by its parts, and the domain. -/
structure Storage where
  casefold : Text → Text
  hash : Text → Text
  root : List Text
  domain : Text

def resolve (parts : List Text) : List Text :=
  parts.foldl (fun path part =>
    if part = ['.'] then path else if part = ['.', '.'] then path.dropLast else path ++ [part]) []

def safeMaildirPath (root : List Text) (domain local_part : Text) : Option (List Text) :=
  let forbidden (separator : Char) : Bool :=
    decide (separator ∈ domain) || decide (separator ∈ local_part)
  if domain = [] ∨ local_part = [] ∨ ['/', '\\', '\x00'].any forbidden then none
  else
    let maildir := resolve (root ++ [domain, local_part])
    if root <+: maildir ∧ maildir.dropLast ≠ root then some maildir else none

def pathText (path : List Text) : Text := path.flatMap fun part => '/' :: part

def userLine (address hashed maildir : Text) : Text :=
  address ++ ':' :: hashed ++ ":5000:5000::".toList ++ maildir ++ "::\n".toList

def autoPassword : Text := "mailcue-auto-password".toList

/-- The lines of an address, without their breaks. -/
def matchingLines (st : Storage) (content address : Text) : List Text :=
  ((usersLines content).map (List.rdropWhile isLineBreak)).filter fun line =>
    st.casefold (lineName line) == st.casefold address

/-- The line for an address no line is for. -/
def autoLine (st : Storage) (address : Text) : Option Text :=
  let local_part := address.takeWhile (· != '@')
  let domain := (address.dropWhile (· != '@')).drop 1
  let domain := if domain = [] then st.domain else domain
  (safeMaildirPath st.root domain local_part).map fun maildir =>
    userLine address (st.hash autoPassword) (pathText maildir)

/-- The upsert that `_ensure_dovecot_user` makes, where it makes one. -/
def ensureDovecotUser (st : Storage) (file : Option Text) (address : Text) : Option UsersOp :=
  match file with
  | none => none
  | some content =>
    match matchingLines st content address with
    | [] => (autoLine st address).map (.upsert address)
    | [_] => none
    | first :: rest => some (.upsert address ((first :: rest).getLast (List.cons_ne_nil _ _)))

/-- The upsert makes an account there was none of. -/
def createsAccount (st : Storage) (file : Option Text) (address : Text) : Bool :=
  file.any fun content =>
    (matchingLines st content address).isEmpty && (autoLine st address).isSome

/-- The account a login name with the master user reaches, where Dovecot takes it.
Documented behaviour: the name is lower-cased as ASCII. -/
structure Dovecot where
  account : Text → Option Text
  lowers : ∀ name found, account name = some found → found = Text.asciiLower name

/-! ## The endpoints -/

inductive Endpoint
  | listAllEmails | getSingleEmail | getRawEmail | downloadAttachment | deleteSingleEmail
  | sendNewEmail
  | listMailboxEmails | getMailboxEmail | deleteMailboxEmail | bulkDeleteMailboxEmails
  deriving DecidableEq, Repr

namespace Endpoint

/-- The nested routes decode their path segment; the others use the query value, or
the `from_address`, as it came. -/
def decodes : Endpoint → Bool
  | listMailboxEmails | getMailboxEmail | deleteMailboxEmail | bulkDeleteMailboxEmails => true
  | _ => false

/-- The endpoints that look the row up again. -/
def looksUp : Endpoint → Bool
  | deleteSingleEmail | deleteMailboxEmail | bulkDeleteMailboxEmails => true
  | _ => false

def used (d : Decoder) (ep : Endpoint) (text : Text) : Text :=
  if ep.decodes then unquote d text else text

end Endpoint

/-- The row checked, and the name the operation logs in with or sends from. -/
def serve (s : Server) (d : Decoder) (ep : Endpoint) (auth : Auth) (t : Table)
    (maildirs : List (Text × Text)) (text : Text) : Except MailCueError (Text × Text) × Table :=
  match verifyMailboxAccess s d auth t maildirs text with
  | (.error e, t) => (.error e, t)
  | (.ok checked, t) =>
    if ep.looksUp then
      match getMailboxByAddress s t (ep.used d text) with
      | .error e => (.error e, t)
      | .ok _ => (.ok (checked, ep.used d text), t)
    else (.ok (checked, ep.used d text), t)

/-- The operation is on the row checked: a send is from its address, a login reaches
its account, a line healed is its own, and no account is made. -/
def Confined (st : Storage) (dovecot : Dovecot) (file : Option Text) (ep : Endpoint)
    (checked used : Text) : Prop :=
  if ep = .sendNewEmail then Text.asciiLower used = checked
  else
    (∀ account, dovecot.account used = some account → account = checked) ∧
      (∀ op, ensureDovecotUser st file used = some op → Text.asciiLower op.address = checked) ∧
        createsAccount st file used = false

/-- No escape that the endpoint leaves in, and outside ASCII nothing that
lower-casing changes. -/
def Plain (s : Server) (d : Decoder) (ep : Endpoint) (text : Text) : Prop :=
  (ep.decodes = true ∨ escapes text = 0) ∧
    s.lower (ep.used d text) = Text.asciiLower (ep.used d text)

/-- An account to log in to is there already. -/
def Provisioned (st : Storage) (file : Option Text) (ep : Endpoint) (used : Text) : Prop :=
  ep = .sendNewEmail ∨ createsAccount st file used = false

/-- The IMAP server refuses the name, and the users file needs no line for it. -/
def Inert (st : Storage) (dovecot : Dovecot) (file : Option Text) (ep : Endpoint)
    (used : Text) : Prop :=
  ep ≠ .sendNewEmail ∧ dovecot.account used = none ∧ ensureDovecotUser st file used = none

/-! ## Case -/

def dotted : Char := '\u0130'

/-- A capital I with its dot has two octets, and two characters lower-cased. -/
def cost (c : Char) : Nat := if c = dotted then 2 else 1

/-- Documented behaviour of `str.lower`. -/
structure LowerFacts (lower : Text → Text) : Prop where
  lower_lower : ∀ text, lower (lower text) = lower text
  length_le : ∀ text, (lower text).length ≤ total cost text
  no_dotted : ∀ text, dotted ∉ lower text

/-- Decoded octets: no character comes of less than one, and none of two of less
than two. -/
def DecodesWithin (d : Decoder) : Prop := ∀ os, total cost (d.decode os) ≤ os.length

section
variable {s : Server} {d : Decoder} {auth : Auth} {t t' : Table} {maildirs : List (Text × Text)}
  {text : Text}

theorem total_of_no_dotted (h : dotted ∉ text) : total cost text = text.length := by
  induction text with
  | nil => rfl
  | cons c rest ih =>
    simp only [List.mem_cons, not_or] at h
    have hrest := ih h.2
    have hc : cost c = 1 := if_neg (Ne.symm h.1)
    simp only [total, List.map_cons, List.sum_cons, List.length_cons, hc] at hrest ⊢
    omega

/-- What an escape decodes to never lower-cases to the escape. -/
theorem no_escapes_of_lower (hlower : LowerFacts s.lower) (hdecode : DecodesWithin d)
    (h : s.lower (unquote d text) = Text.asciiLower text) : escapes text = 0 := by
  have hascii : ∀ c, Text.ascii c = true → 1 ≤ cost c := by
    intro c _
    unfold cost
    split <;> omega
  have hno : dotted ∉ text := by
    intro hmem
    have hlow : dotted.toLower ∈ Text.asciiLower text := List.mem_map_of_mem hmem
    rw [← h] at hlow
    exact hlower.no_dotted _ hlow
  have hshort := unquote_cost hdecode hascii text
  have hlength := hlower.length_le (unquote d text)
  rw [h] at hlength
  rw [total_of_no_dotted hno] at hshort
  simp only [Text.asciiLower, List.length_map] at hlength
  omega

/-- The name used is the address checked, but for the case of ASCII, exactly where
the string is plain. -/
theorem plain_iff (hlower : LowerFacts s.lower) (hdecode : DecodesWithin d) (ep : Endpoint) :
    Text.asciiLower (ep.used d text) = s.lower (s.lower (unquote d text)) ↔ Plain s d ep text := by
  rw [hlower.lower_lower]
  unfold Plain Endpoint.used
  by_cases hep : ep.decodes = true
  · simp [hep, eq_comm]
  · simp only [hep, false_or, Bool.false_eq_true, if_false]
    constructor
    · intro h
      have hnone := no_escapes_of_lower hlower hdecode h.symm
      rw [unquote_of_no_escapes d hnone] at h
      exact ⟨hnone, h.symm⟩
    · rintro ⟨hnone, h⟩
      rw [unquote_of_no_escapes d hnone, h]

/-! ## Requests -/

theorem getMailboxByAddress_ok {address found : Text} {row : Mailbox}
    (h : getMailboxByAddress s t address = .ok (found, row)) :
    found = s.lower address ∧ t.lookup (s.lower address) = some row := by
  unfold getMailboxByAddress at h
  split at h
  · cases h
  · rename_i hlookup
    split at h
    · cases h
    · cases h
      exact ⟨rfl, hlookup⟩

theorem findMailbox_ok {address found : Text} {row : Mailbox}
    (h : findMailbox s t maildirs address = (.ok (found, row), t')) :
    found = s.lower address ∧ t'.lookup (s.lower address) = some row := by
  unfold findMailbox at h
  split at h
  · rename_i hget
    cases h
    exact getMailboxByAddress_ok hget
  · obtain ⟨hget, rfl⟩ := Prod.mk.inj h
    exact getMailboxByAddress_ok hget

/-- A request that is let through names a row of the caller, or a catch-all one to
an administrator. -/
theorem verifyMailboxAccess_ok {checked : Text}
    (h : verifyMailboxAccess s d auth t maildirs text = (.ok checked, t')) :
    checked = s.lower (s.lower (unquote d text)) ∧
      ∃ row, t'.lookup checked = some row ∧
        (row.user_id = some auth.user_id ∨ (auth.is_admin && row.is_catchall) = true) := by
  unfold verifyMailboxAccess at h
  dsimp only at h
  split at h
  · cases h
  · rename_i hfind
    obtain ⟨rfl, hlookup⟩ := findMailbox_ok hfind
    split at h
    · cases h
    · rename_i howner
      split at h
      · cases h
      · split at h
        · cases h
        · cases h
          refine ⟨rfl, _, hlookup, ?_⟩
          by_contra hnot
          obtain ⟨hother, hnoadmin⟩ := not_or.mp hnot
          exact howner ⟨hother, by rw [Bool.eq_false_iff.mpr hnoadmin, Bool.not_false]⟩

theorem serve_ok {ep : Endpoint} {checked used : Text}
    (h : serve s d ep auth t maildirs text = (.ok (checked, used), t')) :
    checked = s.lower (s.lower (unquote d text)) ∧ used = ep.used d text := by
  unfold serve at h
  split at h
  · cases h
  · rename_i hverify
    obtain ⟨rfl, -⟩ := verifyMailboxAccess_ok hverify
    split at h
    · split at h
      · cases h
      · cases h
        exact ⟨rfl, rfl⟩
    · cases h
      exact ⟨rfl, rfl⟩

theorem ensureDovecotUser_address {st : Storage} {file : Option Text} {address : Text}
    {op : UsersOp} (h : ensureDovecotUser st file address = some op) : op.address = address := by
  unfold ensureDovecotUser at h
  split at h
  · cases h
  · split at h
    · obtain ⟨line, -, rfl⟩ := Option.map_eq_some_iff.mp h
      rfl
    · cases h
    · cases h
      rfl

theorem not_createsAccount {st : Storage} {file : Option Text} {address : Text}
    (h : ensureDovecotUser st file address = none) : createsAccount st file address = false := by
  cases file with
  | none => rfl
  | some content =>
    simp only [ensureDovecotUser] at h
    split at h
    · rename_i hnone
      simp [createsAccount, Option.map_eq_none_iff.mp h]
    · rename_i hone
      simp [createsAccount, hone]
    · cases h

/-- An operation is on the row that was checked and makes no account exactly where its
string is plain and its account is there, or nothing comes of the name it uses. -/
theorem access_confined_iff {st : Storage} {dovecot : Dovecot} {file : Option Text}
    {ep : Endpoint} {checked used : Text} (hlower : LowerFacts s.lower) (hdecode : DecodesWithin d)
    (h : serve s d ep auth t maildirs text = (.ok (checked, used), t')) :
    Confined st dovecot file ep checked used ↔
      (Plain s d ep text ∧ Provisioned st file ep (ep.used d text)) ∨
        Inert st dovecot file ep (ep.used d text) := by
  obtain ⟨rfl, rfl⟩ := serve_ok h
  rw [← plain_iff hlower hdecode]
  unfold Confined Provisioned Inert
  by_cases hsend : ep = .sendNewEmail
  · simp [hsend]
  · rw [if_neg hsend]
    constructor
    · rintro ⟨hlogin, hensure, hcreate⟩
      cases haccount : dovecot.account (ep.used d text) with
      | some account =>
        have hlow := dovecot.lowers _ _ haccount
        exact .inl ⟨hlow ▸ hlogin _ haccount, .inr hcreate⟩
      | none =>
        cases hop : ensureDovecotUser st file (ep.used d text) with
        | some op =>
          have haddress := ensureDovecotUser_address hop
          exact .inl ⟨haddress ▸ hensure _ hop, .inr hcreate⟩
        | none => exact .inr ⟨hsend, rfl, rfl⟩
    · rintro (⟨hplain, hsend' | hcreate⟩ | ⟨-, haccount, hop⟩)
      · exact absurd hsend' hsend
      · refine ⟨fun account haccount => (dovecot.lowers _ _ haccount).trans hplain, fun op hop => ?_,
          hcreate⟩
        rw [ensureDovecotUser_address hop, hplain]
      · exact ⟨fun account h => by simp [haccount] at h, fun op h => by simp [hop] at h,
          not_createsAccount hop⟩

end

/-! ## A server -/

/-- `str.lower` on ASCII and the one capital it makes two characters of. -/
def asciiAndDotted (text : Text) : Text :=
  text.flatMap fun c => if c = dotted then ['i', '\u0307'] else [c.toLower]

theorem toLower_ne_dotted {c : Char} (hc : c ≠ dotted) : c.toLower ≠ dotted := by
  intro h
  by_cases hascii : Text.ascii c = true
  · have hlow := Text.ascii_toLower hascii
    rw [h] at hlow
    cases hlow
  · rw [Text.toLower_of_not_ascii (by simpa using hascii)] at h
    exact hc h

theorem asciiAndDotted_facts : LowerFacts asciiAndDotted where
  lower_lower text := by
    unfold asciiAndDotted
    rw [List.flatMap_assoc]
    refine List.flatMap_congr fun c _ => ?_
    split
    · decide
    · rename_i hc
      simp [toLower_ne_dotted hc, Text.toLower_toLower]
  length_le text := by
    induction text with
    | nil => exact le_refl _
    | cons c rest ih =>
      simp only [asciiAndDotted, total, cost, List.flatMap_cons, List.length_append,
        List.map_cons, List.sum_cons] at ih ⊢
      split <;> simp only [List.length_cons, List.length_nil] <;> omega
  no_dotted text := by
    simp only [asciiAndDotted, List.mem_flatMap, not_exists, not_and]
    intro c _
    split
    · decide
    · rename_i hc
      simpa using Ne.symm (toLower_ne_dotted hc)

/-- Octets above ASCII are replaced one by one. -/
def replacing : Decoder where
  decode os := os.map fun o => if o.toNat < 128 then Char.ofNat o.toNat else '\uFFFD'
  ascii text h := by
    rw [List.map_map]
    calc text.map _ = text.map id := List.map_congr_left fun c hc => by
          have hsmall : c.toNat < 128 := by simpa [Text.ascii] using h c hc
          have hoctet : (octet c).toNat = c.toNat := by
            rw [octet, UInt8.toNat_ofNat']
            omega
          simp only [Function.comp, hoctet, if_pos hsmall, Char.ofNat_toNat, id]
      _ = text := List.map_id text

theorem replacing_within : DecodesWithin replacing := by
  intro os
  have hone : ∀ o : UInt8, cost (if o.toNat < 128 then Char.ofNat o.toNat else '\uFFFD') = 1 := by
    intro o
    refine if_neg ?_
    split
    · rename_i ho
      have hall : ∀ n < 128, Char.ofNat n ≠ dotted := by decide
      exact hall o.toNat ho
    · decide
  have htotal : total cost (replacing.decode os) = os.length := by
    simp [total, replacing, Function.comp_def, hone]
  exact htotal.le

/-- Alice has one mailbox. -/
def aliceServer : Server where
  lower := asciiAndDotted
  domain := "x".toList
  is_production := false
  catch_all_enabled := false
  users _ := none
  catchall_owner := none
  registered _ := true
  active_domains := 0

def aliceTable : Table :=
  (∅ : Table).insert "aa@x".toList
    { display_name := "aa".toList, domain := "x".toList, user_id := some "alice" }

def alice : Auth := ⟨"alice", false, none⟩

def vhosts : Storage where
  casefold := Text.asciiLower
  hash password := '#' :: password
  root := ["var".toList, "mail".toList]
  domain := "x".toList

/-- Every login is taken. -/
def trusting : Dovecot where
  account name := some (Text.asciiLower name)
  lowers _ _ h := (Option.some.inj h).symm

def aliceLine : Text := "aa@x:#1:5000:5000::/var/mail/x/aa::\n".toList

/-- Capitals are no escape: the nested route reads Alice's own mail. -/
theorem access_confined_capitals :
    Confined vhosts trusting (some aliceLine) .listMailboxEmails "aa@x".toList "AA@x".toList ↔
      (Plain aliceServer replacing .listMailboxEmails "A%41@x".toList ∧
        Provisioned vhosts (some aliceLine) .listMailboxEmails
          (Endpoint.listMailboxEmails.used replacing "A%41@x".toList)) ∨
        Inert vhosts trusting (some aliceLine) .listMailboxEmails
          (Endpoint.listMailboxEmails.used replacing "A%41@x".toList) := by
  have hrequest : serve aliceServer replacing .listMailboxEmails alice aliceTable []
      "A%41@x".toList = (.ok ("aa@x".toList, "AA@x".toList), aliceTable) := rfl
  exact access_confined_iff asciiAndDotted_facts replacing_within hrequest

/-- Decoded, the string is Alice's address. Undecoded, as the other router has it, it is
another one, which is given an account with the fixed password. -/
theorem escape_leaves_row :
    (serve aliceServer replacing .listAllEmails alice aliceTable [] "a%61@x".toList).1 =
        .ok ("aa@x".toList, "a%61@x".toList) ∧
      ensureDovecotUser vhosts (some aliceLine) "a%61@x".toList = some (.upsert "a%61@x".toList
        "a%61@x:#mailcue-auto-password:5000:5000::/var/mail/x/a%61::\n".toList) ∧
      ¬ Confined vhosts trusting (some aliceLine) .listAllEmails "aa@x".toList "a%61@x".toList := by
  refine ⟨by decide, by decide, ?_⟩
  intro h
  have haccount := h.1 "a%61@x".toList (by decide)
  exact absurd haccount (by decide)

end MailCue.Backend.Mailboxes
