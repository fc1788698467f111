import MailCue.Lib.Base64
import Mathlib.Logic.Function.Basic

/-!
# The edge's allow-list file

tunnel/crates/proto/src/authorized.rs: what a file of authorised keys loads as, and
the two operations that rewrite it. A file is its text, or missing; one that is not
UTF-8 does not load. Modes, owners and the replacement of the file by a rename are
left out, and the text of a base64 error is its own.
-/
namespace MailCue.Tunnel.Proto.Authorized
open MailCue.Lib

abbrev PublicKey := { octets : List UInt8 // octets.length = 32 }

structure ClientEntry where
  name : Option Text
  deriving DecidableEq, Repr

inductive Reason
  | base64Decode
  | expected32Bytes (got : Nat)
  deriving DecidableEq, Repr

inductive AuthorizedError
  | badLine (line : Nat) (reason : Reason)
  deriving DecidableEq, Repr

/-- `by_pubkey`. -/
abbrev AuthorizedClients := PublicKey → Option ClientEntry

abbrev File := Option Text

/-! ## Lines -/

def trim (text : Text) : Text := Text.strip Text.isWhitespace text

/-- A carriage return in front of the line feed goes with it. -/
def stripCr (line : Text) : Text := if line.getLast? = some '\r' then line.dropLast else line

/-- `str::lines`: nothing behind the last line feed is no line. -/
def lines (raw : Text) : List Text :=
  let pieces := raw.splitOn '\n'
  pieces.dropLast.map stripCr ++ (if pieces.getLastD [] = [] then [] else [pieces.getLastD []])

/-- The first word of a trimmed line. -/
def keyWord (trimmed : Text) : Text := trimmed.takeWhile (!Text.isWhitespace ·)

/-- What `splitn(2, char::is_whitespace)` leaves for the name. -/
def nameRest (trimmed : Text) : Option Text :=
  match trimmed.dropWhile (!Text.isWhitespace ·) with
  | [] => none
  | _ :: rest => some rest

def isSkipped (trimmed : Text) : Bool := trimmed.isEmpty || trimmed.head? == some '#'

def decodeKey (word : Text) : Except Reason PublicKey :=
  match Base64.decode false word with
  | none => .error .base64Decode
  | some decoded =>
    if h : decoded.length = 32 then .ok ⟨decoded, h⟩ else .error (.expected32Bytes decoded.length)

/-- One round of the loop of `load`. -/
def readLine (line : Text) : Except Reason (Option (PublicKey × ClientEntry)) :=
  let trimmed := trim line
  if isSkipped trimmed then .ok none
  else
    (decodeKey (keyWord trimmed)).map fun pk =>
      some (pk, { name := ((nameRest trimmed).map trim).filter (!·.isEmpty) })

def loadLines : Nat → List Text → AuthorizedClients → Except AuthorizedError AuthorizedClients
  | _, [], clients => .ok clients
  | idx, line :: rest, clients =>
    match readLine line with
    | .error reason => .error (.badLine (idx + 1) reason)
    | .ok none => loadLines (idx + 1) rest clients
    | .ok (some (pk, entry)) =>
      loadLines (idx + 1) rest (Function.update clients pk (some entry))

def load : File → Except AuthorizedError AuthorizedClients
  | none => .ok fun _ => none
  | some raw => loadLines 0 (lines raw) fun _ => none

/-! ## The operations -/

/-- The line appended, without its line feed. -/
def newLine (pubkey : PublicKey) (name : Option Text) : Text :=
  let trimmed := trim (name.getD [])
  Base64.encode pubkey.val ++ if trimmed.isEmpty then [] else ' ' :: trimmed

def authorize_in_file (file : File) (pubkey : PublicKey) (name : Option Text) :
    Except AuthorizedError (Bool × File) := do
  let existing ← load file
  if (existing pubkey).isSome then .ok (false, file)
  else .ok (true, some (file.getD [] ++ (newLine pubkey name ++ ['\n'])))

def parse_pubkey (line : Text) : Option PublicKey :=
  let trimmed := trim line
  if isSkipped trimmed then none else (decodeKey (keyWord trimmed)).toOption

def revoke_in_file (file : File) (pubkey : PublicKey) : Nat × File :=
  match file with
  | none => (0, none)
  | some raw =>
    let kept := (lines raw).filter fun line => parse_pubkey line ≠ some pubkey
    (((lines raw).filter fun line => parse_pubkey line = some pubkey).length,
      some (kept.flatMap (· ++ ['\n'])))

/-! ## The list as a map -/

/-- A line without the carriage returns at its end. -/
def bare (line : Text) : Text := line.rdropWhile (· == '\r')

/-- A key is added, and nothing else has changed. -/
def Extends (clients clients' : AuthorizedClients) (pubkey : PublicKey) : Prop :=
  (clients' pubkey).isSome ∧ ∀ other, other ≠ pubkey → clients' other = clients other

structure ActsAsMap (file : File) (pubkey : PublicKey) (name : Option Text)
    (clients : AuthorizedClients) : Prop where
  authorized : ∀ after, authorize_in_file file pubkey name = .ok (true, after) →
    ∃ clients', load after = .ok clients' ∧ Extends clients clients' pubkey
  revoked : ∃ clients', load (revoke_in_file file pubkey).2 = .ok clients' ∧
    clients' pubkey = none ∧ ∀ other, other ≠ pubkey → clients' other = clients other
  /-- The lines a revocation leaves are the others in their order. -/
  ordered : (lines ((revoke_in_file file pubkey).2.getD [])).map bare =
    ((lines (file.getD [])).filter fun line => parse_pubkey line ≠ some pubkey).map bare

/-! ## One line -/

/-- A line from its first character that is no white space on. -/
def lead (line : Text) : Text := line.dropWhile Text.isWhitespace

theorem lead_head {line : Text} {c : Char} {rest : Text} (h : lead line = c :: rest) :
    Text.isWhitespace c = false := by
  have hne : line.dropWhile Text.isWhitespace ≠ [] := by
    rw [show line.dropWhile Text.isWhitespace = c :: rest from h]
    exact List.cons_ne_nil _ _
  have hhead := List.head_dropWhile_not Text.isWhitespace hne
  simpa [show line.dropWhile Text.isWhitespace = c :: rest from h] using hhead

theorem trim_cons {line : Text} {c : Char} {rest : Text} (h : lead line = c :: rest) :
    ∃ rest', trim line = c :: rest' := by
  have hne : (c :: rest).rdropWhile Text.isWhitespace ≠ [] :=
    Text.rdropWhile_ne_nil List.mem_cons_self (lead_head h)
  obtain ⟨d, rest', hcons⟩ := List.exists_cons_of_ne_nil hne
  have hprefix : (c :: rest).rdropWhile Text.isWhitespace <+: c :: rest :=
    List.rdropWhile_prefix _ _
  rw [hcons] at hprefix
  have hdc : d = c := (List.cons_prefix_cons.mp hprefix).1
  exact ⟨rest', by rw [trim, Text.strip, show line.dropWhile Text.isWhitespace = c :: rest from h,
    hcons, hdc]⟩

theorem trim_nil {line : Text} (h : lead line = []) : trim line = [] := by
  rw [trim, Text.strip, show line.dropWhile Text.isWhitespace = [] from h]
  rfl

theorem isSkipped_trim (line : Text) : isSkipped (trim line) = isSkipped (lead line) := by
  cases hlead : lead line with
  | nil => rw [trim_nil hlead]
  | cons c rest =>
    obtain ⟨rest', htrim⟩ := trim_cons hlead
    rw [htrim]
    rfl

theorem dropWhile_rdropWhile (text : Text) :
    (text.rdropWhile Text.isWhitespace).dropWhile (!Text.isWhitespace ·) =
      (text.dropWhile (!Text.isWhitespace ·)).rdropWhile Text.isWhitespace := by
  have hword : ∀ c ∈ keyWord text, Text.isWhitespace c = false := by
    intro c hc
    have hkept := List.mem_takeWhile_imp hc
    simpa using hkept
  have hsplit : keyWord text ++ text.dropWhile (!Text.isWhitespace ·) = text :=
    List.takeWhile_append_dropWhile
  have hskip : ∀ more : Text, (keyWord text ++ more).dropWhile (!Text.isWhitespace ·) =
      more.dropWhile (!Text.isWhitespace ·) := fun more =>
    List.dropWhile_append_of_pos fun c hc => by simp [hword c hc]
  cases hdrop : text.dropWhile (!Text.isWhitespace ·) with
  | nil =>
    rw [hdrop, List.append_nil] at hsplit
    have hself : text.rdropWhile Text.isWhitespace = text := by
      rw [List.rdropWhile_eq_self_iff]
      intro hne
      have hlast := hword (text.getLast hne) (by rw [hsplit]; exact List.getLast_mem hne)
      simp [hlast]
    rw [hself, hdrop]
    rfl
  | cons c rest =>
    have hc : Text.isWhitespace c = true := by
      have hne : text.dropWhile (!Text.isWhitespace ·) ≠ [] := by simp [hdrop]
      simpa [hdrop] using List.head_dropWhile_not (!Text.isWhitespace ·) hne
    rw [hdrop] at hsplit
    by_cases hall : ∀ d ∈ c :: rest, Text.isWhitespace d = true
    · have hnil : (c :: rest).rdropWhile Text.isWhitespace = [] :=
        List.rdropWhile_eq_nil_iff.mpr hall
      have hself := hskip []
      rw [List.append_nil, List.dropWhile_nil] at hself
      rw [hnil, ← hsplit, Text.rdropWhile_append_of_forall _ hall, List.dropWhile_eq_nil_iff]
      intro d hd
      have hmem : d ∈ keyWord text := (List.rdropWhile_prefix _ _).subset hd
      simp [hword d hmem]
    · have hne : (c :: rest).rdropWhile Text.isWhitespace ≠ [] := by
        rwa [ne_eq, List.rdropWhile_eq_nil_iff]
      obtain ⟨d, more, hcons⟩ := List.exists_cons_of_ne_nil hne
      have hprefix : (c :: rest).rdropWhile Text.isWhitespace <+: c :: rest :=
        List.rdropWhile_prefix _ _
      rw [hcons] at hprefix
      obtain rfl : d = c := (List.cons_prefix_cons.mp hprefix).1
      conv_lhs => rw [← hsplit, Text.rdropWhile_append_of_ne_nil _ hne, hskip, hcons]
      rw [hcons, List.dropWhile_cons_of_neg (by simp [hc])]

/-- White space behind the text is behind its first word. -/
theorem keyWord_rdropWhile (text : Text) :
    keyWord (text.rdropWhile Text.isWhitespace) = keyWord text := by
  have hsplit : text.rdropWhile Text.isWhitespace ++ text.rtakeWhile Text.isWhitespace = text :=
    List.rdropWhile_append_rtakeWhile
  have htail : (text.rtakeWhile Text.isWhitespace).takeWhile (!Text.isWhitespace ·) = [] := by
    cases htake : text.rtakeWhile Text.isWhitespace with
    | nil => rfl
    | cons c rest =>
      have hmem : c ∈ text.rtakeWhile Text.isWhitespace := by
        rw [htake]
        exact List.mem_cons_self
      have hspace : Text.isWhitespace c = true := List.mem_rtakeWhile_imp hmem
      rw [List.takeWhile_cons_of_neg (by simp [hspace])]
  unfold keyWord
  conv_rhs => rw [← hsplit, List.takeWhile_append, htail, List.append_nil]
  split
  · next hwhole => exact (List.takeWhile_prefix _).eq_of_length hwhole
  · rfl

/-- What of a line is its name. -/
def nameOf (line : Text) : Text := trim ((lead line).dropWhile (!Text.isWhitespace ·))

theorem name_trim (line : Text) :
    ((nameRest (trim line)).map trim).filter (!·.isEmpty) =
      (some (nameOf line)).filter (!·.isEmpty) := by
  have hrest : (trim line).dropWhile (!Text.isWhitespace ·) =
      ((lead line).dropWhile (!Text.isWhitespace ·)).rdropWhile Text.isWhitespace :=
    dropWhile_rdropWhile (lead line)
  have hname : nameOf line = trim ((trim line).dropWhile (!Text.isWhitespace ·)) := by
    rw [hrest, trim, Text.strip_rdropWhile, nameOf, trim]
  rw [hname, nameRest]
  cases hdrop : (trim line).dropWhile (!Text.isWhitespace ·) with
  | nil => rfl
  | cons c rest =>
    have hc : Text.isWhitespace c = true := by
      have hne : (trim line).dropWhile (!Text.isWhitespace ·) ≠ [] := by simp [hdrop]
      simpa [hdrop] using List.head_dropWhile_not (!Text.isWhitespace ·) hne
    have hskip : trim (c :: rest) = trim rest := by
      rw [trim, Text.strip, List.dropWhile_cons_of_pos hc]
      rfl
    rw [hskip]
    rfl

/-- The entry a line makes, by its first word and the rest. -/
theorem readLine_eq (line : Text) :
    readLine line =
      if isSkipped (lead line) then .ok none
      else (decodeKey (keyWord (lead line))).map fun pk =>
        some (pk, { name := (some (nameOf line)).filter (!·.isEmpty) }) := by
  have hword : keyWord (trim line) = keyWord (lead line) := keyWord_rdropWhile (lead line)
  simp only [readLine, isSkipped_trim, name_trim, hword]

/-! ## Many lines -/

def entriesOf : List Text → Except Reason (List (PublicKey × ClientEntry))
  | [] => .ok []
  | line :: rest => do
    let entry ← readLine line
    let more ← entriesOf rest
    .ok (entry.toList ++ more)

/-- The entries of a text in their order. -/
def entries (raw : Text) : Except Reason (List (PublicKey × ClientEntry)) := entriesOf (lines raw)

/-- Of several entries of one key the last one holds. -/
def lastOf (listed : List (PublicKey × ClientEntry)) : AuthorizedClients := fun pk =>
  listed.reverse.lookup pk

theorem lastOf_append (front back : List (PublicKey × ClientEntry)) (pk : PublicKey) :
    lastOf (front ++ back) pk = (lastOf back pk).or (lastOf front pk) := by
  rw [lastOf, List.reverse_append, List.lookup_append]
  rfl

theorem lastOf_cons (key : PublicKey) (entry : ClientEntry)
    (rest : List (PublicKey × ClientEntry)) (pk : PublicKey) :
    lastOf ((key, entry) :: rest) pk =
      (lastOf rest pk).or (if pk = key then some entry else none) := by
  have happend := lastOf_append [(key, entry)] rest pk
  rw [List.singleton_append] at happend
  have hone : lastOf [(key, entry)] pk = if pk = key then some entry else none := by
    rw [lastOf, List.reverse_singleton, List.lookup_cons]
    by_cases hkey : pk = key
    · simp [hkey]
    · rw [if_neg hkey, beq_eq_false_iff_ne.mpr hkey]
      rfl
  rw [happend, hone]

theorem entriesOf_cons {line : Text} {rest : List Text} {listed : List (PublicKey × ClientEntry)} :
    entriesOf (line :: rest) = .ok listed ↔
      ∃ entry more, readLine line = .ok entry ∧ entriesOf rest = .ok more ∧
        listed = entry.toList ++ more := by
  rw [entriesOf]
  cases hline : readLine line with
  | error reason => simp [bind, Except.bind]
  | ok entry =>
    cases hrest : entriesOf rest with
    | error reason => simp [bind, Except.bind]
    | ok more => simp [bind, Except.bind, eq_comm]

theorem entriesOf_append {front back : List Text} {listed : List (PublicKey × ClientEntry)} :
    entriesOf (front ++ back) = .ok listed ↔
      ∃ first second, entriesOf front = .ok first ∧ entriesOf back = .ok second ∧
        listed = first ++ second := by
  induction front generalizing listed with
  | nil => simp [entriesOf]
  | cons line front ih =>
    rw [List.cons_append, entriesOf_cons]
    constructor
    · rintro ⟨entry, more, hline, hmore, rfl⟩
      obtain ⟨first, second, hfirst, hsecond, rfl⟩ := ih.mp hmore
      exact ⟨entry.toList ++ first, second, entriesOf_cons.mpr ⟨entry, first, hline, hfirst, rfl⟩,
        hsecond, (List.append_assoc ..).symm⟩
    · rintro ⟨first, second, hfirst, hsecond, rfl⟩
      obtain ⟨entry, more, hline, hmore, rfl⟩ := entriesOf_cons.mp hfirst
      exact ⟨entry, more ++ second, hline, ih.mpr ⟨more, second, hmore, hsecond, rfl⟩,
        List.append_assoc ..⟩

theorem loadLines_eq (idx : Nat) (rows : List Text) (start clients : AuthorizedClients) :
    loadLines idx rows start = .ok clients ↔
      ∃ listed, entriesOf rows = .ok listed ∧
        clients = fun pk => (lastOf listed pk).or (start pk) := by
  induction rows generalizing idx start with
  | nil =>
    simp only [loadLines, entriesOf, Except.ok.injEq, exists_eq_left']
    exact eq_comm
  | cons line rows ih =>
    simp only [loadLines, entriesOf_cons]
    cases hline : readLine line with
    | error reason => simp
    | ok entry =>
      cases entry with
      | none => simpa using ih (idx + 1) start
      | some pair =>
        obtain ⟨key, entry⟩ := pair
        have hupdate : ∀ (more : List (PublicKey × ClientEntry)) (pk : PublicKey),
            (lastOf more pk).or (Function.update start key (some entry) pk) =
              (lastOf ((key, entry) :: more) pk).or (start pk) := by
          intro more pk
          rw [lastOf_cons, Function.update_apply]
          by_cases hkey : pk = key <;> simp [hkey]
        simp only [ih, hupdate]
        constructor
        · rintro ⟨more, hmore, rfl⟩
          exact ⟨_, ⟨some (key, entry), more, rfl, hmore, rfl⟩, rfl⟩
        · rintro ⟨listed, ⟨read, more, hread, hmore, rfl⟩, rfl⟩
          obtain rfl : some (key, entry) = read := by simpa using hread
          exact ⟨more, hmore, rfl⟩

/-- A file loads as the last entry of each key. -/
theorem load_eq {raw : Text} {clients : AuthorizedClients} :
    load (some raw) = .ok clients ↔
      ∃ listed, entries raw = .ok listed ∧ clients = lastOf listed := by
  rw [load, loadLines_eq]
  simp [entries]

/-- The carriage return of a line is white space. -/
theorem readLine_stripCr (line : Text) : readLine (stripCr line) = readLine line := by
  have htrim : trim (stripCr line) = trim line := by
    unfold stripCr
    split
    · next hlast =>
      obtain ⟨front, rfl⟩ : ∃ front, line = front ++ ['\r'] :=
        List.getLast?_eq_some_iff.mp hlast
      rw [List.dropLast_concat]
      have hreturn : ∀ c ∈ ['\r'], Text.isWhitespace c = true := fun c hc => by
        rw [List.mem_singleton.mp hc]
        rfl
      exact (Text.strip_append_of_forall front hreturn).symm
    · rfl
  rw [readLine, htrim, readLine]

theorem entriesOf_map_stripCr (rows : List Text) :
    entriesOf (rows.map stripCr) = entriesOf rows := by
  induction rows with
  | nil => rfl
  | cons line rows ih => rw [List.map_cons, entriesOf, readLine_stripCr, ih, entriesOf]

theorem lines_append_break (front back : Text) :
    lines (front ++ '\n' :: back) = (front.splitOn '\n').map stripCr ++ lines back := by
  have hne := List.splitOn_ne_nil '\n' back
  have hlast : (front.splitOn '\n' ++ back.splitOn '\n').getLastD [] =
      (back.splitOn '\n').getLastD [] := by
    rw [List.getLastD_eq_getLast?, List.getLastD_eq_getLast?, List.getLast?_append_of_ne_nil _ hne]
  simp only [lines, List.splitOn_append_cons_self, List.dropLast_append_of_ne_nil hne, hlast,
    List.map_append, List.append_assoc]

theorem lines_of_unbroken {line : Text} (h : '\n' ∉ line) :
    lines line = if line = [] then [] else [line] := by
  have hone : line.splitOn '\n' = [line] := List.splitOn_eq_singleton h
  simp [lines, hone]

theorem entries_of_unbroken {line : Text} (h : '\n' ∉ line)
    {listed : List (PublicKey × ClientEntry)} :
    entries line = .ok listed ↔ ∃ entry, readLine line = .ok entry ∧ listed = entry.toList := by
  rw [entries, lines_of_unbroken h]
  split
  · next hnil =>
    subst hnil
    have hread : readLine [] = .ok none := rfl
    simp [hread, entriesOf, eq_comm]
  · rw [entriesOf_cons]
    simp [entriesOf]

/-- An empty line at the end makes no entry. -/
theorem entries_eq (raw : Text) (listed : List (PublicKey × ClientEntry)) :
    entries raw = .ok listed ↔ entriesOf (raw.splitOn '\n') = .ok listed := by
  have hne := List.splitOn_ne_nil '\n' raw
  have hlast : (raw.splitOn '\n').getLastD [] = (raw.splitOn '\n').getLast hne := by
    rw [List.getLastD_eq_getLast?, List.getLast?_eq_some_getLast hne, Option.getD_some]
  have hend : entriesOf (if (raw.splitOn '\n').getLast hne = [] then []
      else [(raw.splitOn '\n').getLast hne]) = entriesOf [(raw.splitOn '\n').getLast hne] := by
    split
    · next hnil =>
      rw [hnil]
      rfl
    · rfl
  rw [entries, lines, hlast]
  conv_rhs => rw [← List.dropLast_append_getLast hne]
  rw [entriesOf_append, entriesOf_append, entriesOf_map_stripCr, hend]

theorem entries_append_break {front back : Text} {listed : List (PublicKey × ClientEntry)} :
    entries (front ++ '\n' :: back) = .ok listed ↔
      ∃ first second, entries front = .ok first ∧ entries back = .ok second ∧
        listed = first ++ second := by
  simp only [entries_eq, List.splitOn_append_cons_self, entriesOf_append]

/-- The line a text ends in. -/
def lastLine (raw : Text) : Text := Text.afterLast '\n' raw

/-- What is appended to a text goes on with its last line. -/
theorem entries_goes_on {raw : Text} {listed : List (PublicKey × ClientEntry)}
    (h : entries raw = .ok listed) :
    ∃ base entry, readLine (lastLine raw) = .ok entry ∧ listed = base ++ entry.toList ∧
      ∀ more after, entries (raw ++ more) = .ok after ↔
        ∃ rest, entries (lastLine raw ++ more) = .ok rest ∧ after = base ++ rest := by
  by_cases hbreak : '\n' ∈ raw
  · obtain ⟨front, hraw⟩ := Text.exists_afterLast hbreak
    have hunbroken : '\n' ∉ lastLine raw := Text.not_mem_afterLast '\n' raw
    rw [show raw = front ++ '\n' :: lastLine raw from hraw] at h
    obtain ⟨first, second, hfirst, hsecond, rfl⟩ := entries_append_break.mp h
    obtain ⟨entry, hread, rfl⟩ := (entries_of_unbroken hunbroken).mp hsecond
    refine ⟨first, entry, hread, rfl, fun more after => ?_⟩
    conv_lhs => rw [show raw = front ++ '\n' :: lastLine raw from hraw]
    rw [List.append_assoc, List.cons_append, entries_append_break]
    simp [hfirst]
  · have hlast : lastLine raw = raw := Text.afterLast_of_not_mem hbreak
    obtain ⟨entry, hread, rfl⟩ := (entries_of_unbroken hbreak).mp h
    rw [hlast]
    exact ⟨[], entry, hread, rfl, fun more after => by simp⟩

/-- What of a name stands behind its first line break. -/
def laterLines (name : Option Text) : Text :=
  ((trim (name.getD [])).dropWhile (· != '\n')).drop 1

theorem encode_unbroken (octets : List UInt8) : '\n' ∉ Base64.encode octets := by
  intro hmem
  have hdigits : ∀ n < 64, Base64.digit n ≠ '\n' := by decide
  rcases Base64.mem_encode hmem with heq | ⟨n, hn, heq⟩
  · exact absurd heq (by decide)
  · exact hdigits n hn heq.symm

/-- Appended to a line, a new one makes one entry with it and those of the name's later lines. -/
theorem entries_newLine (pubkey : PublicKey) (name : Option Text) :
    ∃ gap, (gap = [] ∨ ∃ text, gap = ' ' :: text) ∧
      ∀ line after, '\n' ∉ line →
        (entries (line ++ (newLine pubkey name ++ ['\n'])) = .ok after ↔
          ∃ entry extra, readLine (line ++ (Base64.encode pubkey.val ++ gap)) = .ok entry ∧
            entries (laterLines name) = .ok extra ∧ after = entry.toList ++ extra) := by
  have hencode := encode_unbroken pubkey.val
  have hend : ∀ listed, entries [] = .ok listed ↔ listed = [] := fun listed => by
    simp [entries, lines, entriesOf, eq_comm]
  by_cases hbreak : '\n' ∈ trim (name.getD [])
  · obtain ⟨first, behind, hname, hfirst⟩ := List.eq_append_cons_of_mem hbreak
    have hlater : laterLines name = behind := by
      rw [laterLines, hname, List.dropWhile_append_of_pos fun c hc => Text.bne_of_not_mem hfirst hc]
      rfl
    refine ⟨' ' :: first, Or.inr ⟨first, rfl⟩, fun line after hline => ?_⟩
    have htext : line ++ (newLine pubkey name ++ ['\n']) =
        (line ++ (Base64.encode pubkey.val ++ ' ' :: first)) ++ '\n' :: (behind ++ '\n' :: []) := by
      simp [newLine, hname]
    have hunbroken : '\n' ∉ line ++ (Base64.encode pubkey.val ++ ' ' :: first) := by
      simp [hline, hencode, hfirst]
    rw [htext, hlater]
    simp only [entries_append_break, entries_of_unbroken hunbroken, hend]
    constructor
    · rintro ⟨one, two, ⟨entry, hentry, rfl⟩, ⟨extra, -, hextra, rfl, rfl⟩, rfl⟩
      exact ⟨entry, extra, hentry, hextra, by rw [List.append_nil]⟩
    · rintro ⟨entry, extra, hentry, hextra, rfl⟩
      exact ⟨_, extra, ⟨entry, hentry, rfl⟩, ⟨extra, [], hextra, rfl, by rw [List.append_nil]⟩, rfl⟩
  · have hlater : laterLines name = [] := by
      have hnil : (trim (name.getD [])).dropWhile (· != '\n') = [] := by
        rw [List.dropWhile_eq_nil_iff]
        exact fun c hc => Text.bne_of_not_mem hbreak hc
      rw [laterLines, hnil]
      rfl
    refine ⟨if (trim (name.getD [])).isEmpty then [] else ' ' :: trim (name.getD []), ?_,
      fun line after hline => ?_⟩
    · split
      · exact Or.inl rfl
      · exact Or.inr ⟨_, rfl⟩
    · have htext : line ++ (newLine pubkey name ++ ['\n']) =
          (line ++ newLine pubkey name) ++ '\n' :: [] := (List.append_assoc ..).symm
      have hunbroken : '\n' ∉ line ++ newLine pubkey name := by
        rw [List.mem_append, newLine, List.mem_append]
        split
        · simp [hline, hencode]
        · simp [hline, hencode, hbreak]
      rw [htext, hlater, entries_append_break]
      simp only [entries_of_unbroken hunbroken, hend]
      constructor
      · rintro ⟨one, two, ⟨entry, hentry, rfl⟩, rfl, rfl⟩
        exact ⟨entry, [], hentry, rfl, rfl⟩
      · rintro ⟨entry, extra, hentry, rfl, rfl⟩
        exact ⟨_, [], ⟨entry, hentry, rfl⟩, rfl, rfl⟩

/-! ## A line and what is appended to it -/

theorem decodeKey_eq {word : Text} {pk : PublicKey} :
    decodeKey word = .ok pk ↔ Base64.decode false word = some pk.val := by
  unfold decodeKey
  cases Base64.decode false word with
  | none => simp
  | some decoded =>
    by_cases hlength : decoded.length = 32
    · simp [hlength, Subtype.ext_iff]
    · have hne : decoded ≠ pk.val := by
        rintro rfl
        exact hlength pk.property
      simp [hlength, hne]

theorem lead_append {line : Text} (h : lead line ≠ []) (more : Text) :
    lead (line ++ more) = lead line ++ more := by
  rw [lead, List.dropWhile_append, if_neg (by simpa [lead] using h)]
  rfl

theorem encode_not_space {octets : List UInt8} {c : Char} (hc : c ∈ Base64.encode octets) :
    Text.isWhitespace c = false ∧ c ≠ '#' := by
  have hdigits : ∀ n < 64, Text.isWhitespace (Base64.digit n) = false ∧ Base64.digit n ≠ '#' := by
    decide
  rcases Base64.mem_encode hc with rfl | ⟨n, hn, rfl⟩
  · decide
  · exact hdigits n hn

/-- Of a gap nothing is part of the word in front. -/
theorem keyWord_append_gap {word gap : Text} (hword : ∀ c ∈ word, Text.isWhitespace c = false)
    (hgap : gap = [] ∨ ∃ text, gap = ' ' :: text) : keyWord (word ++ gap) = word := by
  have hall : ∀ c ∈ word, (!Text.isWhitespace c) = true := fun c hc => by simp [hword c hc]
  have hstop : gap.takeWhile (!Text.isWhitespace ·) = [] := by
    rcases hgap with rfl | ⟨text, rfl⟩ <;> rfl
  rw [keyWord, List.takeWhile_append_of_pos hall, hstop, List.append_nil]

theorem encode_ne_nil (pubkey : PublicKey) : Base64.encode pubkey.val ≠ [] := by
  intro hnil
  have hdecode := Base64.decode_encode false pubkey.val
  rw [hnil] at hdecode
  have hempty : [] = pubkey.val := Option.some.inj hdecode
  have hlength := pubkey.property
  rw [← hempty] at hlength
  cases hlength

/-- A key begins with a character that is no white space and no comment. -/
theorem encode_cons (pubkey : PublicKey) :
    ∃ c rest, Base64.encode pubkey.val = c :: rest ∧ Text.isWhitespace c = false ∧ c ≠ '#' := by
  obtain ⟨c, rest, hcons⟩ := List.exists_cons_of_ne_nil (encode_ne_nil pubkey)
  exact ⟨c, rest, hcons, encode_not_space (hcons ▸ List.mem_cons_self)⟩

theorem readLine_blank_append {line gap : Text} (pubkey : PublicKey) (hline : lead line = [])
    (hgap : gap = [] ∨ ∃ text, gap = ' ' :: text) :
    ∃ entry, readLine (line ++ (Base64.encode pubkey.val ++ gap)) = .ok (some (pubkey, entry)) := by
  obtain ⟨c, rest, hcons, hsolid, hmark⟩ := encode_cons pubkey
  have hlead : lead (line ++ (Base64.encode pubkey.val ++ gap)) =
      Base64.encode pubkey.val ++ gap := by
    rw [lead, List.dropWhile_append, if_pos (by simpa [lead] using hline), hcons, List.cons_append,
      List.dropWhile_cons_of_neg (by simp [hsolid])]
  have hkept : isSkipped (Base64.encode pubkey.val ++ gap) = false := by
    simp [isSkipped, hcons, hmark]
  have hword : keyWord (Base64.encode pubkey.val ++ gap) = Base64.encode pubkey.val :=
    keyWord_append_gap (fun c hc => (encode_not_space hc).1) hgap
  have hread : decodeKey (Base64.encode pubkey.val) = .ok pubkey :=
    decodeKey_eq.mpr (Base64.decode_encode false pubkey.val)
  rw [readLine_eq, hlead, hkept, hword, hread]
  exact ⟨_, rfl⟩

theorem readLine_comment_append {line : Text} (hline : (lead line).head? = some '#') (more : Text) :
    readLine (line ++ more) = .ok none := by
  obtain ⟨rest, hlead⟩ : ∃ rest, lead line = '#' :: rest := List.head?_eq_some_iff.mp hline
  have hne : lead line ≠ [] := by simp [hlead]
  rw [readLine_eq, lead_append hne, hlead]
  rfl

theorem readLine_some {line : Text} {key : PublicKey} {entry : ClientEntry} :
    readLine line = .ok (some (key, entry)) ↔ isSkipped (lead line) = false ∧
      Base64.decode false (keyWord (lead line)) = some key.val ∧
        entry = { name := (some (nameOf line)).filter (!·.isEmpty) } := by
  rw [readLine_eq, ← decodeKey_eq]
  cases isSkipped (lead line) with
  | true => simp
  | false =>
    cases decodeKey (keyWord (lead line)) with
    | error reason => simp [Except.map]
    | ok pk => simp [Except.map, eq_comm]

theorem lead_ne_nil {line : Text} (h : isSkipped (lead line) = false) : lead line ≠ [] := by
  intro hnil
  rw [hnil] at h
  cases h

theorem isSkipped_append {front : Text} (h : front ≠ []) (back : Text) :
    isSkipped (front ++ back) = isSkipped front := by
  obtain ⟨c, rest, rfl⟩ := List.exists_cons_of_ne_nil h
  rfl

/-- With white space behind its key, a line keeps the key and takes the text into its name. -/
theorem readLine_spaced_append {line more : Text} {key : PublicKey} {entry : ClientEntry}
    (h : readLine line = .ok (some (key, entry)))
    (hspace : ∃ c ∈ lead line, Text.isWhitespace c = true)
    (hmore : ∃ c ∈ more, Text.isWhitespace c = false) :
    ∃ entry', entry' ≠ entry ∧ readLine (line ++ more) = .ok (some (key, entry')) := by
  obtain ⟨hkept, hdecode, rfl⟩ := readLine_some.mp h
  have hlead := lead_append (lead_ne_nil hkept) more
  have hrest : (lead line).dropWhile (!Text.isWhitespace ·) ≠ [] := by
    obtain ⟨c, hc, hwhite⟩ := hspace
    intro hnil
    have hall := List.dropWhile_eq_nil_iff.mp hnil c hc
    simp [hwhite] at hall
  have hword : keyWord (lead (line ++ more)) = keyWord (lead line) := by
    rw [hlead, keyWord, List.takeWhile_append, if_neg]
    · rfl
    · intro hlength
      have hwhole := (List.takeWhile_prefix (!Text.isWhitespace ·)).eq_of_length hlength
      exact hrest (List.dropWhile_eq_nil_iff.mpr (List.takeWhile_eq_self_iff.mp hwhole))
  have hname : nameOf (line ++ more) =
      trim ((lead line).dropWhile (!Text.isWhitespace ·) ++ more) := by
    rw [nameOf, hlead, List.dropWhile_append, if_neg (by simpa using hrest)]
  have hlonger : (nameOf line).length < (nameOf (line ++ more)).length := by
    obtain ⟨c, hc, hsolid⟩ := hmore
    rw [hname]
    exact Text.length_strip_lt _ hc hsolid
  have hnonempty : (nameOf (line ++ more)).isEmpty = false := by
    cases hnil : nameOf (line ++ more) with
    | nil => simp [hnil] at hlonger
    | cons => rfl
  refine ⟨_, ?_, readLine_some.mpr ⟨?_, by rw [hword]; exact hdecode, rfl⟩⟩
  · intro hsame
    rw [ClientEntry.mk.injEq, Option.filter_some, if_pos (by simp [hnonempty])] at hsame
    have hequal : nameOf line = nameOf (line ++ more) := (Option.filter_eq_some_iff.mp hsame.symm).1
      |> Option.some.inj
    rw [hequal] at hlonger
    exact lt_irrefl _ hlonger
  · rw [hlead, isSkipped_append (lead_ne_nil hkept)]
    exact hkept

/-- Without it, what is appended makes the key no base64 any more. -/
theorem readLine_bare_append {line gap : Text} {key : PublicKey} {entry : ClientEntry}
    (h : readLine line = .ok (some (key, entry)))
    (hbare : ∀ c ∈ lead line, Text.isWhitespace c = false) (pubkey : PublicKey)
    (hgap : gap = [] ∨ ∃ text, gap = ' ' :: text) :
    readLine (line ++ (Base64.encode pubkey.val ++ gap)) = .error .base64Decode := by
  obtain ⟨hkept, hdecode, rfl⟩ := readLine_some.mp h
  have hlead := lead_append (lead_ne_nil hkept) (Base64.encode pubkey.val ++ gap)
  have hkept' : isSkipped (lead (line ++ (Base64.encode pubkey.val ++ gap))) = false := by
    rw [hlead, isSkipped_append (lead_ne_nil hkept)]
    exact hkept
  have hself : keyWord (lead line) = lead line := by
    have hword := keyWord_append_gap hbare (Or.inl rfl)
    rwa [List.append_nil] at hword
  have hword : keyWord (lead (line ++ (Base64.encode pubkey.val ++ gap))) =
      lead line ++ Base64.encode pubkey.val := by
    rw [hlead, ← List.append_assoc]
    refine keyWord_append_gap (fun c hc => ?_) hgap
    rcases List.mem_append.mp hc with hold | hnew
    · exact hbare c hold
    · exact (encode_not_space hnew).1
  have hpadded : key.val.length % 3 ≠ 0 := by rw [key.property]; decide
  rw [hself] at hdecode
  have hnone := Base64.decode_append_of_padded hdecode hpadded (encode_ne_nil pubkey)
  rw [readLine_eq, hkept', hword, decodeKey, hnone]
  rfl

/-! ## Revoking -/

theorem parse_pubkey_eq (line : Text) :
    parse_pubkey line =
      if isSkipped (lead line) then none else (decodeKey (keyWord (lead line))).toOption := by
  have hword : keyWord (trim line) = keyWord (lead line) := keyWord_rdropWhile (lead line)
  simp only [parse_pubkey, isSkipped_trim, hword]

/-- Both readers see one key in a line that loads. -/
theorem parse_pubkey_of_readLine {line : Text} {entry : Option (PublicKey × ClientEntry)}
    (h : readLine line = .ok entry) : parse_pubkey line = entry.map Prod.fst := by
  rw [readLine_eq] at h
  rw [parse_pubkey_eq]
  cases hskip : isSkipped (lead line) with
  | true =>
    obtain rfl : none = entry := by simpa [hskip] using h
    rfl
  | false =>
    cases hkey : decodeKey (keyWord (lead line)) with
    | error reason => simp [hskip, hkey, Except.map] at h
    | ok pk =>
      rw [hskip, hkey] at h
      obtain rfl := Except.ok.inj h
      rfl

theorem entriesOf_filter (pubkey : PublicKey) {rows : List Text}
    {listed : List (PublicKey × ClientEntry)} (h : entriesOf rows = .ok listed) :
    entriesOf (rows.filter fun line => parse_pubkey line ≠ some pubkey) =
      .ok (listed.filter fun pair => pair.1 ≠ pubkey) := by
  induction rows generalizing listed with
  | nil =>
    obtain rfl : [] = listed := Except.ok.inj h
    rfl
  | cons line rows ih =>
    obtain ⟨entry, more, hline, hmore, rfl⟩ := entriesOf_cons.mp h
    have hkey := parse_pubkey_of_readLine hline
    rw [List.filter_cons, List.filter_append, hkey]
    cases entry with
    | none => exact entriesOf_cons.mpr ⟨none, _, hline, ih hmore, rfl⟩
    | some pair =>
      by_cases hpair : pair.1 = pubkey
      · simpa [hpair] using ih hmore
      · have hkept : entriesOf (line :: rows.filter fun line => parse_pubkey line ≠ some pubkey) =
            .ok ([pair] ++ more.filter fun pair => pair.1 ≠ pubkey) :=
          entriesOf_cons.mpr ⟨some pair, _, hline, ih hmore, rfl⟩
        simpa [hpair] using hkept

theorem lastOf_filter (pubkey : PublicKey) (listed : List (PublicKey × ClientEntry))
    (pk : PublicKey) :
    lastOf (listed.filter fun pair => pair.1 ≠ pubkey) pk =
      if pk = pubkey then none else lastOf listed pk := by
  induction listed with
  | nil => simp [lastOf]
  | cons pair listed ih =>
    obtain ⟨key, entry⟩ := pair
    rw [lastOf_cons, List.filter_cons]
    by_cases hkey : key = pubkey
    · rw [if_neg (by simp [hkey]), ih]
      by_cases hpk : pk = pubkey
      · rw [if_pos hpk, if_pos hpk]
      · have hne : pk ≠ key := fun heq => hpk (heq.trans hkey)
        rw [if_neg hpk, if_neg hpk, if_neg hne, Option.or_none]
    · rw [if_pos (by simp [hkey]), lastOf_cons, ih]
      by_cases hpk : pk = pubkey
      · have hne : pk ≠ key := fun heq => hkey (heq.symm.trans hpk)
        rw [if_pos hpk, if_pos hpk, if_neg hne]
        rfl
      · rw [if_neg hpk, if_neg hpk]

theorem lines_unbroken {raw line : Text} (h : line ∈ lines raw) : '\n' ∉ line := by
  have hpiece : ∀ piece ∈ raw.splitOn '\n', '\n' ∉ piece := by
    intro piece hpiece hmem
    rw [List.splitOn_eq_splitOnP] at hpiece
    have hsep := (Text.of_mem_splitOnP hpiece _ hmem).1
    simp at hsep
  have hne := List.splitOn_ne_nil '\n' raw
  rcases List.mem_append.mp h with hfront | hlast
  · obtain ⟨piece, hmem, rfl⟩ := List.mem_map.mp hfront
    have hunbroken := hpiece piece (List.mem_of_mem_dropLast hmem)
    rw [stripCr]
    split
    · exact fun hin => hunbroken (List.mem_of_mem_dropLast hin)
    · exact hunbroken
  · rw [List.getLastD_eq_getLast?, List.getLast?_eq_some_getLast hne, Option.getD_some] at hlast
    split at hlast
    · cases hlast
    · obtain rfl := List.mem_singleton.mp hlast
      exact hpiece _ (List.getLast_mem hne)

theorem lines_flatMap {rows : List Text} (h : ∀ line ∈ rows, '\n' ∉ line) :
    lines (rows.flatMap (· ++ ['\n'])) = rows.map stripCr := by
  induction rows with
  | nil => rfl
  | cons line rows ih =>
    have hline : '\n' ∉ line := h line List.mem_cons_self
    have hrest := ih fun line hmem => h line (List.mem_cons_of_mem _ hmem)
    rw [List.flatMap_cons, List.append_assoc, List.singleton_append, lines_append_break, hrest,
      List.splitOn_eq_singleton hline, List.map_cons]
    rfl

theorem bare_stripCr (line : Text) : bare (stripCr line) = bare line := by
  unfold stripCr
  split
  · next hlast =>
    obtain ⟨front, rfl⟩ : ∃ front, line = front ++ ['\r'] := List.getLast?_eq_some_iff.mp hlast
    rw [List.dropLast_concat, bare, bare, List.rdropWhile_concat_pos _ _ _ (by decide)]
  · rfl

theorem kept_unbroken (raw : Text) (pubkey : PublicKey) :
    ∀ line ∈ (lines raw).filter fun line => parse_pubkey line ≠ some pubkey, '\n' ∉ line :=
  fun _ hmem => lines_unbroken (List.mem_of_mem_filter hmem)

/-- A text's lines without those of a key load as its list without the key. -/
theorem load_revoked {raw : Text} {clients : AuthorizedClients} (h : load (some raw) = .ok clients)
    (pubkey : PublicKey) :
    load (revoke_in_file (some raw) pubkey).2 =
      .ok fun pk => if pk = pubkey then none else clients pk := by
  obtain ⟨listed, hlisted, rfl⟩ := load_eq.mp h
  have hentries : entries (((lines raw).filter fun line => parse_pubkey line ≠ some pubkey).flatMap
      (· ++ ['\n'])) = .ok (listed.filter fun pair => pair.1 ≠ pubkey) := by
    rw [entries, lines_flatMap (kept_unbroken raw pubkey), entriesOf_map_stripCr]
    exact entriesOf_filter pubkey hlisted
  refine load_eq.mpr ⟨_, hentries, ?_⟩
  funext pk
  rw [lastOf_filter]

theorem lines_revoked (file : File) (pubkey : PublicKey) :
    (lines ((revoke_in_file file pubkey).2.getD [])).map bare =
      ((lines (file.getD [])).filter fun line => parse_pubkey line ≠ some pubkey).map bare := by
  cases file with
  | none => rfl
  | some raw =>
    rw [revoke_in_file, Option.getD_some, Option.getD_some,
      lines_flatMap (kept_unbroken raw pubkey), List.map_map]
    exact List.map_congr_left fun line _ => bare_stripCr line

theorem revoked_acts {file : File} {clients : AuthorizedClients} (h : load file = .ok clients)
    (pubkey : PublicKey) :
    ∃ clients', load (revoke_in_file file pubkey).2 = .ok clients' ∧ clients' pubkey = none ∧
      ∀ other, other ≠ pubkey → clients' other = clients other := by
  cases file with
  | none =>
    obtain rfl := Except.ok.inj h
    exact ⟨fun _ => none, rfl, rfl, fun _ _ => rfl⟩
  | some raw =>
    exact ⟨_, load_revoked h pubkey, if_pos rfl, fun other hother => if_neg hother⟩

/-! ## Authorizing -/

/-- The key and name of a new entry leave the others as they are: the file ends in a line
break, or the line it ends in and the further lines of the name make up for that. -/
def AppendsSafely (file : File) (pubkey : PublicKey) (name : Option Text)
    (clients : AuthorizedClients) : Prop :=
  ∃ extra, load (some (laterLines name)) = .ok extra ∧
    (∀ other, other ≠ pubkey → ∀ entry, extra other = some entry → clients other = some entry) ∧
    (lead (lastLine (file.getD [])) = [] ∨
      (extra pubkey).isSome ∧
        ((lead (lastLine (file.getD []))).head? = some '#' ∨
          ∃ key, parse_pubkey (lastLine (file.getD [])) = some key ∧
            (∃ c ∈ lead (lastLine (file.getD [])), Text.isWhitespace c = true) ∧
              (extra key).isSome))

theorem load_text (file : File) : load file = load (some (file.getD [])) := by
  cases file <;> rfl

theorem authorize_new {file after : File} {pubkey : PublicKey} {name : Option Text}
    {clients : AuthorizedClients} (hload : load file = .ok clients) :
    authorize_in_file file pubkey name = .ok (true, after) ↔ clients pubkey = none ∧
      after = some (file.getD [] ++ (newLine pubkey name ++ ['\n'])) := by
  rw [authorize_in_file, hload]
  cases hlookup : clients pubkey with
  | none => simp [bind, Except.bind, hlookup, eq_comm]
  | some entry => simp [bind, Except.bind, hlookup]

/-- What a text loads as once a line is appended to it. -/
theorem load_appended {raw : Text} {listed : List (PublicKey × ClientEntry)}
    (h : entries raw = .ok listed) (pubkey : PublicKey) (name : Option Text) :
    ∃ base old gap, readLine (lastLine raw) = .ok old ∧ listed = base ++ old.toList ∧
      (gap = [] ∨ ∃ text, gap = ' ' :: text) ∧
      ∀ clients', load (some (raw ++ (newLine pubkey name ++ ['\n']))) = .ok clients' ↔
        ∃ entry extra, readLine (lastLine raw ++ (Base64.encode pubkey.val ++ gap)) = .ok entry ∧
          load (some (laterLines name)) = .ok extra ∧
            clients' = fun pk => (extra pk).or ((lastOf entry.toList pk).or (lastOf base pk)) := by
  obtain ⟨base, old, hold, hlisted, hgoes⟩ := entries_goes_on h
  obtain ⟨gap, hgap, hnew⟩ := entries_newLine pubkey name
  have hunbroken : '\n' ∉ lastLine raw := Text.not_mem_afterLast '\n' raw
  refine ⟨base, old, gap, hold, hlisted, hgap, fun clients' => ?_⟩
  simp only [load_eq, hgoes, hnew _ _ hunbroken]
  constructor
  · rintro ⟨listed', ⟨rest, ⟨entry, extra, hread, hextra, rfl⟩, rfl⟩, rfl⟩
    refine ⟨entry, lastOf extra, hread, ⟨extra, hextra, rfl⟩, ?_⟩
    funext pk
    rw [lastOf_append, lastOf_append, Option.or_assoc]
  · rintro ⟨entry, _, hread, ⟨extra, hextra, rfl⟩, rfl⟩
    refine ⟨_, ⟨_, ⟨entry, extra, hread, hextra, rfl⟩, rfl⟩, ?_⟩
    funext pk
    rw [lastOf_append, lastOf_append, Option.or_assoc]

/-- The line a text ends in makes no entry: it is blank or a comment. -/
theorem readLine_none {line : Text} :
    readLine line = .ok none ↔ lead line = [] ∨ (lead line).head? = some '#' := by
  have hskip : readLine line = .ok none ↔ isSkipped (lead line) = true := by
    rw [readLine_eq]
    cases isSkipped (lead line) with
    | true => simp
    | false => cases decodeKey (keyWord (lead line)) <;> simp [Except.map]
  rw [hskip, isSkipped, Bool.or_eq_true, List.isEmpty_iff, beq_iff_eq]

theorem lastOf_singleton (key : PublicKey) (entry : ClientEntry) (pk : PublicKey) :
    lastOf [(key, entry)] pk = if pk = key then some entry else none := by
  rw [lastOf_cons]
  rfl

theorem some_or {extra kept : Option ClientEntry} {entry : ClientEntry}
    (h : extra.or kept = kept) (hextra : extra = some entry) : kept = some entry := by
  rw [← h, hextra, Option.some_or]

theorem or_kept {extra kept : Option ClientEntry}
    (h : ∀ entry, extra = some entry → kept = some entry) : extra.or kept = kept := by
  cases extra with
  | none => rfl
  | some entry => rw [h entry rfl, Option.some_or]

variable {raw : Text} {clients : AuthorizedClients} {pubkey : PublicKey}

theorem extends_of_blank {base extra : AuthorizedClients} (entry : ClientEntry) :
    Extends base (fun pk => (extra pk).or ((lastOf [(pubkey, entry)] pk).or (base pk))) pubkey ↔
      ∀ other, other ≠ pubkey → ∀ entry, extra other = some entry → base other = some entry := by
  have hother : ∀ other, other ≠ pubkey →
      (lastOf [(pubkey, entry)] other).or (base other) = base other := fun other hne => by
    rw [lastOf_singleton, if_neg hne, Option.none_or]
  constructor
  · rintro ⟨-, hkept⟩ other hne later hlater
    have hsame := hkept other hne
    simp only [hother other hne] at hsame
    exact some_or hsame hlater
  · intro hextra
    refine ⟨by simp [lastOf_singleton], fun other hne => ?_⟩
    simp only [hother other hne]
    exact or_kept (hextra other hne)

theorem extends_of_comment {base extra : AuthorizedClients} (hnew : base pubkey = none) :
    Extends base (fun pk => (extra pk).or (base pk)) pubkey ↔
      (∀ other, other ≠ pubkey → ∀ entry, extra other = some entry → base other = some entry) ∧
        (extra pubkey).isSome := by
  constructor
  · rintro ⟨hpubkey, hkept⟩
    simp only [hnew, Option.or_none] at hpubkey
    exact ⟨fun other hne entry hlater => some_or (hkept other hne) hlater, hpubkey⟩
  · rintro ⟨hextra, hpubkey⟩
    refine ⟨?_, fun other hne => or_kept (hextra other hne)⟩
    simp only [hnew, Option.or_none]
    exact hpubkey

/-- The entry whose name has grown is overridden by a later one that repeats it. -/
theorem extends_of_entry {base extra : AuthorizedClients} {key : PublicKey}
    {entry entry' : ClientEntry} (hgrown : entry' ≠ entry) (hkey : key ≠ pubkey)
    (hnew : base pubkey = none) :
    Extends (fun pk => (lastOf [(key, entry)] pk).or (base pk))
        (fun pk => (extra pk).or ((lastOf [(key, entry')] pk).or (base pk))) pubkey ↔
      (∀ other, other ≠ pubkey → ∀ later, extra other = some later →
        (lastOf [(key, entry)] other).or (base other) = some later) ∧
          (extra pubkey).isSome ∧ (extra key).isSome := by
  have hmid : ∀ entry, (lastOf [(key, entry)] pubkey).or (base pubkey) = none := fun entry => by
    rw [lastOf_singleton, if_neg hkey.symm, hnew, Option.none_or]
  have hother : ∀ entry other, other ≠ key →
      (lastOf [(key, entry)] other).or (base other) = base other := fun entry other hne => by
    rw [lastOf_singleton, if_neg hne, Option.none_or]
  have hown : ∀ entry, (lastOf [(key, entry)] key).or (base key) = some entry := fun entry => by
    rw [lastOf_singleton, if_pos rfl, Option.some_or]
  constructor
  · rintro ⟨hpubkey, hkept⟩
    refine ⟨fun other hne later hlater => ?_, ?_, ?_⟩
    · have hsame := hkept other hne
      simp only [hlater, Option.some_or] at hsame
      exact hsame.symm
    · simpa [hmid] using hpubkey
    · have hsame := hkept key hkey
      simp only [hown] at hsame
      cases hextra : extra key with
      | some later => rfl
      | none =>
        rw [hextra, Option.none_or] at hsame
        exact absurd (Option.some.inj hsame) hgrown
  · rintro ⟨hextra, hpubkey, hrepeats⟩
    refine ⟨by simpa [hmid] using hpubkey, fun other hne => ?_⟩
    by_cases hother' : other = key
    · subst hother'
      obtain ⟨later, hlater⟩ := Option.isSome_iff_exists.mp hrepeats
      simp only [hlater, Option.some_or, hextra other hne later hlater]
    · simp only [hother _ other hother']
      refine or_kept fun later hlater => ?_
      rw [← hother entry other hother']
      exact hextra other hne later hlater

theorem extends_iff_appendsSafely (hload : load (some raw) = .ok clients)
    (hnew : clients pubkey = none) (name : Option Text) :
    (∃ clients', load (some (raw ++ (newLine pubkey name ++ ['\n']))) = .ok clients' ∧
      Extends clients clients' pubkey) ↔ AppendsSafely (some raw) pubkey name clients := by
  obtain ⟨listed, hlisted, rfl⟩ := load_eq.mp hload
  obtain ⟨base, old, gap, hold, rfl, hgap, hloads⟩ := load_appended hlisted pubkey name
  simp only [hloads, AppendsSafely, Option.getD_some]
  cases old with
  | none =>
    have hbase : lastOf (base ++ (none : Option (PublicKey × ClientEntry)).toList) =
        lastOf base := by
      rw [Option.toList_none, List.append_nil]
    rw [hbase] at hnew ⊢
    rcases readLine_none.mp hold with hblank | hcomment
    · obtain ⟨entry, hread⟩ := readLine_blank_append pubkey hblank hgap
      constructor
      · rintro ⟨_, ⟨joined, extra, hjoined, hextra, rfl⟩, hextends⟩
        obtain rfl := Except.ok.inj (hread.symm.trans hjoined)
        exact ⟨extra, hextra, (extends_of_blank entry).mp hextends, Or.inl hblank⟩
      · rintro ⟨extra, hextra, hothers, -⟩
        exact ⟨_, ⟨_, extra, hread, hextra, rfl⟩, (extends_of_blank entry).mpr hothers⟩
    · have hread := readLine_comment_append hcomment (Base64.encode pubkey.val ++ gap)
      have hne : lead (lastLine raw) ≠ [] := fun hnil => by simp [hnil] at hcomment
      constructor
      · rintro ⟨_, ⟨joined, extra, hjoined, hextra, rfl⟩, hextends⟩
        obtain rfl := Except.ok.inj (hread.symm.trans hjoined)
        obtain ⟨hothers, hpubkey⟩ := (extends_of_comment hnew).mp hextends
        exact ⟨extra, hextra, hothers, Or.inr ⟨hpubkey, Or.inl hcomment⟩⟩
      · rintro ⟨extra, hextra, hothers, hblank | ⟨hpubkey, -⟩⟩
        · exact absurd hblank hne
        · exact ⟨_, ⟨_, extra, hread, hextra, rfl⟩,
            (extends_of_comment hnew).mpr ⟨hothers, hpubkey⟩⟩
  | some pair =>
    obtain ⟨key, entry⟩ := pair
    have hkept := (readLine_some.mp hold).1
    have hparse : parse_pubkey (lastLine raw) = some key := parse_pubkey_of_readLine hold
    have hne : lead (lastLine raw) ≠ [] := lead_ne_nil hkept
    have hhead : (lead (lastLine raw)).head? ≠ some '#' := fun hcomment => by
      rw [readLine_none.mpr (Or.inr hcomment)] at hold
      cases hold
    have hlast : lastOf (base ++ (some (key, entry)).toList) =
        fun pk => (lastOf [(key, entry)] pk).or (lastOf base pk) := by
      funext pk
      exact lastOf_append base [(key, entry)] pk
    rw [hlast] at hnew ⊢
    obtain ⟨hmid, hnew⟩ := Option.or_eq_none_iff.mp hnew
    have hkey : key ≠ pubkey := fun heq => by simp [lastOf_singleton, heq] at hmid
    by_cases hspace : ∃ c ∈ lead (lastLine raw), Text.isWhitespace c = true
    · have hsolid : ∃ c ∈ Base64.encode pubkey.val ++ gap, Text.isWhitespace c = false := by
        obtain ⟨c, rest, hcons, hsolid, -⟩ := encode_cons pubkey
        exact ⟨c, List.mem_append_left _ (hcons ▸ List.mem_cons_self), hsolid⟩
      obtain ⟨entry', hgrown, hread⟩ := readLine_spaced_append hold hspace hsolid
      constructor
      · rintro ⟨_, ⟨joined, extra, hjoined, hextra, rfl⟩, hextends⟩
        obtain rfl := Except.ok.inj (hread.symm.trans hjoined)
        obtain ⟨hothers, hpubkey, hrepeats⟩ := (extends_of_entry hgrown hkey hnew).mp hextends
        exact ⟨extra, hextra, hothers, Or.inr ⟨hpubkey, Or.inr ⟨key, hparse, hspace, hrepeats⟩⟩⟩
      · rintro ⟨extra, hextra, hothers,
          hblank | ⟨hpubkey, hcomment | ⟨key', hparse', -, hrepeats⟩⟩⟩
        · exact absurd hblank hne
        · exact absurd hcomment hhead
        · obtain rfl : key = key' := Option.some.inj (hparse.symm.trans hparse')
          exact ⟨_, ⟨_, extra, hread, hextra, rfl⟩,
            (extends_of_entry hgrown hkey hnew).mpr ⟨hothers, hpubkey, hrepeats⟩⟩
    · have hbare : ∀ c ∈ lead (lastLine raw), Text.isWhitespace c = false := fun c hc => by
        by_contra hwhite
        exact hspace ⟨c, hc, by simpa using hwhite⟩
      have hread := readLine_bare_append hold hbare pubkey hgap
      constructor
      · rintro ⟨_, ⟨joined, extra, hjoined, -, -⟩, -⟩
        rw [hread] at hjoined
        cases hjoined
      · rintro ⟨extra, -, -, hblank | ⟨-, hcomment | ⟨-, -, hspace', -⟩⟩⟩
        · exact absurd hblank hne
        · exact absurd hcomment hhead
        · exact absurd hspace' hspace

theorem authorized_keys_act_as_map_iff {file : File} (hload : load file = .ok clients)
    (pubkey : PublicKey) (name : Option Text) :
    ActsAsMap file pubkey name clients ↔
      (clients pubkey).isSome ∨ AppendsSafely file pubkey name clients := by
  have htext : load (some (file.getD [])) = .ok clients := (load_text file).symm.trans hload
  constructor
  · intro hacts
    cases hlookup : clients pubkey with
    | some entry => exact Or.inl rfl
    | none =>
      have hadded := hacts.authorized _ ((authorize_new hload).mpr ⟨hlookup, rfl⟩)
      exact Or.inr ((extends_iff_appendsSafely htext hlookup name).mp hadded)
  · intro hsafe
    refine ⟨fun after hafter => ?_, revoked_acts hload pubkey, lines_revoked file pubkey⟩
    obtain ⟨hlookup, rfl⟩ := (authorize_new hload).mp hafter
    rcases hsafe with hknown | hsafe
    · rw [hlookup] at hknown
      cases hknown
    · exact (extends_iff_appendsSafely htext hlookup name).mpr hsafe

/-- The key of the source's example. -/
def exampleKey : PublicKey := ⟨(List.range 32).map UInt8.ofNat, rfl⟩

def exampleText : Text :=
  "# ovh-de production sidecar\nAAECAwQFBgcICQoLDA0ODxAREhMUFRYXGBkaGxwdHh8= prod-de\n".toList

def newKey : PublicKey := ⟨List.replicate 32 7, rfl⟩

theorem authorized_keys_act_as_map_of_example :
    ActsAsMap (some exampleText) newKey (some "edge".toList)
      (lastOf [(exampleKey, { name := some "prod-de".toList })]) := by
  have hentries : entries exampleText =
      .ok [(exampleKey, { name := some "prod-de".toList })] := by decide +kernel
  refine (authorized_keys_act_as_map_iff (load_eq.mpr ⟨_, hentries, rfl⟩) newKey
    (some "edge".toList)).mpr (Or.inr ⟨fun _ => none, rfl, fun _ _ _ h => (by cases h), Or.inl ?_⟩)
  decide +kernel

/-- A comment without a line break behind it takes in the new key. -/
theorem comment_takes_in_new_key :
    ¬ ∀ file pubkey name clients, load file = .ok clients →
      ActsAsMap file pubkey name clients := by
  intro hall
  have hacts := hall (some "# edge".toList) newKey none (fun _ => none) rfl
  obtain ⟨clients', hload, hadded, -⟩ := hacts.authorized _ (by rfl)
  have hentries : entries ("# edge".toList ++ (newLine newKey none ++ ['\n'])) = .ok [] := by
    decide +kernel
  have hempty := load_eq.mpr ⟨_, hentries, rfl⟩
  obtain rfl := Except.ok.inj (hload.symm.trans hempty)
  cases hadded

end MailCue.Tunnel.Proto.Authorized
