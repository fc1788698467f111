import MailCue.Backend.Emails.SmtpReply
import MailCue.Backend.Mailboxes.UsersFile
import MailCue.Lib.Dict
import MailCue.Lib.IpAddress
import MailCue.Lib.Rounding

/-!
# The metrics of the sidecar

`prom_metrics` of tunnel/crates/sidecar/src/metrics.rs, and `_parse_sidecar_metrics` of
backend/app/tunnels/service.py, which reads what it prints. Of Python's `float` it is given
what it makes of an unsigned integer of 64 bits.
-/
namespace MailCue.Backend.Tunnels.Metrics
open MailCue.Lib

/-! ## Printing -/

structure TunnelStatsSnapshot where
  id : Text
  healthy : Bool
  idle : UInt64
  inflight : UInt64
  requests_ok : UInt64
  requests_err : UInt64
  last_success : Option UInt64

/-- What a request of the metrics finds; the ids are the keys of a map. -/
structure Snapshot where
  tunnels : List TunnelStatsSnapshot
  nodup : (tunnels.map TunnelStatsSnapshot.id).Nodup
  bytes_total : Text → UInt64
  smtp_2xx : UInt64
  smtp_4xx : UInt64
  smtp_5xx : UInt64

def esc (s : Text) : Text :=
  (s.flatMap fun c => if c = '\\' then ['\\', '\\'] else [c]).flatMap fun c =>
    if c = '"' then ['\\', '"'] else [c]

/-- `name{labels} value` -/
def sample (name : String) (labels : Text) (value : Nat) : Text :=
  name.toList ++ '{' :: labels ++ '}' :: ' ' :: Nat.toDigits 10 value

def tunnelLabel (id : Text) : Text := "tunnel=\"".toList ++ esc id ++ ['"']

def outcomeLabel (outcome : String) : Text := "outcome=\"".toList ++ outcome.toList ++ ['"']

namespace TunnelStatsSnapshot
variable (s : TunnelStatsSnapshot)

def up : Nat := if s.healthy then 1 else 0

def upLine : Text := sample "mailcue_tunnel_up" (tunnelLabel s.id) s.up

def okLine : Text :=
  sample "mailcue_tunnel_requests_total" (tunnelLabel s.id ++ ',' :: outcomeLabel "ok")
    s.requests_ok.toNat

def errLine : Text :=
  sample "mailcue_tunnel_requests_total" (tunnelLabel s.id ++ ',' :: outcomeLabel "err")
    s.requests_err.toNat

def bytesLine (bytes_total : Text → UInt64) : Text :=
  sample "mailcue_tunnel_bytes_total" (tunnelLabel s.id) (bytes_total s.id).toNat

def lastSuccessLine : Text :=
  sample "mailcue_tunnel_last_success_seconds" (tunnelLabel s.id) (s.last_success.getD 0).toNat

def inflightLine : Text := sample "mailcue_tunnel_inflight" (tunnelLabel s.id) s.inflight.toNat

def idleLine : Text := sample "mailcue_tunnel_idle_connections" (tunnelLabel s.id) s.idle.toNat

end TunnelStatsSnapshot

def comments (name help kind : String) : List Text :=
  ["# HELP ".toList ++ name.toList ++ ' ' :: help.toList,
    "# TYPE ".toList ++ name.toList ++ ' ' :: kind.toList]

/-- The lines, each without its line feed. -/
def promLines (m : Snapshot) : List Text :=
  comments "mailcue_tunnel_up" "1 if the tunnel is healthy." "gauge" ++
  m.tunnels.map (·.upLine) ++
  comments "mailcue_tunnel_requests_total" "Per-tunnel relay outcomes." "counter" ++
  m.tunnels.flatMap (fun s => [s.okLine, s.errLine]) ++
  comments "mailcue_tunnel_bytes_total" "Bytes relayed per tunnel." "counter" ++
  m.tunnels.map (·.bytesLine m.bytes_total) ++
  comments "mailcue_tunnel_last_success_seconds" "Unix timestamp of last successful op." "gauge" ++
  m.tunnels.map (·.lastSuccessLine) ++
  comments "mailcue_tunnel_inflight" "Currently-in-flight relays per tunnel." "gauge" ++
  m.tunnels.map (·.inflightLine) ++
  comments "mailcue_tunnel_idle_connections" "Idle conns currently in the pool." "gauge" ++
  m.tunnels.map (·.idleLine) ++
  comments "mailcue_smtp_messages_total" "SMTP submissions by reply class." "counter" ++
  [sample "mailcue_smtp_messages_total" (outcomeLabel "2xx") m.smtp_2xx.toNat,
    sample "mailcue_smtp_messages_total" (outcomeLabel "4xx") m.smtp_4xx.toNat,
    sample "mailcue_smtp_messages_total" (outcomeLabel "5xx") m.smtp_5xx.toNat]

/-- The body of the answer. -/
def promMetrics (m : Snapshot) : Text := (promLines m).flatMap (· ++ ['\n'])

/-! ## Parsing -/

/-- What `float` gives. -/
inductive Double
  | finite (q : ℚ)
  | infinite (negative : Bool)

/-- The double next to an integer, of two the even one. -/
def toDouble (n : Nat) : ℚ :=
  Rounding.roundHalfEven ((n : ℚ) / 2 ^ (n.log2 - 52)) * 2 ^ (n.log2 - 52)

structure World where
  py : Emails.PyText
  /-- `float(text)`; nothing where it raises. -/
  float : Text → Option Double
  float_toDigits : ∀ n < 2 ^ 64, float (Nat.toDigits 10 n) = some (.finite (toDouble n))

/-- `str.splitlines` takes a CR and an LF for one break. -/
def crlfAsOne : Text → Text
  | '\r' :: '\n' :: rest => '\n' :: crlfAsOne rest
  | c :: rest => c :: crlfAsOne rest
  | [] => []

def splitlines (body : Text) : List Text :=
  (Lines.splitLines Mailboxes.isLineBreak (crlfAsOne body)).map fun line =>
    line.takeWhile fun c => !Mailboxes.isLineBreak c

def metrics : List String :=
  ["up", "requests_total", "last_success_seconds", "inflight", "idle_connections"]

/-- `[0-9.eE+-]` -/
def isValueChar (c : Char) : Bool := c.isDigit || ['.', 'e', 'E', '+', '-'].contains c

/-- `_PROM_LINE_RE.fullmatch`: the metric, the labels and the value. No metric has a brace, so
that there is one way to match at most. -/
def promLine (line : Text) : Option (Text × Text × Text) :=
  if "mailcue_tunnel_".toList.isPrefixOf line then
    let named := line.drop 15
    let metric := named.takeWhile (· != '{')
    let labels := (named.drop (metric.length + 1)).takeWhile (· != '}')
    let spaced := (named.drop (metric.length + 1)).drop (labels.length + 1)
    let value := spaced.dropWhile Text.isSpace
    if (metrics.map String.toList).contains metric && named[metric.length]? == some '{' &&
        (named.drop (metric.length + 1))[labels.length]? == some '}' &&
        spaced.head?.any Text.isSpace && !value.isEmpty && value.all isValueChar then
      some (metric, labels, value)
    else none
  else none

/-- `((?:\\.|[^"])*)"`: the group, and what follows. A backslash is read with what it escapes,
or alone where nothing closes the quotes then. -/
def quoted : Text → Option (Text × Text)
  | [] => none
  | '"' :: rest => some ([], rest)
  | [_] => none
  | c :: d :: rest =>
    let escaped :=
      if c = '\\' ∧ d ≠ '\n' then (quoted rest).map fun found => (c :: d :: found.1, found.2)
      else none
    escaped.or ((quoted (d :: rest)).map fun found => (c :: found.1, found.2))

/-- `(\w+)="((?:\\.|[^"])*)"` at a place. -/
def labelAt (isWord : Char → Bool) (text : Text) : Option (Text × Text × Text) :=
  let name := text.takeWhile isWord
  if name.isEmpty then none
  else
    match text.drop name.length with
    | '=' :: '"' :: rest => (quoted rest).map fun found => (name, found.1, found.2)
    | _ => none

/-- `re.finditer`: the matches one after another. -/
def labelPairs (isWord : Char → Bool) (skip : Nat) : Text → List (Text × Text)
  | [] => []
  | c :: rest =>
    match skip with
    | 0 =>
      match labelAt isWord (c :: rest) with
      | some (name, value, after) =>
        (name, value) :: labelPairs isWord (rest.length - after.length) rest
      | none => labelPairs isWord 0 rest
    | skip + 1 => labelPairs isWord skip rest

/-- `text.replace(ab, c)`, for two characters `ab`. -/
def replacePair (a b c : Char) : Text → Text
  | [] => []
  | [d] => [d]
  | d :: e :: rest =>
    if d = a ∧ e = b then c :: replacePair a b c rest else d :: replacePair a b c (e :: rest)

def unescape (value : Text) : Text :=
  replacePair '\\' '\\' '\\' (replacePair '\\' '"' '"' value)

def parsePrometheusLabels (isWord : Char → Bool) (raw : Text) : List (Text × Text) :=
  Dict.update [] ((labelPairs isWord 0 raw).map (Prod.map id unescape))

abbrev Parsed := List (Text × List (Text × Double))

/-- `result.setdefault(tunnel_id, {})[metric] = value` -/
def put (result : Parsed) (tunnel_id metric : Text) (value : Double) : Parsed :=
  Dict.set result tunnel_id (Dict.set ((Dict.get result tunnel_id).getD []) metric value)

/-- The name under which a value is kept. -/
def keptAs (metric : Text) (labels : List (Text × Text)) : Option Text :=
  if metric = "requests_total".toList then
    match Dict.get labels "outcome".toList with
    | some outcome =>
      if outcome = "ok".toList ∨ outcome = "err".toList then some ("requests_".toList ++ outcome)
      else none
    | none => none
  else some metric

section
variable (world : World)

/-- The body of the loop; nothing where `float` raises. -/
def readLine (result : Parsed) (line : Text) : Option Parsed :=
  match promLine (Text.strip Text.isSpace line) with
  | none => some result
  | some (metric, raw, value) =>
    let labels := parsePrometheusLabels world.py.isWord raw
    match Dict.get labels "tunnel".toList with
    | none => some result
    | some tunnel_id =>
      if tunnel_id = [] then some result
      else
        match keptAs metric labels with
        | none => some result
        | some metric => (world.float value).map (put result tunnel_id metric)

def parseSidecarMetrics (body : Text) : Option Parsed :=
  (splitlines body).foldlM (readLine world) []

end

/-! ## Escaping -/

def escChar (c : Char) : Text :=
  if c = '\\' then ['\\', '\\'] else if c = '"' then ['\\', '"'] else [c]

/-- Every backslash twice, as the first of the two replacements leaves it. -/
def doubled (s : Text) : Text := s.flatMap fun c => if c = '\\' then ['\\', '\\'] else [c]

theorem esc_eq (s : Text) : esc s = s.flatMap escChar := by
  unfold esc
  rw [List.flatMap_assoc]
  refine List.flatMap_congr fun c _ => ?_
  unfold escChar
  split
  · rfl
  · rw [List.flatMap_singleton]

theorem esc_cons (c : Char) (s : Text) : esc (c :: s) = escChar c ++ esc s := by
  rw [esc_eq, List.flatMap_cons, esc_eq]

theorem esc_head (s : Text) : (esc s).head? ≠ some '"' := by
  cases s with
  | nil => exact Option.some_ne_none _ |>.symm
  | cons c s =>
    rw [esc_cons, escChar]
    split
    · simp
    · split
      · simp
      · next hquote => simpa using hquote

theorem mem_esc {c : Char} {s : Text} (h : c ∈ esc s) : c ∈ s ∨ c = '\\' := by
  rw [esc_eq, List.mem_flatMap] at h
  obtain ⟨d, hd, hc⟩ := h
  unfold escChar at hc
  split at hc
  · simp only [List.mem_cons, List.not_mem_nil, or_false, or_self] at hc
    exact .inr hc
  · split at hc
    · next hquote =>
      rw [List.mem_pair] at hc
      rcases hc with rfl | rfl
      · exact .inr rfl
      · exact .inl (hquote ▸ hd)
    · exact .inl (List.mem_singleton.mp hc ▸ hd)

/-- A character that does not begin the pair with what follows it stays. -/
theorem replacePair_cons {a b c d : Char} {rest : Text} (h : d ≠ a ∨ rest.head? ≠ some b) :
    replacePair a b c (d :: rest) = d :: replacePair a b c rest := by
  cases rest with
  | nil => rfl
  | cons e rest =>
    rw [replacePair, if_neg]
    rintro ⟨rfl, rfl⟩
    rcases h with h | h
    · exact h rfl
    · exact h rfl

theorem replacePair_pair (a b c : Char) (rest : Text) :
    replacePair a b c (a :: b :: rest) = c :: replacePair a b c rest :=
  if_pos ⟨rfl, rfl⟩

theorem replacePair_esc (s : Text) : replacePair '\\' '"' '"' (esc s) = doubled s := by
  induction s with
  | nil => rfl
  | cons c s ih =>
    unfold doubled at ih ⊢
    rw [esc_cons, List.flatMap_cons, escChar, ← ih]
    split
    · rw [List.cons_append, List.cons_append, List.nil_append,
        replacePair_cons (.inr (by simp)), replacePair_cons (.inr (esc_head s))]
      rfl
    · next hslash =>
      split
      · next hquote =>
        rw [hquote]
        exact replacePair_pair ..
      · exact replacePair_cons (.inl hslash)

theorem replacePair_doubled (s : Text) : replacePair '\\' '\\' '\\' (doubled s) = s := by
  induction s with
  | nil => rfl
  | cons c s ih =>
    unfold doubled at ih ⊢
    rw [List.flatMap_cons]
    split
    · next hslash =>
      rw [List.cons_append, List.cons_append, List.nil_append, replacePair_pair, ih, hslash]
    · next hslash =>
      rw [List.singleton_append, replacePair_cons (.inl hslash), ih]

theorem unescape_esc (s : Text) : unescape (esc s) = s := by
  rw [unescape, replacePair_esc, replacePair_doubled]

/-! ## Labels that are read -/

theorem quoted_cons {c : Char} {rest : Text} (hquote : c ≠ '"') (hslash : c ≠ '\\')
    (hrest : rest ≠ []) :
    quoted (c :: rest) = (quoted rest).map fun found => (c :: found.1, found.2) := by
  cases rest with
  | nil => exact absurd rfl hrest
  | cons d rest =>
    rw [quoted]
    · simp [hslash]
    · exact hquote

theorem quoted_pair {d : Char} {rest value after : Text} (hd : d ≠ '\n')
    (h : quoted rest = some (value, after)) :
    quoted ('\\' :: d :: rest) = some ('\\' :: d :: value, after) := by
  rw [quoted]
  · simp [hd, h]
  · decide

/-- Up to the quotes that close what was escaped. -/
theorem quoted_esc {s : Text} (h : '\n' ∉ s) (after : Text) :
    quoted (esc s ++ '"' :: after) = some (esc s, after) := by
  induction s with
  | nil => rfl
  | cons c s ih =>
    rw [List.mem_cons, not_or] at h
    rw [esc_cons, escChar]
    split
    · exact quoted_pair (by decide) (ih h.2)
    · next hslash =>
      split
      · exact quoted_pair (by decide) (ih h.2)
      · next hquote =>
        rw [List.singleton_append, List.cons_append, quoted_cons hquote hslash (by simp), ih h.2]
        rfl

theorem labelPairs_skip (isWord : Char → Bool) (front after : Text) :
    labelPairs isWord front.length (front ++ after) = labelPairs isWord 0 after := by
  induction front with
  | nil => rfl
  | cons c front ih =>
    rw [List.cons_append, List.length_cons, labelPairs, ih]

section
variable {isWord : Char → Bool}

theorem labelAt_label {name value after : Text} (hname : name ≠ [])
    (hword : ∀ c ∈ name, isWord c = true) (heq : isWord '=' = false) (hvalue : '\n' ∉ value) :
    labelAt isWord (name ++ '=' :: '"' :: (esc value ++ '"' :: after)) =
      some (name, esc value, after) := by
  have htake : (name ++ '=' :: '"' :: (esc value ++ '"' :: after)).takeWhile isWord = name := by
    rw [List.takeWhile_append_of_pos hword, List.takeWhile_cons_of_neg (by simp [heq]),
      List.append_nil]
  unfold labelAt
  dsimp only
  have hquoted := quoted_esc hvalue after
  rw [htake, List.drop_left, if_neg (by simpa using hname)]
  exact congrArg (Option.map fun found => (name, found.1, found.2)) hquoted

/-- A label in front is read first. -/
theorem labelPairs_label {name value after : Text} (hname : name ≠ [])
    (hword : ∀ c ∈ name, isWord c = true) (heq : isWord '=' = false) (hvalue : '\n' ∉ value) :
    labelPairs isWord 0 (name ++ '=' :: '"' :: (esc value ++ '"' :: after)) =
      (name, esc value) :: labelPairs isWord 0 after := by
  have hat : labelAt isWord (name ++ '=' :: '"' :: (esc value ++ '"' :: after)) =
      some (name, esc value, after) := labelAt_label hname hword heq hvalue
  obtain ⟨c, front, rfl⟩ := List.exists_cons_of_ne_nil hname
  rw [List.cons_append] at hat ⊢
  have hsplit : front ++ '=' :: '"' :: (esc value ++ '"' :: after) =
      (front ++ '=' :: '"' :: (esc value ++ ['"'])) ++ after := by simp
  rw [labelPairs, hat]
  dsimp only
  rw [hsplit, List.length_append, Nat.add_sub_cancel, labelPairs_skip]

theorem labelPairs_other {c : Char} (hc : isWord c = false) (rest : Text) :
    labelPairs isWord 0 (c :: rest) = labelPairs isWord 0 rest := by
  have hat : labelAt isWord (c :: rest) = none := by
    unfold labelAt
    dsimp only
    rw [List.takeWhile_cons_of_neg (by simp [hc])]
    rfl
  rw [labelPairs, hat]

end

section
variable {py : Emails.PyText} {id : Text}

theorem not_isWord {c : Char} (hascii : Text.ascii c = true)
    (hc : (c.isAlphanum || c == '_') = false) : py.isWord c = false := by
  rw [py.ascii_word c hascii, hc]

theorem isWord_of_letter {name : Text}
    (hname : (name.all fun c => Text.ascii c && c.isAlpha) = true) :
    ∀ c ∈ name, py.isWord c = true := by
  intro c hc
  obtain ⟨hascii, halpha⟩ := (Bool.and_eq_true _ _).mp (List.all_eq_true.mp hname c hc)
  rw [py.ascii_word c hascii, Char.isAlphanum, halpha]
  rfl

theorem tunnelLabel_append (id after : Text) :
    tunnelLabel id ++ after = "tunnel".toList ++ '=' :: '"' :: (esc id ++ '"' :: after) := by
  have hopen : "tunnel=\"".toList = "tunnel".toList ++ ['=', '"'] := by decide
  unfold tunnelLabel
  rw [hopen, List.append_assoc, List.append_assoc, List.append_assoc]
  rw [List.cons_append, List.cons_append, List.nil_append, List.singleton_append]

theorem outcomeLabel_eq {outcome : String} (hesc : esc outcome.toList = outcome.toList) :
    outcomeLabel outcome = "outcome".toList ++ '=' :: '"' :: (esc outcome.toList ++ ['"']) := by
  have hopen : "outcome=\"".toList = "outcome".toList ++ ['=', '"'] := by decide
  unfold outcomeLabel
  rw [hopen, hesc, List.append_assoc, List.append_assoc]
  rw [List.cons_append, List.cons_append, List.nil_append]

theorem labelPairs_tunnelLabel (hid : '\n' ∉ id) (after : Text) :
    labelPairs py.isWord 0 (tunnelLabel id ++ after) =
      ("tunnel".toList, esc id) :: labelPairs py.isWord 0 after := by
  have hword : ∀ c ∈ "tunnel".toList, py.isWord c = true := isWord_of_letter (by decide)
  have heq : py.isWord '=' = false := not_isWord (by decide) (by decide)
  rw [tunnelLabel_append, labelPairs_label (by decide) hword heq hid]

theorem labelPairs_outcomeLabel {outcome : String} (hesc : esc outcome.toList = outcome.toList)
    (hline : '\n' ∉ outcome.toList) :
    labelPairs py.isWord 0 (outcomeLabel outcome) = [("outcome".toList, outcome.toList)] := by
  have hword : ∀ c ∈ "outcome".toList, py.isWord c = true := isWord_of_letter (by decide)
  have heq : py.isWord '=' = false := not_isWord (by decide) (by decide)
  rw [outcomeLabel_eq hesc, labelPairs_label (by decide) hword heq hline, hesc]
  rfl

theorem parse_tunnelLabel (hid : '\n' ∉ id) :
    parsePrometheusLabels py.isWord (tunnelLabel id) = [("tunnel".toList, id)] := by
  have hpairs : labelPairs py.isWord 0 (tunnelLabel id ++ []) =
      ("tunnel".toList, esc id) :: labelPairs py.isWord 0 [] := labelPairs_tunnelLabel hid []
  rw [List.append_nil] at hpairs
  rw [parsePrometheusLabels, hpairs]
  simp [labelPairs, unescape_esc, Dict.update, Dict.set]

theorem parse_outcomeLabel (hid : '\n' ∉ id) {outcome : String}
    (hesc : esc outcome.toList = outcome.toList) (hline : '\n' ∉ outcome.toList) :
    parsePrometheusLabels py.isWord (tunnelLabel id ++ ',' :: outcomeLabel outcome) =
      [("tunnel".toList, id), ("outcome".toList, outcome.toList)] := by
  have hplain : unescape outcome.toList = outcome.toList := by
    rw [← hesc, unescape_esc, hesc]
  have hnodup (value : Text) :
      ([("tunnel".toList, value), ("outcome".toList, outcome.toList)].map Prod.fst).Nodup := by
    show ["tunnel".toList, "outcome".toList].Nodup
    decide
  have hread : [("tunnel".toList, esc id), ("outcome".toList, outcome.toList)].map
      (Prod.map (fun name => name) unescape) =
        [("tunnel".toList, id), ("outcome".toList, outcome.toList)] := by
    rw [List.map_cons, List.map_cons, List.map_nil, Prod.map_apply, Prod.map_apply, unescape_esc,
      hplain]
  rw [parsePrometheusLabels, labelPairs_tunnelLabel hid,
    labelPairs_other (not_isWord (by decide) (by decide)), labelPairs_outcomeLabel hesc hline]
  exact (congrArg (Dict.update []) hread).trans (Dict.update_nil (hnodup id))

end

example : parsePrometheusLabels Emails.PyText.asciiOnly.isWord (tunnelLabel "a\"b\\".toList) =
    [("tunnel".toList, "a\"b\\".toList)] := by decide

/-! ## Lines that are read -/

section
variable {x : Char} {front : Text}

theorem takeWhile_ne (h : x ∉ front) (back : Text) :
    (front ++ x :: back).takeWhile (· != x) = front := by
  have hall : ∀ c ∈ front, (c != x) = true := fun c hc =>
    bne_iff_ne.mpr fun heq => h (heq ▸ hc)
  rw [List.takeWhile_append_of_pos hall, List.takeWhile_cons_of_neg (by simp), List.append_nil]

theorem drop_behind (front : Text) (x : Char) (back : Text) :
    (front ++ x :: back).drop (front.length + 1) = back := by
  simp

theorem getElem?_at (front : Text) (x : Char) (back : Text) :
    (front ++ x :: back)[front.length]? = some x := by
  simp

end

section
variable {name metric : String} {labels : Text}

theorem digits_plain (n : Nat) : ∀ c ∈ Nat.toDigits 10 n, c.isDigit = true := fun _ hc =>
  Nat.isDigit_of_mem_toDigits (by decide) (by decide) hc

theorem not_space_of_isDigit {c : Char} (h : c.isDigit = true) : Text.isSpace c = false :=
  (IpAddress.ascii_of_isPlain (IpAddress.isPlain_of_isDigit h)).2.2

theorem sample_eq (hname : name.toList = "mailcue_tunnel_".toList ++ metric.toList) (n : Nat) :
    sample name labels n = "mailcue_tunnel_".toList ++
      (metric.toList ++ '{' :: (labels ++ '}' :: ' ' :: Nat.toDigits 10 n)) := by
  unfold sample
  rw [hname, List.append_assoc, List.append_assoc, List.cons_append]

theorem dropWhile_digits (n : Nat) :
    (' ' :: Nat.toDigits 10 n).dropWhile Text.isSpace = Nat.toDigits 10 n := by
  rw [List.dropWhile_cons_of_pos (by decide)]
  refine List.dropWhile_eq_self_iff.mpr fun hlength => ?_
  rw [not_space_of_isDigit (digits_plain n _ (List.getElem_mem hlength))]
  exact Bool.false_ne_true

theorem promLine_sample (hname : name.toList = "mailcue_tunnel_".toList ++ metric.toList)
    (hbrace : '{' ∉ metric.toList) (hlabels : '}' ∉ labels) (n : Nat) :
    promLine (sample name labels n) =
      if (metrics.map String.toList).contains metric.toList = true then
        some (metric.toList, labels, Nat.toDigits 10 n)
      else none := by
  have hprefix : "mailcue_tunnel_".toList.isPrefixOf (sample name labels n) = true := by
    rw [sample_eq hname]
    exact List.isPrefixOf_iff_prefix.mpr (List.prefix_append _ _)
  have hdrop : (sample name labels n).drop 15 =
      metric.toList ++ '{' :: (labels ++ '}' :: ' ' :: Nat.toDigits 10 n) := by
    rw [sample_eq hname]
    exact List.drop_left' (by decide)
  have hvalue : (Nat.toDigits 10 n).all isValueChar = true :=
    List.all_eq_true.mpr fun c hc => by simp [isValueChar, digits_plain n c hc]
  have hempty : (Nat.toDigits 10 n).isEmpty = false :=
    List.isEmpty_eq_false_iff.mpr Nat.toDigits_ne_nil
  have hspace : (' ' :: Nat.toDigits 10 n).head?.any Text.isSpace = true := rfl
  unfold promLine
  rw [if_pos hprefix]
  dsimp only
  rw [hdrop, takeWhile_ne hbrace, drop_behind, getElem?_at, takeWhile_ne hlabels, drop_behind,
    getElem?_at, dropWhile_digits, hvalue, hempty, hspace]
  simp only [beq_self_eq_true, Bool.and_true, Bool.not_false]

theorem promLine_other {line : Text} (h : "mailcue_tunnel_".toList.isPrefixOf line = false) :
    promLine line = none := by
  rw [promLine, h]
  rfl

theorem promLine_append {front : Text} (hlength : 15 ≤ front.length)
    (h : "mailcue_tunnel_".toList.isPrefixOf front = false) (back : Text) :
    promLine (front ++ back) = none := by
  refine promLine_other (Bool.eq_false_iff.mpr fun hprefix => ?_)
  have hlen : "mailcue_tunnel_".toList.length ≤ front.length := hlength
  have hleads := List.prefix_of_prefix_length_le (List.isPrefixOf_iff_prefix.mp hprefix)
    (List.prefix_append front back) hlen
  rw [List.isPrefixOf_iff_prefix.mpr hleads] at h
  cases h

/-- A line that no space begins or ends. -/
theorem strip_of_ends {line : Text} (hhead : line.head?.any Text.isSpace = false)
    (hlast : line.getLast?.any Text.isSpace = false) : Text.strip Text.isSpace line = line := by
  by_cases hnil : line = []
  · rw [hnil]
    rfl
  · rw [List.head?_eq_some_head hnil, Option.any_some] at hhead
    rw [List.getLast?_eq_some_getLast hnil, Option.any_some] at hlast
    have hinfix := Text.infix_strip hnil hhead hlast (List.infix_refl line)
    exact ( Text.strip_infix Text.isSpace line).eq_of_length_le hinfix.length_le

theorem strip_sample (hname : name.toList.head?.any Text.isSpace = false)
    (hnonempty : name.toList ≠ []) (labels : Text) (n : Nat) :
    Text.strip Text.isSpace (sample name labels n) = sample name labels n := by
  unfold sample
  apply strip_of_ends
  · obtain ⟨c, rest, hcons⟩ := List.exists_cons_of_ne_nil hnonempty
    rw [hcons] at hname ⊢
    exact hname
  · have hne : (Nat.toDigits 10 n) ≠ [] := Nat.toDigits_ne_nil
    have hlast : (name.toList ++ '{' :: labels ++ '}' :: ' ' :: Nat.toDigits 10 n).getLast? =
        (Nat.toDigits 10 n).getLast? := by
      rw [List.getLast?_append, List.getLast?_cons_cons, List.getLast?_cons]
      simp [List.getLast?_eq_some_getLast hne]
    rw [hlast, List.getLast?_eq_some_getLast hne, Option.any_some]
    exact not_space_of_isDigit (digits_plain n _ (List.getLast_mem hne))

end

/-! ## What lines add -/

/-- A tunnel, a metric and its value. -/
abbrev Entry := Text × Text × Double

def putEntry (result : Parsed) (entry : Entry) : Parsed := put result entry.1 entry.2.1 entry.2.2

/-- A text that `str.splitlines` leaves whole. -/
def Whole (line : Text) : Prop := ∀ c ∈ line, Mailboxes.isLineBreak c = false

instance (line : Text) : Decidable (Whole line) :=
  decidable_of_iff ((line.all fun c => !Mailboxes.isLineBreak c) = true) (by simp [Whole])

/-- The lines are read as these entries, one after another. -/
structure Reads (world : World) (lines : List Text) (entries : List Entry) : Prop where
  whole : ∀ line ∈ lines, Whole line
  reads : ∀ result, lines.foldlM (readLine world) result = some (entries.foldl putEntry result)

section
variable {world : World} {lines more : List Text} {entries others : List Entry}

theorem Reads.append (h : Reads world lines entries) (h' : Reads world more others) :
    Reads world (lines ++ more) (entries ++ others) := by
  refine ⟨List.forall_mem_append.mpr ⟨h.whole, h'.whole⟩, fun result => ?_⟩
  rw [List.foldlM_append, h.reads result, List.foldl_append]
  exact h'.reads _

theorem reads_nil : Reads world [] [] := ⟨fun _ h => (List.not_mem_nil h).elim, fun _ => rfl⟩

theorem Reads.flatMap {α : Type} {items : List α} {f : α → List Text} {g : α → List Entry}
    (h : ∀ item ∈ items, Reads world (f item) (g item)) :
    Reads world (items.flatMap f) (items.flatMap g) := by
  induction items with
  | nil => exact reads_nil
  | cons item items ih =>
    rw [List.forall_mem_cons] at h
    exact h.1.append (ih h.2)

theorem reads_singleton {line : Text} {entry : Entry} (hwhole : Whole line)
    (h : ∀ result, readLine world result line = some (putEntry result entry)) :
    Reads world [line] [entry] := by
  refine ⟨List.forall_mem_singleton.mpr hwhole, fun result => ?_⟩
  rw [List.foldlM_cons, h result]
  rfl

/-- A line that does not match adds nothing. -/
theorem reads_other {line : Text} (hwhole : Whole line)
    (h : promLine (Text.strip Text.isSpace line) = none) : Reads world [line] [] := by
  refine ⟨List.forall_mem_singleton.mpr hwhole, fun result => ?_⟩
  rw [List.foldlM_cons, readLine, h]
  rfl

theorem reads_comment {line : Text} (hwhole : Whole line) (hhead : line.head? = some '#')
    (hlast : line.getLast?.any Text.isSpace = false) : Reads world [line] [] := by
  refine reads_other hwhole ?_
  rw [strip_of_ends (by rw [hhead]; rfl) hlast]
  obtain ⟨rest, rfl⟩ : ∃ rest, line = '#' :: rest := by
    cases line with
    | nil => cases hhead
    | cons c rest =>
      cases hhead
      exact ⟨rest, rfl⟩
  exact promLine_other rfl

/-- No id but these is read back. -/
structure Readable (id : Text) : Prop where
  nonempty : id ≠ []
  no_brace : '}' ∉ id
  whole : Whole id

theorem Readable.no_line_feed {id : Text} (h : Readable id) : '\n' ∉ id := fun hmem =>
  absurd (h.whole _ hmem) (by decide)

theorem not_mem_tunnelLabel {c : Char} {id : Text} (hopen : c ∉ "tunnel=\"".toList)
    (hslash : c ≠ '\\') (hid : c ∉ id) : c ∉ tunnelLabel id := by
  intro hmem
  unfold tunnelLabel at hmem
  rcases List.mem_append.mp hmem with hfront | hquote
  · rcases List.mem_append.mp hfront with hname | hvalue
    · exact hopen hname
    · exact (mem_esc hvalue).elim hid hslash
  · have hlast : '"' ∈ "tunnel=\"".toList := by decide
    exact hopen (List.mem_singleton.mp hquote ▸ hlast)

theorem whole_append {front back : Text} : Whole (front ++ back) ↔ Whole front ∧ Whole back :=
  List.forall_mem_append

theorem whole_tunnelLabel {id : Text} (h : Whole id) : Whole (tunnelLabel id) := by
  have hopen : Whole "tunnel=\"".toList := by decide
  have hesc : Whole (esc id) := by
    intro c hc
    rcases mem_esc hc with hid | rfl
    · exact h c hid
    · decide
  unfold tunnelLabel
  refine whole_append.mpr ⟨whole_append.mpr ⟨hopen, hesc⟩, ?_⟩
  decide

theorem whole_sample {name : String} {labels : Text} (hname : Whole name.toList)
    (hlabels : Whole labels) (n : Nat) : Whole (sample name labels n) := by
  have hdigits : Whole (Nat.toDigits 10 n) := by
    intro c hc
    by_contra hbreak
    have hspace := not_space_of_isDigit (digits_plain n c hc)
    rw [Bool.not_eq_false] at hbreak
    simp only [Mailboxes.isLineBreak, Bool.or_eq_true, Bool.and_eq_true, decide_eq_true_eq,
      beq_iff_eq] at hbreak
    simp only [Text.isSpace, Bool.or_eq_false_iff, Bool.and_eq_false_iff, decide_eq_false_iff_not,
      beq_eq_false_iff_ne] at hspace
    omega
  unfold sample
  refine whole_append.mpr ⟨whole_append.mpr ⟨hname, ?_⟩, ?_⟩
  · exact List.forall_mem_cons.mpr ⟨by decide, hlabels⟩
  · exact List.forall_mem_cons.mpr ⟨by decide, List.forall_mem_cons.mpr ⟨by decide, hdigits⟩⟩

theorem strip_tunnel_sample {name metric : String}
    (hname : name.toList = "mailcue_tunnel_".toList ++ metric.toList) (labels : Text) (n : Nat) :
    Text.strip Text.isSpace (sample name labels n) = sample name labels n := by
  have hcons : name.toList = 'm' :: ("ailcue_tunnel_".toList ++ metric.toList) := hname
  apply strip_sample
  · rw [hcons]
    rfl
  · rw [hcons]
    exact List.cons_ne_nil _ _

theorem readLine_of_promLine {line raw value id metric : Text} {labels : List (Text × Text)}
    {double : Double} (hstrip : Text.strip Text.isSpace line = line)
    (hline : promLine line = some (metric, raw, value))
    (hlabels : parsePrometheusLabels world.py.isWord raw = ("tunnel".toList, id) :: labels)
    (hid : id ≠ []) {kept : Text}
    (hkept : keptAs metric (("tunnel".toList, id) :: labels) = some kept)
    (hfloat : world.float value = some double) (result : Parsed) :
    readLine world result line = some (putEntry result (id, kept, double)) := by
  have hget : Dict.get (("tunnel".toList, id) :: labels) "tunnel".toList = some id := by
    rw [Dict.get_cons, if_pos rfl]
  unfold readLine
  rw [hstrip, hline]
  dsimp only
  rw [hlabels, hget]
  dsimp only
  rw [if_neg hid, hkept]
  dsimp only
  rw [hfloat]
  rfl

/-- The line of a tunnel, with its value. -/
theorem reads_sample {name metric : String} {id : Text} (hid : Readable id)
    (hname : name.toList = "mailcue_tunnel_".toList ++ metric.toList)
    (hmetric : metric ∈ ["up", "last_success_seconds", "inflight", "idle_connections"]) {n : Nat}
    (hn : n < 2 ^ 64) :
    Reads world [sample name (tunnelLabel id) n] [(id, metric.toList, .finite (toDouble n))] := by
  have hall : ∀ metric ∈ ["up", "last_success_seconds", "inflight", "idle_connections"],
      '{' ∉ metric.toList ∧ metric.toList ≠ "requests_total".toList ∧
        (metrics.map String.toList).contains metric.toList = true ∧
          Whole metric.toList := by decide
  obtain ⟨hbrace, hone, hcontained, hplain⟩ := hall metric hmetric
  have hwhole : Whole name.toList := by
    rw [hname]
    refine whole_append.mpr ⟨?_, hplain⟩
    decide
  have hlabels : '}' ∉ tunnelLabel id :=
    not_mem_tunnelLabel (by decide) (by decide) hid.no_brace
  have hline : promLine (sample name (tunnelLabel id) n) =
      some (metric.toList, tunnelLabel id, Nat.toDigits 10 n) := by
    rw [promLine_sample hname hbrace hlabels, if_pos hcontained]
  exact reads_singleton (whole_sample hwhole (whole_tunnelLabel hid.whole) n)
    (readLine_of_promLine (strip_tunnel_sample hname _ _) hline
      (parse_tunnelLabel hid.no_line_feed) hid.nonempty (if_neg hone) (world.float_toDigits n hn))

/-- The line of a tunnel and an outcome, with its value. -/
theorem reads_outcome {outcome : String} {id : Text} (hid : Readable id)
    (houtcome : outcome ∈ ["ok", "err"]) {n : Nat} (hn : n < 2 ^ 64) :
    Reads world
      [sample "mailcue_tunnel_requests_total" (tunnelLabel id ++ ',' :: outcomeLabel outcome) n]
      [(id, "requests_".toList ++ outcome.toList, .finite (toDouble n))] := by
  have hall : ∀ outcome ∈ ["ok", "err"], esc outcome.toList = outcome.toList ∧
      '\n' ∉ outcome.toList ∧ '}' ∉ ',' :: outcomeLabel outcome ∧
        (outcome.toList = "ok".toList ∨ outcome.toList = "err".toList) ∧
          Whole (',' :: outcomeLabel outcome) := by decide
  obtain ⟨hesc, hfeed, hbrace, hone, hplain⟩ := hall outcome houtcome
  have hwhole : Whole "mailcue_tunnel_requests_total".toList := by decide
  have hname : "mailcue_tunnel_requests_total".toList =
      "mailcue_tunnel_".toList ++ "requests_total".toList := by decide
  have hlabels : '}' ∉ tunnelLabel id ++ ',' :: outcomeLabel outcome := by
    rw [List.mem_append, not_or]
    exact ⟨not_mem_tunnelLabel (by decide) (by decide) hid.no_brace, hbrace⟩
  have hline : promLine (sample "mailcue_tunnel_requests_total"
      (tunnelLabel id ++ ',' :: outcomeLabel outcome) n) = some ("requests_total".toList,
        tunnelLabel id ++ ',' :: outcomeLabel outcome, Nat.toDigits 10 n) := by
    rw [promLine_sample hname (by decide) hlabels, if_pos (by decide)]
  have hget : Dict.get [("tunnel".toList, id), ("outcome".toList, outcome.toList)]
      "outcome".toList = some outcome.toList := by
    have hne : "tunnel".toList ≠ "outcome".toList := by decide
    rw [Dict.get_cons, if_neg hne, Dict.get_cons, if_pos rfl]
  have hkept : keptAs "requests_total".toList
      [("tunnel".toList, id), ("outcome".toList, outcome.toList)] =
        some ("requests_".toList ++ outcome.toList) := by
    unfold keptAs
    rw [if_pos rfl, hget]
    exact if_pos hone
  refine reads_singleton
    (whole_sample hwhole (whole_append.mpr ⟨whole_tunnelLabel hid.whole, hplain⟩) n) ?_
  exact (readLine_of_promLine (strip_tunnel_sample hname _ _) hline
    (parse_outcomeLabel hid.no_line_feed hesc hfeed) hid.nonempty hkept (world.float_toDigits n hn))

/-- The line of a metric that is not read. -/
theorem reads_bytes {id : Text} (hid : Readable id) (n : Nat) :
    Reads world [sample "mailcue_tunnel_bytes_total" (tunnelLabel id) n] [] := by
  have hname : "mailcue_tunnel_bytes_total".toList =
      "mailcue_tunnel_".toList ++ "bytes_total".toList := by decide
  have hlabels : '}' ∉ tunnelLabel id :=
    not_mem_tunnelLabel (by decide) (by decide) hid.no_brace
  have hwhole : Whole "mailcue_tunnel_bytes_total".toList := by decide
  refine reads_other (whole_sample hwhole (whole_tunnelLabel hid.whole) n) ?_
  rw [strip_tunnel_sample hname, promLine_sample hname (by decide) hlabels, if_neg (by decide)]

theorem reads_smtp {outcome : String} (houtcome : Whole (outcomeLabel outcome)) (n : Nat) :
    Reads world [sample "mailcue_smtp_messages_total" (outcomeLabel outcome) n] [] := by
  have hwhole : Whole "mailcue_smtp_messages_total".toList := by decide
  refine reads_other (whole_sample hwhole houtcome n) ?_
  rw [strip_sample (by decide) (by decide)]
  unfold sample
  rw [List.append_assoc]
  exact promLine_append (by decide) (by decide) _

end

/-! ## The whole text -/

namespace TunnelStatsSnapshot
variable (s : TunnelStatsSnapshot)

/-- The numbers of a tunnel under the names of their metrics. -/
def values : List (Text × Nat) :=
  [("up".toList, s.up), ("requests_ok".toList, s.requests_ok.toNat),
    ("requests_err".toList, s.requests_err.toNat),
    ("last_success_seconds".toList, (s.last_success.getD 0).toNat),
    ("inflight".toList, s.inflight.toNat), ("idle_connections".toList, s.idle.toNat)]

def entry (metric : String) (n : Nat) : Entry := (s.id, metric.toList, .finite (toDouble n))

end TunnelStatsSnapshot

/-- The entries in the order of their lines. -/
def entries (m : Snapshot) : List Entry :=
  m.tunnels.flatMap (fun s => [s.entry "up" s.up]) ++
  m.tunnels.flatMap (fun s =>
    [s.entry "requests_ok" s.requests_ok.toNat, s.entry "requests_err" s.requests_err.toNat]) ++
  m.tunnels.flatMap (fun s =>
    [s.entry "last_success_seconds" (s.last_success.getD 0).toNat]) ++
  m.tunnels.flatMap (fun s => [s.entry "inflight" s.inflight.toNat]) ++
  m.tunnels.flatMap (fun s => [s.entry "idle_connections" s.idle.toNat])

section
variable {world : World} {m : Snapshot}

theorem Reads.map {items : List TunnelStatsSnapshot} {f : TunnelStatsSnapshot → Text}
    {g : TunnelStatsSnapshot → List Entry} (h : ∀ s ∈ items, Reads world [f s] (g s)) :
    Reads world (items.map f) (items.flatMap g) := by
  rw [List.map_eq_flatMap]
  exact .flatMap h

theorem Reads.append_nothing {lines more : List Text} {entries : List Entry}
    (h : Reads world lines entries) (h' : Reads world more []) :
    Reads world (lines ++ more) entries := by
  have hboth := h.append h'
  rwa [List.append_nil] at hboth

theorem reads_comments {name help kind : String}
    (hwhole : ∀ line ∈ comments name help kind, Whole line)
    (hhelp : help.toList.getLast?.any (!Text.isSpace ·) = true)
    (hkind : kind.toList.getLast?.any (!Text.isSpace ·) = true) :
    Reads world (comments name help kind) [] := by
  have hlast {front : Text} {text : String}
      (h : text.toList.getLast?.any (!Text.isSpace ·) = true) :
      (front ++ ' ' :: text.toList).getLast?.any Text.isSpace = false := by
    cases hend : text.toList.getLast? with
    | none =>
      rw [hend] at h
      cases h
    | some c =>
      rw [hend] at h
      rw [List.getLast?_append, List.getLast?_cons, hend]
      simpa using h
  exact (reads_comment (hwhole _ (.head _)) rfl (hlast hhelp)).append_nothing
    (reads_comment (hwhole _ (.tail _ (.head _))) rfl (hlast hkind))

theorem up_lt (s : TunnelStatsSnapshot) : s.up < 2 ^ 64 := by
  unfold TunnelStatsSnapshot.up
  split
  · decide
  · decide

theorem reads_promLines (hids : ∀ s ∈ m.tunnels, Readable s.id) :
    Reads world (promLines m) (entries m) := by
  have hup : Reads world (m.tunnels.map (·.upLine))
      (m.tunnels.flatMap fun s => [s.entry "up" s.up]) :=
    .map fun s hs => reads_sample (hids s hs) (by decide) (by decide) (up_lt s)
  have hrequests : Reads world (m.tunnels.flatMap fun s => [s.okLine, s.errLine])
      (m.tunnels.flatMap fun s =>
        [s.entry "requests_ok" s.requests_ok.toNat, s.entry "requests_err" s.requests_err.toNat]) :=
    .flatMap fun s hs =>
      (reads_outcome (hids s hs) (by decide) s.requests_ok.toNat_lt).append
        (reads_outcome (hids s hs) (by decide) s.requests_err.toNat_lt)
  have hbytes : Reads world (m.tunnels.map (·.bytesLine m.bytes_total)) [] := by
    have hnone : Reads world (m.tunnels.map (·.bytesLine m.bytes_total))
        (m.tunnels.flatMap fun _ => []) := .map fun s hs => reads_bytes (hids s hs) _
    rwa [List.flatMap_eq_nil_iff.mpr fun _ _ => rfl] at hnone
  have hsuccess : Reads world (m.tunnels.map (·.lastSuccessLine))
      (m.tunnels.flatMap fun s =>
        [s.entry "last_success_seconds" (s.last_success.getD 0).toNat]) :=
    .map fun s hs => reads_sample (hids s hs) (by decide) (by decide) (UInt64.toNat_lt _)
  have hinflight : Reads world (m.tunnels.map (·.inflightLine))
      (m.tunnels.flatMap fun s => [s.entry "inflight" s.inflight.toNat]) :=
    .map fun s hs => reads_sample (hids s hs) (by decide) (by decide) (UInt64.toNat_lt _)
  have hidle : Reads world (m.tunnels.map (·.idleLine))
      (m.tunnels.flatMap fun s => [s.entry "idle_connections" s.idle.toNat]) :=
    .map fun s hs => reads_sample (hids s hs) (by decide) (by decide) (UInt64.toNat_lt _)
  have hclass : ∀ outcome ∈ ["2xx", "4xx", "5xx"], Whole (outcomeLabel outcome) := by decide
  have hsmtp : Reads world
      [sample "mailcue_smtp_messages_total" (outcomeLabel "2xx") m.smtp_2xx.toNat,
        sample "mailcue_smtp_messages_total" (outcomeLabel "4xx") m.smtp_4xx.toNat,
        sample "mailcue_smtp_messages_total" (outcomeLabel "5xx") m.smtp_5xx.toNat] [] :=
    (reads_smtp (hclass "2xx" (by decide)) _).append_nothing
      ((reads_smtp (hclass "4xx" (by decide)) _).append_nothing
        (reads_smtp (hclass "5xx" (by decide)) _))
  unfold promLines entries
  refine .append_nothing (.append_nothing ?_ ?_) hsmtp
  on_goal 2 => exact reads_comments (by decide) (by decide) (by decide)
  refine .append (.append_nothing ?_ ?_) hidle
  on_goal 2 => exact reads_comments (by decide) (by decide) (by decide)
  refine .append (.append_nothing ?_ ?_) hinflight
  on_goal 2 => exact reads_comments (by decide) (by decide) (by decide)
  refine .append (.append_nothing ?_ ?_) hsuccess
  on_goal 2 => exact reads_comments (by decide) (by decide) (by decide)
  refine .append_nothing (.append_nothing ?_ ?_) hbytes
  on_goal 2 => exact reads_comments (by decide) (by decide) (by decide)
  refine .append (.append_nothing ?_ ?_) hrequests
  on_goal 2 => exact reads_comments (by decide) (by decide) (by decide)
  exact (reads_comments (by decide) (by decide) (by decide)).append hup

theorem mem_entries {entry : Entry} :
    entry ∈ entries m ↔
      ∃ s ∈ m.tunnels, ∃ value ∈ s.values, entry = (s.id, value.1, .finite (toDouble value.2)) := by
  constructor
  · intro h
    simp only [entries, List.mem_append, List.mem_flatMap] at h
    rcases h with (((h | h) | h) | h) | h
    · obtain ⟨s, hs, hentry⟩ := h
      exact ⟨s, hs, _, .head _, List.mem_singleton.mp hentry⟩
    · obtain ⟨s, hs, hentry⟩ := h
      rcases List.mem_pair.mp hentry with rfl | rfl
      · exact ⟨s, hs, _, .tail _ (.head _), rfl⟩
      · exact ⟨s, hs, _, .tail _ (.tail _ (.head _)), rfl⟩
    · obtain ⟨s, hs, hentry⟩ := h
      exact ⟨s, hs, _, .tail _ (.tail _ (.tail _ (.head _))), List.mem_singleton.mp hentry⟩
    · obtain ⟨s, hs, hentry⟩ := h
      exact ⟨s, hs, _, .tail _ (.tail _ (.tail _ (.tail _ (.head _)))),
        List.mem_singleton.mp hentry⟩
    · obtain ⟨s, hs, hentry⟩ := h
      exact ⟨s, hs, _, .tail _ (.tail _ (.tail _ (.tail _ (.tail _ (.head _))))),
        List.mem_singleton.mp hentry⟩
  · rintro ⟨s, hs, value, hvalue, rfl⟩
    simp only [entries, List.mem_append, List.mem_flatMap]
    simp only [TunnelStatsSnapshot.values, List.mem_cons, List.not_mem_nil, or_false] at hvalue
    rcases hvalue with rfl | rfl | rfl | rfl | rfl | rfl
    · exact .inl (.inl (.inl (.inl ⟨s, hs, List.mem_singleton_self _⟩)))
    · exact .inl (.inl (.inl (.inr ⟨s, hs, .head _⟩)))
    · exact .inl (.inl (.inl (.inr ⟨s, hs, .tail _ (.head _)⟩)))
    · exact .inl (.inl (.inr ⟨s, hs, List.mem_singleton_self _⟩))
    · exact .inl (.inr ⟨s, hs, List.mem_singleton_self _⟩)
    · exact .inr ⟨s, hs, List.mem_singleton_self _⟩

end

/-! ## Its lines -/

theorem crlfAsOne_of_not_mem {body : Text} (h : '\r' ∉ body) : crlfAsOne body = body := by
  induction body with
  | nil => rfl
  | cons c body ih =>
    rw [List.mem_cons, not_or] at h
    rw [crlfAsOne, ih h.2]
    exact fun _ hc _ => h.1 hc.symm

theorem splitlines_ended {lines : List Text} (h : ∀ line ∈ lines, Whole line) :
    splitlines (lines.flatMap (· ++ ['\n'])) = lines := by
  have hcr : '\r' ∉ lines.flatMap (· ++ ['\n']) := by
    intro hmem
    obtain ⟨line, hline, hmem⟩ := List.mem_flatMap.mp hmem
    rcases List.mem_append.mp hmem with hmem | hmem
    · exact absurd (h line hline _ hmem) (by decide)
    · exact absurd (List.mem_singleton.mp hmem) (by decide)
  have hended : ∀ line ∈ lines.map (· ++ ['\n']), Lines.Ended Mailboxes.isLineBreak line := by
    intro ended hmem
    obtain ⟨line, hline, rfl⟩ := List.mem_map.mp hmem
    exact ⟨line, '\n', rfl, by decide, h line hline⟩
  have hlines : Lines.AreLines Mailboxes.isLineBreak (lines.map (· ++ ['\n'])) :=
    ⟨fun line hline => .inl (hended line hline),
      List.pairwise_of_forall_mem_list fun line hline _ _ => hended line hline⟩
  rw [splitlines, crlfAsOne_of_not_mem hcr, List.flatMap_def, Lines.splitLines_flatten hlines,
    List.map_map]
  refine (List.map_congr_left fun line hline => ?_).trans (List.map_id _)
  have hplain : ∀ c ∈ line, (!Mailboxes.isLineBreak c) = true := fun c hc => by
    rw [h line hline c hc]
    rfl
  show (line ++ ['\n']).takeWhile _ = line
  rw [List.takeWhile_append_of_pos hplain, List.takeWhile_cons_of_neg (by decide), List.append_nil]

theorem whole_of_mem_splitlines {body line : Text} (h : line ∈ splitlines body) : Whole line := by
  obtain ⟨ended, _, rfl⟩ := List.mem_map.mp h
  intro c hc
  simpa using List.mem_takeWhile_imp hc

/-! ## Its entries -/

/-- The entries of one tunnel. -/
def ofTunnel (id : Text) (entries : List Entry) : List (Text × Double) :=
  (entries.filter fun entry => decide (entry.1 = id)).map Prod.snd

theorem get_foldl_putEntry (entries : List Entry) (id : Text) :
    Dict.get (entries.foldl putEntry []) id =
      if ofTunnel id entries = [] then none else some (Dict.update [] (ofTunnel id entries)) := by
  induction entries using List.reverseRecOn with
  | nil => rfl
  | append_singleton entries entry ih =>
    have hold : (Dict.get (entries.foldl putEntry []) id).getD [] =
        Dict.update [] (ofTunnel id entries) := by
      rw [ih]
      split
      · next hempty =>
        rw [hempty]
        rfl
      · rfl
    rw [List.foldl_append, List.foldl_cons, List.foldl_nil, putEntry, put, Dict.get_set]
    by_cases hid : entry.1 = id
    · have hmore : ofTunnel id (entries ++ [entry]) = ofTunnel id entries ++ [entry.2] := by
        simp [ofTunnel, hid]
      rw [if_pos hid, hid, hold, hmore, if_neg (by simp), Dict.update_append]
      rfl
    · have hsame : ofTunnel id (entries ++ [entry]) = ofTunnel id entries := by
        simp [ofTunnel, hid]
      rw [if_neg hid, ih, hsame]

theorem ofTunnel_flatMap {f : TunnelStatsSnapshot → List Entry}
    (hf : ∀ t, ∀ entry ∈ f t, entry.1 = t.id) {tunnels : List TunnelStatsSnapshot}
    (hnodup : (tunnels.map TunnelStatsSnapshot.id).Nodup) {s : TunnelStatsSnapshot}
    (hs : s ∈ tunnels) : ofTunnel s.id (tunnels.flatMap f) = (f s).map Prod.snd := by
  have hother : ∀ t, t.id ≠ s.id → ofTunnel s.id (f t) = [] := by
    intro t hne
    refine List.map_eq_nil_iff.mpr (List.filter_eq_nil_iff.mpr fun entry hentry => ?_)
    rw [hf t entry hentry]
    simpa using hne
  have hown : ofTunnel s.id (f s) = (f s).map Prod.snd := by
    refine congrArg (List.map Prod.snd) (List.filter_eq_self.mpr fun entry hentry => ?_)
    simpa using hf s entry hentry
  have happend (front back : List Entry) :
      ofTunnel s.id (front ++ back) = ofTunnel s.id front ++ ofTunnel s.id back := by
    simp [ofTunnel]
  induction tunnels with
  | nil => cases hs
  | cons t tunnels ih =>
    rw [List.map_cons, List.nodup_cons] at hnodup
    rw [List.flatMap_cons, happend]
    rcases List.mem_cons.mp hs with rfl | hs
    · have hrest : ofTunnel s.id (tunnels.flatMap f) = [] := by
        refine List.map_eq_nil_iff.mpr (List.filter_eq_nil_iff.mpr fun entry hentry => ?_)
        obtain ⟨t, ht, hentry⟩ := List.mem_flatMap.mp hentry
        rw [hf t entry hentry, decide_eq_true_eq]
        exact fun heq => hnodup.1 (heq ▸ List.mem_map_of_mem ht)
      rw [hown, hrest, List.append_nil]
    · have hne : t.id ≠ s.id := fun heq => hnodup.1 (heq ▸ List.mem_map_of_mem hs)
      rw [hother t hne, ih hnodup.2 hs]
      rfl

section
variable {m : Snapshot}

theorem ofTunnel_entries {s : TunnelStatsSnapshot} (hs : s ∈ m.tunnels) :
    ofTunnel s.id (entries m) = s.values.map (Prod.map id fun n => .finite (toDouble n)) := by
  have happend (front back : List Entry) :
      ofTunnel s.id (front ++ back) = ofTunnel s.id front ++ ofTunnel s.id back := by
    simp [ofTunnel]
  have hone (metric : String) (f : TunnelStatsSnapshot → Nat) :
      ofTunnel s.id (m.tunnels.flatMap fun s => [s.entry metric (f s)]) =
        [(metric.toList, .finite (toDouble (f s)))] :=
    ofTunnel_flatMap (fun t entry hentry => by rw [List.mem_singleton.mp hentry]; rfl) m.nodup hs
  have htwo : ofTunnel s.id (m.tunnels.flatMap fun s =>
      [s.entry "requests_ok" s.requests_ok.toNat, s.entry "requests_err" s.requests_err.toNat]) =
        [("requests_ok".toList, .finite (toDouble s.requests_ok.toNat)),
          ("requests_err".toList, .finite (toDouble s.requests_err.toNat))] := by
    refine ofTunnel_flatMap (fun t entry hentry => ?_) m.nodup hs
    rcases List.mem_pair.mp hentry with rfl | rfl
    · rfl
    · rfl
  unfold entries
  rw [happend, happend, happend, happend, hone, hone, hone, hone, htwo]
  rfl

theorem ofTunnel_other {id : Text} (h : ∀ s ∈ m.tunnels, s.id ≠ id) :
    ofTunnel id (entries m) = [] := by
  refine List.map_eq_nil_iff.mpr (List.filter_eq_nil_iff.mpr fun entry hentry => ?_)
  obtain ⟨s, hs, value, _, rfl⟩ := mem_entries.mp hentry
  simpa using h s hs

theorem nodup_values (s : TunnelStatsSnapshot) : (s.values.map Prod.fst).Nodup := by
  show ["up".toList, "requests_ok".toList, "requests_err".toList, "last_success_seconds".toList,
    "inflight".toList, "idle_connections".toList].Nodup
  decide

/-- What is read of ids that can be: the numbers of each tunnel as doubles. -/
theorem parseSidecarMetrics_promMetrics (world : World)
    (hids : ∀ s ∈ m.tunnels, Readable s.id) :
    ∃ parsed, parseSidecarMetrics world (promMetrics m) = some parsed ∧
      (∀ id, (∀ s ∈ m.tunnels, s.id ≠ id) → Dict.get parsed id = none) ∧
      ∀ s ∈ m.tunnels, Dict.get parsed s.id =
        some (s.values.map (Prod.map id fun n => .finite (toDouble n))) := by
  have hreads : Reads world (promLines m) (entries m) := reads_promLines hids
  refine ⟨(entries m).foldl putEntry [], ?_, ?_, ?_⟩
  · rw [parseSidecarMetrics, promMetrics, splitlines_ended hreads.whole]
    exact hreads.reads []
  · intro id hother
    rw [get_foldl_putEntry, if_pos (ofTunnel_other hother)]
  · intro s hs
    have hkeys : ((s.values.map (Prod.map (fun key => key) fun n =>
        Double.finite (toDouble n))).map Prod.fst).Nodup := by
      rw [List.map_map]
      exact nodup_values s
    rw [get_foldl_putEntry, ofTunnel_entries hs]
    exact (if_neg (List.cons_ne_nil _ _)).trans (congrArg some (Dict.update_nil hkeys))

end

/-! ## Ids that are read -/

theorem mem_of_quoted {text value after : Text} (h : quoted text = some (value, after)) :
    ∀ c ∈ value, c ∈ text := by
  induction text using quoted.induct generalizing value after with
  | case1 => cases h
  | case2 rest =>
    rw [quoted] at h
    cases h
    exact fun c hc => (List.not_mem_nil hc).elim
  | case3 c hquote => simp [quoted] at h
  | case4 c d rest hquote ihpair ihone =>
    rw [quoted] at h
    · rcases Option.or_eq_some_iff.mp h with hpair | ⟨_, hone⟩
      · split at hpair
        · obtain ⟨found, hfound, heq⟩ := Option.map_eq_some_iff.mp hpair
          cases heq
          intro e he
          rcases List.mem_cons.mp he with rfl | he
          · exact List.mem_cons_self
          · rcases List.mem_cons.mp he with rfl | he
            · exact List.mem_cons_of_mem _ List.mem_cons_self
            · exact List.mem_cons_of_mem _ (List.mem_cons_of_mem _ (ihpair hfound e he))
        · cases hpair
      · obtain ⟨found, hfound, heq⟩ := Option.map_eq_some_iff.mp hone
        cases heq
        intro e he
        rcases List.mem_cons.mp he with rfl | he
        · exact List.mem_cons_self
        · exact List.mem_cons_of_mem _ (ihone hfound e he)
    · exact hquote

theorem mem_of_labelAt {isWord : Char → Bool} {text name value after : Text}
    (h : labelAt isWord text = some (name, value, after)) : ∀ c ∈ value, c ∈ text := by
  unfold labelAt at h
  dsimp only at h
  split at h
  · cases h
  · split at h
    · next rest hrest =>
      obtain ⟨found, hfound, heq⟩ := Option.map_eq_some_iff.mp h
      cases heq
      intro c hc
      have hmem : c ∈ text.drop (text.takeWhile isWord).length := by
        rw [hrest]
        exact List.mem_cons_of_mem _ (List.mem_cons_of_mem _ (mem_of_quoted hfound c hc))
      exact List.mem_of_mem_drop hmem
    · cases h

theorem mem_of_labelPairs {isWord : Char → Bool} {skip : Nat} {text : Text} {pair : Text × Text}
    (h : pair ∈ labelPairs isWord skip text) : ∀ c ∈ pair.2, c ∈ text := by
  induction text generalizing skip with
  | nil =>
    rw [labelPairs] at h
    cases h
  | cons d text ih =>
    cases skip with
    | zero =>
      rw [labelPairs] at h
      split at h
      · next hat =>
        rcases List.mem_cons.mp h with rfl | h
        · exact mem_of_labelAt hat
        · exact fun c hc => List.mem_cons_of_mem _ (ih h c hc)
      · exact fun c hc => List.mem_cons_of_mem _ (ih h c hc)
    | succ skip =>
      rw [labelPairs] at h
      exact fun c hc => List.mem_cons_of_mem _ (ih h c hc)

theorem mem_replacePair {a b c d : Char} {text : Text} (h : d ∈ replacePair a b c text) :
    d ∈ text ∨ d = c := by
  induction text using replacePair.induct (a := a) (b := b) with
  | case1 => cases h
  | case2 e => exact .inl h
  | case3 e f rest hpair ih =>
    rw [replacePair, if_pos hpair] at h
    rcases List.mem_cons.mp h with rfl | h
    · exact .inr rfl
    · rcases ih h with h | h
      · exact .inl (List.mem_cons_of_mem _ (List.mem_cons_of_mem _ h))
      · exact .inr h
  | case4 e f rest hpair ih =>
    rw [replacePair, if_neg hpair] at h
    rcases List.mem_cons.mp h with rfl | h
    · exact .inl List.mem_cons_self
    · rcases ih h with h | h
      · exact .inl (List.mem_cons_of_mem _ h)
      · exact .inr h

theorem mem_unescape {c : Char} {value : Text} (h : c ∈ unescape value) :
    c ∈ value ∨ c = '"' ∨ c = '\\' := by
  rcases mem_replacePair h with h | h
  · rcases mem_replacePair h with h | h
    · exact .inl h
    · exact .inr (.inl h)
  · exact .inr (.inr h)

theorem mem_of_get_labels {isWord : Char → Bool} {raw name value : Text}
    (h : Dict.get (parsePrometheusLabels isWord raw) name = some value) :
    ∀ c ∈ value, c ∈ raw ∨ c = '"' ∨ c = '\\' := by
  rw [parsePrometheusLabels, Dict.get_update, Dict.get_nil, Option.or_none] at h
  obtain ⟨pair, hpair, heq⟩ := List.mem_map.mp (List.mem_reverse.mp (Dict.mem_of_get h))
  cases heq
  intro c hc
  rcases mem_unescape hc with hc | hc
  · exact .inl (mem_of_labelPairs hpair c hc)
  · exact .inr hc

theorem mem_of_promLine {line metric raw value : Text}
    (h : promLine line = some (metric, raw, value)) : (∀ c ∈ raw, c ∈ line) ∧ '}' ∉ raw := by
  unfold promLine at h
  split at h
  · dsimp only at h
    split at h
    · cases h
      constructor
      · intro c hc
        exact List.mem_of_mem_drop (List.mem_of_mem_drop ((List.takeWhile_prefix _).subset hc))
      · intro hbrace
        exact absurd (List.mem_takeWhile_imp hbrace) (by decide)
    · cases h
  · cases h

section
variable {world : World}

theorem readable_of_readLine {result next : Parsed} {line : Text} (hwhole : Whole line)
    (hresult : ∀ id ∈ result.map Prod.fst, Readable id)
    (h : readLine world result line = some next) : ∀ id ∈ next.map Prod.fst, Readable id := by
  unfold readLine at h
  split at h
  · cases h
    exact hresult
  · next metric raw value hline =>
    dsimp only at h
    split at h
    · cases h
      exact hresult
    · next tunnel_id htunnel =>
      split at h
      · cases h
        exact hresult
      · next hnonempty =>
        split at h
        · cases h
          exact hresult
        · obtain ⟨double, _, rfl⟩ := Option.map_eq_some_iff.mp h
          obtain ⟨hraw, hbrace⟩ := mem_of_promLine hline
          have hmem := mem_of_get_labels htunnel
          intro id hid
          rcases Dict.mem_keys_set.mp hid with hid | rfl
          · exact hresult id hid
          · refine ⟨hnonempty, fun hmem' => ?_, fun c hc => ?_⟩
            · rcases hmem _ hmem' with hmem' | hmem' | hmem'
              · exact hbrace hmem'
              · exact absurd hmem' (by decide)
              · exact absurd hmem' (by decide)
            · rcases hmem c hc with hc | rfl | rfl
              · exact hwhole c (( Text.strip_infix _ line).subset (hraw c hc))
              · decide
              · decide

/-- Whatever is read, no other id is among what is found. -/
theorem readable_of_parse {body : Text} {parsed : Parsed}
    (h : parseSidecarMetrics world body = some parsed) :
    ∀ id ∈ parsed.map Prod.fst, Readable id := by
  have hlines {lines : List Text} (hwhole : ∀ line ∈ lines, Whole line) (result : Parsed)
      (hresult : ∀ id ∈ result.map Prod.fst, Readable id)
      (hread : lines.foldlM (readLine world) result = some parsed) :
      ∀ id ∈ parsed.map Prod.fst, Readable id := by
    induction lines generalizing result with
    | nil =>
      cases hread
      exact hresult
    | cons line lines ih =>
      rw [List.forall_mem_cons] at hwhole
      rw [List.foldlM_cons] at hread
      obtain ⟨next, hnext, hread⟩ := Option.bind_eq_some_iff.mp hread
      exact ih hwhole.2 next (readable_of_readLine hwhole.1 hresult hnext) hread
  exact hlines (fun _ => whole_of_mem_splitlines) [] (fun _ h => (List.not_mem_nil h).elim) h

end

/-! ## The round trip -/

/-- The number is a double: it has 53 binary digits and zeros behind them. -/
def Exact (n : Nat) : Prop := 2 ^ (n.log2 - 52) ∣ n

instance (n : Nat) : Decidable (Exact n) := inferInstanceAs (Decidable (_ ∣ _))

theorem toDouble_eq_iff (n : Nat) : toDouble n = n ↔ Exact n := by
  have hpos : (2 ^ (n.log2 - 52) : ℚ) ≠ 0 := by positivity
  constructor
  · intro h
    unfold toDouble at h
    have hint : Rounding.roundHalfEven ((n : ℚ) / 2 ^ (n.log2 - 52)) * 2 ^ (n.log2 - 52) =
        (n : Int) := by exact_mod_cast h
    exact Int.natCast_dvd_natCast.mp ⟨_, by rw [← hint, mul_comm]; rfl⟩
  · rintro ⟨q, hq⟩
    have hquotient : (n : ℚ) / 2 ^ (n.log2 - 52) = (q : ℚ) := by
      rw [div_eq_iff hpos, mul_comm]
      exact_mod_cast hq
    rw [toDouble, hquotient, Rounding.roundHalfEven_natCast, Int.cast_natCast, mul_comm]
    exact_mod_cast hq.symm

/-- What is printed is read back: the numbers of each tunnel under its id, and nothing else. -/
def RoundTrips (world : World) (m : Snapshot) : Prop :=
  ∃ parsed, parseSidecarMetrics world (promMetrics m) = some parsed ∧
    (∀ id, (∀ s ∈ m.tunnels, s.id ≠ id) → Dict.get parsed id = none) ∧
    ∀ s ∈ m.tunnels, ∃ stat, Dict.get parsed s.id = some stat ∧
      ∀ metric, Dict.get stat metric = (Dict.get s.values metric).map fun n => .finite n

theorem roundTrips_iff (world : World) (m : Snapshot) :
    RoundTrips world m ↔
      ∀ s ∈ m.tunnels, Readable s.id ∧ ∀ value ∈ s.values, Exact value.2 := by
  constructor
  · rintro ⟨parsed, hparsed, _, hstats⟩
    have hids : ∀ s ∈ m.tunnels, Readable s.id := by
      intro s hs
      obtain ⟨stat, hstat, _⟩ := hstats s hs
      exact readable_of_parse hparsed _ (List.mem_map_of_mem (Dict.mem_of_get hstat))
    intro s hs
    refine ⟨hids s hs, fun value hvalue => ?_⟩
    obtain ⟨same, hsame, _, hread⟩ := parseSidecarMetrics_promMetrics world hids
    cases hsame.symm.trans hparsed
    obtain ⟨stat, hstat, hvalues⟩ := hstats s hs
    cases (hread s hs).symm.trans hstat
    have hget := Dict.get_of_nodup (nodup_values s) hvalue
    have hdouble := hvalues value.1
    rw [Dict.get_map, hget] at hdouble
    have hfinite : Double.finite (toDouble value.2) = .finite value.2 := Option.some.inj hdouble
    exact (toDouble_eq_iff value.2).mp (Double.finite.inj hfinite)
  · intro h
    obtain ⟨parsed, hparsed, hother, hread⟩ :=
      parseSidecarMetrics_promMetrics world fun s hs => (h s hs).1
    refine ⟨parsed, hparsed, hother, fun s hs => ⟨_, hread s hs, fun metric => ?_⟩⟩
    rw [Dict.get_map]
    cases hget : Dict.get s.values metric with
    | none => rfl
    | some n =>
      have hexact := (h s hs).2 _ (Dict.mem_of_get hget)
      rw [Option.map_some, Option.map_some, (toDouble_eq_iff n).mpr hexact]

/-- `float` of digits. -/
def readDigits (text : Text) : Option Double :=
  if text ≠ [] ∧ text.all Char.isDigit then
    some (.finite (toDouble (Nat.ofDigitChars 10 text 0)))
  else none

theorem readDigits_toDigits (n : Nat) :
    readDigits (Nat.toDigits 10 n) = some (.finite (toDouble n)) := by
  have hdigits : (Nat.toDigits 10 n).all Char.isDigit = true :=
    List.all_eq_true.mpr (digits_plain n)
  rw [readDigits, if_pos ⟨Nat.toDigits_ne_nil, hdigits⟩, Nat.ofDigitChars_ten_toDigits]

def asciiWorld : World := ⟨.asciiOnly, readDigits, fun n _ => readDigits_toDigits n⟩

/-- A healthy tunnel with a brace in its id. -/
def braced : Snapshot where
  tunnels := [⟨"a\x7db".toList, true, 1, 0, 2, 0, some 1700000000⟩]
  nodup := List.nodup_singleton _
  bytes_total _ := 0
  smtp_2xx := 2
  smtp_4xx := 0
  smtp_5xx := 0

theorem braced_not_read : ¬RoundTrips asciiWorld braced := by
  rintro ⟨parsed, hparsed, _, hstats⟩
  obtain ⟨stat, hstat, _⟩ := hstats _ (.head _)
  have hreadable := readable_of_parse hparsed _ (List.mem_map_of_mem (Dict.mem_of_get hstat))
  have hbrace : '}' ∈ "a\x7db".toList := by decide
  exact hreadable.no_brace hbrace

end MailCue.Backend.Tunnels.Metrics
