import MailCue.Tunnel.Edge.ReplyParsing

/-!
# When replies are read exactly

The reader goes through the continuation lines of one code and stops at the first other
line. What it returns is set against the replies of RFC 5321: it panics, accepts more and
accepts less than those, each on streams of its own kind.
-/
namespace MailCue.Tunnel.Edge.SmtpClient
open MailCue.Lib

/-! ## The run of the loop -/

/-- A line the reader goes on behind, and one it returns at. -/
def Continues (code : UInt16) (line : Text) : Prop := ∃ tail, Coded code '-' tail line

def Ends (code : UInt16) (line : Text) : Prop := ∃ tail, Coded code ' ' tail line

/-- What is kept of a line. -/
def lineText (line : Text) : Text := trimLineEnd (line.drop 4)

def gather (text : Text) (lines : List Text) : Text :=
  lines.foldl (fun text line => pushLine text (lineText line)) text

/-- The code to agree with behind these lines. -/
def after (prev : Option UInt16) (code : UInt16) (lines : List Text) : Option UInt16 :=
  if lines = [] then prev else some code

theorem Coded.lineText_eq {code : UInt16} {sep : Char} {tail line : Text}
    (h : Coded code sep tail line) : lineText line = trimLineEnd tail := by
  obtain ⟨field, hlength, -, rfl⟩ := h
  rw [lineText, List.append_cons, List.drop_left' (by simp [hlength])]

theorem agrees_some_iff {code code' : UInt16} : Agrees (some code) code' ↔ code' = code := by
  rw [Agrees, Option.filter_some]
  by_cases h : code' = code
  · simp [h]
  · simp [h, Ne.symm h]

theorem agrees_none (code : UInt16) : Agrees none code := rfl

theorem gather_concat (text : Text) (lines : List Text) (line : Text) :
    gather text (lines ++ [line]) = pushLine (gather text lines) (lineText line) :=
  List.foldl_append

theorem after_some (code : UInt16) (lines : List Text) : after (some code) code lines = some code :=
  ite_self _

section Run
variable {debugStr : String → String}

theorem readReplyLoop_mids {code : UInt16} {mids : List Text}
    (hmids : ∀ m ∈ mids, Continues code m) (reads : List (Except String Text))
    {prev : Option UInt16} (hprev : mids ≠ [] → Agrees prev code) (text : Text) :
    readReplyLoop debugStr prev text (mids.map .ok ++ reads) =
      readReplyLoop debugStr (after prev code mids) (gather text mids) reads := by
  induction mids generalizing prev text with
  | nil => rfl
  | cons m mids ih =>
    obtain ⟨⟨tail, hm⟩, hmids⟩ := List.forall_mem_cons.mp hmids
    have hmore : readReplyLine debugStr prev m = .more code (lineText m) :=
      readReplyLine_more_iff.mpr ⟨hprev (List.cons_ne_nil _ _), tail, hm, hm.lineText_eq⟩
    rw [List.map_cons, List.cons_append, readReplyLoop, hmore]
    dsimp only
    rw [ih hmids fun _ => agrees_some_iff.mpr rfl, after_some]
    rfl

/-- The lines up to the one at which the reader stops. -/
theorem exists_stop (debugStr : String → String) (prev : Option UInt16)
    (reads : List (Except String Text)) :
    ∃ (code : UInt16) (mids : List Text) (rest : List (Except String Text)),
      reads = mids.map .ok ++ rest ∧ (mids ≠ [] → Agrees prev code) ∧
      (∀ m ∈ mids, Continues code m) ∧
      ∀ line, rest.head? = some (.ok line) →
        ∀ code' text, readReplyLine debugStr (after prev code mids) line ≠ .more code' text := by
  induction reads generalizing prev with
  | nil => exact ⟨0, [], [], rfl, nofun, nofun, nofun⟩
  | cons read reads ih =>
    cases read with
    | error e => exact ⟨0, [], _, rfl, nofun, nofun, nofun⟩
    | ok line =>
      by_cases hmore : ∃ code text, readReplyLine debugStr prev line = .more code text
      · obtain ⟨code, text, hline⟩ := hmore
        obtain ⟨hagrees, tail, hcoded, -⟩ := readReplyLine_more_iff.mp hline
        obtain ⟨code', mids, rest, rfl, hcodes, hmids, hstop⟩ := ih (some code)
        have hsame : mids ≠ [] → code' = code := fun hne => agrees_some_iff.mp (hcodes hne)
        refine ⟨code, line :: mids, rest, rfl, fun _ => hagrees, ?_, ?_⟩
        · refine List.forall_mem_cons.mpr ⟨⟨tail, hcoded⟩, fun m hm => ?_⟩
          rw [← hsame (List.ne_nil_of_mem hm)]
          exact hmids m hm
        · have hafter : after (some code) code' mids = after prev code (line :: mids) := by
            unfold after
            split
            · rfl
            · rename_i hne
              rw [hsame hne, if_neg (List.cons_ne_nil _ _)]
          rwa [hafter] at hstop
      · refine ⟨0, [], _, rfl, nofun, nofun, fun line' hhead code text hline => ?_⟩
        obtain rfl : line = line' := Except.ok.inj (Option.some.inj hhead)
        exact hmore ⟨code, text, hline⟩

/-- The loop as it stands where it stops. -/
theorem readReplyInner_stop (debugStr : String → String) (s : Stream) :
    ∃ (code : UInt16) (mids : List Text) (rest : List (Except String Text)),
      s.reads = mids.map .ok ++ rest ∧ (∀ m ∈ mids, Continues code m) ∧
      (∀ line, rest.head? = some (.ok line) → ∀ code' text,
        readReplyLine debugStr (after none code mids) line ≠ .more code' text) ∧
      readReplyInner debugStr s =
        readReplyLoop debugStr (after none code mids) (gather [] mids) rest := by
  obtain ⟨code, mids, rest, hreads, -, hmids, hstop⟩ := exists_stop debugStr none s.reads
  refine ⟨code, mids, rest, hreads, hmids, hstop, ?_⟩
  rw [readReplyInner, hreads]
  exact readReplyLoop_mids hmids rest (fun _ => agrees_none code) []

/-- The lines that are read in front of the line at which the loop is. -/
structure Reads (s : Stream) (code : UInt16) (mids : List Text) (line : Text) : Prop where
  front : (mids ++ [line]).map .ok <+: s.reads
  continued : ∀ m ∈ mids, Continues code m

theorem Reads.inner {s : Stream} {code : UInt16} {mids : List Text} {line : Text}
    (h : Reads s code mids line) : ∃ rest, readReplyInner debugStr s =
      readReplyLoop debugStr (after none code mids) (gather [] mids) (.ok line :: rest) := by
  obtain ⟨rest, hrest⟩ := h.front
  refine ⟨rest, ?_⟩
  rw [readReplyInner, ← hrest, List.map_append, List.append_assoc]
  exact readReplyLoop_mids h.continued _ (fun _ => agrees_none code) []

/-- Without an error the reader is done at a line: it panics there, or returns. -/
theorem readReplyInner_cases {s : Stream} (h : ∀ e, readReplyInner debugStr s ≠ .error e) :
    ∃ code mids line, Reads s code mids line ∧
      (readReplyLine debugStr (after none code mids) line = .panic ∧
          readReplyInner debugStr s = .panic ∨
        ∃ code' text, readReplyLine debugStr (after none code mids) line = .last code' text ∧
          readReplyInner debugStr s =
            .ok ⟨code', String.ofList (pushLine (gather [] mids) text)⟩) := by
  obtain ⟨code, mids, rest, hreads, hmids, hstop, hinner⟩ := readReplyInner_stop debugStr s
  match rest, hreads, hstop, hinner with
  | [], _, _, hinner => exact absurd hinner (h _)
  | .error e :: _, _, _, hinner => exact absurd hinner (h e)
  | .ok line :: rest, hreads, hstop, hinner =>
    refine ⟨code, mids, line, ⟨⟨rest, by simp [hreads]⟩, hmids⟩, ?_⟩
    rw [readReplyLoop] at hinner
    split at hinner
    · exact absurd hinner (h _)
    · rename_i hpanic
      exact .inl ⟨hpanic, hinner⟩
    · rename_i hmore
      exact absurd hmore (hstop line rfl _ _)
    · rename_i code' text hlast
      exact .inr ⟨code', text, hlast, hinner⟩

theorem readReplyInner_panic_iff {s : Stream} : readReplyInner debugStr s = .panic ↔
    ∃ code mids line, Reads s code mids line ∧ Panics (after none code mids) line := by
  constructor
  · intro h
    obtain ⟨code, mids, line, hreads, ⟨hline, -⟩ | ⟨code', text, -, hok⟩⟩ :=
      @readReplyInner_cases debugStr s (by simp [h])
    · exact ⟨code, mids, line, hreads, readReplyLine_panic_iff.mp hline⟩
    · rw [h] at hok
      cases hok
  · rintro ⟨code, mids, line, hreads, hpanics⟩
    obtain ⟨rest, hinner⟩ := hreads.inner
    rw [hinner, readReplyLoop, readReplyLine_panic_iff.mpr hpanics]

theorem agrees_after (code : UInt16) (mids : List Text) : Agrees (after none code mids) code := by
  unfold after
  split
  · exact agrees_none code
  · exact agrees_some_iff.mpr rfl

theorem readReplyInner_ok_iff {s : Stream} {reply : Reply} :
    readReplyInner debugStr s = .ok reply ↔ ∃ mids line, Reads s reply.code mids line ∧
      Ends reply.code line ∧ reply.text.toList = gather [] (mids ++ [line]) := by
  constructor
  · intro h
    obtain ⟨code, mids, line, hreads, ⟨-, hpanic⟩ | ⟨code', text, hlast, hok⟩⟩ :=
      @readReplyInner_cases debugStr s (by simp [h])
    · rw [h] at hpanic
      cases hpanic
    · cases h.symm.trans hok
      obtain ⟨hagrees, tail, hline, rfl⟩ := readReplyLine_last_iff.mp hlast
      have hcodes : ∀ m ∈ mids, Continues code' m := by
        intro m hm
        rw [after, if_neg (List.ne_nil_of_mem hm), agrees_some_iff] at hagrees
        rw [hagrees]
        exact hreads.continued m hm
      refine ⟨mids, line, ⟨hreads.front, hcodes⟩, ⟨tail, hline⟩, ?_⟩
      rw [String.toList_ofList, gather_concat, hline.lineText_eq]
  · rintro ⟨mids, line, hreads, ⟨tail, hline⟩, htext⟩
    obtain ⟨rest, hinner⟩ := @Reads.inner debugStr _ _ _ _ hreads
    rw [hinner, readReplyLoop,
      readReplyLine_last_iff.mpr ⟨agrees_after reply.code mids, tail, hline, rfl⟩]
    dsimp only
    rw [← hline.lineText_eq, ← gather_concat, ← htext, String.ofList_toList]

end Run

/-! ## Codes -/

theorem ThreeDigits.eq_of_parse {digits digits' : Text} (h : ThreeDigits digits)
    (h' : ThreeDigits digits') (hvalue : digitsValue digits = digitsValue digits') :
    digits = digits' := by
  obtain ⟨a, b, c, rfl⟩ := List.length_eq_three.mp h.1
  obtain ⟨a', b', c', rfl⟩ := List.length_eq_three.mp h'.1
  have hall := h.2
  have hall' := h'.2
  simp only [List.forall_mem_cons] at hall hall'
  have ha := digit_bounds hall.1
  have hb := digit_bounds hall.2.1
  have hc := digit_bounds hall.2.2.1
  have ha' := digit_bounds hall'.1
  have hb' := digit_bounds hall'.2.1
  have hc' := digit_bounds hall'.2.2.1
  simp only [digitsValue, List.foldl_cons, List.foldl_nil] at hvalue
  rw [Char.toNat_inj.mp (show a.toNat = a'.toNat by omega),
    Char.toNat_inj.mp (show b.toNat = b'.toNat by omega),
    Char.toNat_inj.mp (show c.toNat = c'.toNat by omega)]

/-- Three digits are read as their value. -/
theorem ThreeDigits.parse_iff {digits : Text} (h : ThreeDigits digits) (code : UInt16) :
    parseU16 digits = some code ↔ code.toNat = digitsValue digits := by
  have hall : digits.all Char.isDigit = true := List.all_eq_true.mpr h.2
  obtain ⟨a, b, c, rfl⟩ := List.length_eq_three.mp h.1
  have hsign : stripPlus [a, b, c] = [a, b, c] := by
    unfold stripPlus
    split
    · rename_i heq
      cases heq
      exact absurd (h.2 '+' List.mem_cons_self) (by decide)
    · rfl
  have hsmall : digitsValue [a, b, c] < 65536 := by
    have hbounds := h.2
    simp only [List.forall_mem_cons] at hbounds
    have ha := digit_bounds hbounds.1
    have hb := digit_bounds hbounds.2.1
    have hc := digit_bounds hbounds.2.2.1
    simp only [digitsValue, List.foldl_cons, List.foldl_nil]
    omega
  unfold parseU16
  rw [hsign]
  dsimp only
  rw [hall, if_neg (by simp), if_pos hsmall, Option.some.injEq, ← UInt16.toNat_inj,
    UInt16.toNat_ofNat', Nat.mod_eq_of_lt hsmall]
  exact eq_comm

/-! ## Lines of replies -/

theorem trimLineEnd_crlf {text : Text} (h : Unbroken text) : trimLineEnd (text ++ CRLF) = text := by
  have hdrop : trimLineEnd (text ++ CRLF) = trimLineEnd text := by
    rw [CRLF, List.append_cons, trimLineEnd, List.rdropWhile_concat_pos _ _ _ rfl,
      List.rdropWhile_concat_pos _ _ _ rfl]
    rfl
  rw [hdrop, trimLineEnd, List.rdropWhile_eq_self_iff]
  intro hne hlast
  simp only [Bool.or_eq_true, decide_eq_true_eq] at hlast
  rcases hlast with hcr | hlf
  · exact h.1 (hcr ▸ List.getLast_mem hne)
  · exact h.2 (hlf ▸ List.getLast_mem hne)

/-- Three digits, CRLF at the end and no other CR or LF. -/
def Faithful (line : Text) : Prop :=
  ∃ digits body, ThreeDigits digits ∧ Unbroken body ∧ line = digits ++ body ++ CRLF

theorem Faithful.terminated {line : Text} (h : Faithful line) : Terminated line := by
  obtain ⟨digits, body, hdigits, hbody, rfl⟩ := h
  refine ⟨digits ++ body ++ ['\r'], by simp [CRLF], fun hmem => ?_⟩
  rcases List.mem_append.mp hmem with hmem | hmem
  · rcases List.mem_append.mp hmem with hmem | hmem
    · exact absurd (hdigits.2 _ hmem) (by decide)
    · exact hbody.2 hmem
  · exact absurd (List.mem_singleton.mp hmem) (by decide)

/-- What stands between the code with its separator and the end of a line. -/
theorem Faithful.of_coded {line tail : Text} {code : UInt16} {sep : Char} (h : Faithful line)
    (hcoded : Coded code sep tail line) (hsep : sep ≠ '\r') :
    ∃ digits, ThreeDigits digits ∧ code.toNat = digitsValue digits ∧ Unbroken (lineText line) ∧
      line = digits ++ sep :: lineText line ++ CRLF := by
  have hline := hcoded.lineText_eq
  obtain ⟨digits, body, hdigits, hbody, rfl⟩ := h
  obtain ⟨field, hlength, hparse, heq⟩ := hcoded
  rw [List.append_assoc] at heq
  obtain ⟨rfl, hrest⟩ := List.append_inj heq (hdigits.1.trans hlength.symm)
  cases body with
  | nil => exact absurd (List.cons.inj hrest).1.symm hsep
  | cons c body =>
    obtain ⟨rfl, rfl⟩ := List.cons.inj hrest
    have htext : Unbroken body := (unbroken_cons.mp hbody).2
    have hkept : lineText (digits ++ c :: body ++ CRLF) = body :=
      hline.trans (trimLineEnd_crlf htext)
    rw [hkept]
    exact ⟨digits, hdigits, (hdigits.parse_iff code).mp hparse, htext, rfl⟩

/-- A line that is no continuation line of any code. -/
def Stops (line : Text) : Prop := ∀ code, ¬ Continues code line

theorem Ends.stops {code : UInt16} {line : Text} (h : Ends code line) : Stops line := by
  rintro code' ⟨tail', field', hlength', -, heq⟩
  obtain ⟨tail, field, hlength, -, rfl⟩ := h
  exact absurd (coded_unique (hlength.trans hlength'.symm) heq).2.1 (by decide)

/-- The code alone has CR where a separator would be. -/
theorem sep_of_bare {digits tail : Text} {code : UInt16} {sep : Char} (h : ThreeDigits digits)
    (hcoded : Coded code sep tail (digits ++ CRLF)) : sep = '\r' := by
  obtain ⟨field, hlength, -, heq⟩ := hcoded
  exact (coded_unique (h.1.trans hlength.symm) heq).2.1.symm

/-- The stop is at one line only. -/
theorem Reads.unique {s : Stream} {code code' : UInt16} {mids mids' : List Text}
    {line line' : Text} (h : Reads s code mids line) (h' : Reads s code' mids' line')
    (hstops : Stops line) (hstops' : Stops line') : mids = mids' ∧ line = line' := by
  have hshort : ∀ {code : UInt16} {mids mids' : List Text} {line line' : Text},
      (∀ m ∈ mids', Continues code m) → Stops line →
      (mids ++ [line]).map Except.ok <+: (mids' ++ [line']).map (@Except.ok String Text) →
      mids = mids' ∧ line = line' := by
    intro code mids mids' line line' hcontinued hline hprefix
    have hfront := (List.prefix_map_iff_of_injective fun _ _ => Except.ok.inj).mp hprefix
    rcases List.prefix_concat_iff.mp hfront with heq | hfront
    · obtain ⟨hmids, hlast⟩ := List.append_inj' heq rfl
      exact ⟨hmids, List.singleton_inj.mp hlast⟩
    · have hmem : line ∈ mids' :=
        hfront.subset (List.mem_append_right _ (List.mem_singleton_self line))
      exact absurd (hcontinued line hmem) (hline code)
  rcases List.prefix_or_prefix_of_prefix h.front h'.front with hprefix | hprefix
  · exact hshort h'.continued hstops hprefix
  · exact (hshort h.continued hstops' hprefix).imp Eq.symm Eq.symm

/-! ## The text of a reply -/

theorem intercalate_cons (first : Text) (rest : List Text) :
    List.intercalate ['\n'] (first :: rest) = first ++ rest.flatMap ('\n' :: ·) := by
  induction rest generalizing first with
  | nil => simp [List.intercalate]
  | cons next rest ih =>
    rw [List.flatMap_cons, List.cons_append, ← ih next]
    simp [List.intercalate, List.intersperse]

theorem foldl_pushLine {text : Text} (h : text ≠ []) (rest : List Text) :
    rest.foldl pushLine text = text ++ rest.flatMap ('\n' :: ·) := by
  induction rest generalizing text with
  | nil => simp
  | cons next rest ih =>
    have hpush : pushLine text next = text ++ '\n' :: next := by
      rw [pushLine, if_neg h, List.append_assoc]
      rfl
    rw [List.foldl_cons, hpush, ih (by simp), List.flatMap_cons]
    simp

/-- Texts without a line feed do not come out with one in front. -/
theorem foldl_pushLine_head {rest : List Text} (h : ∀ text ∈ rest, Unbroken text) :
    (rest.foldl pushLine []).head? ≠ some '\n' := by
  induction rest with
  | nil => exact nofun
  | cons next rest ih =>
    obtain ⟨hnext, hrest⟩ := List.forall_mem_cons.mp h
    have hpush : pushLine [] next = next := rfl
    rw [List.foldl_cons, hpush]
    cases next with
    | nil => exact ih hrest
    | cons c next =>
      rw [foldl_pushLine (List.cons_ne_nil _ _)]
      intro hhead
      refine hnext.2 ?_
      rw [← Option.some.inj hhead]
      exact List.mem_cons_self

/-- The reader's text is the joined one, unless the first of several lines has none. -/
theorem gathered_iff {first : Text} {rest : List Text} (h : ∀ text ∈ rest, Unbroken text) :
    (first :: rest).foldl pushLine [] = List.intercalate ['\n'] (first :: rest) ↔
      (first = [] → rest = []) := by
  have hpush : pushLine [] first = first := rfl
  rw [List.foldl_cons, hpush, intercalate_cons]
  constructor
  · rintro heq rfl
    cases rest with
    | nil => rfl
    | cons next rest =>
      refine absurd ?_ (foldl_pushLine_head h)
      rw [heq]
      rfl
  · intro hfirst
    by_cases hempty : first = []
    · rw [hfirst hempty, hempty]
      rfl
    · exact foldl_pushLine hempty rest

theorem gathered_single (text : Text) :
    [text].foldl pushLine [] = List.intercalate ['\n'] [text] :=
  (@gathered_iff text [] fun _ h => absurd h List.not_mem_nil).mpr fun _ => rfl

theorem gather_eq (lines : List Text) : gather [] lines = (lines.map lineText).foldl pushLine [] :=
  List.foldl_map.symm

/-- The text kept of these lines is the joined one, unless the first of several has none. -/
theorem gather_eq_intercalate_iff {mids : List Text} {line : Text}
    (h : ∀ l ∈ mids ++ [line], Unbroken (lineText l)) :
    gather [] (mids ++ [line]) = List.intercalate ['\n'] ((mids ++ [line]).map lineText) ↔
      ∀ first ∈ mids.head?, lineText first ≠ [] := by
  rw [gather_eq]
  cases mids with
  | nil => exact iff_of_true (gathered_single _) nofun
  | cons first mids =>
    have hrest : ∀ text ∈ (mids ++ [line]).map lineText, Unbroken text := by
      intro text htext
      obtain ⟨l, hl, rfl⟩ := List.mem_map.mp htext
      exact h l (List.mem_cons_of_mem _ hl)
    rw [List.cons_append, List.map_cons, gathered_iff hrest]
    constructor
    · rintro hfirst _ ⟨⟩ hempty
      exact absurd (hfirst hempty) (by simp)
    · exact fun hfirst hempty => absurd hempty (hfirst first rfl)

/-! ## The streams that are read exactly -/

/-- At the line where the reader stops no slice falls inside a character; a line that ends a
reply has, with those before it, three digits, CRLF and no other CR, and the first of
several has a text; no code alone follows such lines. -/
structure Clean (s : Stream) : Prop where
  sliced : ∀ code mids line, Reads s code mids line → ¬ Panics (after none code mids) line
  strict : ∀ code mids line, Reads s code mids line → Ends code line →
    (∀ l ∈ mids ++ [line], Faithful l) ∧ ∀ first ∈ mids.head?, lineText first ≠ []
  spaced : ∀ code mids line, Reads s code mids line → (∀ m ∈ mids, Faithful m) →
    ∀ digits, ThreeDigits digits → parseU16 digits = some code → line ≠ digits ++ CRLF

/-- Continuation lines of one code under strict lines are those of a reply. -/
theorem mids_eq {code : UInt16} {mids : List Text} {digits : Text} (hdigits : ThreeDigits digits)
    (hcode : code.toNat = digitsValue digits) (hcontinued : ∀ m ∈ mids, Continues code m)
    (hfaithful : ∀ m ∈ mids, Faithful m) :
    mids = (mids.map lineText).map (midLine digits) ∧ ∀ m ∈ mids, Unbroken (lineText m) := by
  have hline : ∀ m ∈ mids, m = midLine digits (lineText m) ∧ Unbroken (lineText m) := by
    intro m hm
    obtain ⟨tail, hcoded⟩ := hcontinued m hm
    obtain ⟨digits', hdigits', hcode', htext, heq⟩ := (hfaithful m hm).of_coded hcoded (by decide)
    obtain rfl := hdigits.eq_of_parse hdigits' (hcode.symm.trans hcode')
    exact ⟨heq, htext⟩
  constructor
  · rw [List.map_map]
    exact (List.map_id mids).symm.trans (List.map_congr_left fun m hm => (hline m hm).1)
  · exact fun m hm => (hline m hm).2

theorem lastLine_none (digits : Text) : lastLine digits none = digits ++ CRLF := by
  rw [lastLine, Option.elim_none, List.append_nil]

/-- The last line of a reply is no continuation line. -/
theorem lastLine_stops {digits : Text} (h : ThreeDigits digits) (last : Option Text) :
    Stops (lastLine digits last) := by
  rintro code ⟨tail, hcoded⟩
  cases last with
  | none =>
    rw [lastLine_none] at hcoded
    exact absurd (sep_of_bare h hcoded) (by decide)
  | some text =>
    obtain ⟨field, hlength, -, heq⟩ := hcoded
    rw [lastLine, List.append_assoc] at heq
    exact absurd (coded_unique (h.1.trans hlength.symm) heq).2.1 (by decide)

/-- The parts of a reply, the code as the reader parses it. -/
structure Parts (reply : Reply) (lines : List Text) (digits : Text) (texts : List Text)
    (last : Option Text) : Prop where
  three : ThreeDigits digits
  parsed : parseU16 digits = some reply.code
  unbroken : ∀ text ∈ texts, Unbroken text
  unbroken_last : ∀ text ∈ last, Unbroken text
  joined : reply.text.toList = List.intercalate ['\n'] (texts ++ [last.getD []])
  laid : lines = texts.map (midLine digits) ++ [lastLine digits last]

theorem IsReply.parts {reply : Reply} {lines : List Text} (h : IsReply reply lines) :
    ∃ digits texts last, Parts reply lines digits texts last := by
  obtain ⟨digits, texts, last, hdigits, htexts, hlast, hcode, htext, hlines⟩ := h
  have hparse := (hdigits.parse_iff reply.code).mpr hcode
  exact ⟨digits, texts, last, hdigits, hparse, htexts, hlast, htext, hlines⟩

namespace Parts
variable {reply : Reply} {lines : List Text} {digits : Text} {texts : List Text}
  {last : Option Text}

theorem coded (h : Parts reply lines digits texts last) (sep : Char) (text : Text) :
    Coded reply.code sep (text ++ CRLF) (digits ++ sep :: text ++ CRLF) :=
  ⟨digits, h.three.1, h.parsed, by simp⟩

theorem lineText_coded (h : Parts reply lines digits texts last) (sep : Char) {text : Text}
    (htext : Unbroken text) : lineText (digits ++ sep :: text ++ CRLF) = text :=
  (h.coded sep text).lineText_eq.trans (trimLineEnd_crlf htext)

theorem continued (h : Parts reply lines digits texts last) :
    ∀ m ∈ texts.map (midLine digits), Continues reply.code m := by
  intro m hm
  obtain ⟨text, -, rfl⟩ := List.mem_map.mp hm
  exact ⟨_, h.coded '-' text⟩

theorem faithful (h : Parts reply lines digits texts last) : ∀ l ∈ lines, Faithful l := by
  intro l hl
  rw [h.laid] at hl
  rcases List.mem_append.mp hl with hl | hl
  · obtain ⟨text, hmem, rfl⟩ := List.mem_map.mp hl
    have hbody : Unbroken ('-' :: text) := unbroken_cons.mpr ⟨by decide, h.unbroken text hmem⟩
    exact ⟨digits, '-' :: text, h.three, hbody, rfl⟩
  · rw [List.mem_singleton.mp hl]
    cases last with
    | none => exact ⟨digits, [], h.three, by decide, rfl⟩
    | some text =>
      have hbody : Unbroken (' ' :: text) :=
        unbroken_cons.mpr ⟨by decide, h.unbroken_last text rfl⟩
      exact ⟨digits, ' ' :: text, h.three, hbody, rfl⟩

/-- The reader keeps the texts. -/
theorem kept (h : Parts reply lines digits texts last) :
    lines.map lineText = texts ++ [last.getD []] := by
  have hmids : (texts.map (midLine digits)).map lineText = texts := by
    rw [List.map_map]
    refine (List.map_congr_left fun text hmem => ?_).trans (List.map_id texts)
    exact h.lineText_coded '-' (h.unbroken text hmem)
  have hlast : lineText (lastLine digits last) = last.getD [] := by
    cases last with
    | none =>
      rw [lastLine_none, lineText, CRLF, List.append_cons, List.drop_left' (by simp [h.three.1])]
      rfl
    | some text => exact h.lineText_coded ' ' (h.unbroken_last text rfl)
  rw [h.laid, List.map_append, hmids, List.map_singleton, hlast]

theorem kept_unbroken (h : Parts reply lines digits texts last) :
    ∀ l ∈ lines, Unbroken (lineText l) := by
  intro l hl
  have hmem : lineText l ∈ texts ++ [last.getD []] := h.kept ▸ List.mem_map_of_mem hl
  rcases List.mem_append.mp hmem with hmem | hmem
  · exact h.unbroken _ hmem
  · rw [List.mem_singleton.mp hmem]
    cases last with
    | none => decide
    | some text => exact h.unbroken_last text rfl

/-- A reply at the front of the stream is what the reader goes through. -/
theorem reads {s : Stream} (h : Parts reply lines digits texts last)
    (hfront : Utf8.encode lines.flatten <+: s.octets) :
    Reads s reply.code (texts.map (midLine digits)) (lastLine digits last) := by
  have hlines := s.reads_of_prefix (fun l hl => (h.faithful l hl).terminated) hfront
  rw [h.laid] at hlines
  exact ⟨hlines, h.continued⟩

/-- The text of the reply is the one the reader gathers, unless the first text of several is
empty. -/
theorem gather_eq_iff (h : Parts reply lines digits texts last) :
    gather [] lines = reply.text.toList ↔
      ∀ first ∈ (texts.map (midLine digits)).head?, lineText first ≠ [] := by
  have hunbroken := h.kept_unbroken
  rw [h.joined, ← h.kept]
  rw [h.laid] at hunbroken ⊢
  exact gather_eq_intercalate_iff hunbroken

end Parts

section Exactness
variable {debugStr : String → String} {s : Stream}

theorem Exact.strict (h : Exact debugStr s) {code : UInt16} {mids : List Text} {line : Text}
    (hreads : Reads s code mids line) (hends : Ends code line) :
    (∀ l ∈ mids ++ [line], Faithful l) ∧ ∀ first ∈ mids.head?, lineText first ≠ [] := by
  obtain ⟨lines, hreply, hfront⟩ := (h.2 ⟨code, String.ofList (gather [] (mids ++ [line]))⟩).mp
    (readReplyInner_ok_iff.mpr ⟨mids, line, hreads, hends, String.toList_ofList⟩)
  obtain ⟨digits, texts, last, hparts⟩ := hreply.parts
  obtain ⟨rfl, rfl⟩ := hreads.unique (hparts.reads hfront) hends.stops
    (lastLine_stops hparts.three last)
  rw [← hparts.laid]
  refine ⟨hparts.faithful, hparts.gather_eq_iff.mp ?_⟩
  rw [String.toList_ofList, hparts.laid]

theorem Exact.spaced (h : Exact debugStr s) {code : UInt16} {mids : List Text} {digits : Text}
    (hreads : Reads s code mids (digits ++ CRLF)) (hfaithful : ∀ m ∈ mids, Faithful m)
    (hdigits : ThreeDigits digits) (hparse : parseU16 digits = some code) : False := by
  have hcode := (hdigits.parse_iff code).mp hparse
  obtain ⟨hmids, hbroken⟩ := mids_eq hdigits hcode hreads.continued hfaithful
  have hreply : IsReply ⟨code, String.ofList (List.intercalate ['\n'] (mids.map lineText ++ [[]]))⟩
      (mids ++ [digits ++ CRLF]) := by
    refine ⟨digits, mids.map lineText, none, hdigits, List.forall_mem_map.mpr hbroken, nofun,
      hcode, String.toList_ofList, ?_⟩
    rw [replyLines, ← hmids, lastLine_none]
  -- it is accepted, but the reader stops there at a line that does not end a reply
  obtain ⟨mids', line', hreads', hends, -⟩ := readReplyInner_ok_iff.mp
    ((h.2 _).mpr ⟨_, hreply, s.prefix_of_reads hreads.front⟩)
  have hbare := lastLine_stops hdigits none
  rw [lastLine_none] at hbare
  obtain ⟨-, rfl⟩ := hreads.unique hreads' hbare hends.stops
  obtain ⟨tail, hcoded⟩ := hends
  exact absurd (sep_of_bare hdigits hcoded) (by decide)

theorem Exact.clean (h : Exact debugStr s) : Clean s where
  sliced code mids line hreads hpanics :=
    h.1 (readReplyInner_panic_iff.mpr ⟨code, mids, line, hreads, hpanics⟩)
  strict _ _ _ hreads hends := h.strict hreads hends
  spaced := by
    rintro code mids line hreads hfaithful digits hdigits hparse rfl
    exact h.spaced hreads hfaithful hdigits hparse

/-- A line that ends a reply does so behind the lines of that reply. -/
theorem Clean.startsWith (h : Clean s) {reply : Reply} {mids : List Text} {line : Text}
    (hreads : Reads s reply.code mids line) (hends : Ends reply.code line)
    (htext : reply.text.toList = gather [] (mids ++ [line])) : s.StartsWith reply := by
  obtain ⟨hfaithful, hfirst⟩ := h.strict reply.code mids line hreads hends
  obtain ⟨hfaithfulMids, hfaithfulLine⟩ := List.forall_mem_append.mp hfaithful
  obtain ⟨tail, hcoded⟩ := hends
  obtain ⟨digits, hdigits, hcode, hline, heq⟩ :=
    (hfaithfulLine line (List.mem_singleton_self line)).of_coded hcoded (by decide)
  obtain ⟨hmids, hbroken⟩ := mids_eq hdigits hcode hreads.continued hfaithfulMids
  have hunbroken : ∀ l ∈ mids ++ [line], Unbroken (lineText l) :=
    List.forall_mem_append.mpr ⟨hbroken, List.forall_mem_singleton.mpr hline⟩
  have hjoined : reply.text.toList =
      List.intercalate ['\n'] (mids.map lineText ++ [lineText line]) := by
    rw [htext, (gather_eq_intercalate_iff hunbroken).mpr hfirst, List.map_append,
      List.map_singleton]
  refine ⟨mids ++ [line], ⟨digits, mids.map lineText, some (lineText line), hdigits,
    List.forall_mem_map.mpr hbroken, ?_, hcode, hjoined, ?_⟩, s.prefix_of_reads hreads.front⟩
  · rintro text ⟨⟩
    exact hline
  · rw [replyLines, ← hmids]
    exact congrArg (mids ++ [·]) heq

theorem Clean.returns (h : Clean s) {reply : Reply} (hstarts : s.StartsWith reply) :
    ∃ mids line, Reads s reply.code mids line ∧ Ends reply.code line ∧
      reply.text.toList = gather [] (mids ++ [line]) := by
  obtain ⟨lines, hreply, hfront⟩ := hstarts
  obtain ⟨digits, texts, last, hparts⟩ := hreply.parts
  have hreads := hparts.reads hfront
  cases last with
  | none =>
    have hfaithful := hparts.faithful
    rw [hparts.laid] at hfaithful
    exact absurd (lastLine_none digits) (h.spaced reply.code _ _ hreads
      (List.forall_mem_append.mp hfaithful).1 digits hparts.three hparts.parsed)
  | some text =>
    have hends : Ends reply.code (lastLine digits (some text)) := ⟨_, hparts.coded ' ' text⟩
    refine ⟨_, _, hreads, hends, ?_⟩
    rw [← hparts.laid, hparts.gather_eq_iff.mpr (h.strict reply.code _ _ hreads hends).2]

theorem Clean.exact (h : Clean s) : Exact debugStr s := by
  refine ⟨fun hpanic => ?_, fun reply => ?_⟩
  · obtain ⟨code, mids, line, hreads, hpanics⟩ := readReplyInner_panic_iff.mp hpanic
    exact h.sliced code mids line hreads hpanics
  · rw [readReplyInner_ok_iff]
    constructor
    · rintro ⟨mids, line, hreads, hends, htext⟩
      exact h.startsWith hreads hends htext
    · exact h.returns

end Exactness

/-- A reply is read exactly as it stands on the clean streams and on no others. -/
theorem readReplyInner_exact_iff (debugStr : String → String) (s : Stream) :
    Exact debugStr s ↔ Clean s :=
  ⟨Exact.clean, Clean.exact⟩

/-- A reply with an accent behind the code panics, and with it the session; the code alone
is refused, a sign is taken for a digit, the last line needs no CRLF, and an empty first
text is dropped from the joined one. -/
theorem accent_panics :
    let read (octets : String) : ReadOutcome :=
      readReplyInner id ⟨Utf8.encode octets.toList, .closed⟩
    read "250é ok\r\n" = .panic ∧
      ¬ Exact id ⟨Utf8.encode "250é ok\r\n".toList, .closed⟩ ∧
      read "250\r\n" = .error "malformed smtp reply separator: 13" ∧
      read "+50 ok\r\n" = .ok ⟨50, "ok"⟩ ∧ read "250 ok" = .ok ⟨250, "ok"⟩ ∧
      read "250-\r\n250 ok\r\n" = .ok ⟨250, "ok"⟩ := by
  intro read
  have hpanic : read "250é ok\r\n" = .panic := by decide +kernel
  refine ⟨hpanic, fun h => h.1 hpanic, ?_, ?_, ?_, ?_⟩
  all_goals decide +kernel

end MailCue.Tunnel.Edge.SmtpClient
