import MailCue.Lib.Codec
import MailCue.Lib.Lines

/-!
# Mail data on the wire

Message content as lines closed by CRLF, with the dots that keep a line of content from
being taken for the one that ends the data: a line that begins with a dot gets another
one in front, and a line that is a dot alone comes behind the last.
-/
namespace MailCue.Lib.MailData

def CRLF : Bytes := [13, 10]

/-! ## Lines -/

/-- The lines closed by CRLF, and what stands behind the last of them. -/
def cut : Bytes → List Bytes × Bytes
  | [] => ([], [])
  | 13 :: 10 :: rest => ([] :: (cut rest).1, (cut rest).2)
  | c :: rest =>
    match cut rest with
    | ([], tail) => ([], c :: tail)
    | (line :: lines, tail) => ((c :: line) :: lines, tail)

def join (lines : List Bytes) : Bytes := lines.flatMap (· ++ CRLF)

@[simp] theorem join_nil : join [] = [] := rfl

@[simp] theorem join_cons (line : Bytes) (lines : List Bytes) :
    join (line :: lines) = line ++ CRLF ++ join lines := by
  simp [join]

@[simp] theorem join_append (lines more : List Bytes) : join (lines ++ more) = join lines ++ join more := by
  simp [join]

/-- The pieces give the content back. -/
theorem join_cut (content : Bytes) : join (cut content).1 ++ (cut content).2 = content := by
  induction content using cut.induct with
  | case1 => rfl
  | case2 rest ih => simpa [cut, CRLF] using ih
  | case3 c rest hne tail hcut ih =>
    rw [hcut] at ih
    rw [cut.eq_3 c rest hne, hcut]
    simpa using ih
  | case4 c rest hne line lines tail hcut ih =>
    rw [hcut] at ih
    rw [cut.eq_3 c rest hne, hcut]
    simpa using ih

theorem cut_line {line : Bytes} (h : 10 ∉ line) (rest : Bytes) :
    cut (line ++ CRLF ++ rest) = (line :: (cut rest).1, (cut rest).2) := by
  induction line with
  | nil => rfl
  | cons c line ih =>
    obtain ⟨hc, hline⟩ := not_or.mp (mt List.mem_cons.mpr h)
    have hne : ∀ after, c = 13 → line ++ CRLF ++ rest = 10 :: after → False := by
      rintro after - heq
      cases line with
      | nil => cases heq
      | cons d line =>
        have hd : d = 10 := (List.cons.inj heq).1
        exact hline (hd ▸ List.mem_cons_self)
    rw [List.cons_append, List.cons_append, cut.eq_3 c _ hne, ih hline]

theorem cut_tail {tail : Bytes} (h : 10 ∉ tail) : cut tail = ([], tail) := by
  induction tail with
  | nil => rfl
  | cons c tail ih =>
    obtain ⟨hc, htail⟩ := not_or.mp (mt List.mem_cons.mpr h)
    have hne : ∀ after, c = 13 → tail = 10 :: after → False := by
      rintro after - rfl
      exact htail List.mem_cons_self
    rw [cut.eq_3 c _ hne, ih htail]

/-- Lines without line feeds are the pieces of their join. -/
theorem cut_join {lines : List Bytes} {tail : Bytes} (hlines : ∀ line ∈ lines, 10 ∉ line)
    (htail : 10 ∉ tail) : cut (join lines ++ tail) = (lines, tail) := by
  induction lines with
  | nil => exact cut_tail htail
  | cons line lines ih =>
    have hrest := ih fun l hl => hlines l (List.mem_cons_of_mem _ hl)
    rw [join_cons, List.append_assoc, cut_line (hlines line List.mem_cons_self), hrest]

/-! ## Lines of a reader that takes any line feed for a line end -/

def isLf (b : UInt8) : Bool := b = 10

theorem isLf_eq_false {text : Bytes} : (∀ d ∈ text, isLf d = false) ↔ 10 ∉ text := by
  simp only [isLf, decide_eq_false_iff_not]
  exact ⟨fun h hmem => h 10 hmem rfl, fun h d hd heq => h (heq ▸ hd)⟩

theorem ended_iff {line : Bytes} : Lines.Ended isLf line ↔ ∃ body, line = body ++ [10] ∧ 10 ∉ body := by
  constructor
  · rintro ⟨body, c, rfl, hc, hbody⟩
    obtain rfl : c = 10 := by simpa [isLf] using hc
    exact ⟨body, rfl, isLf_eq_false.mp hbody⟩
  · rintro ⟨body, rfl, hbody⟩
    exact ⟨body, 10, rfl, rfl, isLf_eq_false.mpr hbody⟩

/-! ## Dots -/

def stuffLine : Bytes → Bytes
  | 46 :: rest => 46 :: 46 :: rest
  | line => line

def unstuffLine : Bytes → Bytes
  | 46 :: rest => rest
  | line => line

theorem unstuffLine_stuffLine (line : Bytes) : unstuffLine (stuffLine line) = line := by
  unfold stuffLine
  split
  · rfl
  · rename_i hne
    unfold unstuffLine
    split
    · exact absurd rfl (hne _)
    · rfl

theorem stuffLine_ne_dot (line : Bytes) : stuffLine line ≠ [46] := by
  unfold stuffLine
  split
  · exact fun h => by cases (List.cons.inj h).2
  · rename_i hne
    exact hne []

theorem not_mem_stuffLine {line : Bytes} (h : 10 ∉ line) : 10 ∉ stuffLine line := by
  unfold stuffLine
  split
  · simpa using h
  · exact h

/-! ## The end of the data -/

/-- The lines up to the one that is a dot, without their extra dots, and those behind. -/
def untilDot : List Bytes → Option (List Bytes × List Bytes)
  | [] => none
  | line :: rest =>
    if line = [46] then some ([], rest)
    else (untilDot rest).map fun (lines, after) => (unstuffLine line :: lines, after)

/-- The content a receiver takes from the stream, and the octets behind the end of the data. -/
def receive (stream : Bytes) : Option (Bytes × Bytes) :=
  (untilDot (cut stream).1).map fun (lines, after) => (join lines, join after ++ (cut stream).2)

theorem untilDot_stuffed (lines after : List Bytes) :
    untilDot (lines.map stuffLine ++ [46] :: after) = some (lines, after) := by
  induction lines with
  | nil => rfl
  | cons line lines ih =>
    rw [List.map_cons, List.cons_append, untilDot, if_neg (stuffLine_ne_dot line), ih,
      Option.map_some, unstuffLine_stuffLine]

/-- The lines of the content, the last one closed as well. -/
def linesOf (content : Bytes) : List Bytes :=
  (cut content).1 ++ if (cut content).2 = [] then [] else [(cut content).2]

/-- The content with its last line closed. -/
def closed (content : Bytes) : Bytes :=
  if (cut content).2 = [] then content else content ++ CRLF

/-- What a sender writes behind its DATA command. -/
def encode (content : Bytes) : Bytes := join ((linesOf content).map stuffLine ++ [[46]])

theorem join_linesOf (content : Bytes) : join (linesOf content) = closed content := by
  have hjoin := join_cut content
  unfold linesOf closed
  by_cases htail : (cut content).2 = []
  · rw [if_pos htail, if_pos htail, List.append_nil]
    rwa [htail, List.append_nil] at hjoin
  · rw [if_neg htail, if_neg htail, join_append, join_cons, join_nil, List.append_nil,
      ← List.append_assoc, hjoin]

/-! ## Bare line feeds -/

def NoBareLf (content : Bytes) : Prop :=
  ∀ pre post, content = pre ++ 10 :: post → pre.getLast? = some 13

theorem noBareLf_crlf (rest : Bytes) : NoBareLf (13 :: 10 :: rest) ↔ NoBareLf rest := by
  constructor
  · intro h pre post heq
    have hlast := h (13 :: 10 :: pre) post (by simp [heq])
    cases pre with
    | nil => simp at hlast
    | cons c pre => simpa using hlast
  · intro h pre post heq
    match pre, heq with
    | [], heq => cases (List.cons.inj heq).1
    | [c], heq => simp [← (List.cons.inj heq).1]
    | c :: d :: pre, heq =>
      have hrest : rest = pre ++ 10 :: post := (List.cons.inj (List.cons.inj heq).2).2
      have hlast := h pre post hrest
      cases pre with
      | nil => simp at hlast
      | cons e pre => simpa using hlast

theorem noBareLf_cons {c : UInt8} {rest : Bytes}
    (hne : ∀ after, c = 13 → rest = 10 :: after → False) :
    NoBareLf (c :: rest) ↔ c ≠ 10 ∧ NoBareLf rest := by
  constructor
  · intro h
    refine ⟨?_, fun pre post heq => ?_⟩
    · rintro rfl
      simpa using h [] rest rfl
    · have hlast := h (c :: pre) post (by simp [heq])
      cases pre with
      | nil => exact absurd heq fun heq => hne post (by simpa using hlast) heq
      | cons d pre => simpa using hlast
  · rintro ⟨hc, hrest⟩ pre post heq
    cases pre with
    | nil => exact absurd (List.cons.inj heq).1 hc
    | cons d pre =>
      have hlast := hrest pre post (List.cons.inj heq).2
      cases pre with
      | nil => simp at hlast
      | cons e pre => simpa using hlast

/-- No line feed stands without its carriage return where no piece has one. -/
theorem noBareLf_iff (content : Bytes) :
    NoBareLf content ↔ (∀ line ∈ (cut content).1, 10 ∉ line) ∧ 10 ∉ (cut content).2 := by
  induction content using cut.induct with
  | case1 => simp [NoBareLf, cut]
  | case2 rest ih =>
    rw [noBareLf_crlf, ih]
    simp [cut]
  | case3 c rest hne tail hcut ih =>
    rw [noBareLf_cons hne, ih, cut.eq_3 c rest hne, hcut]
    simp [eq_comm]
  | case4 c rest hne line lines tail hcut ih =>
    have hfirst : 10 ∉ c :: line ↔ c ≠ 10 ∧ 10 ∉ line := by simp [eq_comm]
    rw [noBareLf_cons hne, ih, cut.eq_3 c rest hne, hcut]
    simp only
    rw [List.forall_mem_cons, List.forall_mem_cons, hfirst]
    simp only [and_assoc]

end MailCue.Lib.MailData
