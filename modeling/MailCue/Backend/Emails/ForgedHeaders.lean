import Mathlib
import MailCue.Backend.Emails.AuthenticationResults

/-!
# Header fields of the sender

A receiver puts its trace fields in front of the header; what stands below them the
sender may have written. A field that names the receiver counts wherever it stands, and
the first pass of a method wins: the sender cannot change a check only where the trace
fields have a pass of its method already.
-/
namespace MailCue.Backend.Emails.Deliverability
open MailCue.Lib

/-- The fields of the receiver; the visible From is none of them. -/
structure Trace (r : Receiver) where
  fields : List HeaderField
  no_from : ∀ field ∈ fields, r.lower field.name ≠ "from".toList

section
variable {r : Receiver}

/-- The report on a message with these trace fields and the fields of the sender. -/
def Trace.report (trace : Trace r) (sender : List HeaderField) : List DeliverabilityCheck :=
  r.scoreAuthentication (trace.fields ++ sender)

/-- The first pass of the method in the receiver's own fields. -/
def Trace.firstPass (trace : Trace r) (method : AuthMethod) : Option (Text × Text × Properties) :=
  (r.authenticationResults trace.fields).find? fun result =>
    result.1 == method.name.toList && result.2.1 == "pass".toList

/-- The domain of that pass. -/
def Trace.passDomain (trace : Trace r) (method : AuthMethod) : Option Text :=
  (trace.firstPass method).bind fun found => r.authDomain method found.2.2

/-- A pass of every method, of one domain each: nothing is left to be forged. The trace
fields may depend on what of the sender the receiver wrote into comments and quotes. -/
def Passes {ι : Type} (trace : ι → Trace r) : Prop :=
  ∀ method, (∀ i, ((trace i).firstPass method).isSome) ∧
    ∀ i i', (trace i).passDomain method = (trace i').passDomain method

/-- No From address has the domain of a pass, or one above or below it. -/
def Unaligned {ι : Type} (trace : ι → Trace r) : Prop :=
  ∀ i method, method ≠ AuthMethod.dmarc → ∀ address,
    r.aligned ((trace i).passDomain method) (r.domain address) = false

theorem getAll_append (fields more : List HeaderField) (name : String) :
    r.getAll (fields ++ more) name = r.getAll fields name ++ r.getAll more name := by
  simp [Receiver.getAll]

theorem authenticationResults_append (fields more : List HeaderField) :
    r.authenticationResults (fields ++ more) =
      r.authenticationResults fields ++ r.authenticationResults more := by
  simp [Receiver.authenticationResults, getAll_append]

theorem senderDomain_trace (trace : Trace r) (sender : List HeaderField) :
    r.senderDomain (trace.fields ++ sender) = r.senderDomain sender := by
  have hnone : r.getAll trace.fields "from" = [] := by
    simp only [Receiver.getAll, List.map_eq_nil_iff, List.filter_eq_nil_iff, beq_iff_eq]
    exact trace.no_from
  unfold Receiver.senderDomain
  rw [getAll_append, hnone, List.nil_append]

/-! ## Where the receiver saw a pass -/

theorem best_of_no_pass {results : List (Text × Properties)}
    (h : ∀ item ∈ results, item.1 ≠ "pass".toList) : best results = results.head? := by
  have hnone : (results.find? fun item => item.1 == "pass".toList) = none :=
    List.find?_eq_none.mpr fun item hitem => by simpa using h item hitem
  unfold best
  rw [hnone]
  rfl

theorem best_of_find {results : List (Text × Properties)} {found : Text × Properties}
    (h : (results.find? fun item => item.1 == "pass".toList) = some found) :
    best results = some found := by
  unfold best
  rw [h]
  rfl

/-- The check is the one of this pass, whatever the sender adds. -/
theorem check_of_firstPass (trace : Trace r) {method : AuthMethod} {found : Text × Text × Properties}
    (h : trace.firstPass method = some found) (sender : List HeaderField)
    (sender_domain : Option Text) :
    r.authenticationCheck (trace.fields ++ sender) sender_domain method =
      r.resultCheck method sender_domain "pass".toList found.2.2 := by
  have hpass : found.2.1 = "pass".toList := by
    have hfound := List.find?_some h
    simp only [Bool.and_eq_true, beq_iff_eq] at hfound
    exact hfound.2
  have hfind : (((r.authenticationResults (trace.fields ++ sender)).filter fun result =>
      result.1 == method.name.toList).map (·.2)).find? (fun item => item.1 == "pass".toList) =
      some found.2 := by
    rw [List.find?_map, List.find?_filter, authenticationResults_append, List.find?_append]
    unfold Trace.firstPass at h
    simp only [Function.comp_def, Bool.decide_and, Bool.decide_eq_true]
    rw [h]
    rfl
  have hparsed : r.parsedAuthenticationResults (trace.fields ++ sender) method.name.toList =
      ((r.authenticationResults (trace.fields ++ sender)).filter fun result =>
        result.1 == method.name.toList).map (·.2) := by
    unfold Receiver.parsedAuthenticationResults
    refine if_neg fun hnone => ?_
    rw [hnone.2] at hfind
    cases hfind
  unfold Receiver.authenticationCheck
  rw [hparsed, best_of_find hfind]
  exact congrArg (fun result => r.resultCheck method sender_domain result found.2.2) hpass

theorem details_domain {domain domain' : Option Text} {first : Text} {rest rest' : List Text}
    (hrest : rest.length = rest'.length)
    (h : first :: ((domain.map fun d => "Authenticated domain: ".toList ++ d).toList ++ rest) =
      first :: ((domain'.map fun d => "Authenticated domain: ".toList ++ d).toList ++ rest')) :
    domain = domain' := by
  have hlength := congrArg List.length h
  cases domain with
  | none =>
    cases domain' with
    | none => rfl
    | some d' =>
      simp at hlength
      omega
  | some d =>
    cases domain' with
    | none =>
      simp at hlength
      omega
    | some d' =>
      obtain ⟨hhead, -⟩ := List.cons.inj (List.cons.inj h).2
      exact congrArg some (List.append_cancel_left hhead)

/-- What the check of a pass tells: its domain, and whether the visible one is aligned. -/
theorem resultCheck_pass_iff {method : AuthMethod} {properties properties' : Properties}
    {domain domain' : Option Text} :
    r.resultCheck method domain "pass".toList properties =
        r.resultCheck method domain' "pass".toList properties' ↔
      r.authDomain method properties = r.authDomain method properties' ∧
        (method = .dmarc ∨ r.aligned (r.authDomain method properties) domain =
          r.aligned (r.authDomain method properties) domain') := by
  have hdomain : r.resultCheck method domain "pass".toList properties =
      r.resultCheck method domain' "pass".toList properties' →
      r.authDomain method properties = r.authDomain method properties' := by
    intro h
    refine details_domain ?_ (congrArg DeliverabilityCheck.details h)
    split <;> rfl
  rw [← and_iff_right_of_imp hdomain]
  refine and_congr_right fun hsame => ?_
  have hproperties : r.resultCheck method domain' "pass".toList properties' =
      r.resultCheck method domain' "pass".toList properties := by
    unfold Receiver.resultCheck
    rw [hsame]
  rw [hproperties]
  cases hleft : r.aligned (r.authDomain method properties) domain <;>
    cases hright : r.aligned (r.authDomain method properties) domain' <;>
    cases method <;> simp [Receiver.resultCheck, AuthMethod.verdict, hleft, hright]

theorem passDomain_of_firstPass {trace : Trace r} {method : AuthMethod}
    {found : Text × Text × Properties} (h : trace.firstPass method = some found) :
    trace.passDomain method = r.authDomain method found.2.2 := by
  unfold Trace.passDomain
  rw [h]
  rfl

/-- Two messages whose receivers saw a pass. -/
theorem check_pass_iff {trace trace' : Trace r} {method : AuthMethod}
    (h : (trace.firstPass method).isSome) (h' : (trace'.firstPass method).isSome)
    (sender sender' : List HeaderField) (domain domain' : Option Text) :
    r.authenticationCheck (trace.fields ++ sender) domain method =
        r.authenticationCheck (trace'.fields ++ sender') domain' method ↔
      trace.passDomain method = trace'.passDomain method ∧
        (method = .dmarc ∨ r.aligned (trace.passDomain method) domain =
          r.aligned (trace.passDomain method) domain') := by
  obtain ⟨found, hfound⟩ := Option.isSome_iff_exists.mp h
  obtain ⟨found', hfound'⟩ := Option.isSome_iff_exists.mp h'
  rw [check_of_firstPass trace hfound, check_of_firstPass trace' hfound', resultCheck_pass_iff,
    passDomain_of_firstPass hfound, passDomain_of_firstPass hfound']

/-! ## A forged field -/

/-- A field that names the receiver and reports this result. -/
def forged (method : AuthMethod) (result : String) : HeaderField where
  name := "Authentication-Results".toList
  value := "mailcue".toList ++ ';' :: ' ' :: (method.name.toList ++ '=' :: result.toList)

/-- Lower case of ASCII is left as it is. -/
theorem lower_literal {text lowered : Text} (hascii : text.all Text.ascii = true)
    (hlowered : Text.asciiLower text = lowered) : r.lower text = lowered :=
  (r.lower_ascii text (List.all_eq_true.mp hascii)).trans hlowered

theorem trusts_mailcue : r.trusts (some "mailcue".toList) = true := by
  have hmailcue : r.lower "mailcue".toList = "mailcue".toList :=
    lower_literal (by decide) (by decide)
  have hmem : "mailcue".toList ∈ r.trustedAuthservIds := by
    refine List.mem_filterMap.mpr ⟨"mailcue".toList, List.mem_cons_self, ?_⟩
    rw [show Text.strip Text.isSpace "mailcue".toList = "mailcue".toList from by decide,
      if_neg (by decide), hmailcue]
    rfl
  simpa [Receiver.trusts] using hmem

theorem isWord_of_ascii (c : Char) (h : Text.ascii c = true) :
    r.isWord c = (c.isAlphanum || c == '_') := r.ascii_word c h

theorem authservId_forged (method : AuthMethod) (result : String) :
    r.authservId (forged method result).value = some "mailcue".toList := by
  have hmailcue : r.lower "mailcue".toList = "mailcue".toList :=
    lower_literal (by decide) (by decide)
  have hpreamble : (forged method result).value.takeWhile (· != ';') = "mailcue".toList := by
    unfold forged
    rw [List.takeWhile_append_of_pos (List.all_eq_true.mp (by decide)),
      List.takeWhile_cons_of_neg (by decide), List.append_nil]
  have hsemicolon : ';' ∈ (forged method result).value :=
    List.mem_append_right _ List.mem_cons_self
  unfold Receiver.authservId
  rw [if_pos hsemicolon, hpreamble]
  show orNone ((r.lower "mailcue".toList).rdropWhile (· == '.')) = _
  rw [hmailcue]
  rfl

theorem segmentResult_forged (method : AuthMethod) {result : String}
    (hresult : result = "pass" ∨ result = "fail") :
    ∃ properties, r.segmentResult (' ' :: (method.name.toList ++ '=' :: result.toList)) =
      some (method.name.toList, result.toList, properties) := by
  have hspace : r.isWord ' ' = false := isWord_of_ascii ' ' rfl
  have hs : r.isWord 's' = true := isWord_of_ascii 's' rfl
  have hd : r.isWord 'd' = true := isWord_of_ascii 'd' rfl
  have hfound : ∃ place,
      Pattern.search r.isWord AUTH_RESULT_RE (' ' :: (method.name.toList ++ '=' :: result.toList)) =
        some place ∧ place.group 1 = some method.name.toList ∧ place.group 2 = some result.toList := by
    rcases hresult with rfl | rfl
    · cases method with
      | spf => exact ⟨_, Pattern.search_second hspace hs rfl, rfl, rfl⟩
      | dkim => exact ⟨_, Pattern.search_second hspace hd rfl, rfl, rfl⟩
      | dmarc => exact ⟨_, Pattern.search_second hspace hd rfl, rfl, rfl⟩
    · cases method with
      | spf => exact ⟨_, Pattern.search_second hspace hs rfl, rfl, rfl⟩
      | dkim => exact ⟨_, Pattern.search_second hspace hd rfl, rfl, rfl⟩
      | dmarc => exact ⟨_, Pattern.search_second hspace hd rfl, rfl, rfl⟩
  obtain ⟨place, hsearch, hmethod, hgroup⟩ := hfound
  have hname : r.lower method.name.toList = method.name.toList := by
    cases method <;> exact lower_literal (by decide) (by decide)
  have hlower : r.lower result.toList = result.toList := by
    rcases hresult with rfl | rfl <;> exact lower_literal (by decide) (by decide)
  refine ⟨r.properties (' ' :: (method.name.toList ++ '=' :: result.toList)), ?_⟩
  unfold Receiver.segmentResult
  rw [hsearch, Option.map_some, hmethod, hgroup]
  simp only [Option.getD_some, hname, hlower]

theorem getAll_forged (method : AuthMethod) (result name : String) :
    r.getAll [forged method result] name =
      if "authentication-results".toList = name.toList then [(forged method result).value] else [] := by
  have hname : r.lower "Authentication-Results".toList = "authentication-results".toList :=
    lower_literal (by decide) (by decide)
  unfold Receiver.getAll
  rw [List.filter_cons, List.filter_nil,
    show (forged method result).name = "Authentication-Results".toList from rfl, hname]
  by_cases h : "authentication-results".toList = name.toList
  · rw [if_pos (beq_iff_eq.mpr h), if_pos h]
    rfl
  · rw [if_neg (mt beq_iff_eq.mp h), if_neg h]
    rfl

theorem senderDomain_forged (method : AuthMethod) (result : String) :
    r.senderDomain [forged method result] = r.senderDomain [] := by
  unfold Receiver.senderDomain
  rw [getAll_forged, if_neg (by decide)]
  rfl

theorem forged_results (method : AuthMethod) {result : String}
    (hresult : result = "pass" ∨ result = "fail") :
    ∃ properties, r.authenticationResults [forged method result] =
      [(method.name.toList, result.toList, properties)] := by
  have hsplit : ((forged method result).value.splitOn ';').tail =
      [' ' :: (method.name.toList ++ '=' :: result.toList)] := by
    rcases hresult with rfl | rfl <;> cases method <;> rfl
  obtain ⟨properties, hsegment⟩ := segmentResult_forged (r := r) method hresult
  refine ⟨properties, ?_⟩
  unfold Receiver.authenticationResults
  rw [getAll_forged, if_pos rfl, List.flatMap_singleton]
  unfold Receiver.fieldResults
  rw [authservId_forged method result, trusts_mailcue, if_pos rfl, hsplit]
  simp only [List.filterMap_cons, hsegment, List.filterMap_nil]

/-- The results a check reads, with a forged one behind those of the receiver. -/
theorem parsed_forged (trace : Trace r) (method : AuthMethod) {result : String}
    (hresult : result = "pass" ∨ result = "fail") :
    ∃ properties, r.parsedAuthenticationResults (trace.fields ++ [forged method result])
        method.name.toList =
      ((r.authenticationResults trace.fields).filter fun found =>
        found.1 == method.name.toList).map (·.2) ++ [(result.toList, properties)] := by
  obtain ⟨properties, hforged⟩ := forged_results (r := r) method hresult
  refine ⟨properties, ?_⟩
  unfold Receiver.parsedAuthenticationResults
  rw [authenticationResults_append, hforged, List.filter_append, List.map_append]
  simp

/-- Where the receiver saw no pass of the method, it counts. -/
theorem forged_counts (trace : Trace r) {method : AuthMethod} (h : trace.firstPass method = none)
    (sender_domain : Option Text) :
    r.authenticationCheck (trace.fields ++ [forged method "pass"]) sender_domain method ≠
      r.authenticationCheck (trace.fields ++ [forged method "fail"]) sender_domain method := by
  obtain ⟨passed, hpass⟩ := parsed_forged trace method (.inl rfl)
  obtain ⟨failed, hfail⟩ := parsed_forged trace method (.inr rfl)
  generalize hseen : ((r.authenticationResults trace.fields).filter fun found =>
    found.1 == method.name.toList).map (·.2) = seen at hpass hfail
  have hnone : ∀ item ∈ seen, item.1 ≠ "pass".toList := by
    intro item hitem
    subst hseen
    obtain ⟨found, hfound, rfl⟩ := List.mem_map.mp hitem
    obtain ⟨hmem, hmethod⟩ := List.mem_filter.mp hfound
    have hnot := List.find?_eq_none.mp h found hmem
    rw [hmethod, Bool.true_and] at hnot
    simpa using hnot
  have hbest : best (seen ++ [("pass".toList, passed)]) = some ("pass".toList, passed) := by
    have hnofind : (seen.find? fun item => item.1 == "pass".toList) = none :=
      List.find?_eq_none.mpr fun item hitem => by simpa using hnone item hitem
    refine best_of_find ?_
    rw [List.find?_append, hnofind]
    rfl
  have hall : ∀ item ∈ seen ++ [("fail".toList, failed)], item.1 ≠ "pass".toList := by
    intro item hitem
    rcases List.mem_append.mp hitem with hold | hnew
    · exact hnone item hold
    · rw [List.mem_singleton.mp hnew]
      show "fail".toList ≠ "pass".toList
      decide
  obtain ⟨item, hitem⟩ : ∃ item, (seen ++ [("fail".toList, failed)]).head? = some item := by
    cases seen <;> exact ⟨_, rfl⟩
  have hworst : best (seen ++ [("fail".toList, failed)]) = some item :=
    (best_of_no_pass hall).trans hitem
  intro hsame
  unfold Receiver.authenticationCheck at hsame
  rw [hpass, hfail, hbest, hworst] at hsame
  have hdetails := congrArg (fun check => check.details.head?) hsame
  refine hall item (List.mem_of_head? hitem) ?_
  exact (List.append_cancel_left (Option.some.inj hdetails)).symm

theorem report_eq_iff (trace trace' : Trace r) (sender sender' : List HeaderField) :
    trace.report sender = trace'.report sender' ↔ ∀ method,
      r.authenticationCheck (trace.fields ++ sender) (r.senderDomain sender) method =
        r.authenticationCheck (trace'.fields ++ sender') (r.senderDomain sender') method := by
  unfold Trace.report Receiver.scoreAuthentication Receiver.authenticationChecks
  rw [senderDomain_trace, senderDomain_trace]
  constructor
  · intro h method
    have hall := List.map_inj_left.mp h method
    cases method with
    | spf => exact hall (by simp)
    | dkim => exact hall (by simp)
    | dmarc => exact hall (by simp)
  · intro h
    exact List.map_congr_left fun method _ => h method

theorem passes_of_report {ι : Type} {trace : ι → Trace r}
    (h : ∀ i i' sender sender', r.senderDomain sender = r.senderDomain sender' →
      (trace i).report sender = (trace i').report sender') : Passes trace := by
  intro method
  have hseen : ∀ i, ((trace i).firstPass method).isSome := by
    intro i
    by_contra hnone
    have hdomain := senderDomain_forged (r := r) method
    refine forged_counts (trace i) (by simpa using hnone) (r.senderDomain []) ?_
    have hreport := h i i [forged method "pass"] [forged method "fail"]
      ((hdomain "pass").trans (hdomain "fail").symm)
    have hcheck := (report_eq_iff _ _ _ _).mp hreport method
    rwa [hdomain, hdomain] at hcheck
  refine ⟨hseen, fun i i' => ?_⟩
  have hcheck := (report_eq_iff _ _ _ _).mp (h i i' [] [] rfl) method
  exact ((check_pass_iff (hseen i) (hseen i') _ _ _ _).mp hcheck).1

/-- Without a From field the visible domain is aligned with nothing. -/
theorem aligned_no_from (domain : Option Text) : r.aligned domain (r.senderDomain []) = false := by
  have hnone : r.senderDomain [] = none := by
    show r.domain [] = none
    unfold Receiver.domain
    rw [r.parseaddr_nil, show r.lower [] = [] from lower_literal (by simp) rfl]
    rfl
  unfold Receiver.aligned
  rw [hnone, show r.identityDomain none = none from rfl]
  cases r.identityDomain domain <;> rfl

theorem senderDomain_from (address : Text) :
    r.senderDomain [⟨"From".toList, address⟩] = r.domain address := by
  have hname : r.lower "From".toList = "from".toList := lower_literal (by decide) (by decide)
  unfold Receiver.senderDomain Receiver.getAll
  rw [List.filter_cons, hname]
  rfl

/-- **Who forges a header earns what the receiver has not granted.** Nothing the sender
writes changes a check, as long as the domain of the visible From stays, if and only if
the receiver's own fields have a pass of each method, of one domain whatever they quote;
where the visible domain may change too, if and only if moreover no address is aligned
with the domains of SPF and DKIM. -/
theorem forged_headers_iff (r : Receiver) {ι : Type} (trace : ι → Trace r) :
    ((∀ i i' sender sender', r.senderDomain sender = r.senderDomain sender' →
        (trace i).report sender = (trace i').report sender') ↔ Passes trace) ∧
      ((∀ i i' sender sender', (trace i).report sender = (trace i').report sender') ↔
        Passes trace ∧ Unaligned trace) := by
  refine ⟨⟨passes_of_report, ?_⟩, ?_, ?_⟩
  · intro hpasses i i' sender sender' hsame
    refine (report_eq_iff _ _ _ _).mpr fun method => ?_
    obtain ⟨hseen, hdomain⟩ := hpasses method
    rw [check_pass_iff (hseen i) (hseen i'), hsame]
    exact ⟨hdomain i i', .inr rfl⟩
  · intro h
    have hpasses : Passes trace := passes_of_report fun i i' sender sender' _ => h i i' sender sender'
    refine ⟨hpasses, fun i method hmethod address => ?_⟩
    have hseen := (hpasses method).1
    have hreport := h i i [⟨"From".toList, address⟩] []
    have hcheck := (report_eq_iff _ _ _ _).mp hreport method
    rw [check_pass_iff (hseen i) (hseen i)] at hcheck
    rw [← senderDomain_from, hcheck.2.resolve_left hmethod, aligned_no_from]
  · intro ⟨hpasses, hunaligned⟩ i i' sender sender'
    refine (report_eq_iff _ _ _ _).mpr fun method => ?_
    obtain ⟨hseen, hdomain⟩ := hpasses method
    refine (check_pass_iff (hseen i) (hseen i') _ _ _ _).mpr ⟨hdomain i i', ?_⟩
    by_cases hmethod : method = .dmarc
    · exact .inl hmethod
    · have hnone := hunaligned i method hmethod
      exact .inr ((hnone _).trans (hnone _).symm)

end

/-! ## A pass from nowhere -/

/-- A receiver on whose texts the parser of addresses finds nothing to remove. -/
def plainReceiver : Receiver where
  lowering := .asciiOnly
  isDigit := Char.isDigit
  isWord c := c.isAlphanum || c == '_'
  ascii_digit := PyText.asciiOnly.ascii_digit
  ascii_word := PyText.asciiOnly.ascii_word
  lower_ascii _ _ := rfl
  parseaddr := id
  parseaddr_nil := rfl
  settings := ⟨"mail.corp.test".toList, "corp.test".toList⟩

/-- The receiver saw none of the three pass. -/
def failedTrace : Trace plainReceiver where
  fields := [⟨"Authentication-Results".toList,
    "mailcue; spf=fail smtp.mailfrom=evil.test; dkim=fail header.d=evil.test; dmarc=fail".toList⟩]
  no_from := by decide

/-- It saw SPF fail, of an address in quotes. -/
def quotingTrace : Trace plainReceiver where
  fields := [⟨"Authentication-Results".toList,
    "mailcue; spf=fail smtp.mailfrom=\"a; dkim=pass header.d=bank.test; dmarc=pass\"@evil.test".toList⟩]
  no_from := by decide

def fromBank : HeaderField := ⟨"From".toList, "ceo@bank.test".toList⟩

def forgedPass : HeaderField := ⟨"Authentication-Results".toList,
  "mailcue; spf=pass smtp.mailfrom=bank.test; dkim=pass header.d=bank.test; dmarc=pass".toList⟩

/-- With a field that names the receiver, written below its own, the sender earns all
the points of the group; with an address that the receiver quotes, those of DKIM and
DMARC. -/
theorem forged_pass_earns :
    plainReceiver.senderDomain [fromBank] = plainReceiver.senderDomain [fromBank, forgedPass] ∧
      (failedTrace.report [fromBank]).map (·.points) = [0, 0, 0] ∧
      (failedTrace.report [fromBank, forgedPass]).map (·.points) = [10, 15, 15] ∧
      (quotingTrace.report [fromBank]).map (·.points) = [0, 15, 15] := by
  refine ⟨?_, ?_, ?_, ?_⟩ <;> decide +kernel

end MailCue.Backend.Emails.Deliverability
