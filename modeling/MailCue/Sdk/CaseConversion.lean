import MailCue.Lib.Dict
import MailCue.Lib.Json

/-!
# The names of fields in the Node SDK

`snakeify` and `camelize` of sdks/node/src/transport.ts, where `inject`, `bulkInject` and
`get` of resources/emails.ts use them. A field that is undefined is left out, as it is of a
body in JSON; objects are read as maps, whatever the order of their fields.
-/
namespace MailCue.Sdk.Case
open MailCue.Lib

/-! ## Names -/

def isCapital (c : Char) : Bool := 'A' ≤ c && c ≤ 'Z'

def snakeChars (key : Text) : Text :=
  key.flatMap fun c => if isCapital c then ['_', c.toLower] else [c]

def camelToSnake (key : String) : String := String.ofList (snakeChars key.toList)

/-- `[a-z0-9]` -/
def isSmall (c : Char) : Bool := ('a' ≤ c && c ≤ 'z') || ('0' ≤ c && c ≤ '9')

/-- `/_([a-z0-9])/g`, each match by its capital. -/
def camelChars : Text → Text
  | [] => []
  | [c] => [c]
  | c :: d :: rest =>
    if c = '_' ∧ isSmall d = true then d.toUpper :: camelChars rest
    else c :: camelChars (d :: rest)

def snakeToCamel (key : String) : String := String.ofList (camelChars key.toList)

/-! ## Values -/

/-- `out[key] = value`: `__proto__` is the prototype, and no field. -/
def assign (out : Json.Fields) (key : String) (value : Json) : Json.Fields :=
  if key = "__proto__" then out else Dict.set out key value

mutual

/-- `snakeify` and `camelize`, but for the renaming. -/
def rename (f : String → String) : Json → Json
  | .arr elements => .arr (renameAll f elements)
  | .obj fields => .obj (renameFields f [] fields)
  | .null => .null
  | .bool b => .bool b
  | .num n => .num n
  | .str s => .str s

def renameAll (f : String → String) : List Json → List Json
  | [] => []
  | value :: rest => rename f value :: renameAll f rest

def renameFields (f : String → String) (out : Json.Fields) : Json.Fields → Json.Fields
  | [] => out
  | (key, value) :: rest => renameFields f (assign out (f key) (rename f value)) rest

end

def snakeify : Json → Json := rename camelToSnake
def camelize : Json → Json := rename snakeToCamel

/-! ## Requests and answers -/

/-- `Record<string, string>` -/
structure HeaderMap where
  entries : List (String × Text)
  nodup : (entries.map Prod.fst).Nodup

def HeaderMap.names (map : HeaderMap) : List String := map.entries.map Prod.fst

def HeaderMap.fields (map : HeaderMap) : Json.Fields := map.entries.map (Prod.map id Json.str)

def HeaderMap.json (map : HeaderMap) : Json := .obj map.fields

structure InjectEmailParams where
  mailbox : Text
  from_ : Text
  to_ : List Text
  subject : Text
  htmlBody : Option Text := none
  textBody : Option Text := none
  date : Option Text := none
  headers : Option HeaderMap := none
  sign : Option Bool := none
  encrypt : Option Bool := none
  replyTo : Option Text := none
  inReplyTo : Option Text := none
  references : Option (List Text) := none
  cc : Option (List Text) := none
  returnPath : Option Text := none
  realisticHeaders : Option Bool := none

def strings (texts : List Text) : Json := .arr (texts.map .str)

/-- A field, unless it is undefined. -/
def present (name : String) (value : Option Json) : Json.Fields :=
  value.toList.map fun value => (name, value)

namespace InjectEmailParams
variable (params : InjectEmailParams)

def beforeHeaders : Json.Fields :=
  [("mailbox", .str params.mailbox), ("from", .str params.from_), ("to", strings params.to_),
    ("subject", .str params.subject)] ++
  present "htmlBody" (params.htmlBody.map .str) ++ present "textBody" (params.textBody.map .str) ++
  present "date" (params.date.map .str)

/-- With the addresses that `inject` adds. -/
def behindHeaders : Json.Fields :=
  present "sign" (params.sign.map .bool) ++ present "encrypt" (params.encrypt.map .bool) ++
  present "replyTo" (params.replyTo.map .str) ++
  present "inReplyTo" (params.inReplyTo.map .str) ++
  present "references" (params.references.map strings) ++ present "cc" (params.cc.map strings) ++
  present "returnPath" (params.returnPath.map .str) ++
  present "realisticHeaders" (params.realisticHeaders.map .bool) ++
  [("fromAddress", .str params.from_), ("toAddresses", strings params.to_)] ++
  present "ccAddresses" (params.cc.map strings)

/-- `{ ...params, fromAddress, toAddresses, ccAddresses }` -/
def spread : Json :=
  .obj (params.beforeHeaders ++ present "headers" (params.headers.map HeaderMap.json) ++
    params.behindHeaders)

end InjectEmailParams

def fieldsOf : Json → Json.Fields
  | .obj fields => fields
  | _ => []

/-- `delete object[name]`, of each of these. -/
def delete (names : List String) (fields : Json.Fields) : Json.Fields :=
  fields.filter fun field => !names.contains field.1

/-- The body of `inject`, and of each e-mail of `bulkInject`. -/
def injectBody (params : InjectEmailParams) : Json :=
  .obj (delete ["from", "to", "cc"] (fieldsOf (snakeify params.spread)))

def bulkInjectBody (emails : List InjectEmailParams) : Json :=
  .obj [("emails", .arr (emails.map injectBody))]

/-- `EmailDetail` of the server. -/
structure EmailDetail where
  uid : Text
  mailbox : Text
  from_address : Text
  from_name : Text := []
  to_addresses : List Text
  subject : Text
  date : Option Text := none
  has_attachments : Bool
  is_read : Bool
  preview : Text
  message_id : Text := []
  in_reply_to : Option Text := none
  references : List Text := []
  thread_id : Text := []
  size : Int := 0
  is_signed : Bool := false
  is_encrypted : Bool := false
  html_body : Option Text := none
  text_body : Option Text := none
  cc_addresses : List Text := []
  bcc_addresses : List Text := []
  raw_headers : HeaderMap
  attachments : List Json := []
  gpg : Json := .null

namespace EmailDetail
variable (detail : EmailDetail)

def orNull (text : Option Text) : Json := (text.map Json.str).getD .null

def beforeRawHeaders : Json.Fields :=
  [("uid", .str detail.uid), ("mailbox", .str detail.mailbox),
    ("from_address", .str detail.from_address), ("from_name", .str detail.from_name),
    ("to_addresses", strings detail.to_addresses), ("subject", .str detail.subject),
    ("date", orNull detail.date), ("has_attachments", .bool detail.has_attachments),
    ("is_read", .bool detail.is_read), ("preview", .str detail.preview),
    ("message_id", .str detail.message_id), ("in_reply_to", orNull detail.in_reply_to),
    ("references", strings detail.references), ("thread_id", .str detail.thread_id),
    ("size", .num detail.size), ("is_signed", .bool detail.is_signed),
    ("is_encrypted", .bool detail.is_encrypted), ("html_body", orNull detail.html_body),
    ("text_body", orNull detail.text_body), ("cc_addresses", strings detail.cc_addresses),
    ("bcc_addresses", strings detail.bcc_addresses)]

def behindRawHeaders : Json.Fields :=
  [("attachments", .arr detail.attachments), ("gpg", detail.gpg)]

def json : Json :=
  .obj (detail.beforeRawHeaders ++ [("raw_headers", detail.raw_headers.json)] ++
    detail.behindRawHeaders)

end EmailDetail

/-- What `get` returns. -/
def getEmail (detail : EmailDetail) : Json := camelize detail.json

/-! ## Renamed fields -/

section
variable {f : String → String}

theorem renameFields_eq (f : String → String) (out fields : Json.Fields) :
    renameFields f out fields =
      Dict.update out ((fields.map (Prod.map f (rename f))).filter (·.1 != "__proto__")) := by
  induction fields generalizing out with
  | nil => rfl
  | cons field fields ih =>
    rw [renameFields, ih, List.map_cons, List.filter_cons]
    unfold assign
    by_cases h : f field.1 = "__proto__"
    · simp [h]
    · simp [h, Dict.update_cons]

theorem get_renameFields (fields : Json.Fields) {key : String} (hkey : key ≠ "__proto__") :
    Dict.get (renameFields f [] fields) key =
      Dict.get (fields.map (Prod.map f (rename f))).reverse key := by
  rw [renameFields_eq, Dict.get_update, Dict.get_nil, Option.or_none, ← List.filter_reverse]
  exact Dict.get_filter _ fun _ => bne_iff_ne.mpr hkey

/-- Where no other field is renamed to the key of one, that one has it. -/
theorem get_renameFields_between {front middle back : Json.Fields} {key : String}
    (hkey : key ≠ "__proto__") (hfront : ∀ field ∈ front, f field.1 ≠ key)
    (hback : ∀ field ∈ back, f field.1 ≠ key) :
    Dict.get (renameFields f [] (front ++ middle ++ back)) key =
      Dict.get (middle.map (Prod.map f (rename f))).reverse key := by
  have hnone {fields : Json.Fields} (h : ∀ field ∈ fields, f field.1 ≠ key) :
      Dict.get (fields.map (Prod.map f (rename f))).reverse key = none := by
    refine Dict.get_eq_none_iff.mpr fun hmem => ?_
    rw [List.map_reverse, List.mem_reverse, List.map_map] at hmem
    obtain ⟨field, hfield, heq⟩ := List.mem_map.mp hmem
    exact h field hfield heq
  rw [get_renameFields _ hkey, List.map_append, List.map_append, List.reverse_append,
    List.reverse_append, Dict.get_append, Dict.get_append, hnone hfront, hnone hback,
    Option.none_or, Option.or_none]

/-- The same names with the same values. -/
def SameHeaders (fields : Json.Fields) (map : HeaderMap) : Prop :=
  ∀ name, Dict.get fields name = (Dict.get map.entries name).map Json.str

/-- A renaming keeps a map just where it renames none of its names. -/
theorem sameHeaders_renamed_iff (size : String → Nat)
    (hsize : ∀ name, f name ≠ name → size (f name) < size name) (map : HeaderMap) :
    SameHeaders (renameFields f [] map.fields) map ↔
      ∀ name ∈ map.names, f name = name ∧ name ≠ "__proto__" := by
  have hvalues : map.fields.map (Prod.map f (rename f)) =
      map.entries.map (Prod.map f Json.str) := by
    rw [HeaderMap.fields, List.map_map]
    exact List.map_congr_left fun entry _ => Prod.ext rfl (by simp [rename])
  have hfields : renameFields f [] map.fields =
      Dict.update [] ((map.entries.map (Prod.map f Json.str)).filter (·.1 != "__proto__")) := by
    rw [renameFields_eq, hvalues]
  unfold SameHeaders
  rw [hfields]
  constructor
  · intro h
    have hold : ∀ name ∈ map.names, ∃ old ∈ map.names, f old = name ∧ name ≠ "__proto__" := by
      intro name hname
      have hmem : Dict.get map.entries name ≠ none := fun hnone =>
        Dict.get_eq_none_iff.mp hnone hname
      have hkept : name ∈ ((map.entries.map (Prod.map f Json.str)).filter
          (·.1 != "__proto__")).map Prod.fst := by
        by_contra hgone
        have hnone : Dict.get (Dict.update [] ((map.entries.map (Prod.map f Json.str)).filter
            (·.1 != "__proto__"))) name = none :=
          Dict.get_eq_none_iff.mpr fun hmem =>
            hgone ((Dict.mem_keys_update.mp hmem).resolve_left (List.not_mem_nil (a := name)))
        rw [h name, Option.map_eq_none_iff] at hnone
        exact hmem hnone
      obtain ⟨field, hfield, rfl⟩ := List.mem_map.mp hkept
      obtain ⟨hfield, hproto⟩ := List.mem_filter.mp hfield
      obtain ⟨entry, hentry, rfl⟩ := List.mem_map.mp hfield
      exact ⟨entry.1, List.mem_map_of_mem hentry, rfl, bne_iff_ne.mp hproto⟩
    have honto : ∀ name ∈ map.names, ∃ old ∈ map.names, f old = name := fun name hname =>
      (hold name hname).imp fun old hold => ⟨hold.1, hold.2.1⟩
    intro name hname
    obtain ⟨_, _, _, hproto⟩ := hold name hname
    exact ⟨Dict.fixed_of_onto hsize honto name hname, hproto⟩
  · intro h name
    have hsame : (map.entries.map (Prod.map f Json.str)).filter (·.1 != "__proto__") =
        map.entries.map (Prod.map id Json.str) := by
      have hmap : map.entries.map (Prod.map f Json.str) =
          map.entries.map (Prod.map id Json.str) := by
        refine List.map_congr_left fun entry hentry => ?_
        exact Prod.ext (h entry.1 (List.mem_map_of_mem hentry)).1 rfl
      rw [hmap]
      refine List.filter_eq_self.mpr fun field hfield => ?_
      obtain ⟨entry, hentry, rfl⟩ := List.mem_map.mp hfield
      exact bne_iff_ne.mpr (h entry.1 (List.mem_map_of_mem hentry)).2
    have hnodup : ((map.entries.map (Prod.map id Json.str)).map Prod.fst).Nodup := by
      rw [List.map_map]
      exact map.nodup
    rw [hsame, Dict.update_nil hnodup, Dict.get_map]

end

/-! ## Names that stay -/

/-- No capital of ASCII, and not the name of the prototype. -/
def KeptBySnakeify (name : String) : Prop :=
  (∀ c ∈ name.toList, isCapital c = false) ∧ name ≠ "__proto__"

/-- No underscore before a small letter or a digit. -/
def KeptByCamelize (name : String) : Prop :=
  ∀ c, isSmall c = true → ¬ ['_', c] <:+: name.toList

theorem ofList_eq_iff (chars : Text) (name : String) :
    String.ofList chars = name ↔ chars = name.toList := by
  constructor
  · rintro rfl
    exact String.toList_ofList.symm
  · rintro rfl
    exact String.ofList_toList

theorem isCapital_toLower {c : Char} (h : isCapital c = true) : isCapital c.toLower = false := by
  have hall : ∀ n < 128, isCapital (Char.ofNat n) = true →
      isCapital (Char.ofNat n).toLower = false := by decide
  have hle : c ≤ 'Z' := of_decide_eq_true (Bool.and_eq_true_iff.mp h).2
  have hlt : c.toNat < 128 := Nat.lt_of_le_of_lt (Char.le_def.mp hle) (by decide)
  have hone := hall c.toNat hlt
  rw [Char.ofNat_toNat] at hone
  exact hone h

theorem not_capital_of_mem_snakeChars {key : Text} {c : Char} (h : c ∈ snakeChars key) :
    isCapital c = false := by
  obtain ⟨d, _, hc⟩ := List.mem_flatMap.mp h
  cases hd : isCapital d with
  | true =>
    rw [hd, if_pos rfl, List.mem_pair] at hc
    rcases hc with rfl | rfl
    · decide
    · exact isCapital_toLower hd
  | false =>
    rw [hd, if_neg Bool.false_ne_true, List.mem_singleton] at hc
    rw [hc, hd]

theorem snakeChars_eq_self_iff (key : Text) :
    snakeChars key = key ↔ ∀ c ∈ key, isCapital c = false := by
  constructor
  · intro h c hc
    rw [← h] at hc
    exact not_capital_of_mem_snakeChars hc
  · intro h
    induction key with
    | nil => rfl
    | cons c key ih =>
      rw [List.forall_mem_cons] at h
      unfold snakeChars at ih ⊢
      rw [List.flatMap_cons, h.1, if_neg Bool.false_ne_true, ih h.2, List.singleton_append]

theorem camelChars_cases (key : Text) :
    camelChars key = key ∨ (camelChars key).length < key.length := by
  fun_induction camelChars key with
  | case1 => exact .inl rfl
  | case2 c => exact .inl rfl
  | case3 c d rest hmatch ih =>
    right
    have hle : (camelChars rest).length ≤ rest.length := by
      rcases ih with hsame | hlt
      · rw [hsame]
      · exact hlt.le
    simp only [List.length_cons]
    omega
  | case4 c d rest hmatch ih =>
    rcases ih with hsame | hlt
    · left
      rw [hsame]
    · right
      exact Nat.succ_lt_succ hlt

theorem camelChars_eq_self_iff (key : Text) :
    camelChars key = key ↔ ∀ c, isSmall c = true → ¬ ['_', c] <:+: key := by
  fun_induction camelChars key with
  | case1 => simp
  | case2 c =>
    refine iff_of_true rfl fun d _ hinfix => ?_
    have hle := hinfix.length_le
    simp at hle
  | case3 c d rest hmatch ih =>
    refine iff_of_false (fun heq => ?_) fun h => ?_
    · have hlength := congrArg List.length heq
      have hle : (camelChars rest).length ≤ rest.length := by
        rcases camelChars_cases rest with hsame | hlt
        · rw [hsame]
        · exact hlt.le
      simp only [List.length_cons] at hlength
      omega
    · obtain ⟨rfl, hd⟩ := hmatch
      exact h d hd ⟨[], rest, rfl⟩
  | case4 c d rest hmatch ih =>
    rw [List.cons_inj_right, ih]
    refine forall₂_congr fun e he => not_congr ?_
    have hnot : ¬ ['_', e] <+: c :: d :: rest := by
      intro hleads
      rw [List.cons_prefix_cons, List.cons_prefix_cons] at hleads
      exact hmatch ⟨hleads.1.symm, hleads.2.1 ▸ he⟩
    exact (or_iff_right hnot).symm.trans List.infix_cons_iff.symm

theorem camelToSnake_eq_self_iff (name : String) :
    camelToSnake name = name ↔ ∀ c ∈ name.toList, isCapital c = false := by
  rw [camelToSnake, ofList_eq_iff, snakeChars_eq_self_iff]

theorem snakeToCamel_eq_self_iff (name : String) :
    snakeToCamel name = name ↔ KeptByCamelize name := by
  rw [snakeToCamel, ofList_eq_iff, camelChars_eq_self_iff]
  rfl

def capitals (name : String) : Nat := name.toList.countP isCapital

theorem capitals_camelToSnake_lt (name : String) (h : camelToSnake name ≠ name) :
    capitals (camelToSnake name) < capitals name := by
  unfold capitals
  have hnone : (camelToSnake name).toList.countP isCapital = 0 := by
    rw [camelToSnake, String.toList_ofList, List.countP_eq_zero]
    exact fun c hc => Bool.not_eq_true _ ▸ not_capital_of_mem_snakeChars hc
  rw [hnone, List.countP_pos_iff]
  by_contra hnot
  refine h ((camelToSnake_eq_self_iff name).mpr fun c hc => ?_)
  exact Bool.eq_false_iff.mpr fun hcapital => hnot ⟨c, hc, hcapital⟩

theorem length_snakeToCamel_lt (name : String) (h : snakeToCamel name ≠ name) :
    (snakeToCamel name).length < name.length := by
  have hne : camelChars name.toList ≠ name.toList := fun heq =>
    h ((ofList_eq_iff _ name).mpr heq)
  rw [snakeToCamel, String.length_ofList, ← String.length_toList]
  exact (camelChars_cases name.toList).resolve_left hne

theorem sameHeaders_snakeify_iff (map : HeaderMap) :
    SameHeaders (renameFields camelToSnake [] map.fields) map ↔
      ∀ name ∈ map.names, KeptBySnakeify name := by
  refine (sameHeaders_renamed_iff _ capitals_camelToSnake_lt map).trans ?_
  exact forall₂_congr fun name _ => and_congr_left fun _ => camelToSnake_eq_self_iff name

theorem sameHeaders_camelize_iff (map : HeaderMap) :
    SameHeaders (renameFields snakeToCamel [] map.fields) map ↔
      ∀ name ∈ map.names, KeptByCamelize name := by
  refine (sameHeaders_renamed_iff _ length_snakeToCamel_lt map).trans ?_
  refine forall₂_congr fun name _ => ?_
  rw [snakeToCamel_eq_self_iff]
  refine and_iff_left_of_imp fun h hproto => ?_
  subst hproto
  exact h 'p' rfl ⟨['_'], "roto__".toList, by decide⟩

/-! ## Bodies -/

/-- The field of an object carries a map, or is missing where there is none. -/
def Carries (object : Json) (key : String) : Option HeaderMap → Prop
  | none => Dict.get (fieldsOf object) key = none
  | some map => ∃ fields, Dict.get (fieldsOf object) key = some (.obj fields) ∧
      SameHeaders fields map

theorem carries_of_get {object : Json} {key : String} {fields : Json.Fields} {map : HeaderMap}
    (h : Dict.get (fieldsOf object) key = some (.obj fields)) :
    Carries object key (some map) ↔ SameHeaders fields map := by
  constructor
  · rintro ⟨found, hfound, hsame⟩
    cases h.symm.trans hfound
    exact hsame
  · exact fun hsame => ⟨fields, h, hsame⟩

theorem forall_present {P : String → Prop} {name : String} (h : P name) (value : Option Json) :
    ∀ field ∈ present name value, P field.1 := by
  intro field hfield
  obtain ⟨_, _, rfl⟩ := List.mem_map.mp hfield
  exact h

theorem get_injectBody (params : InjectEmailParams) :
    Dict.get (fieldsOf (injectBody params)) "headers" =
      (params.headers.map HeaderMap.json).map snakeify := by
  have hbody : fieldsOf (injectBody params) = delete ["from", "to", "cc"]
      (renameFields camelToSnake [] (params.beforeHeaders ++
        present "headers" (params.headers.map HeaderMap.json) ++ params.behindHeaders)) := rfl
  have hpresent {name : String} (h : camelToSnake name ≠ "headers") (value : Option Json) :
      ∀ field ∈ present name value, camelToSnake field.1 ≠ "headers" :=
    forall_present (P := (camelToSnake · ≠ "headers")) h value
  rw [hbody, delete, Dict.get_filter _ fun _ => rfl, get_renameFields_between (by decide)]
  · cases params.headers <;> rfl
  · simp only [InjectEmailParams.beforeHeaders, List.forall_mem_append, List.forall_mem_cons]
    and_intros
    all_goals first | exact hpresent (by decide) _ | decide
  · simp only [InjectEmailParams.behindHeaders, List.forall_mem_append, List.forall_mem_cons]
    and_intros
    all_goals first | exact hpresent (by decide) _ | decide

theorem carries_injectBody_iff (params : InjectEmailParams) :
    Carries (injectBody params) "headers" params.headers ↔
      ∀ map ∈ params.headers, ∀ name ∈ map.names, KeptBySnakeify name := by
  have hget := get_injectBody params
  cases hheaders : params.headers with
  | none =>
    rw [hheaders] at hget
    exact iff_of_true hget fun _ hmap => (Option.not_mem_none _ hmap).elim
  | some map =>
    rw [hheaders] at hget
    rw [carries_of_get hget, sameHeaders_snakeify_iff]
    simp

theorem get_getEmail (detail : EmailDetail) :
    Dict.get (fieldsOf (getEmail detail)) "rawHeaders" =
      some (camelize detail.raw_headers.json) := by
  have hemail : fieldsOf (getEmail detail) = renameFields snakeToCamel []
      (detail.beforeRawHeaders ++ [("raw_headers", detail.raw_headers.json)] ++
        detail.behindRawHeaders) := by
    rw [getEmail, EmailDetail.json, camelize, rename, fieldsOf]
  rw [hemail, get_renameFields_between (by decide)]
  · rfl
  · simp only [EmailDetail.beforeRawHeaders, List.forall_mem_cons]
    and_intros
    all_goals decide
  · simp only [EmailDetail.behindRawHeaders, List.forall_mem_cons]
    and_intros
    all_goals decide

theorem carries_getEmail_iff (detail : EmailDetail) :
    Carries (getEmail detail) "rawHeaders" (some detail.raw_headers) ↔
      ∀ name ∈ detail.raw_headers.names, KeptByCamelize name := by
  rw [carries_of_get (get_getEmail detail), sameHeaders_camelize_iff]

/-- The bodies of requests, and an e-mail that is read, have exactly the names of the user. -/
structure KeepsNames (emails : List InjectEmailParams) (detail : EmailDetail) : Prop where
  inject : ∀ params ∈ emails, Carries (injectBody params) "headers" params.headers
  bulkInject : ∃ bodies, Dict.get (fieldsOf (bulkInjectBody emails)) "emails" = some (.arr bodies) ∧
    List.Forall₂ (fun body (params : InjectEmailParams) => Carries body "headers" params.headers)
      bodies emails
  get : Carries (getEmail detail) "rawHeaders" (some detail.raw_headers)

/-- No name of the user is lost just where no renaming changes one. -/
theorem names_kept_iff (emails : List InjectEmailParams) (detail : EmailDetail) :
    KeepsNames emails detail ↔
      (∀ params ∈ emails, ∀ map ∈ params.headers, ∀ name ∈ map.names, KeptBySnakeify name) ∧
        ∀ name ∈ detail.raw_headers.names, KeptByCamelize name := by
  constructor
  · intro h
    exact ⟨fun params hparams => (carries_injectBody_iff params).mp (h.inject params hparams),
      (carries_getEmail_iff detail).mp h.get⟩
  · intro ⟨hheaders, hraw⟩
    have hinject : ∀ params ∈ emails, Carries (injectBody params) "headers" params.headers :=
      fun params hparams => (carries_injectBody_iff params).mpr (hheaders params hparams)
    refine ⟨hinject, ⟨emails.map injectBody, rfl, ?_⟩, (carries_getEmail_iff detail).mpr hraw⟩
    rw [List.forall₂_map_left_iff, List.forall₂_same]
    exact hinject

def requestIdMap : HeaderMap := ⟨[("X-Request-ID", "1".toList)], by decide⟩

def traced : InjectEmailParams where
  mailbox := "a@b.example".toList
  from_ := "c@d.example".toList
  to_ := ["a@b.example".toList]
  subject := []
  headers := some requestIdMap

def received : EmailDetail where
  uid := "1".toList
  mailbox := "a@b.example".toList
  from_address := "c@d.example".toList
  to_addresses := ["a@b.example".toList]
  subject := []
  has_attachments := false
  is_read := false
  preview := []
  raw_headers := ⟨[], List.nodup_nil⟩

/-- A header that a caller names does not arrive under its name. -/
theorem header_renamed : ¬ KeepsNames [traced] received := by
  intro h
  have hkept := (carries_injectBody_iff traced).mp (h.inject traced (List.mem_singleton_self _))
    requestIdMap rfl "X-Request-ID" (List.mem_singleton_self _)
  have hletter := hkept.1 'X' (by decide)
  revert hletter
  decide

end MailCue.Sdk.Case
