import Mathlib
import MailCue.Backend.Sandbox.VoiceInterpreter
import MailCue.Lib.Talk

/-!
# Simulated calls

backend/app/sandbox/voice/worker.py: the driver of one call, its status transitions and
the execution of a voice document, with whatever the application answers and whichever
status callbacks raise. Every transition opens a session of its own and reads the row
again. The row stays where it is; waiting is left out.
-/
namespace MailCue.Backend.Sandbox.Voice
open MailCue.Lib

/-! ## Rows -/

inductive Status
  | queued | initiated | ringing | answered | in_progress | dialing
  | completed | failed | canceled | busy | no_answer
  deriving DecidableEq, Repr

def Status.isTerminal (status : Status) : Bool :=
  status ∈ [.completed, .failed, .canceled, .busy, .no_answer]

/-- In microseconds, with a time zone or without one. -/
structure Datetime where
  micros : Int
  aware : Bool
  deriving DecidableEq, Repr

structure Entry where
  type : VoiceActionType
  text : Option Text
  url : Option Text
  dial_to : Json
  timestamp : Datetime

structure SandboxCall where
  id : Text
  status : Status := .queued
  answer_url : Option Text := none
  answer_method : Text := "POST".toList
  duration_seconds : Int := 0
  answered_at : Option Datetime := none
  ended_at : Option Datetime := none
  transcript_json : List Entry := []

inductive Failure
  | callback
  | unreadable
  /-- `can't subtract offset-naive and offset-aware datetimes` -/
  | typeError
  | recursionError
  deriving DecidableEq, Repr

/-- `datetime.__sub__`, in microseconds. -/
def subtract (d e : Datetime) : Except Failure Int :=
  if d.aware = e.aware then .ok (d.micros - e.micros) else .error .typeError

def setStatus (status : Status) (now : Datetime) (call : SandboxCall) : SandboxCall :=
  { call with
    status := status
    answered_at := if status = .answered then some now else call.answered_at }

/-- The end of a call, with its length where it was answered. -/
def setEnd (now : Datetime) (call : SandboxCall) : Except Failure SandboxCall :=
  match call.answered_at with
  | none => .ok { call with ended_at := some now }
  | some answered_at => do
    let elapsed ← subtract now answered_at
    return { call with ended_at := some now, duration_seconds := max (elapsed.tdiv 1000000) 0 }

/-- What `_emit` makes of the row it has read. -/
def transition (status : Status) (now : Datetime) (call : SandboxCall) :
    Except Failure SandboxCall :=
  if status.isTerminal then setEnd now (setStatus status now call)
  else .ok (setStatus status now call)

/-! ## What passes between the driver, the database and the application -/

structure FollowUp where
  url : Text
  get : Bool
  payload : List (String × Text)

inductive Step
  /-- A transition is committed and its callback called. -/
  | emitted (call : SandboxCall) (extra : List (String × Json))
  | recorded (call : SandboxCall)
  | requested (request : FollowUp)

/-- What surrounds a call; it may depend on all that has passed. -/
structure World where
  py : Python
  /-- What a session reads back of a `DateTime` column. -/
  load : Datetime → Datetime
  /-- `datetime.now(UTC)` -/
  now : List Step → Int
  /-- Whether the callback of the last transition raises. -/
  raises : List Step → Bool
  /-- The answer to the last request, if there is one. -/
  reply : List Step → Option Text
  recursion_limit : Nat

structure VoiceCallEnvelope where
  provider_type : String
  seed_digits : Text
  seed_speech : Text
  /-- The row the call begins with. -/
  call : SandboxCall

def Step.row : Step → Option SandboxCall
  | emitted call _ => some call
  | recorded call => some call
  | requested _ => none

variable (w : World) (envelope : VoiceCallEnvelope)

/-- The row as a new session reads it. -/
def stored (log : List Step) : SandboxCall :=
  let call := (log.filterMap Step.row).getLast?.getD envelope.call
  { call with answered_at := call.answered_at.map w.load, ended_at := call.ended_at.map w.load }

def statuses (log : List Step) : List Status :=
  log.filterMap fun
    | .emitted call _ => some call.status
    | _ => none

/-! ## The driver -/

abbrev Driver := Talk Step Failure

def clock (log : List Step) : Datetime := ⟨w.now log, true⟩

/-- `_emit` -/
def emit (status : Status) (extra : List (String × Json)) : Driver Unit := do
  let call ← Talk.look (stored w envelope)
  let now ← Talk.look (clock w)
  let call ← Talk.ofExcept (transition status now call)
  Talk.exchange (fun _ => ()) fun _ => .emitted call extra
  let raised ← Talk.look w.raises
  Talk.ofExcept (if raised then .error .callback else .ok ())

/-- `_finish` -/
def finish (status : Status) : Driver Unit := emit w envelope status []

/-- `_record_transcript` -/
def recordTranscript (action : VoiceAction) : Driver Unit := do
  let call ← Talk.look (stored w envelope)
  let now ← Talk.look (clock w)
  let entry : Entry := ⟨action.type, action.text, action.url, action.dial_to, now⟩
  Talk.exchange (fun _ => ()) fun _ =>
    .recorded { call with transcript_json := call.transcript_json ++ [entry] }

def parse (body : Text) : Except Failure (List VoiceAction) :=
  (parseForProvider w.py envelope.provider_type body).mapError fun _ => .unreadable

def fetch (url method : Text) (payload : List (String × Text)) : Driver (Option Text) := do
  Talk.exchange (fun _ => ()) fun _ => .requested ⟨url, method == "GET".toList, payload⟩
  Talk.look w.reply

/-- `_fetch_ir` -/
def fetchIr (url method : Text) (call_id : Text) : Driver (List VoiceAction) := do
  match ← fetch w url method [("CallSid", call_id), ("CallStatus", "in-progress".toList),
      ("From", []), ("To", [])] with
  | none => return []
  | some body => Talk.ofExcept (parse w envelope body)

/-- `_fetch_raw` and the parsing of its answer. -/
def fetchNext (url method : Text) (payload : List (String × Text)) : Driver (List VoiceAction) := do
  let body ← fetch w url (w.py.upper method) payload
  Talk.ofExcept (parse w envelope (body.getD []))

def followPayload (action : VoiceAction) : List (String × Text) :=
  [("CallSid", envelope.call.id)] ++
  (if action.type = .gather ∧ envelope.seed_digits ≠ [] then [("Digits", envelope.seed_digits)]
    else []) ++
  (if action.type = .gather ∧ envelope.seed_speech ≠ [] ∧ "speech".toList ∈ action.input_types then
    [("SpeechResult", envelope.seed_speech)]
  else [])

def recordPayload : List (String × Text) :=
  [("CallSid", envelope.call.id),
    ("RecordingSid", "RE".toList ++ (envelope.call.id.filter (· != '-')).take 32),
    ("RecordingDuration", "3".toList),
    ("RecordingUrl", "https://sandbox.mailcue.local/recordings/".toList ++ envelope.call.id)]

/-- The loop of `_execute_ir`; `follow` executes the next document. -/
def runActions (follow : List VoiceAction → Driver Unit) : List VoiceAction → Driver Unit
  | [] => pure ()
  | action :: actions => do
    recordTranscript w envelope action
    match action.type with
    | .hangup => pure ()
    | .reject => emit w envelope .canceled []
    | .redirect | .gather =>
      match orElse action.action_url action.url with
      | some (c :: url) => do
        let method := if action.action_method = [] then action.method else action.action_method
        let next ← fetchNext w envelope (c :: url) method (followPayload envelope action)
        follow next
      | _ => runActions follow actions
    | .record =>
      match action.action_url with
      | some (c :: url) => do
        let next ← fetchNext w envelope (c :: url) action.action_method (recordPayload envelope)
        follow next
      | _ => runActions follow actions
    | .dial => do
      emit w envelope .dialing [("dial_to", action.dial_to)]
      runActions follow actions
    | _ => runActions follow actions

/-- `_execute_ir`, with so many frames left. -/
def executeIr : Nat → List VoiceAction → Driver Unit
  | 0, _ => Talk.ofExcept (.error .recursionError)
  | frames + 1, actions => runActions w envelope (executeIr frames) actions

/-- What `_drive_call` tries. -/
def attempted : Driver Unit := do
  emit w envelope .initiated []
  emit w envelope .ringing []
  let call ← Talk.look (stored w envelope)
  match call.answer_url with
  | none => do
    emit w envelope .answered []
    finish w envelope .completed
  | some url => do
    let method := w.py.upper (if call.answer_method = [] then "POST".toList else call.answer_method)
    let ir ← fetchIr w envelope url method call.id
    emit w envelope .answered []
    executeIr w envelope w.recursion_limit ir
    finish w envelope .completed

/-- `_drive_call` -/
def driveCall : Driver Unit := do
  match ← Talk.attempt (attempted w envelope) with
  | .ok _ => pure ()
  | .error _ => do
    let _ ← Talk.attempt (finish w envelope .failed)
    pure ()

/-- All that passes in a call. -/
def run : List Step := (driveCall w envelope []).2

/-- `initiated`, `ringing`, `answered`, what happens in the call, and one end. -/
def Lifecycle (statuses : List Status) (final : Status) : Prop :=
  ∃ middle last, statuses = [.initiated, .ringing, .answered] ++ middle ++ [last] ∧
    (∀ status ∈ middle, status = .in_progress ∨ status = .dialing) ∧
    last.isTerminal = true ∧ final = last

/-! ## An answered call does not end -/

/-- The row of an answered call says so, and no end follows the answer. -/
structure Unended (log : List Step) : Prop where
  answered_at : .answered ∈ statuses log → (stored w envelope log).answered_at.isSome = true
  no_end : (statuses log).Pairwise fun earlier later =>
    earlier = .answered → later.isTerminal = false

theorem statuses_emitted (log : List Step) (call : SandboxCall) (extra : List (String × Json)) :
    statuses (log ++ [.emitted call extra]) = statuses log ++ [call.status] := by
  simp [statuses]

theorem stored_row (log : List Step) (step : Step) {call : SandboxCall}
    (h : step.row = some call) :
    (stored w envelope (log ++ [step])).answered_at = call.answered_at.map w.load := by
  simp [stored, h]

theorem setEnd_ok {now : Datetime} {call after : SandboxCall} (h : setEnd now call = .ok after) :
    after.status = call.status ∧ after.answered_at = call.answered_at ∧
      ∀ d, call.answered_at = some d → now.aware = d.aware := by
  unfold setEnd at h
  split at h
  · rename_i hnone
    rw [← Except.ok.inj h]
    exact ⟨rfl, rfl, fun d hd => by rw [hnone] at hd; cases hd⟩
  · rename_i answered_at hsome
    unfold subtract at h
    split at h
    · rename_i haware
      rw [← Except.ok.inj h]
      refine ⟨rfl, rfl, fun d hd => ?_⟩
      rw [hsome] at hd
      rw [← Option.some.inj hd]
      exact haware
    · cases h

/-- An end is reached only where the two times can be subtracted. -/
theorem transition_ok {status : Status} {now : Datetime} {call after : SandboxCall}
    (h : transition status now call = .ok after) :
    after.status = status ∧
      after.answered_at = (if status = .answered then some now else call.answered_at) ∧
      (status.isTerminal = true → ∀ d, call.answered_at = some d → now.aware = d.aware) := by
  unfold transition at h
  split at h
  · rename_i hterminal
    obtain ⟨hstatus, hanswered, haware⟩ := setEnd_ok h
    refine ⟨hstatus, hanswered, fun _ d hd => haware d ?_⟩
    have hother : status ≠ .answered := by
      rintro rfl
      cases hterminal
    rw [setStatus, if_neg hother]
    exact hd
  · rename_i hterminal
    rw [← Except.ok.inj h]
    exact ⟨rfl, rfl, fun hend => absurd hend hterminal⟩

theorem emit_record (status : Status) (extra : List (String × Json)) (log : List Step) :
    (emit w envelope status extra log).2 =
      match transition status (clock w log) (stored w envelope log) with
      | .ok call => log ++ [.emitted call extra]
      | .error _ => log := by
  simp only [emit, Bind.bind, Talk.look, Talk.ofExcept, Talk.exchange]
  cases transition status (clock w log) (stored w envelope log) <;> rfl

variable {w envelope} {α : Type} {m : Driver α}

theorem Unended.emit {log : List Step} (hnaive : ∀ d, (w.load d).aware = false)
    (h : Unended w envelope log) (status : Status) (extra : List (String × Json)) :
    Unended w envelope (emit w envelope status extra log).2 := by
  rw [emit_record]
  cases htransition : transition status (clock w log) (stored w envelope log) with
  | error failure => exact h
  | ok call =>
    obtain ⟨hstatus, hanswered, haware⟩ := transition_ok htransition
    have hrow := stored_row w envelope log (.emitted call extra) rfl
    constructor
    · intro hmem
      rw [statuses_emitted, List.mem_append, List.mem_singleton, hstatus] at hmem
      rw [hrow, hanswered, Option.isSome_map]
      split
      · rfl
      · rename_i hother
        exact h.answered_at (hmem.resolve_right fun heq => hother heq.symm)
    · rw [statuses_emitted]
      refine List.pairwise_append.mpr ⟨h.no_end, List.pairwise_singleton _ _, ?_⟩
      rintro earlier hearlier later hlater rfl
      rw [List.mem_singleton.mp hlater, hstatus]
      by_contra hend
      -- the time that is read back has no zone, the end of the call has one
      obtain ⟨d, hd⟩ := Option.isSome_iff_exists.mp (h.answered_at hearlier)
      have hzone := haware (by simpa using hend) d hd
      obtain ⟨written, -, rfl⟩ := Option.map_eq_some_iff.mp hd
      rw [hnaive written] at hzone
      cases hzone

theorem keeps_emit (hnaive : ∀ d, (w.load d).aware = false) (status : Status)
    (extra : List (String × Json)) :
    Talk.Keeps (Unended w envelope) (emit w envelope status extra) :=
  fun _ h => h.emit hnaive status extra

/-- Steps without a status leave it so, if the row stays answered. -/
theorem Unended.concat {log : List Step} (h : Unended w envelope log) {step : Step}
    (hquiet : statuses [step] = [])
    (hrow : (stored w envelope log).answered_at.isSome = true →
      (stored w envelope (log ++ [step])).answered_at.isSome = true) :
    Unended w envelope (log ++ [step]) := by
  have hstatuses : statuses (log ++ [step]) = statuses log := by
    rw [statuses, List.filterMap_append]
    exact (congrArg (statuses log ++ ·) hquiet).trans (List.append_nil _)
  constructor
  · intro hmem
    rw [hstatuses] at hmem
    exact hrow (h.answered_at hmem)
  · rw [hstatuses]
    exact h.no_end

theorem keeps_recordTranscript (action : VoiceAction) :
    Talk.Keeps (Unended w envelope) (recordTranscript w envelope action) := by
  intro log h
  refine h.concat rfl fun hanswered => ?_
  rw [stored_row w envelope log (.recorded _) rfl, Option.isSome_map]
  exact hanswered

theorem keeps_fetch (url method : Text) (payload : List (String × Text)) :
    Talk.Keeps (Unended w envelope) (fetch w url method payload) := by
  refine .bind (.exchange fun log h _ => h.concat rfl fun hanswered => ?_) fun _ => .look _
  simpa [stored, Step.row] using hanswered

theorem keeps_fetchIr (url method call_id : Text) :
    Talk.Keeps (Unended w envelope) (fetchIr w envelope url method call_id) := by
  refine .bind (keeps_fetch url method _) fun reply => ?_
  cases reply with
  | none => exact .ofPure _
  | some body => exact .ofExcept _

theorem keeps_fetchNext (url method : Text) (payload : List (String × Text)) :
    Talk.Keeps (Unended w envelope) (fetchNext w envelope url method payload) :=
  .bind (keeps_fetch url _ payload) fun _ => .ofExcept _

/-- One document, where the next does. -/
theorem keeps_runActions (hnaive : ∀ d, (w.load d).aware = false)
    {follow : List VoiceAction → Driver Unit}
    (hfollow : ∀ next, Talk.Keeps (Unended w envelope) (follow next))
    (actions : List VoiceAction) :
    Talk.Keeps (Unended w envelope) (runActions w envelope follow actions) := by
  induction actions with
  | nil => exact .ofPure ()
  | cons action actions ih =>
    rw [runActions]
    refine .bind (keeps_recordTranscript action) fun _ => ?_
    have hnext : ∀ url method payload, Talk.Keeps (Unended w envelope)
        (fetchNext w envelope url method payload >>= follow) := fun url method payload =>
      .bind (keeps_fetchNext url method payload) hfollow
    cases action.type with
    | hangup => exact .ofPure ()
    | reject => exact keeps_emit hnaive .canceled []
    | redirect | gather =>
      dsimp only
      split
      · exact hnext _ _ _
      · exact ih
    | record =>
      dsimp only
      split
      · exact hnext _ _ _
      · exact ih
    | dial => exact .bind (keeps_emit hnaive .dialing _) fun _ => ih
    | say | play | pause | conversation => exact ih

/-- However many documents follow each other. -/
theorem keeps_executeIr (hnaive : ∀ d, (w.load d).aware = false) (frames : Nat)
    (actions : List VoiceAction) :
    Talk.Keeps (Unended w envelope) (executeIr w envelope frames actions) := by
  induction frames generalizing actions with
  | zero => exact .ofExcept _
  | succ frames ih => exact keeps_runActions hnaive ih actions

theorem keeps_attempted (hnaive : ∀ d, (w.load d).aware = false) :
    Talk.Keeps (Unended w envelope) (attempted w envelope) := by
  refine .bind (keeps_emit hnaive .initiated []) fun _ => ?_
  refine .bind (keeps_emit hnaive .ringing []) fun _ => ?_
  refine .bind (.look _) fun call => ?_
  split
  · exact .bind (keeps_emit hnaive .answered []) fun _ => keeps_emit hnaive .completed []
  · refine .bind (keeps_fetchIr _ _ _) fun ir => ?_
    refine .bind (keeps_emit hnaive .answered []) fun _ => ?_
    refine .bind (keeps_executeIr hnaive w.recursion_limit ir) fun _ => ?_
    exact keeps_emit hnaive .completed []

theorem keeps_driveCall (hnaive : ∀ d, (w.load d).aware = false) :
    Talk.Keeps (Unended w envelope) (driveCall w envelope) := by
  refine .bind (.attempt (keeps_attempted hnaive)) fun result => ?_
  cases result with
  | ok _ => exact .ofPure ()
  | error failure =>
    exact .bind (.attempt (keeps_emit hnaive .failed [])) fun _ => .ofPure ()

theorem unended_run (hnaive : ∀ d, (w.load d).aware = false) :
    Unended w envelope (run w envelope) :=
  keeps_driveCall hnaive [] ⟨nofun, List.Pairwise.nil⟩

theorem not_lifecycle {log : List Step} (h : Unended w envelope log) (final : Status) :
    ¬ Lifecycle (statuses log) final := by
  rintro ⟨middle, last, hstatuses, -, hend, -⟩
  have hpairs := h.no_end
  rw [hstatuses] at hpairs
  have hopen := (List.pairwise_append.mp hpairs).2.2 .answered (by simp) last
    (List.mem_singleton_self last) rfl
  rw [hopen] at hend
  cases hend

/-- No call goes through its lifecycle: the time of the answer is read back without its
zone, so that the call cannot be ended any more. -/
theorem driveCall_no_lifecycle (w : World) (envelope : VoiceCallEnvelope)
    (hnaive : ∀ d, (w.load d).aware = false) :
    ¬ Lifecycle (statuses (run w envelope)) (stored w envelope (run w envelope)).status :=
  not_lifecycle (unended_run hnaive) _

/-! ## A call that is connected -/

def dialDocument : Text := "<Response><Dial>+15551234567</Dial></Response>".toList

def rejectDocument : Text := "<Response><Reject/></Response>".toList

def testPython : Python where
  fromstring body :=
    let response (verb : Element) : Element := .mk "Response".toList [] none [verb]
    .ok (if body = dialDocument then
      some (response (.mk "Dial".toList [] (some "+15551234567".toList) []))
    else if body = rejectDocument then some (response (.mk "Reject".toList [] none []))
    else none)
  loads _ := .ok none
  lower := Text.asciiLower
  upper text := text.map Char.toUpper
  int text := (String.ofList text).toInt?
  intOfFloat text := (String.ofList text).toInt?
  intOfJson
    | .num n => some n
    | _ => none
  str
    | .str text => text
    | _ => []

/-- The application answers with one document, and a session reads times without zone. -/
def dialWorld : World where
  py := testPython
  load d := { d with aware := false }
  now log := 1000000 * log.length
  raises _ := false
  reply _ := some dialDocument
  recursion_limit := 1000

def dialCall : VoiceCallEnvelope where
  provider_type := "twilio"
  seed_digits := "1".toList
  seed_speech := "yes".toList
  call := { id := "c1".toList, answer_url := some "https://app/answer".toList }

theorem briefCall_no_lifecycle :
    ¬ Lifecycle (statuses (run dialWorld { dialCall with call := { id := "c2".toList } }))
      (stored dialWorld { dialCall with call := { id := "c2".toList } }
        (run dialWorld { dialCall with call := { id := "c2".toList } })).status :=
  driveCall_no_lifecycle dialWorld { dialCall with call := { id := "c2".toList } } fun _ => rfl

theorem dialCall_stays_dialing :
    ¬ Lifecycle (statuses (run dialWorld dialCall))
      (stored dialWorld dialCall (run dialWorld dialCall)).status := by
  have hstatuses : statuses (run dialWorld dialCall) =
      [.initiated, .ringing, .answered, .dialing] := by rfl
  rw [hstatuses]
  rintro ⟨middle, last, hsame, -, hend, -⟩
  have hlast := congrArg List.getLast? hsame
  rw [List.getLast?_concat] at hlast
  rw [← Option.some.inj hlast] at hend
  cases hend

/-- With the zone kept, the same call would have ended, and a rejected one twice. -/
example : statuses (run { dialWorld with load := id } dialCall) =
    [.initiated, .ringing, .answered, .dialing, .completed] := by rfl

example : statuses (run { dialWorld with load := id, reply := fun _ => rejectDocument } dialCall) =
    [.initiated, .ringing, .answered, .canceled, .completed] := by rfl

end MailCue.Backend.Sandbox.Voice
