import MailCue.Backend.Sandbox.Service
import MailCue.Backend.Sandbox.TwilioWebhooks
import MailCue.Lib.Fallible

/-!
# The webhook worker

backend/app/sandbox/webhook_worker.py: what is posted to the endpoints of a provider for a
message, and the attempts that are recorded. The hooks of a plugin may raise, and so may
what sends a request and reads the response.
-/
namespace MailCue.Backend.Sandbox.WebhookWorker
open MailCue.Lib
open Twilio (Headers Python)

abbrev Signer := Headers → Text → Except Text Headers

/-- The hooks of `BaseSandboxProvider` that a delivery calls. -/
structure Hooks where
  buildWebhookPayload : SandboxMessage → String → Except Text Json
  webhookContentType : SandboxMessage → String → Except Text String
  buildWebhookSigner : SandboxMessage → SandboxProvider → Text → Text →
    Except Text (Option Signer)

/-- What becomes of a request: `resp.text` raises where the charset of the response is a
codec that decodes no text, with the status already at hand. -/
inductive Posted
  | answered (status : Nat) (text : Text)
  | unreadable (status : Nat) (error : Text)
  | failed (error : Text)

structure World where
  getProvider : String → Option Hooks
  py : Python
  dumps : Json → Except Text Text
  post : SandboxWebhookEndpoint → Nat → Twilio.Request → Posted
  draw : SandboxWebhookEndpoint → Nat → Draw

/-! ## One attempt -/

def below400 (status_code : Option Nat) : Bool := status_code.any (· < 400)

/-- The attempt ends the loop. -/
def Posted.accepted : Posted → Bool
  | .answered status _ => status < 400
  | _ => false

/-- A status below 400 is recorded, and the loop goes on. -/
def Posted.overlooked : Posted → Bool
  | .unreadable status _ => status < 400
  | _ => false

/-- `payload` of a delivery. -/
def storedPayload : Json → Json.Fields
  | .obj fields => fields
  | payload => [("__array__", payload)]

def recorded (world : World) (endpoint : SandboxWebhookEndpoint) (message : SandboxMessage)
    (payload : Json) (attempt : Nat) (posted : Posted) : SandboxWebhookDelivery :=
  let draw := world.draw endpoint attempt
  let delivery : SandboxWebhookDelivery :=
    { id := draw.id, endpoint_id := endpoint.id, message_id := some message.id
      event_type := eventType message, payload := storedPayload payload, attempt
      created_at := draw.now }
  match posted with
  | .answered status text =>
    { delivery with
      status_code := some status, response_body := some (text.take 2000)
      delivered_at := some draw.now }
  | .unreadable status error =>
    { delivery with status_code := some status, response_body := some (error.take 2000) }
  | .failed error => { delivery with response_body := some (error.take 2000) }

section
variable {world : World} {endpoint : SandboxWebhookEndpoint} {message : SandboxMessage}
  {payload : Json} {attempt : Nat} {posted : Posted}

@[simp] theorem recorded_endpoint_id :
    (recorded world endpoint message payload attempt posted).endpoint_id = endpoint.id := by
  cases posted <;> rfl

theorem below400_recorded :
    below400 (recorded world endpoint message payload attempt posted).status_code =
      (posted.accepted || posted.overlooked) := by
  cases posted with
  | answered status text => exact (Bool.or_false _).symm
  | unreadable status error => exact (Bool.false_or _).symm
  | failed error => rfl

end

/-! ## One endpoint -/

/-- `_serialise_payload`, with the name of the content type. -/
def serialisePayload (world : World) (payload : Json) (content_type : String) :
    Except Text (Text × Text) :=
  match content_type, payload with
  | "form", .obj fields =>
    .ok (Twilio.serialisePayload world.py (fields.map fun entry => (entry.1.toList, entry.2)),
      "application/x-www-form-urlencoded".toList)
  | _, payload => do return (← world.dumps payload, "application/json".toList)

/-- The payload of a provider without a plugin. -/
def defaultPayload (message : SandboxMessage) : Json :=
  .obj [("event", .str (eventType message).toList),
    ("message", .obj [("id", .str message.id.toList),
      ("direction", .str message.direction.toList), ("sender", .str message.sender.toList),
      ("content", (message.content.map fun text => Json.str text.toList).getD .null)])]

/-- `_deliver_to_endpoint` up to its loop: the payload and the request. -/
def prepare (world : World) (message : SandboxMessage) (provider_record : SandboxProvider)
    (plugin : Option Hooks) (endpoint : SandboxWebhookEndpoint) :
    Except Text (Json × Twilio.Request) := do
  let (payload, content_type_label) ← match plugin with
    | some plugin => do
      let payload ← plugin.buildWebhookPayload message (eventType message)
      pure (payload, ← plugin.webhookContentType message (eventType message))
    | none => pure (defaultPayload message, "json")
  let (body_bytes, content_type_header) ← serialisePayload world payload content_type_label
  let base_headers : Headers :=
    [("Content-Type", content_type_header), ("User-Agent", "MailCue-Sandbox/1.0".toList)]
  let delivery_url := Twilio.rewriteLocalhostUrl world.py endpoint.url.toList
  let signer ← match plugin with
    | some plugin => plugin.buildWebhookSigner message provider_record delivery_url body_bytes
    | none => pure none
  let headers ← match signer with
    | some signer => signer base_headers body_bytes
    | none => pure base_headers
  return (payload, { url := delivery_url, headers, body := body_bytes })

/-- The loop over the attempts: what is posted in each, up to the first accepted one. -/
def attempts (post : Nat → Posted) (attempt : Nat) : Nat → List (Nat × Posted)
  | 0 => []
  | left + 1 =>
    (attempt, post attempt) ::
      if (post attempt).accepted then [] else attempts post (attempt + 1) left

/-- `_deliver_to_endpoint`, with the rows it adds. -/
def deliverToEndpoint (world : World) (message : SandboxMessage)
    (provider_record : SandboxProvider) (plugin : Option Hooks)
    (endpoint : SandboxWebhookEndpoint) : Except Text (List SandboxWebhookDelivery) := do
  let (payload, request) ← prepare world message provider_record plugin endpoint
  return (attempts (fun attempt => world.post endpoint attempt request) 1 maxRetries).map
    fun entry => recorded world endpoint message payload entry.1 entry.2

/-! ## All endpoints -/

/-- The loop over the endpoints: what raises ends it. -/
def deliverAll (deliver : SandboxWebhookEndpoint → Except Text (List SandboxWebhookDelivery)) :
    List SandboxWebhookEndpoint → List SandboxWebhookDelivery × Option Text
  | [] => ([], none)
  | endpoint :: rest =>
    match deliver endpoint with
    | .error error => ([], some error)
    | .ok rows => let later := deliverAll deliver rest; (rows ++ later.1, later.2)

def activeEndpoints (db : Database) (message : SandboxMessage) : List SandboxWebhookEndpoint :=
  db.endpoints.rows.filter fun row => row.provider_id == message.provider_id && row.is_active

/-- `deliver_webhooks`: the rows it adds, and what it raises. -/
def deliverWebhooks (world : World) (db : Database) (message : SandboxMessage) :
    List SandboxWebhookDelivery × Option Text :=
  match activeEndpoints db message with
  | [] => ([], none)
  | endpoints =>
    match db.providers.find message.provider_id with
    | none => ([], none)
    | some provider_record =>
      deliverAll (deliverToEndpoint world message provider_record
        (world.getProvider provider_record.provider_type)) endpoints

/-! ## The attempts at one endpoint -/

section
variable (post : Nat → Posted)

theorem attempts_ne_nil {attempt left : Nat} (hleft : 0 < left) :
    attempts post attempt left ≠ [] := by
  cases left with
  | zero => exact absurd hleft (Nat.lt_irrefl 0)
  | succ left => exact List.cons_ne_nil _ _

theorem length_attempts_le (attempt left : Nat) : (attempts post attempt left).length ≤ left := by
  induction left generalizing attempt with
  | zero => exact Nat.le_refl _
  | succ left ih =>
    rw [attempts, List.length_cons]
    split
    · exact Nat.le_add_left 1 left
    · exact Nat.succ_le_succ (ih (attempt + 1))

/-- No attempt but the last is accepted, and the last one is where tries are left. -/
theorem last_accepted (attempt left : Nat) (hleft : 0 < left) :
    (attempts post attempt left).length = left ∨
      ∃ entry, (attempts post attempt left).getLast? = some entry ∧ entry.2.accepted = true := by
  induction left generalizing attempt with
  | zero => exact absurd hleft (Nat.lt_irrefl 0)
  | succ left ih =>
    rw [attempts]
    split
    · next haccepted => exact .inr ⟨_, rfl, haccepted⟩
    · cases left with
      | zero => exact .inl rfl
      | succ left =>
        rcases ih (attempt + 1) (Nat.succ_pos left) with hall | ⟨entry, hlast, haccepted⟩
        · exact .inl (congrArg (· + 1) hall)
        · exact .inr ⟨entry, by rw [List.getLast?_cons, hlast]; rfl, haccepted⟩

/-- When the loop goes on behind no status below 400. -/
theorem dropLast_attempts (attempt left : Nat) :
    (∀ entry ∈ (attempts post attempt left).dropLast,
        (entry.2.accepted || entry.2.overlooked) = false) ↔
      ∀ k, attempt ≤ k → k + 1 < attempt + left → (post k).overlooked = true →
        ∃ j, attempt ≤ j ∧ j < k ∧ (post j).accepted = true := by
  induction left generalizing attempt with
  | zero =>
    constructor
    · intro _ k hk hlast
      omega
    · intro _ entry hentry
      cases hentry
  | succ left ih =>
    rw [attempts]
    split
    · next haccepted =>
      constructor
      · intro _ k hk _ hoverlooked
        rcases Nat.eq_or_lt_of_le hk with heq | hlt
        · subst heq
          exact absurd hoverlooked (by cases hpost : post attempt <;> simp_all [Posted.accepted,
            Posted.overlooked])
        · exact ⟨attempt, Nat.le_refl _, hlt, haccepted⟩
      · intro _ entry hentry
        cases hentry
    · next hrefused =>
      have hrefused : (post attempt).accepted = false := by simpa using hrefused
      cases left with
      | zero =>
        constructor
        · intro _ k hk hlast
          omega
        · intro _ entry hentry
          cases hentry
      | succ left =>
        rw [List.dropLast_cons_of_ne_nil (attempts_ne_nil post (Nat.succ_pos left)),
          List.forall_mem_cons, ih (attempt + 1)]
        simp only [hrefused, Bool.false_or]
        constructor
        · intro ⟨hfirst, hrest⟩ k hk hlast hoverlooked
          rcases Nat.eq_or_lt_of_le hk with heq | hlt
          · subst heq
            cases hfirst.symm.trans hoverlooked
          · obtain ⟨j, hj, hjk, haccepted⟩ := hrest k hlt (by omega) hoverlooked
            exact ⟨j, by omega, hjk, haccepted⟩
        · intro h
          constructor
          · by_contra hoverlooked
            have hover : (post attempt).overlooked = true := by simpa using hoverlooked
            obtain ⟨j, hj, hjk, _⟩ := h attempt (Nat.le_refl _) (by omega) hover
            omega
          · intro k hk hlast hoverlooked
            obtain ⟨j, hj, hjk, haccepted⟩ := h k (by omega) (by omega) hoverlooked
            rcases Nat.eq_or_lt_of_le hj with heq | hlt
            · subst heq
              cases hrefused.symm.trans haccepted
            · exact ⟨j, hlt, hjk, haccepted⟩

end

/-- At least one attempt and at most `MAX_RETRIES`, up to the first status below 400. -/
structure Attempted (rows : List SandboxWebhookDelivery) : Prop where
  at_least_one : rows ≠ []
  at_most : rows.length ≤ maxRetries
  stopped : ∀ row ∈ rows.dropLast, below400 row.status_code = false
  exhausted : rows.length = maxRetries ∨
    ∃ row, rows.getLast? = some row ∧ below400 row.status_code = true

/-- No response of a status below 400 is left unread with tries left, but behind an
accepted one. -/
def Readable (post : Nat → Posted) : Prop :=
  ∀ k, 1 ≤ k → k < maxRetries → (post k).overlooked = true →
    ∃ j, 1 ≤ j ∧ j < k ∧ (post j).accepted = true

theorem attempted_iff (world : World) (endpoint : SandboxWebhookEndpoint)
    (message : SandboxMessage) (payload : Json) (post : Nat → Posted) :
    Attempted ((attempts post 1 maxRetries).map fun entry =>
        recorded world endpoint message payload entry.1 entry.2) ↔ Readable post := by
  have hstopped := dropLast_attempts post 1 maxRetries
  constructor
  · intro h k hk hlast
    refine hstopped.mp (fun entry hentry => ?_) k hk (by omega)
    rw [← below400_recorded]
    exact h.stopped _ (List.map_dropLast ▸ List.mem_map_of_mem hentry)
  · intro h
    refine ⟨?_, ?_, ?_, ?_⟩
    · simpa using attempts_ne_nil post (by decide)
    · rw [List.length_map]
      exact length_attempts_le post 1 maxRetries
    · intro row hrow
      rw [← List.map_dropLast] at hrow
      obtain ⟨entry, hentry, rfl⟩ := List.mem_map.mp hrow
      rw [below400_recorded]
      exact hstopped.mpr (fun k hk hlast => h k hk (by omega)) entry hentry
    · have hlast := last_accepted post 1 maxRetries (by decide)
      rcases hlast with hall | ⟨entry, hlast, haccepted⟩
      · exact .inl (by rw [List.length_map, hall])
      · refine .inr ⟨_, by rw [List.getLast?_map, hlast]; rfl, ?_⟩
        rw [below400_recorded, haccepted]
        rfl

/-! ## The loop over the endpoints -/

def rowsAt (endpoint : SandboxWebhookEndpoint) (rows : List SandboxWebhookDelivery) :
    List SandboxWebhookDelivery :=
  rows.filter fun row => row.endpoint_id == endpoint.id

/-- The rows of an endpoint, where nothing else raises. -/
def ownRows (deliver : SandboxWebhookEndpoint → Except Text (List SandboxWebhookDelivery))
    (endpoint : SandboxWebhookEndpoint) : List SandboxWebhookDelivery :=
  (deliver endpoint).toOption.getD []

section
variable {deliver : SandboxWebhookEndpoint → Except Text (List SandboxWebhookDelivery)}
  (hdeliver : ∀ endpoint rows, deliver endpoint = .ok rows →
    ∀ row ∈ rows, row.endpoint_id = endpoint.id)
include hdeliver

theorem rowsAt_of_deliver {endpoint : SandboxWebhookEndpoint} {rows : List SandboxWebhookDelivery}
    (hrows : deliver endpoint = .ok rows) : rowsAt endpoint rows = rows :=
  List.filter_eq_self.mpr fun row hrow => beq_iff_eq.mpr (hdeliver endpoint rows hrows row hrow)

theorem rowsAt_of_other {endpoint other : SandboxWebhookEndpoint}
    {rows : List SandboxWebhookDelivery} (hrows : deliver other = .ok rows)
    (hid : other.id ≠ endpoint.id) : rowsAt endpoint rows = [] := by
  apply List.filter_eq_nil_iff.mpr
  intro row hrow
  rw [hdeliver other rows hrows row hrow]
  simpa using hid

theorem rowsAt_deliverAll_of_not_mem {endpoint : SandboxWebhookEndpoint}
    {endpoints : List SandboxWebhookEndpoint} (hids : endpoint.id ∉ endpoints.map (·.id)) :
    rowsAt endpoint (deliverAll deliver endpoints).1 = [] := by
  induction endpoints with
  | nil => rfl
  | cons other rest ih =>
    rw [List.map_cons, List.mem_cons, not_or] at hids
    rw [deliverAll]
    split
    · rfl
    · next rows hrows =>
      show rowsAt endpoint (rows ++ (deliverAll deliver rest).1) = []
      rw [rowsAt, List.filter_append]
      have hother := rowsAt_of_other hdeliver hrows (Ne.symm hids.1)
      rw [rowsAt] at hother
      rw [hother, List.nil_append]
      exact ih hids.2

/-- An endpoint gets its own rows where nothing before it raises. -/
theorem rowsAt_deliverAll {endpoint : SandboxWebhookEndpoint}
    {before after : List SandboxWebhookEndpoint}
    (hids : ((before ++ endpoint :: after).map (·.id)).Nodup) :
    rowsAt endpoint (deliverAll deliver (before ++ endpoint :: after)).1 =
      if before.all fun earlier => (deliver earlier).isOk then ownRows deliver endpoint
      else [] := by
  induction before with
  | nil =>
    rw [List.nil_append, List.map_cons, List.nodup_cons] at hids
    rw [List.nil_append, deliverAll, List.all_nil, if_pos rfl, ownRows]
    split
    · next error herror =>
      rw [herror]
      rfl
    · next rows hrows =>
      show rowsAt endpoint (rows ++ (deliverAll deliver after).1) = _
      have hown := rowsAt_of_deliver hdeliver hrows
      have hlater := rowsAt_deliverAll_of_not_mem hdeliver hids.1
      rw [rowsAt] at hown hlater
      rw [rowsAt, List.filter_append, hown, hlater, List.append_nil, hrows]
      rfl
  | cons first before ih =>
    rw [List.cons_append, List.map_cons, List.nodup_cons] at hids
    rw [List.cons_append, deliverAll, List.all_cons]
    split
    · next error herror =>
      rw [herror]
      rfl
    · next rows hrows =>
      have hid : first.id ≠ endpoint.id := fun heq => hids.1 (by simp [heq])
      have hother := rowsAt_of_other hdeliver hrows hid
      show rowsAt endpoint (rows ++ (deliverAll deliver (before ++ endpoint :: after)).1) = _
      rw [rowsAt] at hother
      rw [rowsAt, List.filter_append, hother, List.nil_append, hrows]
      exact ih hids.2

end

theorem pairwise_of_splits {α : Type} {R : α → α → Prop} {items : List α}
    (h : ∀ before item after, items = before ++ item :: after →
      ∀ earlier ∈ before, R earlier item) :
    items.Pairwise R := by
  induction items with
  | nil => exact .nil
  | cons first rest ih =>
    refine .cons (fun item hitem => ?_) (ih fun before item after hsplit earlier hearlier => ?_)
    · obtain ⟨before, after, hsplit⟩ := List.append_of_mem hitem
      exact h (first :: before) item after (by rw [hsplit]; rfl) first (List.mem_cons_self ..)
    · exact h (first :: before) item after (by rw [hsplit]; rfl) earlier
        (List.mem_cons_of_mem _ hearlier)

/-! ## The fan-out -/

/-- The endpoint takes the event of the message. -/
def subscribed (endpoint : SandboxWebhookEndpoint) (message : SandboxMessage) : Prop :=
  endpoint.event_types = [] ∨ eventType message ∈ endpoint.event_types

instance (endpoint : SandboxWebhookEndpoint) (message : SandboxMessage) :
    Decidable (subscribed endpoint message) := by
  unfold subscribed
  infer_instance

/-- With no other endpoint registered. -/
def alone (db : Database) (endpoint : SandboxWebhookEndpoint) : Database :=
  { db with endpoints := db.endpoints.filter fun row => row.id == endpoint.id }

def attemptsAt (world : World) (db : Database) (message : SandboxMessage)
    (endpoint : SandboxWebhookEndpoint) : List SandboxWebhookDelivery :=
  rowsAt endpoint (deliverWebhooks world db message).1

/-- What an endpoint of the provider gets for a message. -/
structure Served (world : World) (db : Database) (message : SandboxMessage)
    (endpoint : SandboxWebhookEndpoint) : Prop where
  attempted : endpoint.is_active = true → subscribed endpoint message →
    Attempted (attemptsAt world db message endpoint)
  excluded : ¬ subscribed endpoint message → attemptsAt world db message endpoint = []
  independent : attemptsAt world db message endpoint =
    attemptsAt world (alone db endpoint) message endpoint

def FannedOut (world : World) (db : Database) (message : SandboxMessage) : Prop :=
  ∀ endpoint ∈ db.endpoints.rows, endpoint.provider_id = message.provider_id →
    Served world db message endpoint

/-- The payload, the request and the signature of an endpoint can be had. -/
def Prepared (world : World) (message : SandboxMessage) (provider_record : SandboxProvider)
    (endpoint : SandboxWebhookEndpoint) : Prop :=
  Succeeds (prepare world message provider_record
    (world.getProvider provider_record.provider_type) endpoint)

structure Deliverable (world : World) (db : Database) (message : SandboxMessage)
    (provider_record : SandboxProvider) : Prop where
  subscribed_iff : ∀ endpoint ∈ activeEndpoints db message,
    subscribed endpoint message ↔ Prepared world message provider_record endpoint
  in_order : (activeEndpoints db message).Pairwise fun earlier later =>
    Prepared world message provider_record later → Prepared world message provider_record earlier
  readable : ∀ endpoint ∈ activeEndpoints db message, ∀ payload request,
    prepare world message provider_record (world.getProvider provider_record.provider_type)
      endpoint = .ok (payload, request) →
    Readable fun attempt => world.post endpoint attempt request

section
variable {world : World} {db : Database} {message : SandboxMessage}
  {provider_record : SandboxProvider} {endpoint : SandboxWebhookEndpoint}

/-- `_deliver_to_endpoint` for one of the endpoints of a call. -/
abbrev deliverOne (world : World) (message : SandboxMessage) (provider_record : SandboxProvider) :
    SandboxWebhookEndpoint → Except Text (List SandboxWebhookDelivery) :=
  deliverToEndpoint world message provider_record
    (world.getProvider provider_record.provider_type)

theorem deliverOne_endpoint_id (endpoint : SandboxWebhookEndpoint)
    (rows : List SandboxWebhookDelivery)
    (hrows : deliverOne world message provider_record endpoint = .ok rows) :
    ∀ row ∈ rows, row.endpoint_id = endpoint.id := by
  obtain ⟨⟨payload, request⟩, _, hmade⟩ := ok_of_bind hrows
  cases hmade
  intro row hrow
  obtain ⟨entry, _, rfl⟩ := List.mem_map.mp hrow
  exact recorded_endpoint_id

theorem isOk_deliverOne :
    (deliverOne world message provider_record endpoint).isOk = true ↔
      Prepared world message provider_record endpoint := by
  unfold deliverOne deliverToEndpoint Prepared
  cases prepare world message provider_record
    (world.getProvider provider_record.provider_type) endpoint with
  | error error => simp [bind, Except.bind, Except.isOk, Except.toBool]
  | ok made => simp [bind, Except.bind, Except.isOk, Except.toBool, pure, Except.pure]

theorem ownRows_of_not_prepared (h : ¬ Prepared world message provider_record endpoint) :
    ownRows (deliverOne world message provider_record) endpoint = [] := by
  unfold ownRows
  cases hrows : deliverOne world message provider_record endpoint with
  | error error => rfl
  | ok rows => exact absurd (isOk_deliverOne.mp (by rw [hrows]; rfl)) h

theorem ownRows_of_prepare {payload : Json} {request : Twilio.Request}
    (h : prepare world message provider_record
      (world.getProvider provider_record.provider_type) endpoint = .ok (payload, request)) :
    ownRows (deliverOne world message provider_record) endpoint =
      (attempts (fun attempt => world.post endpoint attempt request) 1 maxRetries).map
        fun entry => recorded world endpoint message payload entry.1 entry.2 := by
  unfold ownRows deliverOne deliverToEndpoint
  rw [h]
  rfl

theorem ownRows_ne_nil (h : Prepared world message provider_record endpoint) :
    ownRows (deliverOne world message provider_record) endpoint ≠ [] := by
  obtain ⟨⟨payload, request⟩, hprepare⟩ := h
  rw [ownRows_of_prepare hprepare]
  simpa using attempts_ne_nil _ (by decide)

variable (hprovider : db.providers.find message.provider_id = some provider_record)
include hprovider

theorem deliverWebhooks_eq :
    deliverWebhooks world db message =
      deliverAll (deliverOne world message provider_record) (activeEndpoints db message) := by
  unfold deliverWebhooks
  split
  · next hnone =>
    rw [hnone]
    rfl
  · rw [hprovider]

variable (world) in
theorem attemptsAt_of_not_mem (hendpoint : endpoint ∈ db.endpoints.rows)
    (hactive : endpoint ∉ activeEndpoints db message) :
    attemptsAt world db message endpoint = [] := by
  rw [attemptsAt, deliverWebhooks_eq hprovider]
  apply rowsAt_deliverAll_of_not_mem deliverOne_endpoint_id
  intro hid
  obtain ⟨other, hother, hsame⟩ := List.mem_map.mp hid
  have heq := List.inj_on_of_nodup_map db.endpoints.nodup (List.mem_filter.mp hother).1 hendpoint
    hsame
  exact hactive (heq ▸ hother)

variable (world) in
theorem attemptsAt_eq {before after : List SandboxWebhookEndpoint}
    (hsplit : activeEndpoints db message = before ++ endpoint :: after) :
    attemptsAt world db message endpoint =
      if before.all fun earlier => (deliverOne world message provider_record earlier).isOk then
        ownRows (deliverOne world message provider_record) endpoint
      else [] := by
  rw [attemptsAt, deliverWebhooks_eq hprovider, hsplit]
  apply rowsAt_deliverAll deliverOne_endpoint_id
  rw [← hsplit]
  exact db.endpoints.nodup.sublist (List.filter_sublist.map _)

variable (world) in
theorem attemptsAt_alone (hendpoint : endpoint ∈ activeEndpoints db message) :
    attemptsAt world (alone db endpoint) message endpoint =
      ownRows (deliverOne world message provider_record) endpoint := by
  have hrow := List.mem_filter.mp hendpoint
  have honly : activeEndpoints (alone db endpoint) message = [] ++ endpoint :: [] := by
    have hone : (alone db endpoint).endpoints.rows = [endpoint] :=
      Table.filter_key_eq hrow.1 fun _ _ => beq_iff_eq
    rw [activeEndpoints, hone]
    exact List.filter_eq_self.mpr fun other hother => List.mem_singleton.mp hother ▸ hrow.2
  have hfound : (alone db endpoint).providers.find message.provider_id = some provider_record :=
    hprovider
  exact attemptsAt_eq world hfound honly

/-- An endpoint whose preparation raises gets no attempt, and so takes the event only by
mistake; any other one has its attempts where nothing before it raises. -/
theorem served_iff {before after : List SandboxWebhookEndpoint}
    (hsplit : activeEndpoints db message = before ++ endpoint :: after) :
    Served world db message endpoint ↔
      (subscribed endpoint message ↔ Prepared world message provider_record endpoint) ∧
      (Prepared world message provider_record endpoint →
        ∀ earlier ∈ before, Prepared world message provider_record earlier) ∧
      ∀ payload request, prepare world message provider_record
          (world.getProvider provider_record.provider_type) endpoint = .ok (payload, request) →
        Readable fun attempt => world.post endpoint attempt request := by
  have hmem : endpoint ∈ activeEndpoints db message := by simp [hsplit]
  have hactive : endpoint.is_active = true := by
    have hrow := (List.mem_filter.mp hmem).2
    exact (Bool.and_eq_true_iff.mp hrow).2
  have hall : (before.all fun earlier =>
      (deliverOne world message provider_record earlier).isOk) = true ↔
      ∀ earlier ∈ before, Prepared world message provider_record earlier := by
    rw [List.all_eq_true]
    exact forall₂_congr fun earlier _ => isOk_deliverOne
  have hown := attemptsAt_eq world hprovider hsplit
  have halone := attemptsAt_alone world hprovider hmem
  by_cases hprepared : Prepared world message provider_record endpoint
  · have hne := ownRows_ne_nil hprepared
    obtain ⟨⟨payload, request⟩, hprepare⟩ := id hprepared
    have hrows := ownRows_of_prepare hprepare
    have hattempted := attempted_iff world endpoint message payload fun attempt =>
      world.post endpoint attempt request
    rw [← hrows] at hattempted
    constructor
    · intro h
      have hsame := h.independent
      rw [halone] at hsame
      have hbefore := hown.symm.trans hsame
      split at hbefore
      · next hearlier =>
        have hsubscribed : subscribed endpoint message := by
          by_contra hnot
          exact hne (hsame.symm.trans (h.excluded hnot))
        refine ⟨iff_of_true hsubscribed hprepared, fun _ => hall.mp hearlier, ?_⟩
        intro payload' request' hprepare'
        cases hprepare.symm.trans hprepare'
        exact hattempted.mp (hsame ▸ h.attempted hactive hsubscribed)
      · exact absurd hbefore.symm hne
    · intro ⟨hsubscribed, hearlier, hreadable⟩
      rw [if_pos (hall.mpr (hearlier hprepared))] at hown
      refine ⟨fun _ _ => ?_, fun hnot => absurd (hsubscribed.mpr hprepared) hnot,
        hown.trans halone.symm⟩
      rw [hown]
      exact hattempted.mpr (hreadable payload request hprepare)
  · rw [ownRows_of_not_prepared hprepared, ite_self] at hown
    rw [ownRows_of_not_prepared hprepared] at halone
    constructor
    · intro h
      refine ⟨iff_of_false (fun hsubscribed => ?_) hprepared, fun h => absurd h hprepared, ?_⟩
      · exact (h.attempted hactive hsubscribed).at_least_one hown
      · intro payload request hprepare
        exact absurd ⟨_, hprepare⟩ hprepared
    · intro ⟨hsubscribed, _, _⟩
      exact ⟨fun _ h => absurd (hsubscribed.mp h) hprepared, fun _ => hown, hown.trans halone.symm⟩

theorem fannedOut_iff :
    FannedOut world db message ↔ Deliverable world db message provider_record := by
  have hserved : FannedOut world db message ↔
      ∀ endpoint ∈ activeEndpoints db message, Served world db message endpoint := by
    constructor
    · intro h endpoint hendpoint
      obtain ⟨hrow, hpicked⟩ := List.mem_filter.mp hendpoint
      exact h endpoint hrow (beq_iff_eq.mp (Bool.and_eq_true_iff.mp hpicked).1)
    · intro h endpoint hrow hof
      by_cases hactive : endpoint ∈ activeEndpoints db message
      · exact h endpoint hactive
      · have hnone := attemptsAt_of_not_mem world hprovider hrow hactive
        have hinactive : ¬ endpoint.is_active = true := fun hon =>
          hactive (List.mem_filter.mpr ⟨hrow, by simp [hof, hon]⟩)
        refine ⟨fun hon => absurd hon hinactive, fun _ => hnone, hnone.trans ?_⟩
        have halone : endpoint ∈ (alone db endpoint).endpoints.rows :=
          List.mem_filter.mpr ⟨hrow, beq_self_eq_true _⟩
        have hfound : (alone db endpoint).providers.find message.provider_id =
            some provider_record := hprovider
        refine (attemptsAt_of_not_mem world hfound halone ?_).symm
        exact fun hon => hinactive (Bool.and_eq_true_iff.mp (List.mem_filter.mp hon).2).2
  rw [hserved]
  constructor
  · intro h
    refine ⟨fun endpoint hendpoint => ?_, ?_, fun endpoint hendpoint => ?_⟩
    · obtain ⟨before, after, hsplit⟩ := List.append_of_mem hendpoint
      exact ((served_iff hprovider hsplit).mp (h endpoint hendpoint)).1
    · apply pairwise_of_splits
      intro before endpoint after hsplit earlier hearlier hprepared
      have hendpoint : endpoint ∈ activeEndpoints db message := by simp [hsplit]
      exact ((served_iff hprovider hsplit).mp (h endpoint hendpoint)).2.1 hprepared earlier hearlier
    · obtain ⟨before, after, hsplit⟩ := List.append_of_mem hendpoint
      exact ((served_iff hprovider hsplit).mp (h endpoint hendpoint)).2.2
  · intro h endpoint hendpoint
    obtain ⟨before, after, hsplit⟩ := List.append_of_mem hendpoint
    refine (served_iff hprovider hsplit).mpr ⟨h.subscribed_iff endpoint hendpoint, ?_,
      h.readable endpoint hendpoint⟩
    intro hprepared earlier hearlier
    have horder := h.in_order
    rw [hsplit, List.pairwise_append] at horder
    exact horder.2.2 earlier hearlier endpoint (List.mem_cons_self ..) hprepared

end

/-! ## A provider without a plugin -/

namespace Sample

def provider : SandboxProvider :=
  { id := "p", user_id := "u", provider_type := "custom", name := "Custom", credentials := []
    created_at := 0 }

def message : SandboxMessage :=
  { id := "m", provider_id := "p", conversation_id := none, direction := "inbound", sender := "ann"
    content := some "hi", created_at := 0 }

def endpoint (event_types : List String) : SandboxWebhookEndpoint :=
  { id := "e", provider_id := "p", url := "https://a.test/", secret := none, event_types
    created_at := 0 }

def database (event_types : List String) : Database where
  providers := ⟨[provider], by decide⟩
  conversations := .empty
  messages := .empty
  endpoints := ⟨[endpoint event_types], List.nodup_singleton _⟩
  deliveries := .empty
  resources := .empty

/-- The endpoint is down at first. -/
def world : World where
  getProvider _ := none
  py := .plain
  dumps _ := .ok ("\x7b\"event\": \"message.received\", \"message\": \x7b\"id\": \"m\", ".toList ++
    "\"direction\": \"inbound\", \"sender\": \"ann\", \"content\": \"hi\"\x7d\x7d".toList)
  post _ attempt _ := if attempt = 1 then .failed "connection refused".toList else .answered 200 []
  draw _ attempt := { now := attempt, id := toString attempt, conversation_id := "" }

end Sample

theorem served_down_endpoint : FannedOut Sample.world (Sample.database []) Sample.message := by
  have hprovider : (Sample.database []).providers.find Sample.message.provider_id =
      some Sample.provider := rfl
  refine (fannedOut_iff hprovider).mpr ⟨?_, ?_, ?_⟩
  · intro endpoint hendpoint
    cases List.mem_singleton.mp hendpoint
    exact iff_of_true (.inl rfl) ⟨_, rfl⟩
  · exact List.pairwise_singleton _ _
  · intro endpoint _ payload request _ k _ _ hoverlooked
    simp only [Sample.world] at hoverlooked
    split at hoverlooked <;> cases hoverlooked

/-- An endpoint that takes other events only gets this one. -/
theorem excluded_endpoint_posted :
    ¬ FannedOut Sample.world (Sample.database ["message.created"]) Sample.message := by
  intro h
  have hserved := h _ (List.mem_singleton_self _) rfl
  have hnot : ¬ subscribed (Sample.endpoint ["message.created"]) Sample.message := by decide
  have hmade : (attemptsAt Sample.world (Sample.database ["message.created"]) Sample.message
      (Sample.endpoint ["message.created"])).length = 2 := by decide
  rw [hserved.excluded hnot] at hmade
  cases hmade

end MailCue.Backend.Sandbox.WebhookWorker
