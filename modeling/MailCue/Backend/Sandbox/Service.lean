import Mathlib.Data.List.Sort
import MailCue.Backend.Auth.Models
import MailCue.Backend.Sandbox.Models
import MailCue.Lib.Unwinding

/-!
# The management API of the sandbox

backend/app/sandbox/service.py and router.py, and the deliveries webhook_worker.py
makes in the background. The plugins of the providers are a parameter. Rows of one
time stand in the order of the table.
-/
namespace MailCue.Backend.Sandbox
open MailCue.Lib
open MailCue.Backend.Auth (HTTPException serverError)

structure ProviderCreateRequest where
  provider_type : String
  name : String
  credentials : Json.Fields := []

structure ProviderUpdateRequest where
  name : Option String := none
  credentials : Option Json.Fields := none
  is_active : Option Bool := none

/-- `SimulateRequest` and `SendRequest`; only the latter may leave out the sender. -/
structure MessageRequest where
  sender : String := "User"
  content : String
  content_type : String := "text"
  conversation_id : Option String := none
  metadata : Json.Fields := []
  conversation_name : Option String := none

structure WebhookEndpointCreateRequest where
  url : String
  secret : Option String := none
  event_types : List String := []

/-- `limit` and `offset` as the `Query` parameters bound them. -/
structure Page where
  limit : Nat := 50
  offset : Nat := 0
  limit_ge : 1 ≤ limit := by decide
  limit_le : limit ≤ 200 := by decide

structure Plugin where
  getSandboxUrlHint : SandboxProvider → String
  buildWebhookPayload : SandboxMessage → String → Json

/-- The clock and the new ids a request finds. -/
structure Draw where
  now : Int
  id : String
  conversation_id : String

/-! ## The service -/

def getProviders (db : Database) (user_id : String) : List SandboxProvider :=
  db.providers.rows.filter fun provider => provider.user_id == user_id

def getProviderById (db : Database) (provider_id user_id : String) : Option SandboxProvider :=
  db.providers.rows.find? fun provider => provider.id == provider_id && provider.user_id == user_id

def createProvider (draw : Draw) (db : Database) (user_id : String) (data : ProviderCreateRequest) :
    Option (SandboxProvider × Database) :=
  let provider : SandboxProvider :=
    { id := draw.id, user_id, provider_type := data.provider_type, name := data.name
      credentials := data.credentials, created_at := draw.now }
  (db.insertProvider provider).map fun db => (provider, db)

def updateProvider (draw : Draw) (db : Database) (provider_id user_id : String)
    (data : ProviderUpdateRequest) : Option (SandboxProvider × Database) :=
  (getProviderById db provider_id user_id).map fun provider =>
    let provider :=
      { provider with
        name := data.name.getD provider.name
        credentials := data.credentials.getD provider.credentials
        is_active := data.is_active.getD provider.is_active
        updated_at := some draw.now }
    (provider, { db with providers := db.providers.replace provider })

def deleteProvider (db : Database) (provider_id user_id : String) : Option Database :=
  (getProviderById db provider_id user_id).map fun provider =>
    db.delete { providers := fun row => row.id == provider.id }

def storeMessage (draw : Draw) (db : Database) (provider_id direction : String)
    (data : MessageRequest) (conversation_id : Option String) : Option (SandboxMessage × Database) :=
  let msg : SandboxMessage :=
    { id := draw.id, provider_id, conversation_id, direction, sender := data.sender
      content := some data.content, content_type := data.content_type
      metadata_json := data.metadata, created_at := draw.now }
  (db.insertMessage msg).map fun db => (msg, db)

def getOrCreateConversation (draw : Draw) (db : Database) (provider_id external_id name : String) :
    Option (SandboxConversation × Database) :=
  match db.conversations.rows.find? fun row =>
      row.provider_id == provider_id && row.external_id == external_id with
  | some conversation => some (conversation, db)
  | none =>
    let conversation : SandboxConversation :=
      { id := draw.conversation_id, provider_id, external_id, name := some name
        created_at := draw.now }
    (db.insertConversation conversation).map fun db => (conversation, db)

def getConversations (db : Database) (provider_id : String) : List SandboxConversation :=
  db.conversations.rows.filter fun row => row.provider_id == provider_id

def deleteConversation (db : Database) (conversation_id provider_id : String) : Option Database :=
  (db.conversations.rows.find? fun row =>
    row.id == conversation_id && row.provider_id == provider_id).map fun conv =>
      db.delete { conversations := fun row => row.id == conv.id }

/-- Of whichever provider the message is. -/
def deleteMessage (db : Database) (message_id : String) : Option Database :=
  (db.messages.find message_id).map fun msg => db.delete { messages := fun row => row.id == msg.id }

def getMessages (db : Database) (provider_id : String) (conversation_id : Option String)
    (page : Page) : List SandboxMessage × Nat :=
  let rows := db.messages.rows.filter fun row =>
    row.provider_id == provider_id && conversation_id.all fun id => row.conversation_id == some id
  (((rows.insertionSort fun a b => a.created_at ≤ b.created_at).drop page.offset).take page.limit,
    rows.length)

def createWebhookEndpoint (draw : Draw) (db : Database) (provider_id : String)
    (data : WebhookEndpointCreateRequest) : Option (SandboxWebhookEndpoint × Database) :=
  let endpoint : SandboxWebhookEndpoint :=
    { id := draw.id, provider_id, url := data.url, secret := data.secret
      event_types := data.event_types, created_at := draw.now }
  (db.insertEndpoint endpoint).map fun db => (endpoint, db)

def getWebhookEndpoints (db : Database) (provider_id : String) : List SandboxWebhookEndpoint :=
  db.endpoints.rows.filter fun row => row.provider_id == provider_id

/-- Of whichever provider the endpoint is. -/
def deleteWebhookEndpoint (db : Database) (endpoint_id : String) : Option Database :=
  (db.endpoints.find endpoint_id).map fun _ =>
    db.delete { endpoints := fun row => row.id == endpoint_id }

def getWebhookDeliveries (db : Database) (provider_id : String) : List SandboxWebhookDelivery :=
  let rows := db.deliveries.rows.filter fun row =>
    db.endpoints.has (fun endpoint => endpoint.provider_id == provider_id) row.endpoint_id
  (rows.insertionSort fun a b => b.created_at ≤ a.created_at).take 50

/-- The result of an insertion; what the database refuses is not caught. -/
def inserted {α β : Type} (body : α → β) (db : Database) :
    Option (α × Database) → Except HTTPException β × Database
  | none => (.error serverError, db)
  | some (row, db) => (.ok (body row), db)

/-- `simulate_inbound` and `send_outbound`. -/
def post (direction external : String) (draw : Draw) (db : Database) (provider_id user_id : String)
    (data : MessageRequest) : Except HTTPException SandboxMessage × Database :=
  match getProviderById db provider_id user_id with
  | none => (.error ⟨404, "Provider not found"⟩, db)
  | some _ =>
    let chat := s!"Chat with {data.sender}"
    let name := if data.conversation_name.getD "" = "" then chat else data.conversation_name.getD chat
    let resolved := match data.conversation_id with
      | some conversation_id => some (conversation_id, db)
      | none => (getOrCreateConversation draw db provider_id s!"{external}-{data.sender}" name).map
          fun (conv, db) => (conv.id, db)
    match resolved with
    | none => (.error serverError, db)
    | some (conversation_id, db) =>
      inserted id db (storeMessage draw db provider_id direction data (some conversation_id))

def simulateInbound := post "inbound" "sim"

def sendOutbound := post "outbound" "user"

/-! ## The endpoints -/

inductive Request where
  | listProviders
  | createProvider (body : ProviderCreateRequest)
  | getProvider (provider_id : String)
  | updateProvider (provider_id : String) (body : ProviderUpdateRequest)
  | deleteProvider (provider_id : String)
  | listConversations (provider_id : String)
  | deleteConversation (provider_id conversation_id : String)
  | listConversationMessages (provider_id conversation_id : String) (page : Page)
  | listMessages (provider_id : Option String) (page : Page)
  | deleteMessage (message_id : String)
  | simulateInbound (provider_id : String) (body : MessageRequest)
  | sendMessage (provider_id : String) (body : MessageRequest)
  | createWebhook (provider_id : String) (body : WebhookEndpointCreateRequest)
  | listWebhooks (provider_id : String)
  | deleteWebhook (endpoint_id : String)
  | listWebhookDeliveries (provider_id : String)

inductive Body where
  | providers (rows : List SandboxProvider)
  | provider (row : SandboxProvider)
  | providerAt (row : SandboxProvider) (sandbox_url : Option String)
  | conversations (rows : List SandboxConversation)
  | messages (rows : List SandboxMessage) (total : Nat)
  | message (row : SandboxMessage)
  | endpoints (rows : List SandboxWebhookEndpoint)
  | endpoint (row : SandboxWebhookEndpoint)
  | deliveries (rows : List SandboxWebhookDelivery)
  | none

abbrev Response := Except HTTPException Body

def notFound (what : String) : Response := .error ⟨404, s!"{what} not found"⟩

/-- A read below a provider of the user. -/
def withProvider (db : Database) (provider_id user_id : String) (read : SandboxProvider → Body) :
    Response :=
  match getProviderById db provider_id user_id with
  | none => notFound "Provider"
  | some provider => .ok (read provider)

def deleted (what : String) (db : Database) : Option Database → Response × Database
  | none => (notFound what, db)
  | some db => (.ok .none, db)

def posted (result : Except HTTPException SandboxMessage × Database) : Response × Database :=
  (result.1.map .message, result.2)

def listMessages (db : Database) (user_id : String) (page : Page) : Body :=
  let found := (getProviders db user_id).map fun provider => getMessages db provider.id none page
  .messages (((found.flatMap (·.1)).insertionSort fun a b => a.created_at ≤ b.created_at).take
    page.limit) (found.map (·.2)).sum

def Request.serve (plugins : String → Option Plugin) (user_id : String) (draw : Draw)
    (db : Database) : Request → Response × Database
  | .listProviders => (.ok (.providers (getProviders db user_id)), db)
  | .createProvider body => inserted .provider db (Sandbox.createProvider draw db user_id body)
  | .getProvider provider_id => (withProvider db provider_id user_id fun provider =>
      .providerAt provider ((plugins provider.provider_type).map (·.getSandboxUrlHint provider)), db)
  | .updateProvider provider_id body =>
    match Sandbox.updateProvider draw db provider_id user_id body with
    | none => (notFound "Provider", db)
    | some (provider, db) => (.ok (.provider provider), db)
  | .deleteProvider provider_id =>
    deleted "Provider" db (Sandbox.deleteProvider db provider_id user_id)
  | .listConversations provider_id => (withProvider db provider_id user_id fun _ =>
      .conversations (getConversations db provider_id), db)
  | .deleteConversation provider_id conversation_id =>
    match getProviderById db provider_id user_id with
    | none => (notFound "Provider", db)
    | some _ => deleted "Conversation" db (Sandbox.deleteConversation db conversation_id provider_id)
  | .listConversationMessages provider_id conversation_id page =>
    (withProvider db provider_id user_id fun _ =>
      let found := getMessages db provider_id (some conversation_id) page
      .messages found.1 found.2, db)
  | .listMessages (some provider_id) page => (withProvider db provider_id user_id fun _ =>
      let found := getMessages db provider_id none page
      .messages found.1 found.2, db)
  | .listMessages none page => (.ok (Sandbox.listMessages db user_id page), db)
  | .deleteMessage message_id => deleted "Message" db (Sandbox.deleteMessage db message_id)
  | .simulateInbound provider_id body =>
    posted (Sandbox.simulateInbound draw db provider_id user_id body)
  | .sendMessage provider_id body => posted (sendOutbound draw db provider_id user_id body)
  | .createWebhook provider_id body =>
    match getProviderById db provider_id user_id with
    | none => (notFound "Provider", db)
    | some _ => inserted .endpoint db (createWebhookEndpoint draw db provider_id body)
  | .listWebhooks provider_id => (withProvider db provider_id user_id fun _ =>
      .endpoints (getWebhookEndpoints db provider_id), db)
  | .deleteWebhook endpoint_id =>
    deleted "Webhook endpoint" db (deleteWebhookEndpoint db endpoint_id)
  | .listWebhookDeliveries provider_id => (withProvider db provider_id user_id fun _ =>
      .deliveries (getWebhookDeliveries db provider_id), db)

/-! ## Webhooks in the background -/

/-- What a `deliver_webhooks` task still has to do. -/
inductive Delivering where
  | fired (message : SandboxMessage)
  | posting (message : SandboxMessage) (provider : SandboxProvider)
      (endpoint : SandboxWebhookEndpoint) (rest : List SandboxWebhookEndpoint) (attempt : Nat)

inductive Outcome where
  | answered (status : Nat) (text : Text)
  | failed (error : Text)

def maxRetries : Nat := 3

def eventType (message : SandboxMessage) : String :=
  if message.direction = "inbound" then "message.received" else "message.created"

def webhookPayload (plugins : String → Option Plugin) (message : SandboxMessage)
    (provider : SandboxProvider) : Json.Fields :=
  match plugins provider.provider_type with
  | some plugin =>
    match plugin.buildWebhookPayload message (eventType message) with
    | .obj fields => fields
    | payload => [("__array__", payload)]
  | none =>
    [("event", .str (eventType message).toList),
      ("message", .obj [("id", .str message.id.toList),
        ("direction", .str message.direction.toList), ("sender", .str message.sender.toList),
        ("content", (message.content.map fun text => Json.str text.toList).getD .null)])]

/-- `_deliver_to_endpoint` for the first of the endpoints left. -/
def Delivering.next (message : SandboxMessage) (provider : SandboxProvider) :
    List SandboxWebhookEndpoint → Option Delivering
  | [] => none
  | endpoint :: rest => some (.posting message provider endpoint rest 1)

def deliveryOf (plugins : String → Option Plugin) (draw : Draw) (message : SandboxMessage)
    (provider : SandboxProvider) (endpoint : SandboxWebhookEndpoint) (attempt : Nat) :
    Outcome → SandboxWebhookDelivery
  | .answered status text =>
    { id := draw.id, endpoint_id := endpoint.id, message_id := some message.id
      event_type := eventType message, payload := webhookPayload plugins message provider
      status_code := some status, response_body := some (text.take 2000), attempt
      delivered_at := some draw.now, created_at := draw.now }
  | .failed error =>
    { id := draw.id, endpoint_id := endpoint.id, message_id := some message.id
      event_type := eventType message, payload := webhookPayload plugins message provider
      response_body := some (error.take 2000), attempt, created_at := draw.now }

def Outcome.accepted : Outcome → Bool
  | .answered status _ => status < 400
  | .failed _ => false

/-- One read or one attempt of a task; a delivery that cannot be recorded ends it. -/
def Delivering.step (plugins : String → Option Plugin) (draw : Draw) (outcome : Outcome)
    (db : Database) : Delivering → Option Delivering × Database
  | .fired message =>
    let endpoints := db.endpoints.rows.filter fun row =>
      row.provider_id == message.provider_id && row.is_active
    match db.providers.find message.provider_id with
    | none => (none, db)
    | some provider => (next message provider endpoints, db)
  | .posting message provider endpoint rest attempt =>
    match db.insertDelivery (deliveryOf plugins draw message provider endpoint attempt outcome) with
    | none => (none, db)
    | some db =>
      (if !outcome.accepted ∧ attempt < maxRetries then
        some (.posting message provider endpoint rest (attempt + 1))
      else next message provider rest, db)

/-! ## Runs of one user -/

structure State where
  db : Database
  tasks : List Delivering := []

inductive Event where
  | request (draw : Draw) (request : Request)
  | task (index : Nat) (draw : Draw) (outcome : Outcome)

/-- `_fire_webhooks` where a message was stored. -/
def fired : Request → Response → List Delivering
  | .simulateInbound _ _, .ok (.message msg) => [.fired msg]
  | .sendMessage _ _, .ok (.message msg) => [.fired msg]
  | _, _ => []

def State.step (plugins : String → Option Plugin) (user_id : String) (s : State) :
    Event → Option Response × State
  | .request draw request =>
    let (response, db) := request.serve plugins user_id draw s.db
    (some response, { db, tasks := s.tasks ++ fired request response })
  | .task index draw outcome =>
    match s.tasks[index]? with
    | none => (none, s)
    | some task =>
      match task.step plugins draw outcome s.db with
      | (none, db) => (none, { db, tasks := s.tasks.eraseIdx index })
      | (some task, db) => (none, { db, tasks := s.tasks.set index task })

def api (plugins : String → Option Plugin) (user_id : String) :
    Responder State Event (Option Response) where
  step := State.step plugins user_id

end MailCue.Backend.Sandbox
