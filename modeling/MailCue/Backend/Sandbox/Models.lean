import MailCue.Lib.Json
import MailCue.Lib.Table

/-!
# The tables of the sandbox

backend/app/sandbox/models.py with its foreign keys. The calls, numbers, orders, port
requests, brands and campaigns of a provider are rows of one table here, by kind: the
management API touches them only where they go along with a provider.
-/
namespace MailCue.Backend.Sandbox
open MailCue.Lib

structure SandboxProvider where
  id : String
  user_id : String
  provider_type : String
  name : String
  credentials : Json.Fields
  is_active : Bool := true
  created_at : Int
  updated_at : Option Int := none

structure SandboxConversation where
  id : String
  provider_id : String
  external_id : String
  name : Option String
  conversation_type : String := "direct"
  metadata_json : Json.Fields := []
  created_at : Int

structure SandboxMessage where
  id : String
  provider_id : String
  conversation_id : Option String
  direction : String
  sender : String
  content : Option String
  content_type : String := "text"
  external_id : Option String := none
  raw_request : Json.Fields := []
  raw_response : Json.Fields := []
  metadata_json : Json.Fields := []
  is_deleted : Bool := false
  created_at : Int

structure SandboxWebhookEndpoint where
  id : String
  provider_id : String
  url : String
  secret : Option String
  event_types : List String
  is_active : Bool := true
  created_at : Int

structure SandboxWebhookDelivery where
  id : String
  endpoint_id : String
  message_id : Option String
  event_type : String
  payload : Json.Fields
  status_code : Option Nat := none
  response_body : Option Text := none
  attempt : Nat := 1
  delivered_at : Option Int := none
  created_at : Int

inductive ResourceKind where
  | call | phoneNumber | numberOrder | portRequest | brand | campaign
  deriving DecidableEq

structure SandboxResource where
  kind : ResourceKind
  id : String
  provider_id : String
  /-- Of a campaign. -/
  brand_id : Option String := none

def SandboxResource.key (row : SandboxResource) : ResourceKind × String := (row.kind, row.id)

structure Database where
  providers : Table SandboxProvider.id
  conversations : Table SandboxConversation.id
  messages : Table SandboxMessage.id
  endpoints : Table SandboxWebhookEndpoint.id
  deliveries : Table SandboxWebhookDelivery.id
  resources : Table SandboxResource.key

/-! ## Rows of every table -/

structure Selection where
  providers : SandboxProvider → Bool := fun _ => false
  conversations : SandboxConversation → Bool := fun _ => false
  messages : SandboxMessage → Bool := fun _ => false
  endpoints : SandboxWebhookEndpoint → Bool := fun _ => false
  deliveries : SandboxWebhookDelivery → Bool := fun _ => false
  resources : SandboxResource → Bool := fun _ => false

def Selection.rest (picked : Selection) : Selection where
  providers row := !picked.providers row
  conversations row := !picked.conversations row
  messages row := !picked.messages row
  endpoints row := !picked.endpoints row
  deliveries row := !picked.deliveries row
  resources row := !picked.resources row

def Database.select (db : Database) (picked : Selection) : Database where
  providers := db.providers.filter picked.providers
  conversations := db.conversations.filter picked.conversations
  messages := db.messages.filter picked.messages
  endpoints := db.endpoints.filter picked.endpoints
  deliveries := db.deliveries.filter picked.deliveries
  resources := db.resources.filter picked.resources

/-! ## Deletion -/

/-- The rows that go with these: `cascade="all, delete-orphan"` and
`ON DELETE CASCADE` follow the same references. -/
def Database.gone (db : Database) (deleted : Selection) : Selection :=
  let ofProvider := db.providers.has deleted.providers
  let conversations row := deleted.conversations row || ofProvider row.provider_id
  let endpoints row := deleted.endpoints row || ofProvider row.provider_id
  let messages row := deleted.messages row || ofProvider row.provider_id ||
    row.conversation_id.any (db.conversations.has conversations)
  { providers := deleted.providers
    conversations := conversations
    messages := messages
    endpoints := endpoints
    deliveries := fun row => deleted.deliveries row || db.endpoints.has endpoints row.endpoint_id ||
      row.message_id.any (db.messages.has messages)
    resources := fun row => deleted.resources row || ofProvider row.provider_id }

/-- The brand of the campaign goes: `ON DELETE SET NULL`. -/
def Database.unbranded (db : Database) (deleted : Selection) (row : SandboxResource) : Bool :=
  row.brand_id.any fun brand_id => db.resources.has (db.gone deleted).resources (.brand, brand_id)

def Database.unbrand (db : Database) (deleted : Selection) (row : SandboxResource) :
    SandboxResource :=
  if db.unbranded deleted row then { row with brand_id := none } else row

theorem Database.unbrand_key (db : Database) (deleted : Selection) (row : SandboxResource) :
    (db.unbrand deleted row).key = row.key := by
  unfold unbrand
  split <;> rfl

def Database.delete (db : Database) (deleted : Selection) : Database :=
  let kept := db.select (db.gone deleted).rest
  { kept with resources := kept.resources.update (db.unbrand deleted) (db.unbrand_key deleted) }

/-! ## Insertion

Nothing is inserted where a referenced row is missing or a unique key is taken. -/

def Database.insertProvider (db : Database) (row : SandboxProvider) : Option Database :=
  (db.providers.insert row).map fun providers => { db with providers }

def Database.hasProvider (db : Database) (provider_id : String) : Bool :=
  (db.providers.find provider_id).isSome

/-- With `uq_sandbox_conversations_provider_external`. -/
def Database.insertConversation (db : Database) (row : SandboxConversation) : Option Database :=
  if db.hasProvider row.provider_id ∧ ∀ other ∈ db.conversations.rows,
      other.provider_id = row.provider_id → other.external_id ≠ row.external_id then
    (db.conversations.insert row).map fun conversations => { db with conversations }
  else none

def Database.insertMessage (db : Database) (row : SandboxMessage) : Option Database :=
  if db.hasProvider row.provider_id ∧
      row.conversation_id.all fun id => (db.conversations.find id).isSome then
    (db.messages.insert row).map fun messages => { db with messages }
  else none

def Database.insertEndpoint (db : Database) (row : SandboxWebhookEndpoint) : Option Database :=
  if db.hasProvider row.provider_id then
    (db.endpoints.insert row).map fun endpoints => { db with endpoints }
  else none

def Database.insertDelivery (db : Database) (row : SandboxWebhookDelivery) : Option Database :=
  if (db.endpoints.find row.endpoint_id).isSome ∧
      row.message_id.all fun id => (db.messages.find id).isSome then
    (db.deliveries.insert row).map fun deliveries => { db with deliveries }
  else none

end MailCue.Backend.Sandbox
