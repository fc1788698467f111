import MailCue.Backend.Sandbox.Service

/-!
# One user of the sandbox and the rows of another

Most queries select below a provider of the user. Two deletions go by the id of the row
alone, and a message may be put into any conversation there is; where a request names
no row of the other user so, and none hangs on a row that it deletes, the rows of the
other user stay as they are and nothing of them shows.
-/
namespace MailCue.Backend.Sandbox
open MailCue.Lib

/-- The rows of the providers of a user. -/
def Database.belongs (db : Database) (user_id : String) : Selection :=
  let ofUser := db.providers.has fun provider => provider.user_id == user_id
  { providers := fun row => row.user_id == user_id
    conversations := fun row => ofUser row.provider_id
    messages := fun row => ofUser row.provider_id
    endpoints := fun row => ofUser row.provider_id
    deliveries := fun row => db.endpoints.has (fun endpoint => ofUser endpoint.provider_id)
      row.endpoint_id
    resources := fun row => ofUser row.provider_id }

def Database.ownedBy (db : Database) (user_id : String) : Database :=
  db.select (db.belongs user_id)

def Database.without (db : Database) (user_id : String) : Database :=
  db.select (db.belongs user_id).rest

def Database.ofUser (db : Database) (user_id provider_id : String) : Bool :=
  db.providers.has (fun provider => provider.user_id == user_id) provider_id

/-- No row of the user goes with the deleted ones, and none loses its brand. -/
structure Spares (user_id : String) (db : Database) (deleted : Selection) : Prop where
  providers : ∀ row ∈ (db.ownedBy user_id).providers.rows, deleted.providers row = false
  conversations : ∀ row ∈ (db.ownedBy user_id).conversations.rows,
    (db.gone deleted).conversations row = false
  messages : ∀ row ∈ (db.ownedBy user_id).messages.rows, (db.gone deleted).messages row = false
  endpoints : ∀ row ∈ (db.ownedBy user_id).endpoints.rows, (db.gone deleted).endpoints row = false
  deliveries : ∀ row ∈ (db.ownedBy user_id).deliveries.rows,
    (db.gone deleted).deliveries row = false
  resources : ∀ row ∈ (db.ownedBy user_id).resources.rows,
    (db.gone deleted).resources row = false ∧ db.unbranded deleted row = false

/-! ## What belongs to a user -/

section
variable {db db' : Database} {b : String}

theorem belongs_congr
    (hproviders : db'.providers.filter (db.belongs b).providers =
      db.providers.filter (db.belongs b).providers)
    (hendpoints : db'.endpoints.filter (db.belongs b).endpoints =
      db.endpoints.filter (db.belongs b).endpoints) : db'.belongs b = db.belongs b := by
  have hofUser : db'.providers.has (fun provider => provider.user_id == b) =
      db.providers.has (fun provider => provider.user_id == b) :=
    funext fun k => Table.has_of_filter hproviders k
  have hdeliveries : db'.endpoints.has (db.belongs b).endpoints =
      db.endpoints.has (db.belongs b).endpoints := funext fun k => Table.has_of_filter hendpoints k
  unfold Database.belongs
  simp only [hofUser]
  exact congrArg (fun has => Selection.mk _ _ _ _ (fun row => has row.endpoint_id) _) hdeliveries

/-! ## Writes that hide from a user -/

/-- The user's rows stay, and the write is the same without them. -/
structure Hides (b : String) (write : Database → Option Database) (db : Database) : Prop where
  without : write (db.without b) = (write db).map (·.without b)
  ownedBy : ∀ db', write db = some db' → db'.ownedBy b = db.ownedBy b

/-- An insertion of a row that is not the user's, where none of the user's has its key. -/
theorem hides_insert {α : Type} {key : α → String} {get : Database → Table key}
    {put : Database → Table key → Database} {allowed : Database → Prop} [DecidablePred allowed]
    {pick : α → Bool} {row : α}
    (hget : get (db.without b) = (get db).filter fun old => !pick old)
    (hput : ∀ t, t.filter pick = (get db).filter pick →
      (put db t).without b = put (db.without b) (t.filter fun old => !pick old) ∧
        (put db t).ownedBy b = db.ownedBy b)
    (hallowed : allowed (db.without b) ↔ allowed db) (hrow : pick row = false)
    (hfresh : ∀ old ∈ ((get db).filter pick).rows, key old ≠ key row) :
    Hides b (fun db => if allowed db then ((get db).insert row).map (put db) else none) db := by
  constructor
  · simp only [hallowed, hget, Table.insert_filter_not hrow hfresh]
    split
    · cases hins : (get db).insert row with
      | none => rfl
      | some t =>
        simp only [Option.map_some]
        rw [(hput t (Table.filter_insert_of_not hins hrow)).1]
    · rfl
  · intro db' hdb'
    split at hdb'
    · obtain ⟨t, hins, rfl⟩ := Option.map_eq_some_iff.mp hdb'
      exact (hput t (Table.filter_insert_of_not hins hrow)).2
    · cases hdb'

theorem put_providers (providers : Table SandboxProvider.id)
    (h : providers.filter (db.belongs b).providers = db.providers.filter (db.belongs b).providers) :
    { db with providers }.without b =
        { db.without b with providers := providers.filter (db.belongs b).rest.providers } ∧
      { db with providers }.ownedBy b = db.ownedBy b := by
  have hbelongs : { db with providers }.belongs b = db.belongs b := belongs_congr h rfl
  unfold Database.without Database.ownedBy
  rw [hbelongs]
  exact ⟨rfl, congrArg (fun t => { db.ownedBy b with providers := t }) h⟩

theorem put_endpoints (endpoints : Table SandboxWebhookEndpoint.id)
    (h : endpoints.filter (db.belongs b).endpoints = db.endpoints.filter (db.belongs b).endpoints) :
    { db with endpoints }.without b =
        { db.without b with endpoints := endpoints.filter (db.belongs b).rest.endpoints } ∧
      { db with endpoints }.ownedBy b = db.ownedBy b := by
  have hbelongs : { db with endpoints }.belongs b = db.belongs b := belongs_congr rfl h
  unfold Database.without Database.ownedBy
  rw [hbelongs]
  exact ⟨rfl, congrArg (fun t => { db.ownedBy b with endpoints := t }) h⟩

theorem provider_of_ofUser {provider_id : String} (h : db.ofUser b provider_id = false) :
    ∀ row ∈ (db.ownedBy b).providers.rows, row.id ≠ provider_id := by
  intro row hrow hid
  obtain ⟨hmem, hmine⟩ := List.mem_filter.mp hrow
  exact Bool.false_ne_true (h.symm.trans (Table.has_iff.mpr ⟨row, hmem, hid, hmine⟩))

theorem hasProvider_without {provider_id : String} (h : db.ofUser b provider_id = false) :
    (db.without b).hasProvider provider_id = db.hasProvider provider_id :=
  congrArg Option.isSome (Table.find_filter_not (provider_of_ofUser h))

/-- A row of a provider that is not the user's is kept. -/
theorem kept_of_ofUser {provider_id other : String} (h : db.ofUser b provider_id = false)
    (hsame : other = provider_id) : (!db.ofUser b other) = true := by
  rw [hsame, h]
  rfl

theorem hides_insertProvider {row : SandboxProvider} (hrow : row.user_id ≠ b)
    (hfresh : ∀ old ∈ (db.ownedBy b).providers.rows, old.id ≠ row.id) :
    Hides b (·.insertProvider row) db := by
  have hinsert : Hides b (fun db => if True then
      (db.providers.insert row).map fun providers => { db with providers } else none) db :=
    hides_insert rfl put_providers Iff.rfl (by simpa [Database.belongs] using hrow) hfresh
  simp only [if_true] at hinsert
  exact hinsert

theorem hides_insertConversation {row : SandboxConversation}
    (hrow : db.ofUser b row.provider_id = false)
    (hfresh : ∀ old ∈ (db.ownedBy b).conversations.rows, old.id ≠ row.id) :
    Hides b (·.insertConversation row) db := by
  refine hides_insert rfl ?_ ?_ hrow hfresh
  · intro conversations h
    exact ⟨rfl, congrArg (fun t => { db.ownedBy b with conversations := t }) h⟩
  · rw [hasProvider_without hrow]
    refine and_congr_right fun _ => ?_
    -- The other conversations of its provider are none of the user's.
    constructor
    · intro h other hother hprovider
      exact h other (List.mem_filter.mpr ⟨hother, kept_of_ofUser hrow hprovider⟩) hprovider
    · intro h other hother
      exact h other (List.mem_of_mem_filter hother)

theorem hides_insertMessage {row : SandboxMessage} (hrow : db.ofUser b row.provider_id = false)
    (hfresh : ∀ old ∈ (db.ownedBy b).messages.rows, old.id ≠ row.id)
    (hconversation : ∀ old ∈ (db.ownedBy b).conversations.rows, row.conversation_id ≠ some old.id) :
    Hides b (·.insertMessage row) db := by
  refine hides_insert rfl ?_ ?_ hrow hfresh
  · intro messages h
    exact ⟨rfl, congrArg (fun t => { db.ownedBy b with messages := t }) h⟩
  · rw [hasProvider_without hrow]
    refine and_congr_right fun _ => ?_
    cases hid : row.conversation_id with
    | none => rfl
    | some id =>
      have hfind : (db.without b).conversations.find id = db.conversations.find id :=
        Table.find_filter_not fun old hold heq => hconversation old hold (by rw [hid, heq])
      simp only [Option.all_some, hfind]

theorem hides_insertEndpoint {row : SandboxWebhookEndpoint}
    (hrow : db.ofUser b row.provider_id = false)
    (hfresh : ∀ old ∈ (db.ownedBy b).endpoints.rows, old.id ≠ row.id) :
    Hides b (·.insertEndpoint row) db :=
  hides_insert rfl put_endpoints (by rw [hasProvider_without hrow]) hrow hfresh

theorem hides_insertDelivery {row : SandboxWebhookDelivery}
    (hendpoint : ∀ old ∈ (db.ownedBy b).endpoints.rows, old.id ≠ row.endpoint_id)
    (hmessage : ∀ old ∈ (db.ownedBy b).messages.rows, row.message_id ≠ some old.id)
    (hfresh : ∀ old ∈ (db.ownedBy b).deliveries.rows, old.id ≠ row.id) :
    Hides b (·.insertDelivery row) db := by
  refine hides_insert rfl ?_ ?_ ?_ hfresh
  · intro deliveries h
    exact ⟨rfl, congrArg (fun t => { db.ownedBy b with deliveries := t }) h⟩
  · have hfind : (db.without b).endpoints.find row.endpoint_id = db.endpoints.find row.endpoint_id :=
      Table.find_filter_not hendpoint
    rw [hfind]
    refine and_congr_right fun _ => ?_
    cases hid : row.message_id with
    | none => rfl
    | some id =>
      have hfind : (db.without b).messages.find id = db.messages.find id :=
        Table.find_filter_not fun old hold heq => hmessage old hold (by rw [hid, heq])
      simp only [Option.all_some, hfind]
  · show db.endpoints.has (db.belongs b).endpoints row.endpoint_id = false
    by_contra h
    obtain ⟨old, hold, hid, hmine⟩ := Table.has_iff.mp (by simpa using h)
    exact hendpoint old (List.mem_filter.mpr ⟨hold, hmine⟩) hid

/-- A provider of somebody else, changed in its place. -/
theorem replaced_without {row : SandboxProvider} (hrow : row.user_id ≠ b)
    (hold : ∀ old ∈ (db.ownedBy b).providers.rows, old.id ≠ row.id) :
    { db.without b with providers := (db.without b).providers.replace row } =
      { db with providers := db.providers.replace row }.without b := by
  have hnot : (db.belongs b).providers row = false := by simpa [Database.belongs] using hrow
  rw [(put_providers _ (Table.filter_replace_of_not hnot hold)).1]
  exact congrArg (fun t => { db.without b with providers := t }) (Table.replace_filter_not hnot hold)

theorem replaced_ownedBy {row : SandboxProvider} (hrow : row.user_id ≠ b)
    (hold : ∀ old ∈ (db.ownedBy b).providers.rows, old.id ≠ row.id) :
    { db with providers := db.providers.replace row }.ownedBy b = db.ownedBy b := by
  have hnot : (db.belongs b).providers row = false := by simpa [Database.belongs] using hrow
  exact (put_providers _ (Table.filter_replace_of_not hnot hold)).2

/-! ## Deletions that spare a user -/

variable {deleted : Selection}

/-- The rows left out would take none of the others along. -/
theorem gone_without (h : Spares b db deleted) :
    (db.without b).gone deleted = db.gone deleted := by
  have hproviders : (db.without b).providers.has deleted.providers =
      db.providers.has deleted.providers := funext (Table.has_filter_not h.providers)
  have hconversations : (db.without b).conversations.has (db.gone deleted).conversations =
      db.conversations.has (db.gone deleted).conversations :=
    funext (Table.has_filter_not h.conversations)
  have hmessages : (db.without b).messages.has (db.gone deleted).messages =
      db.messages.has (db.gone deleted).messages := funext (Table.has_filter_not h.messages)
  have hendpoints : (db.without b).endpoints.has (db.gone deleted).endpoints =
      db.endpoints.has (db.gone deleted).endpoints := funext (Table.has_filter_not h.endpoints)
  simp only [Database.gone] at hconversations hmessages hendpoints ⊢
  simp only [hproviders, hconversations, hmessages, hendpoints]

theorem unbrand_without (h : Spares b db deleted) :
    (db.without b).unbrand deleted = db.unbrand deleted := by
  have hresources : (db.without b).resources.has (db.gone deleted).resources =
      db.resources.has (db.gone deleted).resources :=
    funext (Table.has_filter_not fun row hrow => (h.resources row hrow).1)
  funext row
  have hunbranded : (db.without b).unbranded deleted row = db.unbranded deleted row := by
    unfold Database.unbranded
    rw [gone_without h, hresources]
  unfold Database.unbrand
  rw [hunbranded]

theorem belongs_delete (h : Spares b db deleted) :
    (db.delete deleted).belongs b = db.belongs b :=
  belongs_congr (Table.filter_kept h.providers) (Table.filter_kept h.endpoints)

theorem unbrand_provider_id (row : SandboxResource) :
    (db.unbrand deleted row).provider_id = row.provider_id := by
  unfold Database.unbrand
  split <;> rfl

theorem delete_without (h : Spares b db deleted) :
    (db.without b).delete deleted = (db.delete deleted).without b := by
  have hdelete : (db.without b).delete deleted =
      { (db.without b).select (db.gone deleted).rest with
        resources := ((db.without b).resources.filter (db.gone deleted).rest.resources).update
          (db.unbrand deleted) (db.unbrand_key deleted) } := by
    unfold Database.delete
    simp only [gone_without h, unbrand_without h]
    rfl
  have hwithout : (db.delete deleted).without b = (db.delete deleted).select (db.belongs b).rest := by
    unfold Database.without
    rw [belongs_delete h]
  rw [hdelete, hwithout]
  show Database.mk _ _ _ _ _ _ = Database.mk _ _ _ _ _ _
  congr 1
  · exact Table.filter_comm
  · exact Table.filter_comm
  · exact Table.filter_comm
  · exact Table.filter_comm
  · exact Table.filter_comm
  · refine Eq.trans ?_ (Table.filter_update (db.unbrand_key deleted) fun row => ?_).symm
    · exact congrArg (fun t => Table.update t _ (db.unbrand_key deleted)) Table.filter_comm
    · simp only [Selection.rest, Database.belongs, unbrand_provider_id]

theorem ownedBy_delete (h : Spares b db deleted) :
    (db.delete deleted).ownedBy b = db.ownedBy b := by
  have hownedBy : (db.delete deleted).ownedBy b = (db.delete deleted).select (db.belongs b) := by
    unfold Database.ownedBy
    rw [belongs_delete h]
  have hresources : (db.select (db.gone deleted).rest).resources.filter (db.belongs b).resources =
      db.resources.filter (db.belongs b).resources :=
    Table.filter_kept fun row hrow => (h.resources row hrow).1
  rw [hownedBy]
  show Database.mk _ _ _ _ _ _ = Database.mk _ _ _ _ _ _
  congr 1
  · exact Table.filter_kept h.providers
  · exact Table.filter_kept h.conversations
  · exact Table.filter_kept h.messages
  · exact Table.filter_kept h.endpoints
  · exact Table.filter_kept h.deliveries
  · refine (Table.filter_update (db.unbrand_key deleted) fun row => ?_).trans ?_
    · simp only [Database.belongs, unbrand_provider_id]
    · rw [hresources]
      refine Table.update_eq_self _ fun row hrow => ?_
      unfold Database.unbrand
      rw [(h.resources row hrow).2]
      rfl

end

/-! ## Reads -/

section
variable {db : Database} {a b provider_id : String}

theorem filter_below {α : Type} {rows : List α} {keep pick : α → Bool}
    (h : ∀ row, pick row = true → keep row = true) : (rows.filter keep).filter pick = rows.filter pick := by
  rw [List.filter_filter]
  refine List.filter_congr fun row _ => ?_
  cases hpick : pick row with
  | false => rfl
  | true => rw [h row hpick]; rfl

theorem find?_below {α : Type} {rows : List α} {keep pick : α → Bool}
    (h : ∀ row, pick row = true → keep row = true) : (rows.filter keep).find? pick = rows.find? pick := by
  rw [← List.head?_filter, filter_below h, List.head?_filter]

theorem getProviders_without (hab : a ≠ b) : getProviders (db.without b) a = getProviders db a := by
  refine filter_below fun row hrow => ?_
  have huser : row.user_id = a := by simpa using hrow
  simp [Selection.rest, Database.belongs, huser, hab]

theorem getProviderById_without (hab : a ≠ b) :
    getProviderById (db.without b) provider_id a = getProviderById db provider_id a := by
  refine find?_below fun row hrow => ?_
  have huser : row.user_id = a := by simpa using (Bool.and_eq_true_iff.mp hrow).2
  simp [Selection.rest, Database.belongs, huser, hab]

theorem ofUser_eq_false (hab : a ≠ b) {row : SandboxProvider} (hrow : row ∈ db.providers.rows)
    (huser : row.user_id = a) : db.ofUser b row.id = false := by
  by_contra h
  obtain ⟨other, hother, hid, hmine⟩ := Table.has_iff.mp (by simpa [Database.ofUser] using h)
  have hsame : other = row := List.inj_on_of_nodup_map db.providers.nodup hother hrow hid
  subst hsame
  exact hab (huser.symm.trans (by simpa using hmine))

theorem getProviderById_eq_some {row : SandboxProvider}
    (h : getProviderById db provider_id a = some row) :
    row ∈ db.providers.rows ∧ row.id = provider_id ∧ row.user_id = a := by
  have hfound := List.find?_some h
  simp only [Bool.and_eq_true, beq_iff_eq] at hfound
  exact ⟨List.mem_of_find?_eq_some h, hfound⟩

theorem ofUser_of_found (hab : a ≠ b) {row : SandboxProvider}
    (h : getProviderById db provider_id a = some row) : db.ofUser b provider_id = false := by
  obtain ⟨hrow, rfl, huser⟩ := getProviderById_eq_some h
  exact ofUser_eq_false hab hrow huser

theorem getConversations_without (h : db.ofUser b provider_id = false) :
    getConversations (db.without b) provider_id = getConversations db provider_id := by
  refine filter_below fun row hrow => ?_
  exact kept_of_ofUser h (by simpa using hrow)

theorem getMessages_without (h : db.ofUser b provider_id = false) (conversation_id : Option String)
    (page : Page) : getMessages (db.without b) provider_id conversation_id page =
      getMessages db provider_id conversation_id page := by
  have hrows : (db.without b).messages.rows.filter (fun row => row.provider_id == provider_id &&
      conversation_id.all fun id => row.conversation_id == some id) =
      db.messages.rows.filter fun row => row.provider_id == provider_id &&
        conversation_id.all fun id => row.conversation_id == some id := by
    refine filter_below fun row hrow => ?_
    exact kept_of_ofUser h (by simpa using (Bool.and_eq_true_iff.mp hrow).1)
  unfold getMessages
  rw [hrows]

theorem getWebhookEndpoints_without (h : db.ofUser b provider_id = false) :
    getWebhookEndpoints (db.without b) provider_id = getWebhookEndpoints db provider_id := by
  refine filter_below fun row hrow => ?_
  exact kept_of_ofUser h (by simpa using hrow)

theorem getWebhookDeliveries_without (h : db.ofUser b provider_id = false) :
    getWebhookDeliveries (db.without b) provider_id = getWebhookDeliveries db provider_id := by
  -- An endpoint of this provider is none of the user's, nor are its deliveries.
  have hendpoints : (db.without b).endpoints.has (fun row => row.provider_id == provider_id) =
      db.endpoints.has fun row => row.provider_id == provider_id := by
    refine funext (Table.has_filter_not fun row hrow => ?_)
    obtain ⟨hmem, hmine⟩ := List.mem_filter.mp hrow
    by_contra hprovider
    have hid : row.provider_id = provider_id := by simpa using hprovider
    have hmine' : db.ofUser b row.provider_id = true := hmine
    rw [hid, h] at hmine'
    cases hmine'
  have hrows : (db.without b).deliveries.rows.filter (fun row =>
      db.endpoints.has (fun endpoint => endpoint.provider_id == provider_id) row.endpoint_id) =
      db.deliveries.rows.filter fun row =>
        db.endpoints.has (fun endpoint => endpoint.provider_id == provider_id) row.endpoint_id := by
    refine filter_below fun row hrow => ?_
    obtain ⟨endpoint, hendpoint, hid, hprovider⟩ := Table.has_iff.mp hrow
    show (!db.endpoints.has (db.belongs b).endpoints row.endpoint_id) = true
    by_contra hmine
    obtain ⟨other, hother, hid', hmine'⟩ := Table.has_iff.mp (by simpa using hmine)
    have hsame : other = endpoint :=
      List.inj_on_of_nodup_map db.endpoints.nodup hother hendpoint (hid'.trans hid.symm)
    subst hsame
    have hofUser : db.ofUser b other.provider_id = true := hmine'
    rw [show other.provider_id = provider_id by simpa using hprovider, h] at hofUser
    cases hofUser
  unfold getWebhookDeliveries
  rw [hendpoints, hrows]

end

/-! ## Requests that stay apart -/

/-- No row of the user has one of the new ids. -/
structure Draw.Fresh (draw : Draw) (rows : Database) : Prop where
  providers : ∀ old ∈ rows.providers.rows, old.id ≠ draw.id
  conversations : ∀ old ∈ rows.conversations.rows, old.id ≠ draw.conversation_id
  messages : ∀ old ∈ rows.messages.rows, old.id ≠ draw.id
  endpoints : ∀ old ∈ rows.endpoints.rows, old.id ≠ draw.id
  deliveries : ∀ old ∈ rows.deliveries.rows, old.id ≠ draw.id

def Apart.conversation (rows : Database) (body : MessageRequest) : Prop :=
  ∀ old ∈ rows.conversations.rows, body.conversation_id ≠ some old.id

/-- A request of `a` puts no message into a conversation of `b`, and what it deletes is
none of the rows of `b` and takes none of them along. -/
def Request.Apart (a b : String) (db : Database) : Request → Prop
  | .deleteProvider provider_id => (getProviderById db provider_id a).isSome →
      Spares b db { providers := fun row => row.id == provider_id }
  | .deleteConversation provider_id conversation_id =>
      (getProviderById db provider_id a).isSome →
      (∃ row ∈ db.conversations.rows, row.id = conversation_id ∧ row.provider_id = provider_id) →
      Spares b db { conversations := fun row => row.id == conversation_id }
  | .deleteMessage message_id => Spares b db { messages := fun row => row.id == message_id }
  | .deleteWebhook endpoint_id => Spares b db { endpoints := fun row => row.id == endpoint_id }
  | .simulateInbound _ body => Apart.conversation (db.ownedBy b) body
  | .sendMessage _ body => Apart.conversation (db.ownedBy b) body
  | _ => True

/-- The user's rows stay, and the answer and the other rows are the same without them. -/
structure Shows {α : Type} (b : String) (run : Database → α × Database) (db : Database) :
    Prop where
  without : run (db.without b) = ((run db).1, (run db).2.without b)
  ownedBy : (run db).2.ownedBy b = db.ownedBy b

/-- `Hides`, of a write that returns the row. -/
structure HidesRow {α : Type} (b : String) (write : Database → Option (α × Database))
    (db : Database) : Prop where
  without : write (db.without b) = (write db).map fun (row, db) => (row, db.without b)
  ownedBy : ∀ row db', write db = some (row, db') → db'.ownedBy b = db.ownedBy b

section
variable {db : Database} {a b : String} {draw : Draw}

theorem Hides.row {α : Type} {write : Database → Option Database} (h : Hides b write db) (row : α) :
    HidesRow b (fun db => (write db).map fun db => (row, db)) db := by
  constructor
  · rw [h.without]
    cases write db <;> rfl
  · intro row' db' hdb'
    obtain ⟨after, hwrite, hsame⟩ := Option.map_eq_some_iff.mp hdb'
    cases hsame
    exact h.ownedBy _ hwrite

theorem shows_inserted {α β : Type} (body : α → β) {write : Database → Option (α × Database)}
    (h : HidesRow b write db) : Shows b (fun db => inserted body db (write db)) db := by
  constructor
  · rw [h.without]
    cases write db <;> rfl
  · cases hwrite : write db with
    | none => rfl
    | some result => exact h.ownedBy result.1 result.2 hwrite

theorem shows_deleted (what : String) {write : Database → Option Database} (h : Hides b write db) :
    Shows b (fun db => deleted what db (write db)) db := by
  constructor
  · rw [h.without]
    cases write db <;> rfl
  · cases hwrite : write db with
    | none => rfl
    | some db' => exact h.ownedBy db' hwrite

/-- A deletion after a query that finds the same row. -/
theorem hides_found {α : Type} {find : Database → Option α} {picked : α → Selection}
    (hfind : find (db.without b) = find db) (h : ∀ row, find db = some row → Spares b db (picked row)) :
    Hides b (fun db => (find db).map fun row => db.delete (picked row)) db := by
  constructor
  · rw [hfind]
    cases hrow : find db with
    | none => rfl
    | some row => exact congrArg some (delete_without (h row hrow))
  · intro db' hdb'
    obtain ⟨row, hrow, rfl⟩ := Option.map_eq_some_iff.mp hdb'
    exact ownedBy_delete (h row hrow)

theorem hides_deleteProvider (hab : a ≠ b) {provider_id : String}
    (h : Request.Apart a b db (.deleteProvider provider_id)) :
    Hides b (deleteProvider · provider_id a) db := by
  refine hides_found (getProviderById_without hab) fun row hrow => ?_
  rw [(getProviderById_eq_some hrow).2.1]
  exact h (by rw [hrow]; rfl)

theorem hides_deleteConversation (hab : a ≠ b) {provider_id conversation_id : String}
    (hprovider : (getProviderById db provider_id a).isSome)
    (h : Request.Apart a b db (.deleteConversation provider_id conversation_id)) :
    Hides b (deleteConversation · conversation_id provider_id) db := by
  obtain ⟨provider, hfound⟩ := Option.isSome_iff_exists.mp hprovider
  have hnot := ofUser_of_found hab hfound
  refine hides_found (find?_below fun row hrow => ?_) fun row hrow => ?_
  · exact kept_of_ofUser hnot (by simpa using (Bool.and_eq_true_iff.mp hrow).2)
  · have hids := List.find?_some hrow
    simp only [Bool.and_eq_true, beq_iff_eq] at hids
    rw [hids.1]
    exact h hprovider ⟨row, List.mem_of_find?_eq_some hrow, hids⟩

theorem hides_deleteMessage {message_id : String}
    (h : Request.Apart a b db (.deleteMessage message_id)) :
    Hides b (deleteMessage · message_id) db := by
  refine hides_found (Table.find_filter_not fun row hrow hid => ?_) fun row hrow => ?_
  · have hkept := h.messages row hrow
    simp [Database.gone, hid] at hkept
  · rw [(Table.find_eq_some_iff.mp hrow).2]
    exact h

theorem hides_deleteWebhookEndpoint {endpoint_id : String}
    (h : Request.Apart a b db (.deleteWebhook endpoint_id)) :
    Hides b (deleteWebhookEndpoint · endpoint_id) db := by
  refine hides_found (Table.find_filter_not fun row hrow hid => ?_) fun _ _ => h
  have hkept := h.endpoints row hrow
  simp [Database.gone, hid] at hkept

theorem hides_storeMessage {provider_id direction : String} {data : MessageRequest}
    {conversation_id : Option String} (hfresh : draw.Fresh (db.ownedBy b))
    (hprovider : db.ofUser b provider_id = false)
    (hconversation : ∀ old ∈ (db.ownedBy b).conversations.rows, conversation_id ≠ some old.id) :
    HidesRow b (storeMessage draw · provider_id direction data conversation_id) db :=
  (hides_insertMessage hprovider hfresh.messages hconversation).row _

theorem hides_createWebhookEndpoint {provider_id : String} (hfresh : draw.Fresh (db.ownedBy b))
    (hprovider : db.ofUser b provider_id = false) (data : WebhookEndpointCreateRequest) :
    HidesRow b (createWebhookEndpoint draw · provider_id data) db :=
  (hides_insertEndpoint hprovider hfresh.endpoints).row _

theorem findConversation_without {provider_id : String} (hprovider : db.ofUser b provider_id = false)
    (external_id : String) : (db.without b).conversations.rows.find? (fun row =>
      row.provider_id == provider_id && row.external_id == external_id) =
      db.conversations.rows.find? fun row =>
        row.provider_id == provider_id && row.external_id == external_id := by
  refine find?_below fun row hrow => ?_
  exact kept_of_ofUser hprovider (by simpa using (Bool.and_eq_true_iff.mp hrow).1)

theorem hides_getOrCreateConversation {provider_id : String} (hfresh : draw.Fresh (db.ownedBy b))
    (hprovider : db.ofUser b provider_id = false) (external_id name : String) :
    HidesRow b (getOrCreateConversation draw · provider_id external_id name) db := by
  have hinsert : ∀ row : SandboxConversation, row.id = draw.conversation_id →
      row.provider_id = provider_id → HidesRow b (fun db => (db.insertConversation row).map
        fun db => (row, db)) db := by
    intro row hid hrow
    refine (hides_insertConversation (hrow ▸ hprovider) ?_).row row
    rw [hid]
    exact hfresh.conversations
  constructor
  · unfold getOrCreateConversation
    rw [findConversation_without hprovider]
    split
    · rfl
    · exact (hinsert _ rfl rfl).without
  · intro conv db' hdb'
    unfold getOrCreateConversation at hdb'
    split at hdb'
    · cases hdb'
      rfl
    · exact (hinsert _ rfl rfl).ownedBy conv db' hdb'

theorem getOrCreateConversation_apart {provider_id external_id name : String}
    {conv : SandboxConversation} {db' : Database} (hfresh : draw.Fresh (db.ownedBy b))
    (hprovider : db.ofUser b provider_id = false)
    (h : getOrCreateConversation draw db provider_id external_id name = some (conv, db')) :
    ∀ old ∈ (db.ownedBy b).conversations.rows, old.id ≠ conv.id := by
  unfold getOrCreateConversation at h
  split at h
  · next found hfound =>
    cases h
    intro old hold hid
    obtain ⟨hmem, hmine⟩ := List.mem_filter.mp hold
    have hsame : old = conv := List.inj_on_of_nodup_map db.conversations.nodup hmem
      (List.mem_of_find?_eq_some hfound) hid
    subst hsame
    have hids := List.find?_some hfound
    simp only [Bool.and_eq_true, beq_iff_eq] at hids
    have hofUser : db.ofUser b old.provider_id = true := hmine
    rw [hids.1, hprovider] at hofUser
    cases hofUser
  · obtain ⟨after, -, hsame⟩ := Option.map_eq_some_iff.mp h
    cases hsame
    exact hfresh.conversations

theorem ofUser_congr {db' : Database} (h : db'.ownedBy b = db.ownedBy b) :
    db'.ofUser b = db.ofUser b :=
  funext (Table.has_of_filter (congrArg Database.providers h))

theorem shows_post (hab : a ≠ b) (hfresh : draw.Fresh (db.ownedBy b))
    (direction external provider_id : String) (data : MessageRequest)
    (h : Apart.conversation (db.ownedBy b) data) :
    Shows b (post direction external draw · provider_id a data) db := by
  cases hfound : getProviderById db provider_id a with
  | none =>
    constructor
    · simp only [post, getProviderById_without hab, hfound]
    · simp only [post, hfound]
  | some provider =>
    have hprovider := ofUser_of_found hab hfound
    have hstored : ∀ (after : Database) (conversation_id : String),
        after.ownedBy b = db.ownedBy b →
        (∀ old ∈ (db.ownedBy b).conversations.rows, old.id ≠ conversation_id) →
        Shows b (fun db => inserted id db
          (storeMessage draw db provider_id direction data (some conversation_id))) after := by
      intro after conversation_id hsame hconversation
      refine shows_inserted id (hides_storeMessage (hsame ▸ hfresh) ?_ ?_)
      · rw [ofUser_congr hsame, hprovider]
      · intro old hold heq
        exact hconversation old (hsame ▸ hold) (Option.some.inj heq).symm
    cases hid : data.conversation_id with
    | some conversation_id =>
      have hshows := hstored db conversation_id rfl fun old hold heq =>
        h old hold (hid.trans (congrArg some heq.symm))
      constructor
      · simp only [post, getProviderById_without hab, hfound, hid]
        exact hshows.without
      · simp only [post, hfound, hid]
        exact hshows.ownedBy
    | none =>
      have hconversation := hides_getOrCreateConversation hfresh hprovider
      constructor
      · simp only [post, getProviderById_without hab, hfound, hid]
        rw [(hconversation _ _).without]
        cases hgot : getOrCreateConversation draw db provider_id _ _ with
        | none => rfl
        | some result =>
          exact (hstored result.2 result.1.id ((hconversation _ _).ownedBy _ _ hgot)
            (getOrCreateConversation_apart hfresh hprovider hgot)).without
      · simp only [post, hfound, hid]
        cases hgot : getOrCreateConversation draw db provider_id _ _ with
        | none => rfl
        | some result =>
          have hkept := (hconversation _ _).ownedBy _ _ hgot
          exact ((hstored result.2 result.1.id hkept
            (getOrCreateConversation_apart hfresh hprovider hgot)).ownedBy).trans hkept

theorem shows_updateProvider (hab : a ≠ b) (plugins : String → Option Plugin) (provider_id : String)
    (body : ProviderUpdateRequest) :
    Shows b (Request.serve plugins a draw · (.updateProvider provider_id body)) db := by
  cases hfound : getProviderById db provider_id a with
  | none =>
    constructor
    · simp only [Request.serve, updateProvider, getProviderById_without hab, hfound, Option.map_none]
    · simp only [Request.serve, updateProvider, hfound, Option.map_none]
  | some provider =>
    obtain ⟨hmem, rfl, huser⟩ := getProviderById_eq_some hfound
    have hnot : provider.user_id ≠ b := fun heq => hab (huser.symm.trans heq)
    have hold := provider_of_ofUser (ofUser_eq_false hab hmem huser)
    constructor
    · simp only [Request.serve, updateProvider, getProviderById_without hab, hfound, Option.map_some]
      exact congrArg (Prod.mk _) (replaced_without hnot hold)
    · simp only [Request.serve, updateProvider, hfound, Option.map_some]
      exact replaced_ownedBy hnot hold

/-- An answer behind the check that the provider is the caller's. -/
theorem shows_guarded (hab : a ≠ b) (provider_id : String) (run : Database → Response × Database)
    (hrun : ∀ provider, getProviderById db provider_id a = some provider → Shows b run db) :
    Shows b (fun db => match getProviderById db provider_id a with
      | none => (notFound "Provider", db)
      | some _ => run db) db := by
  cases hfound : getProviderById db provider_id a with
  | none =>
    constructor
    · simp only [getProviderById_without hab, hfound]
    · simp only [hfound]
  | some provider =>
    constructor
    · simp only [getProviderById_without hab, hfound]
      exact (hrun provider hfound).without
    · simp only [hfound]
      exact (hrun provider hfound).ownedBy

theorem shows_serve (hab : a ≠ b) (plugins : String → Option Plugin) (request : Request)
    (hfresh : draw.Fresh (db.ownedBy b)) (h : request.Apart a b db) :
    Shows b (Request.serve plugins a draw · request) db := by
  have hread : ∀ response : Database → Response, response (db.without b) = response db →
      Shows b (fun db => (response db, db)) db := fun response hsame =>
    ⟨by rw [hsame], rfl⟩
  have hbelow : ∀ (provider_id : String) (read : Database → SandboxProvider → Body),
      (db.ofUser b provider_id = false → read (db.without b) = read db) →
      Shows b (fun db => (withProvider db provider_id a (read db), db)) db := by
    intro provider_id read hsame
    refine hread _ ?_
    unfold withProvider
    rw [getProviderById_without hab]
    cases hfound : getProviderById db provider_id a with
    | none => rfl
    | some provider => simp only [hsame (ofUser_of_found hab hfound)]
  have hposted : ∀ (direction external provider_id : String) (body : MessageRequest),
      Apart.conversation (db.ownedBy b) body →
      Shows b (fun db => posted (post direction external draw db provider_id a body)) db := by
    intro direction external provider_id body hbody
    have hshows := shows_post hab hfresh direction external provider_id body hbody
    exact ⟨congrArg posted hshows.without, hshows.ownedBy⟩
  cases request with
  | listProviders => exact hread _ (by rw [getProviders_without hab])
  | createProvider body =>
    exact shows_inserted _ ((hides_insertProvider hab hfresh.providers).row _)
  | getProvider provider_id => exact hbelow provider_id (fun _ => _) fun _ => rfl
  | updateProvider provider_id body => exact shows_updateProvider hab plugins provider_id body
  | deleteProvider provider_id => exact shows_deleted _ (hides_deleteProvider hab h)
  | listConversations provider_id =>
    exact hbelow provider_id (fun db _ => .conversations (getConversations db provider_id))
      fun hnot => by rw [getConversations_without hnot]
  | deleteConversation provider_id conversation_id =>
    exact shows_guarded hab provider_id _ fun _ hfound =>
      shows_deleted _ (hides_deleteConversation hab (hfound ▸ rfl) h)
  | listConversationMessages provider_id conversation_id page =>
    exact hbelow provider_id (fun db _ => .messages
      (getMessages db provider_id (some conversation_id) page).1
      (getMessages db provider_id (some conversation_id) page).2)
      fun hnot => by rw [getMessages_without hnot]
  | listMessages provider_id page =>
    cases provider_id with
    | some provider_id =>
      exact hbelow provider_id (fun db _ => .messages (getMessages db provider_id none page).1
        (getMessages db provider_id none page).2) fun hnot => by rw [getMessages_without hnot]
    | none =>
      refine hread (fun db => .ok (listMessages db a page)) (congrArg Except.ok ?_)
      have hfound : (getProviders db a).map (fun provider =>
          getMessages (db.without b) provider.id none page) =
          (getProviders db a).map fun provider => getMessages db provider.id none page := by
        refine List.map_congr_left fun provider hprovider => ?_
        obtain ⟨hmem, huser⟩ := List.mem_filter.mp hprovider
        exact getMessages_without (ofUser_eq_false hab hmem (by simpa using huser)) none page
      unfold listMessages
      rw [getProviders_without hab, hfound]
  | deleteMessage message_id => exact shows_deleted _ (hides_deleteMessage h)
  | simulateInbound provider_id body => exact hposted _ _ provider_id body h
  | sendMessage provider_id body => exact hposted _ _ provider_id body h
  | createWebhook provider_id body =>
    exact shows_guarded hab provider_id _ fun _ hfound =>
      shows_inserted _ (hides_createWebhookEndpoint hfresh (ofUser_of_found hab hfound) body)
  | listWebhooks provider_id =>
    exact hbelow provider_id (fun db _ => .endpoints (getWebhookEndpoints db provider_id))
      fun hnot => by rw [getWebhookEndpoints_without hnot]
  | deleteWebhook endpoint_id => exact shows_deleted _ (hides_deleteWebhookEndpoint h)
  | listWebhookDeliveries provider_id =>
    exact hbelow provider_id (fun db _ => .deliveries (getWebhookDeliveries db provider_id))
      fun hnot => by rw [getWebhookDeliveries_without hnot]

end

/-! ## Deliveries in the background -/

/-- The task names no row of the user. -/
def Delivering.Clear (rows : Database) : Delivering → Prop
  | .fired message => (∀ old ∈ rows.messages.rows, old.id ≠ message.id) ∧
      ∀ old ∈ rows.providers.rows, old.id ≠ message.provider_id
  | .posting message _ endpoint rest _ => (∀ old ∈ rows.messages.rows, old.id ≠ message.id) ∧
      ∀ next ∈ endpoint :: rest, ∀ old ∈ rows.endpoints.rows, old.id ≠ next.id

section
variable {db : Database} {a b : String} {draw : Draw}

theorem ofUser_of_provider {provider_id : String}
    (h : ∀ row ∈ (db.ownedBy b).providers.rows, row.id ≠ provider_id) :
    db.ofUser b provider_id = false := by
  by_contra hmine
  obtain ⟨row, hrow, hid, huser⟩ := Table.has_iff.mp (by simpa [Database.ofUser] using hmine)
  exact h row (List.mem_filter.mpr ⟨hrow, huser⟩) hid

theorem endpoint_of_ofUser {endpoint : SandboxWebhookEndpoint} (hmem : endpoint ∈ db.endpoints.rows)
    (h : db.ofUser b endpoint.provider_id = false) :
    ∀ old ∈ (db.ownedBy b).endpoints.rows, old.id ≠ endpoint.id := by
  intro old hold hid
  obtain ⟨hmem', hmine⟩ := List.mem_filter.mp hold
  have hsame : old = endpoint := List.inj_on_of_nodup_map db.endpoints.nodup hmem' hmem hid
  subst hsame
  exact Bool.false_ne_true (h.symm.trans hmine)

theorem Delivering.next_clear {rows : Database} {message : SandboxMessage}
    {provider : SandboxProvider} {endpoints : List SandboxWebhookEndpoint} {task : Delivering}
    (hmessage : ∀ old ∈ rows.messages.rows, old.id ≠ message.id)
    (hendpoints : ∀ next ∈ endpoints, ∀ old ∈ rows.endpoints.rows, old.id ≠ next.id)
    (h : Delivering.next message provider endpoints = some task) : task.Clear rows := by
  cases endpoints with
  | nil => cases h
  | cons endpoint rest =>
    cases h
    exact ⟨hmessage, hendpoints⟩

theorem shows_delivering (plugins : String → Option Plugin) {task : Delivering} (outcome : Outcome) (hfresh : draw.Fresh (db.ownedBy b))
    (h : task.Clear (db.ownedBy b)) :
    Shows b (Delivering.step plugins draw outcome · task) db ∧
      ∀ task' ∈ (task.step plugins draw outcome db).1, task'.Clear (db.ownedBy b) := by
  cases task with
  | fired message =>
    obtain ⟨hmessage, hprovider⟩ := h
    have hnot := ofUser_of_provider hprovider
    have hfind : (db.without b).providers.find message.provider_id =
        db.providers.find message.provider_id := Table.find_filter_not hprovider
    have hendpoints : (db.without b).endpoints.rows.filter (fun row =>
        row.provider_id == message.provider_id && row.is_active) =
        db.endpoints.rows.filter fun row =>
          row.provider_id == message.provider_id && row.is_active := by
      refine filter_below fun row hrow => ?_
      exact kept_of_ofUser hnot (by simpa using (Bool.and_eq_true_iff.mp hrow).1)
    refine ⟨⟨?_, ?_⟩, ?_⟩
    · simp only [Delivering.step, hfind, hendpoints]
      split <;> rfl
    · simp only [Delivering.step]
      split <;> rfl
    · intro task' htask
      simp only [Delivering.step] at htask
      split at htask
      · cases htask
      · refine Delivering.next_clear hmessage (fun next hnext => ?_) htask
        obtain ⟨hmem, hbelow⟩ := List.mem_filter.mp hnext
        refine endpoint_of_ofUser hmem ?_
        rw [show next.provider_id = message.provider_id by
          simpa using (Bool.and_eq_true_iff.mp hbelow).1, hnot]
  | posting message provider endpoint rest attempt =>
    obtain ⟨hmessage, hendpoints⟩ := h
    have hinsert : Hides b (·.insertDelivery
        (deliveryOf plugins draw message provider endpoint attempt outcome)) db := by
      cases outcome with
      | answered status text =>
        exact hides_insertDelivery (hendpoints endpoint List.mem_cons_self)
          (fun old hold heq => hmessage old hold (Option.some.inj heq).symm) hfresh.deliveries
      | failed error =>
        exact hides_insertDelivery (hendpoints endpoint List.mem_cons_self)
          (fun old hold heq => hmessage old hold (Option.some.inj heq).symm) hfresh.deliveries
    refine ⟨⟨?_, ?_⟩, ?_⟩
    · simp only [Delivering.step]
      rw [hinsert.without]
      cases db.insertDelivery _ <;> rfl
    · simp only [Delivering.step]
      cases hdb' : db.insertDelivery _ with
      | none => rfl
      | some db' => exact hinsert.ownedBy db' hdb'
    · intro task' htask
      simp only [Delivering.step] at htask
      split at htask
      · cases htask
      · split at htask
        · cases htask
          exact ⟨hmessage, hendpoints⟩
        · exact Delivering.next_clear hmessage
            (fun next hnext => hendpoints next (List.mem_cons_of_mem _ hnext)) htask

theorem inserted_ok {row : SandboxMessage} {result : Option (SandboxMessage × Database)}
    (h : (inserted id db result).1 = .ok row) : ∃ db', result = some (row, db') := by
  cases result with
  | none => cases h
  | some result =>
    cases h
    exact ⟨result.2, rfl⟩

theorem storeMessage_row {provider_id direction : String} {data : MessageRequest}
    {conversation_id : Option String} {msg : SandboxMessage} {db' : Database}
    (h : storeMessage draw db provider_id direction data conversation_id = some (msg, db')) :
    msg.id = draw.id ∧ msg.provider_id = provider_id := by
  obtain ⟨after, -, hsame⟩ := Option.map_eq_some_iff.mp h
  cases hsame
  exact ⟨rfl, rfl⟩

theorem post_ok {direction external provider_id : String} {data : MessageRequest}
    {msg : SandboxMessage} (h : (post direction external draw db provider_id a data).1 = .ok msg) :
    msg.id = draw.id ∧ msg.provider_id = provider_id ∧
      ∃ provider, getProviderById db provider_id a = some provider := by
  unfold post at h
  split at h
  · cases h
  · next provider hfound =>
    dsimp only at h
    split at h
    · cases h
    · obtain ⟨db', hstored⟩ := inserted_ok h
      obtain ⟨hid, hprovider⟩ := storeMessage_row hstored
      exact ⟨hid, hprovider, provider, hfound⟩

end

/-! ## Runs -/

def State.without (s : State) (user_id : String) : State := { s with db := s.db.without user_id }

def State.Clear (b : String) (s : State) : Prop := ∀ task ∈ s.tasks, task.Clear (s.db.ownedBy b)

/-- What a step of `a` leaves alone. -/
def Event.Apart (a b : String) (s : State) : Event → Prop
  | .request draw r => draw.Fresh (s.db.ownedBy b) ∧ r.Apart a b s.db
  | .task _ draw _ => draw.Fresh (s.db.ownedBy b)

section
variable {a b : String} (plugins : String → Option Plugin)

theorem fired_clear (hab : a ≠ b) {draw : Draw} {db : Database} {request : Request}
    (hfresh : draw.Fresh (db.ownedBy b)) {task : Delivering}
    (h : task ∈ fired request (request.serve plugins a draw db).1) : task.Clear (db.ownedBy b) := by
  have hpost : ∀ (direction external provider_id : String) (data : MessageRequest) (msg : SandboxMessage),
      (posted (post direction external draw db provider_id a data)).1 = .ok (.message msg) →
      (Delivering.fired msg).Clear (db.ownedBy b) := by
    intro direction external provider_id data msg hmsg
    obtain ⟨stored, hstored, hsame⟩ := ok_of_map hmsg
    cases hsame
    obtain ⟨hid, hprovider, provider, hfound⟩ := post_ok hstored
    refine ⟨hid ▸ hfresh.messages, ?_⟩
    rw [hprovider]
    exact provider_of_ofUser (ofUser_of_found hab hfound)
  unfold fired at h
  split at h
  · next provider_id data msg hmsg =>
    obtain rfl := List.mem_singleton.mp h
    exact hpost _ _ provider_id data msg hmsg
  · next provider_id data msg hmsg =>
    obtain rfl := List.mem_singleton.mp h
    exact hpost _ _ provider_id data msg hmsg
  · cases h

/-- One step, with the rows of the user and without them. -/
theorem step_apart (hab : a ≠ b) {s : State} {e : Event} (hclear : s.Clear b)
    (h : e.Apart a b s) :
    (s.without b).step plugins a e = ((s.step plugins a e).1, (s.step plugins a e).2.without b) ∧
      (s.step plugins a e).2.db.ownedBy b = s.db.ownedBy b ∧ (s.step plugins a e).2.Clear b := by
  cases e with
  | request draw request =>
    obtain ⟨hfresh, hapart⟩ := h
    have hserve := shows_serve hab plugins request hfresh hapart
    refine ⟨?_, hserve.ownedBy, ?_⟩
    · simp only [State.step, State.without, hserve.without]
    · intro task htask
      show task.Clear ((request.serve plugins a draw s.db).2.ownedBy b)
      rw [hserve.ownedBy]
      rcases List.mem_append.mp htask with hold | hnew
      · exact hclear task hold
      · exact fired_clear plugins hab hfresh hnew
  | task index draw outcome =>
    cases htask : s.tasks[index]? with
    | none =>
      refine ⟨?_, ?_, ?_⟩
      · simp only [State.step, State.without, htask]
      · simp only [State.step, htask]
      · simpa only [State.step, htask] using hclear
    | some task =>
      obtain ⟨hshows, hnext⟩ := shows_delivering plugins outcome h
        (hclear task (List.mem_of_getElem? htask))
      have hwithout := hshows.without
      have howned := hshows.ownedBy
      cases hstep : task.step plugins draw outcome s.db with
      | mk task' db =>
        rw [hstep] at hwithout howned hnext
        cases task' with
        | none =>
          refine ⟨?_, ?_, ?_⟩
          · simp only [State.step, State.without, htask, hwithout, hstep]
          · simp only [State.step, htask, hstep]
            exact howned
          · simp only [State.step, htask, hstep]
            intro other hother
            show other.Clear (db.ownedBy b)
            rw [howned]
            exact hclear other (List.mem_of_mem_eraseIdx hother)
        | some task' =>
          refine ⟨?_, ?_, ?_⟩
          · simp only [State.step, State.without, htask, hwithout, hstep]
          · simp only [State.step, htask, hstep]
            exact howned
          · simp only [State.step, htask, hstep]
            intro other hother
            show other.Clear (db.ownedBy b)
            rw [howned]
            rcases List.mem_or_eq_of_mem_set hother with hold | rfl
            · exact hclear other hold
            · exact hnext _ rfl

theorem unwinds (hab : a ≠ b) :
    (api plugins a).Unwinds (·.without b) (State.Clear b) (Event.Apart a b) where
  output hclear h := (Prod.ext_iff.mp (step_apart plugins hab hclear h).1).1
  next hclear h := (Prod.ext_iff.mp (step_apart plugins hab hclear h).1).2
  keeps hclear h := (step_apart plugins hab hclear h).2.2

/-- **The sandbox of one user stays apart from that of another.** Whatever `a` asks
for, where no request names or takes along a row of `b`: the rows of `b` stay as they
are, and the answers are the same whatever rows `b` has. -/
theorem sandbox_isolated (hab : a ≠ b) (db db' : Database) (hagree : db.without b = db'.without b)
    (events : List Event) (h : (api plugins a).Meets (Event.Apart a b) { db } events)
    (h' : (api plugins a).Meets (Event.Apart a b) { db := db' } events) :
    ((api plugins a).after { db } events).db.ownedBy b = db.ownedBy b ∧
      (api plugins a).outputs { db } events = (api plugins a).outputs { db := db' } events := by
  have hclear : ∀ db : Database, State.Clear b { db } := by
    intro db task htask
    cases htask
  refine ⟨?_, ?_⟩
  · exact Responder.view_kept (fun s : State => s.db.ownedBy b)
      (fun hK hG => (step_apart plugins hab hK hG).2) (hclear db) h
  · refine ((unwinds plugins hab).same ?_ (hclear db) (hclear db') h h').1
    simp only [State.without, hagree]

end

/-! ## A deletion by id -/

def providerOf (user_id id : String) : SandboxProvider :=
  { id, user_id, provider_type := "twilio", name := user_id, credentials := [], created_at := 0 }

def messageOf (provider_id id : String) : SandboxMessage :=
  { id, provider_id, conversation_id := none, direction := "inbound", sender := "ann"
    content := some "hello", created_at := 0 }

def endpointOf (provider_id id : String) : SandboxWebhookEndpoint :=
  { id, provider_id, url := "http://hook.test/", secret := none, event_types := [], created_at := 0 }

/-- Each of two users has a provider with a message and a webhook. -/
def twoUsers : Database where
  providers := ⟨[providerOf "a" "p1", providerOf "b" "p2"], by decide⟩
  conversations := ⟨[], by decide⟩
  messages := ⟨[messageOf "p1" "m1", messageOf "p2" "m2"], by decide⟩
  endpoints := ⟨[endpointOf "p1" "e1", endpointOf "p2" "e2"], by decide⟩
  deliveries := ⟨[], by decide⟩
  resources := ⟨[], by decide⟩

def firstUser : Database := twoUsers.without "b"

def asked (id : String) (request : Request) : Event := .request ⟨1, id, id⟩ request

/-- It deletes its message, stores another and has it posted to its webhook. -/
def ownRows : List Event :=
  [asked "n1" (.deleteMessage "m1"), asked "n2" (.simulateInbound "p1" { content := "hello" }),
    .task 0 ⟨2, "n3", "n3"⟩ (.failed []), .task 0 ⟨3, "n4", "n4"⟩ (.answered 200 [])]

theorem sandbox_isolated_own_rows :
    ((api (fun _ => none) "a").after { db := twoUsers } ownRows).db.ownedBy "b" =
        twoUsers.ownedBy "b" ∧
      (api (fun _ => none) "a").outputs { db := twoUsers } ownRows =
        (api (fun _ => none) "a").outputs { db := firstUser } ownRows := by
  refine sandbox_isolated _ (by decide) twoUsers firstUser rfl ownRows ?_ ?_
  · refine ⟨⟨?_, ?_⟩, ⟨?_, ?_⟩, ?_, ?_, trivial⟩
    · constructor <;> decide
    · constructor <;> decide
    · constructor <;> decide
    · show ∀ old ∈ _, _
      decide
    · constructor <;> decide
    · constructor <;> decide
  · refine ⟨⟨?_, ?_⟩, ⟨?_, ?_⟩, ?_, ?_, trivial⟩
    · constructor <;> decide
    · constructor <;> decide
    · constructor <;> decide
    · show ∀ old ∈ _, _
      decide
    · constructor <;> decide
    · constructor <;> decide

/-- What an answer tells of success. -/
def succeeded : Option Response → Bool
  | some (.ok _) => true
  | _ => false

/-- The first user deletes the message and the webhook of the second by their ids, and
learns whether they are there. -/
theorem deletions_by_id_cross :
    let events := [asked "n1" (.deleteMessage "m2"), asked "n2" (.deleteWebhook "e2")]
    let after := ((api (fun _ => none) "a").after { db := twoUsers } events).db
    twoUsers.without "b" = firstUser.without "b" ∧
      (twoUsers.ownedBy "b").messages.rows.map (·.id) = ["m2"] ∧
      (after.ownedBy "b").messages.rows.map (·.id) = [] ∧
      (twoUsers.ownedBy "b").endpoints.rows.map (·.id) = ["e2"] ∧
      (after.ownedBy "b").endpoints.rows.map (·.id) = [] ∧
      ((api (fun _ => none) "a").outputs { db := twoUsers } events).map succeeded = [true, true] ∧
      ((api (fun _ => none) "a").outputs { db := firstUser } events).map succeeded =
        [false, false] := by
  refine ⟨rfl, ?_, ?_, ?_, ?_, ?_, ?_⟩ <;> decide

end MailCue.Backend.Sandbox
