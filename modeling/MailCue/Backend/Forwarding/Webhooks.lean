import Mathlib
import MailCue.Backend.Forwarding.Service
import MailCue.Lib.IpAddress
import MailCue.Lib.Talk

/-!
# The webhook of a rule

backend/app/forwarding/service.py `_validate_webhook_destination` and `_execute_webhook`. The
client resolves the host again when it connects, unless the host is an address; what any
lookup answers may depend on all that has passed. The request that follows a connection is
left out.
-/
namespace MailCue.Backend.Forwarding
open MailCue.Lib

/-- What `httpx.URL` reads of a URL. -/
structure HttpxUrl where
  scheme : Text
  /-- With `xn--` labels decoded. -/
  host : Text
  /-- As the client connects to it. -/
  raw_host : Text
  port : Option Nat := none
  username : Text := []
  password : Text := []

structure Lookup where
  host : Text
  port : Nat
  deriving DecidableEq, Repr

/-- What `getaddrinfo` answers, or that it raises a `gaierror` or anything else. -/
inductive Answer
  | addresses (found : List IpAddress)
  | gaierror
  | raises
  deriving DecidableEq, Repr

inductive NetworkEvent
  | resolved (lookup : Lookup) (answer : Answer)
  /-- The addresses to which connections are opened, one after the other. -/
  | connected (addresses : List IpAddress)
  deriving DecidableEq

/-- What a delivery finds outside. -/
structure Network where
  httpxUrl : Text → Option HttpxUrl
  getaddrinfo : List NetworkEvent → Lookup → Answer
  /-- The proxy that the environment names for a URL. -/
  proxy : HttpxUrl → Option Lookup := fun _ => none

/-- Which of the addresses the client tries until one accepts. -/
structure Attempts where
  tried : List IpAddress → List IpAddress
  tried_subset : ∀ found, tried found ⊆ found

inductive WebhookFailure
  | validation (message : String)
  | raises
  | connection

abbrev Delivery := Talk NetworkEvent WebhookFailure

section
variable (net : Network)

def lookUp (lookup : Lookup) : Delivery Answer :=
  Talk.exchange (fun log => net.getaddrinfo log lookup) (.resolved lookup)

def HttpxUrl.defaultPort (url : HttpxUrl) : Nat := if url.scheme = "https".toList then 443 else 80

/-- `parsed.port or (443 if parsed.scheme == "https" else 80)` -/
def HttpxUrl.validated (url : HttpxUrl) : Lookup where
  host := url.host
  port := if url.port.getD 0 = 0 then url.defaultPort else url.port.getD 0

/-- `_validate_webhook_destination` -/
def validateWebhookDestination (url : HttpxUrl) : Delivery Unit := do
  if url.scheme ∉ ["http".toList, "https".toList] ∨ url.host = [] then
    Talk.ofExcept (.error (.validation "Webhook URL must use HTTP or HTTPS"))
  else if url.username ≠ [] ∨ url.password ≠ [] then
    Talk.ofExcept (.error (.validation "Webhook URL must not contain embedded credentials"))
  else
    match ← lookUp net url.validated with
    | .gaierror =>
      Talk.ofExcept (.error (.validation "Webhook hostname could not be resolved"))
    | .raises => Talk.ofExcept (.error .raises)
    | .addresses found =>
      if found = [] then
        Talk.ofExcept (.error (.validation "Webhook hostname did not resolve"))
      else if found.all IpAddress.isGlobal then pure ()
      else
        Talk.ofExcept (.error
          (.validation "Webhook destinations must resolve only to public IP addresses"))

/-- Where the client connects to for a URL. -/
def Network.destination (url : HttpxUrl) : Lookup :=
  (net.proxy url).getD ⟨url.raw_host, url.port.getD url.defaultPort⟩

/-- The connection of `client.request`: an address is not looked up. -/
def openConnection (attempts : Attempts) (url : HttpxUrl) : Delivery Unit := do
  let found ← match IpAddress.read (net.destination url).host with
    | some address => pure [address]
    | none => do
      match ← lookUp net (net.destination url) with
      | .addresses found => pure found
      | _ => Talk.ofExcept (.error .connection)
  Talk.exchange (fun _ => ()) fun _ => .connected (attempts.tried found)

/-- `_execute_webhook` -/
def executeWebhook (attempts : Attempts) (config : WebhookConfig) : Delivery Unit := do
  match net.httpxUrl config.url with
  | none => Talk.ofExcept (.error .raises)
  | some url => do
    validateWebhookDestination net url
    openConnection net attempts url

/-! ## What the validation accepts -/

/-- The addresses of the lookup that the validation makes, if it accepts them. -/
def Network.accepted (url : HttpxUrl) : Option (List IpAddress) :=
  if (url.scheme ∉ ["http".toList, "https".toList] ∨ url.host = []) ∨
      (url.username ≠ [] ∨ url.password ≠ []) then none
  else
    match net.getaddrinfo [] url.validated with
    | .addresses found => if found ≠ [] ∧ found.all IpAddress.isGlobal then some found else none
    | _ => none

/-- The addresses a connection is opened to one of, with that lookup behind it. -/
def Network.dialled (url : HttpxUrl) : List IpAddress :=
  match IpAddress.read (net.destination url).host with
  | some address => [address]
  | none =>
    match net.getaddrinfo [.resolved url.validated (net.getaddrinfo [] url.validated)]
        (net.destination url) with
    | .addresses found => found
    | _ => []

/-- Every connection goes to an address that the validation has accepted as global,
whichever addresses are tried. -/
def ReachesAccepted (config : WebhookConfig) : Prop :=
  ∀ attempts addresses, .connected addresses ∈ (executeWebhook net attempts config []).2 →
    ∀ address ∈ addresses, ∃ url found, net.httpxUrl config.url = some url ∧
      net.accepted url = some found ∧ address ∈ found ∧ address.isGlobal = true

/-- What is connected to was found by an accepted lookup before. -/
def LooksUpTheSame (config : WebhookConfig) : Prop :=
  ∀ url found, net.httpxUrl config.url = some url → net.accepted url = some found →
    net.dialled url ⊆ found

variable {net}

theorem validate_of_accepted {url : HttpxUrl} {found : List IpAddress}
    (h : net.accepted url = some found) :
    net.getaddrinfo [] url.validated = .addresses found ∧ found.all IpAddress.isGlobal = true ∧
      validateWebhookDestination net url [] =
        (.ok (), [.resolved url.validated (.addresses found)]) := by
  unfold Network.accepted at h
  split at h
  · cases h
  · rename_i hadmitted
    rw [not_or] at hadmitted
    split at h
    · rename_i addresses hanswer
      split_ifs at h with hall
      obtain rfl := Option.some.inj h
      refine ⟨hanswer, hall.2, ?_⟩
      rw [validateWebhookDestination, if_neg hadmitted.1, if_neg hadmitted.2]
      simp only [lookUp, Talk.exchange, bind, hanswer, List.nil_append, if_neg hall.1,
        if_pos hall.2]
      rfl
    · cases h

/-- What is not accepted raises, and nothing is connected to. -/
theorem validate_of_not_accepted {url : HttpxUrl} (h : net.accepted url = none) :
    ∃ failure log, validateWebhookDestination net url [] = (.error failure, log) ∧
      ∀ addresses, .connected addresses ∉ log := by
  unfold Network.accepted at h
  unfold validateWebhookDestination
  split at h
  · rename_i hrefused
    rcases hrefused with hscheme | hcredentials
    · rw [if_pos hscheme]
      exact ⟨_, [], rfl, fun _ => List.not_mem_nil⟩
    · split
      · exact ⟨_, [], rfl, fun _ => List.not_mem_nil⟩
      · exact ⟨_, [], rfl, fun _ => List.not_mem_nil⟩
  · rename_i hadmitted
    rw [not_or] at hadmitted
    rw [if_neg hadmitted.1, if_neg hadmitted.2]
    simp only [lookUp, Talk.exchange, bind, List.nil_append]
    cases hanswer : net.getaddrinfo [] url.validated with
    | gaierror => exact ⟨_, _, rfl, by simp⟩
    | raises => exact ⟨_, _, rfl, by simp⟩
    | addresses found =>
      rw [hanswer] at h
      simp only at h ⊢
      split_ifs at h with hall
      by_cases hnone : found = []
      · rw [if_pos hnone]
        exact ⟨_, _, rfl, by simp⟩
      · rw [if_neg hnone, if_neg fun hglobal => hall ⟨hnone, hglobal⟩]
        exact ⟨_, _, rfl, by simp⟩

/-- Connections are opened to what is dialled, where that is anything at all. -/
theorem connected_of_openConnection {url : HttpxUrl} (attempts : Attempts)
    (addresses : List IpAddress) :
    (.connected addresses ∈ (openConnection net attempts url
        [.resolved url.validated (net.getaddrinfo [] url.validated)]).2 →
      addresses = attempts.tried (net.dialled url)) ∧
    (net.dialled url ≠ [] → .connected (attempts.tried (net.dialled url)) ∈
      (openConnection net attempts url
        [.resolved url.validated (net.getaddrinfo [] url.validated)]).2) := by
  unfold openConnection Network.dialled
  cases IpAddress.read (net.destination url).host with
  | some address => simp [Talk.exchange, bind, pure]
  | none =>
    simp only [lookUp, Talk.exchange, bind]
    cases hanswer : net.getaddrinfo [.resolved url.validated (net.getaddrinfo [] url.validated)]
        (net.destination url) with
    | gaierror => simp [Talk.ofExcept]
    | raises => simp [Talk.ofExcept]
    | addresses found => simp [pure]

/-! ## Every URL, every resolver -/

/-- **Webhooks reach only addresses that were accepted** exactly where the connection's lookup
finds no address that the accepted lookup did not find. -/
theorem reachesAccepted_iff (net : Network) (config : WebhookConfig) :
    ReachesAccepted net config ↔ LooksUpTheSame net config := by
  constructor
  · intro hreaches url found hurl haccepted address hdialled
    obtain ⟨hanswer, -, hrun⟩ := validate_of_accepted haccepted
    have hconnected : .connected (net.dialled url) ∈
        (executeWebhook net ⟨id, fun _ => List.Subset.refl _⟩ config []).2 := by
      simp only [executeWebhook, hurl, bind, hrun, ← hanswer]
      exact (connected_of_openConnection ⟨id, fun _ => List.Subset.refl _⟩ []).2
        (List.ne_nil_of_mem hdialled)
    obtain ⟨url', found', hurl', haccepted', hmem, -⟩ := hreaches _ _ hconnected address hdialled
    obtain rfl := Option.some.inj (hurl.symm.trans hurl')
    obtain rfl := Option.some.inj (haccepted.symm.trans haccepted')
    exact hmem
  · intro hsame attempts addresses hconnected address haddress
    cases hurl : net.httpxUrl config.url with
    | none => simp [executeWebhook, hurl, Talk.ofExcept] at hconnected
    | some url =>
      simp only [executeWebhook, hurl, bind] at hconnected
      cases haccepted : net.accepted url with
      | none =>
        obtain ⟨failure, log, hrun, hnone⟩ := validate_of_not_accepted haccepted
        rw [hrun] at hconnected
        exact absurd hconnected (hnone addresses)
      | some found =>
        obtain ⟨hanswer, hglobal, hrun⟩ := validate_of_accepted haccepted
        rw [hrun, ← hanswer] at hconnected
        obtain rfl := (connected_of_openConnection attempts addresses).1 hconnected
        have hfound := hsame url found hurl haccepted (attempts.tried_subset _ haddress)
        exact ⟨url, found, rfl, haccepted, hfound, List.all_eq_true.mp hglobal address hfound⟩

end

/-- A name that is public when it is looked up first and local from then on. -/
def rebinding : Network where
  httpxUrl _ := some
    { scheme := "http".toList, host := "rebind.test".toList, raw_host := "rebind.test".toList }
  getaddrinfo log _ :=
    .addresses [if log.isEmpty then .v4 [93, 184, 216, 34] else .v4 [127, 0, 0, 1]]

theorem rebinding_reaches_loopback : ¬ ∀ net config, ReachesAccepted net config := by
  intro h
  have hconnected : .connected [.v4 [127, 0, 0, 1]] ∈ (executeWebhook rebinding
      ⟨id, fun _ => List.Subset.refl _⟩ { url := "http://rebind.test/".toList } []).2 := by
    decide +kernel
  obtain ⟨url, found, -, -, -, hglobal⟩ := h rebinding { url := "http://rebind.test/".toList } _ _
    hconnected _ List.mem_cons_self
  exact absurd hglobal (by decide +kernel)

end MailCue.Backend.Forwarding
