import MailCue.Lib.Text

/-!
# Receiving providers

backend/app/emails/mx_providers.py: which provider runs an MX host. Of a
provider's profile only the rejection codes are kept; its name, its bounce prior
and its notes are read by the scoring.
-/
namespace MailCue.Backend.Emails
open MailCue.Lib

structure MxProvider where
  id : String
  definitive_rejection_codes : List String := []
  deriving DecidableEq, Repr

def PROVIDERS : List MxProvider :=
  [{ id := "microsoft365", definitive_rejection_codes := ["5.4.1", "5.1.10"] },
    { id := "google_workspace" },
    { id := "outlook_consumer", definitive_rejection_codes := ["5.4.1"] },
    { id := "proofpoint" }, { id := "mimecast" }, { id := "barracuda" },
    { id := "cisco_ironport" }, { id := "messagelabs" }, { id := "forcepoint" },
    { id := "sophos" }, { id := "trend_micro" }, { id := "hornetsecurity" },
    { id := "retarus" }, { id := "spamexperts" }, { id := "cloudflare_area1" },
    { id := "fortinet" }, { id := "zoho" }, { id := "fastmail" }, { id := "proton" },
    { id := "migadu" }, { id := "mxroute" }, { id := "rackspace" }, { id := "godaddy" },
    { id := "namecheap" }, { id := "ionos" }, { id := "ovh" }, { id := "hostinger" },
    { id := "titan" }, { id := "amazon_workmail" }, { id := "yandex" },
    { id := "gmail_consumer" }, { id := "yahoo" }, { id := "icloud" }, { id := "gmx" },
    { id := "mailru" }, { id := "qq" }, { id := "netease" }, { id := "parked" }]

def providersById (id : String) : Option MxProvider := PROVIDERS.find? (·.id = id)

/-- The suffixes, in the order they are tried. -/
def SUFFIX_RULES : List (String × String) :=
  [("mail.protection.outlook.com", "microsoft365"), ("mail.eo.outlook.com", "microsoft365"),
    ("mail.protection.office365.us", "microsoft365"),
    ("olc.protection.outlook.com", "outlook_consumer"),
    ("gmail-smtp-in.l.google.com", "gmail_consumer"), ("aspmx.l.google.com", "google_workspace"),
    ("googlemail.com", "google_workspace"), ("google.com", "google_workspace"),
    ("pphosted.com", "proofpoint"), ("ppe-hosted.com", "proofpoint"),
    ("pphosted.co.uk", "proofpoint"), ("mimecast.com", "mimecast"), ("mimecast.co.za", "mimecast"),
    ("mimecast-offshore.com", "mimecast"), ("barracudanetworks.com", "barracuda"),
    ("ess.barracuda.com", "barracuda"), ("iphmx.com", "cisco_ironport"),
    ("messagelabs.com", "messagelabs"), ("mailcontrol.com", "forcepoint"),
    ("sophos.com", "sophos"), ("tmes.trendmicro.com", "trend_micro"),
    ("trendmicro.com", "trend_micro"), ("hornetsecurity.com", "hornetsecurity"),
    ("antispameurope.com", "hornetsecurity"), ("retarus.com", "retarus"),
    ("antispamcloud.com", "spamexperts"), ("spamexperts.com", "spamexperts"),
    ("mx.cloudflare.net", "cloudflare_area1"), ("fortimail.com", "fortinet"), ("zoho.com", "zoho"),
    ("zoho.eu", "zoho"), ("zohomail.com", "zoho"), ("messagingengine.com", "fastmail"),
    ("protonmail.ch", "proton"), ("proton.me", "proton"), ("migadu.com", "migadu"),
    ("mxroute.com", "mxroute"), ("emailsrvr.com", "rackspace"), ("secureserver.net", "godaddy"),
    ("privateemail.com", "namecheap"), ("registrar-servers.com", "namecheap"),
    ("ionos.com", "ionos"), ("1and1.com", "ionos"), ("kundenserver.de", "ionos"),
    ("ovh.net", "ovh"), ("hostinger.com", "hostinger"), ("titan.email", "titan"),
    ("awsapps.com", "amazon_workmail"), ("yandex.net", "yandex"), ("yandex.ru", "yandex"),
    ("am0.yahoodns.net", "yahoo"), ("yahoodns.net", "yahoo"), ("mail.icloud.com", "icloud"),
    ("icloud.com", "icloud"), ("gmx.net", "gmx"), ("web.de", "gmx"), ("mail.ru", "mailru"),
    ("qq.com", "qq"), ("163.com", "netease"), ("126.com", "netease"),
    ("sedoparking.com", "parked"), ("parkingcrew.net", "parked"), ("above.com", "parked"),
    ("bodis.com", "parked"), ("afternic.com", "parked")]

theorem suffixRules_provider : ∀ rule ∈ SUFFIX_RULES, (providersById rule.2).isSome := by decide

def hostMatches (host : Text) (suffix : String) : Bool :=
  host == suffix.toList || ('.' :: suffix.toList).isSuffixOf host

/-- `host.strip().rstrip(".").lower()`. -/
def normalizedHost (lowering : Text.Lowering) (host : Text) : Text :=
  lowering.lower ((Text.strip Text.isSpace host).rdropWhile (· == '.'))

def providerForHost (lowering : Text.Lowering) (host : Text) : Option MxProvider :=
  let normalized := normalizedHost lowering host
  if normalized.isEmpty then none
  else if "inbound-smtp.".toList.isPrefixOf normalized &&
      ".amazonaws.com".toList.isSuffixOf normalized then
    providersById "amazon_workmail"
  else (SUFFIX_RULES.find? fun rule => hostMatches normalized rule.1).bind fun rule =>
    providersById rule.2

/-- What a provider adds to the codes every receiver uses. -/
theorem definitive_rejection_codes_cases {p : MxProvider} {id : String} {code : String}
    (h : providersById id = some p) (hcode : code ∈ p.definitive_rejection_codes) :
    code = "5.4.1" ∨ code = "5.1.10" := by
  have hmem : p ∈ PROVIDERS := List.mem_of_find?_eq_some h
  have hall : ∀ p ∈ PROVIDERS, ∀ code ∈ p.definitive_rejection_codes,
      code = "5.4.1" ∨ code = "5.1.10" := by decide
  exact hall p hmem code hcode

theorem providerForHost_code {lowering : Text.Lowering} {host : Text} {p : MxProvider}
    {code : String} (h : providerForHost lowering host = some p)
    (hcode : code ∈ p.definitive_rejection_codes) : code = "5.4.1" ∨ code = "5.1.10" := by
  simp only [providerForHost] at h
  split at h
  · cases h
  · split at h
    · exact definitive_rejection_codes_cases h hcode
    · obtain ⟨rule, -, hrule⟩ := Option.bind_eq_some_iff.mp h
      exact definitive_rejection_codes_cases hrule hcode

end MailCue.Backend.Emails
