import MailCue.Backend.Domains.SpfRecommended
import MailCue.Backend.Tunnels.SidecarMetrics
import MailCue.Lib.Table
import MailCue.Lib.Transition
import MailCue.Lib.Utf8

/-!
# The DNS state of a domain

backend/app/domains/service.py: what is looked up for a domain, the list of its records
with what is published of each, and what `verify_dns` and `compute_dns_state` keep of
that in the domain's row. `mta_sts_policy_wellknown` of backend/app/main.py serves the
policy that is looked for.
-/
namespace MailCue.Backend.Domains
open MailCue.Lib

/-! ## What is published -/

structure HttpResponse where
  status_code : Nat
  content_type : Text
  content : Bytes
  text : Text

/-- How fetching the policy ends, with the text of the exception where there is one. -/
inductive Fetched
  | connect_error (detail : Text)
  | timeout
  | http_error (detail name : Text)
  | response (response : HttpResponse)

/-- The answers while one domain is looked at; nothing where resolving raises. A TXT
record is its strings, and a PTR record set is found by the text of the address. -/
structure Net where
  txt : Text → Option (List (List Bytes))
  mx : Text → Option (List (Nat × Text))
  a : Text → Option (List IpAddress)
  aaaa : Text → Option (List IpAddress)
  ptr : Text → Option (List Text)
  fetch : Text → Fetched

/-- What a check gives: whether the record is good, and what is published. -/
abbrev Check := Bool × Option Text

/-- `text.rstrip(".")` -/
def withoutDots (text : Text) : Text := text.rdropWhile (· == '.')

/-- `bytes.decode("utf-8", errors="replace")` -/
def decodeReplace (octets : Bytes) : Text :=
  (Utf8.Decoder.start.run octets).2 ++
    if (Utf8.Decoder.start.run octets).1.needed = 0 then [] else [Utf8.Decoder.replacement]

/-- `_join_txt_rdata` -/
def joinTxtRdata (strings : List Bytes) : Text := strings.flatMap decodeReplace

/-- What is in front of the first `p=`, and what is behind it. -/
def partitionKey : Text → Option (Text × Text)
  | 'p' :: '=' :: tail => some ([], tail)
  | c :: rest => (partitionKey rest).map fun (head, tail) => (c :: head, tail)
  | [] => none

/-- `_normalize_dkim_txt` -/
def normalizeDkimTxt (txt : Text) : Text :=
  match partitionKey txt with
  | none => txt
  | some (head, tail) => head ++ "p=".toList ++ (words tail).flatten

/-- `_normalize_mta_sts_policy` -/
def normalizeMtaStsPolicy (value : Text) : Text :=
  ['\n'].intercalate <|
    ((Tunnels.Metrics.splitlines value).map (Text.strip Text.isSpace)).filter (!·.isEmpty)

/-- The lines of a policy. -/
def policyLines (mode : String) (hostname : Text) : List Text :=
  ["version: STSv1".toList, "mode: ".toList ++ mode.toList, "mx: ".toList ++ hostname,
    "max_age: 86400".toList]

/-- `_build_mta_sts_policy` -/
def buildMtaStsPolicy (is_production : Bool) (hostname : Text) : Text :=
  ['\n'].intercalate (policyLines (if is_production then "enforce" else "testing") hostname)

/-- `mta_sts_policy_wellknown` -/
def mtaStsPolicyWellknown (is_production has_cert : Bool) (hostname : Text) : Text :=
  (policyLines (if is_production && has_cert then "enforce" else "testing") hostname).flatMap
    (· ++ ['\n'])

/-! ## The checks -/

section
variable (py : Python) (net : Net)

/-- `_format_mx_rdata` -/
def formatMxRdata (rdata : Nat × Text) : Text :=
  Nat.toDigits 10 rdata.1 ++ ' ' :: withoutDots rdata.2 ++ ['.']

/-- `_check_mx` -/
def checkMx (domain_name hostname : Text) : Check :=
  match net.mx domain_name with
  | none => (false, none)
  | some answers =>
    match answers.find? fun rdata => withoutDots rdata.2 = hostname with
    | some rdata => (true, some (formatMxRdata rdata))
    | none => (false, answers.head?.map formatMxRdata)

/-- `_check_spf`, and `_check_helo_spf` of the host. -/
def checkSpf (domain_name : Text) : Check :=
  match net.txt domain_name with
  | none => (false, none)
  | some answers =>
    match (answers.map joinTxtRdata).filter fun txt => "v=spf1".toList.isPrefixOf (py.lower txt) with
    | [] => (false, none)
    | [record] => ((validateSpfRecord py record).isOk, some record)
    | spf_records => (false, some (" | ".toList.intercalate spf_records))

/-- The checks of one TXT record: the first text that is accepted is judged, and without
one the first text is shown. -/
def checkTxt (qname : Text) (accepts judge : Text → Bool) : Check :=
  match net.txt qname with
  | none => (false, none)
  | some answers =>
    match (answers.map joinTxtRdata).find? accepts with
    | some txt => (judge txt, some txt)
    | none => (false, (answers.map joinTxtRdata).head?)

/-- `_check_dkim` -/
def checkDkim (domain_name selector : Text) (expected_public_key : Option Text) : Check :=
  checkTxt net (selector ++ "._domainkey.".toList ++ domain_name) (Text.contains · "p=".toList)
    fun txt => expected_public_key.all fun key => normalizeDkimTxt txt = normalizeDkimTxt key

/-- A check for a text that starts with a version. -/
def checkVersion (version : String) (qname : Text) : Check :=
  checkTxt net qname version.toList.isPrefixOf fun _ => true

/-- `_check_dmarc` -/
def checkDmarc (domain_name : Text) : Check :=
  checkVersion net "v=DMARC1" ("_dmarc.".toList ++ domain_name)

/-- `_check_bimi` -/
def checkBimi (domain_name : Text) : Check :=
  checkVersion net "v=BIMI1" ("default._bimi.".toList ++ domain_name)

/-- `_check_mta_sts` -/
def checkMtaSts (domain_name : Text) : Check :=
  checkVersion net "v=STSv1" ("_mta-sts.".toList ++ domain_name)

/-- `_check_tls_rpt` -/
def checkTlsRpt (domain_name : Text) : Check :=
  checkVersion net "v=TLSRPTv1" ("_smtp._tls.".toList ++ domain_name)

/-- `", ".join` -/
def joinComma (texts : List Text) : Text := ", ".toList.intercalate texts

/-- `_check_mta_sts_host` -/
def checkMtaStsHost (domain_name : Text) : Check :=
  let policy_host := "mta-sts.".toList ++ domain_name
  match ((net.a policy_host).getD [] ++ (net.aaaa policy_host).getD []).eraseDups with
  | [] => (false, none)
  | addresses =>
    (addresses.all IpAddress.isGlobal, some (joinComma (addresses.map (IpAddress.write py.ipv6))))

/-- `value or other` -/
def orElse (value : Text) (other : String) : Text := if value.isEmpty then other.toList else value

/-- `_check_mta_sts_policy` -/
def checkMtaStsPolicy (is_production : Bool) (domain_name hostname : Text) : Check :=
  match net.fetch ("https://mta-sts.".toList ++ domain_name ++ "/.well-known/mta-sts.txt".toList) with
  | .connect_error detail =>
    (false, some ("Connection failed: ".toList ++
      orElse (Text.strip Text.isSpace detail) "connection failed"))
  | .timeout => (false, some "Connection timed out".toList)
  | .http_error detail name =>
    (false, some ("HTTPS validation failed: ".toList ++
      orElse (Text.strip Text.isSpace detail) (String.ofList name)))
  | .response response =>
    let content_type := py.lower response.content_type
    if response.status_code ≠ 200 then
      (false, some ("HTTP ".toList ++ Nat.toDigits 10 response.status_code))
    else if !"text/plain".toList.isPrefixOf content_type then
      (false, some ("Invalid Content-Type: ".toList ++ orElse content_type "(missing)"))
    else if 64 * 1024 < response.content.length then (false, some "Policy exceeds 64 KiB".toList)
    else
      let current := normalizeMtaStsPolicy response.text
      let expected := normalizeMtaStsPolicy (buildMtaStsPolicy is_production hostname)
      (current = expected, some current)

/-- `_check_mta_sts_endpoint` -/
def checkMtaStsEndpoint (is_production : Bool) (domain_name hostname : Text) : Check × Check :=
  let host_result := checkMtaStsHost py net domain_name
  if !host_result.1 then (host_result, (false, none))
  else (host_result, checkMtaStsPolicy py net is_production domain_name hostname)

end

/-! ## The row of a domain -/

/-- `_CANONICAL_RECORD_SLOTS` -/
inductive Slot
  | mx | spf | dkim | dmarc | mta_sts | tls_rpt
  deriving DecidableEq, Repr

def canonicalRecordSlots : List Slot := [.mx, .spf, .dkim, .dmarc, .mta_sts, .tls_rpt]

/-- `Domain`, with one function for the columns of a kind. Times are in microseconds. -/
structure Domain where
  name : Text
  is_active : Bool := true
  created_at : Option Nat
  dkim_selector : Text
  dkim_public_key_txt : Option Text
  verified : Slot → Bool := fun _ => false
  last_dns_check : Option Nat := none
  last_checked_at : Slot → Option Nat := fun _ => none
  last_verified_at : Slot → Option Nat := fun _ => none

structure DnsRecordInfo where
  record_type : String
  hostname : Text
  expected_value : Text
  current_value : Option Text := none
  verified : Bool
  purpose : String
  scope : Text := "Domain".toList
  required : Bool := true
  status_detail : Option Text := none
  last_checked_at : Option Nat := none
  last_verified_at : Option Nat := none
  drift : Bool := false

/-- The keys of what `_run_dns_checks` returns. -/
inductive CheckName
  | mx | spf | helo_spf | dkim | dmarc | bimi | mta_sts | mta_sts_txt | mta_sts_host
  | mta_sts_policy | tls_rpt
  deriving DecidableEq, Repr

abbrev Checks := CheckName → Check

/-- What a published value is compared by. -/
inductive MatchSlot
  | mx | spf | dkim | dmarc | bimi | mta_sts | mta_sts_policy | tls_rpt
  deriving DecidableEq, Repr

/-- What a request to look at a domain meets. -/
structure Visit where
  net : Net
  hostname : Text
  tunnel_hosts : List Text
  is_production : Bool
  now : Nat

section
variable (py : Python)

/-- `_run_dns_checks` -/
def runDnsChecks (domain : Domain) (v : Visit) : Checks
  | .mx => checkMx v.net domain.name v.hostname
  | .spf => checkSpf py v.net domain.name
  | .helo_spf => checkSpf py v.net v.hostname
  | .dkim => checkDkim v.net domain.name domain.dkim_selector domain.dkim_public_key_txt
  | .dmarc => checkDmarc v.net domain.name
  | .bimi => checkBimi v.net domain.name
  | .mta_sts =>
    let (host, policy) := checkMtaStsEndpoint py v.net v.is_production domain.name v.hostname
    ((checkMtaSts v.net domain.name).1 && host.1 && policy.1, (checkMtaSts v.net domain.name).2)
  | .mta_sts_txt => checkMtaSts v.net domain.name
  | .mta_sts_host => (checkMtaStsEndpoint py v.net v.is_production domain.name v.hostname).1
  | .mta_sts_policy => (checkMtaStsEndpoint py v.net v.is_production domain.name v.hostname).2
  | .tls_rpt => checkTlsRpt v.net domain.name

/-- `_record_matches` -/
def recordMatches (slot : MatchSlot) (expected current : Text) : Bool :=
  match slot with
  | .dkim => normalizeDkimTxt expected = normalizeDkimTxt current
  | .mta_sts =>
    let start := "v=STSv1; id=".toList
    let stripped := Text.strip Text.isSpace current
    start.isPrefixOf stripped && decide (start.length < stripped.length)
  | .mta_sts_policy => normalizeMtaStsPolicy expected = normalizeMtaStsPolicy current
  | .spf => spfMatches py expected current
  | .mx | .dmarc | .bimi | .tls_rpt => expected = current

/-- `_build_mta_sts_expected` -/
def buildMtaStsExpected (domain : Domain) : Text :=
  "v=STSv1; id=".toList ++ Nat.toDigits 10 (domain.created_at.elim 1 (· / 1000000))

/-- The key, or that there is none yet. -/
def dkimExpected : Option Text → Text
  | none | some [] => "(DKIM key not yet generated)".toList
  | some key => key

/-- `_build_dns_records` -/
def buildDnsRecords (domain : Domain) (hostname : Text) (helo_spf_verified bimi_verified : Bool)
    (tunnel_hosts : List Text) (is_production : Bool) : List DnsRecordInfo :=
  [{  record_type := "MX"
      hostname := domain.name
      expected_value := "10 ".toList ++ hostname ++ ['.']
      verified := domain.verified .mx
      purpose := "Route incoming email to this server" },
    { record_type := "TXT"
      hostname := domain.name
      expected_value := buildSpfExpected py hostname tunnel_hosts
      verified := domain.verified .spf
      purpose := "Authorize this server to send email for the domain (SPF)" },
    { record_type := "TXT"
      hostname := hostname
      expected_value := "v=spf1 a -all".toList
      verified := helo_spf_verified
      purpose := "SPF for the mail server hostname (checked during SMTP EHLO handshake)"
      scope := "Mail server".toList },
    { record_type := "TXT"
      hostname := domain.dkim_selector ++ "._domainkey.".toList ++ domain.name
      expected_value := dkimExpected domain.dkim_public_key_txt
      verified := domain.verified .dkim
      purpose := "DKIM public key for email signature verification" },
    { record_type := "TXT"
      hostname := "_dmarc.".toList ++ domain.name
      expected_value := "v=DMARC1; p=reject; rua=mailto:postmaster@".toList ++ domain.name
      verified := domain.verified .dmarc
      purpose :=
        "DMARC policy for handling authentication failures (p=reject for BIMI eligibility)" },
    { record_type := "TXT"
      hostname := "default._bimi.".toList ++ domain.name
      expected_value := "v=BIMI1; l=https://".toList ++ hostname ++ "/brand/logo.svg".toList
      verified := bimi_verified
      purpose := "BIMI — publish a brand logo displayed by supporting mailbox providers (requires DMARC p=reject)"
      required := false },
    { record_type := "TXT"
      hostname := "_mta-sts.".toList ++ domain.name
      expected_value := buildMtaStsExpected domain
      verified := domain.verified .mta_sts
      purpose := "MTA-STS policy enabling strict TLS for inbound email (RFC 8461)" },
    { record_type := "A / AAAA"
      hostname := "mta-sts.".toList ++ domain.name
      expected_value := "(Public address serving the MTA-STS HTTPS policy)".toList
      verified := false
      purpose := "Makes the MTA-STS policy hostname reachable over IPv4 or IPv6"
      scope := "MTA-STS policy".toList },
    { record_type := "HTTPS"
      hostname := "mta-sts.".toList ++ domain.name ++ "/.well-known/mta-sts.txt".toList
      expected_value := buildMtaStsPolicy is_production hostname
      verified := false
      purpose := "Valid CA-signed HTTPS certificate and MailCue MTA-STS policy content"
      scope := "MTA-STS policy".toList },
    { record_type := "TXT"
      hostname := "_smtp._tls.".toList ++ domain.name
      expected_value := "v=TLSRPTv1; rua=mailto:tls-reports@".toList ++ domain.name
      verified := domain.verified .tls_rpt
      purpose := "TLS reporting — receive reports about TLS connection failures (RFC 8460)" },
    { record_type := "PTR"
      hostname := "(Configure at your VPS/hosting provider)".toList
      expected_value := hostname
      verified := false
      purpose := "Reverse DNS — critical for deliverability. Set your server IP's PTR record to match the hostname"
      scope := "Mail server".toList
      required := false },
    { record_type := "A"
      hostname := hostname
      expected_value := "(Your server's public IPv4 address)".toList
      verified := false
      purpose := "Points your mail hostname to your server's IP address"
      scope := "Mail server".toList
      required := false }]

/-! ## Comparing with what is expected -/

/-- `_CHECK_RECORD_LAYOUT` -/
def checkRecordLayout : List (CheckName × Option Slot × Option MatchSlot) :=
  [(.mx, some .mx, some .mx), (.spf, some .spf, some .spf), (.helo_spf, none, some .spf),
    (.dkim, some .dkim, some .dkim), (.dmarc, some .dmarc, some .dmarc), (.bimi, none, some .bimi),
    (.mta_sts_txt, some .mta_sts, some .mta_sts), (.mta_sts_host, none, none),
    (.mta_sts_policy, none, some .mta_sts_policy), (.tls_rpt, some .tls_rpt, some .tls_rpt)]

/-- Whether a check is good and its value the expected one, where it is compared. -/
def meets (match_slot : Option MatchSlot) (expected : Text) (check : Check) : Bool :=
  check.1 && match_slot.all fun slot => check.2.any (recordMatches py slot expected)

/-- `_apply_expected_check_results` -/
def applyExpectedCheckResults (records : List DnsRecordInfo) (checks : Checks) : Checks :=
  let checks := (records.zip checkRecordLayout).foldl
    (fun checks (record, slot, _, match_slot) =>
      Function.update checks slot
        (meets py match_slot record.expected_value (checks slot), (checks slot).2)) checks
  Function.update checks .mta_sts
    ((checks .mta_sts_txt).1 && (checks .mta_sts_host).1 && (checks .mta_sts_policy).1,
      (checks .mta_sts_txt).2)

/-- `_spf_status_detail` -/
def spfStatusDetail (current : Option Text) : Option Text := do
  let current ← current
  if Text.contains current " | ".toList then
    some "Multiple SPF records are published; receivers return permerror".toList
  else
    match validateSpfRecord py current with
    | .ok () => none
    | .error reason => some reason.toList

/-- One turn of `_attach_check_metadata`. -/
def attachOne (domain : Domain) (checks : Checks) (checked_at : Nat) (record : DnsRecordInfo)
    (layout : Option CheckName × Option Slot × Option MatchSlot) : DnsRecordInfo :=
  let (slot, audit, match_slot) := layout
  let current := slot.bind fun slot => (checks slot).2
  let drift := match_slot.any fun slot =>
    current.any fun current => !recordMatches py slot record.expected_value current
  let verified := slot.elim record.verified fun slot => (checks slot).1 && !drift
  let status_detail := if match_slot = some .spf then spfStatusDetail py current
    else record.status_detail
  { record with
    current_value := current
    drift := drift
    verified := verified
    status_detail :=
      if slot = some .mta_sts_host && !verified then
        some <| if current.any (!·.isEmpty) then
            "The policy hostname must resolve only to public IP addresses".toList
          else "Publish an A or AAAA record for mta-sts.".toList ++ domain.name
      else if slot = some .mta_sts_policy && !verified then
        match current with
        | none | some [] => some "The HTTPS policy could not be retrieved".toList
        | some current =>
          some <| if "version:".toList.isPrefixOf current then
              "Policy content does not match MailCue's expected policy".toList
            else current
      else status_detail
    last_checked_at := match audit with
      | some audit => domain.last_checked_at audit
      | none => if slot.isSome then some checked_at else record.last_checked_at
    last_verified_at := match audit with
      | some audit => domain.last_verified_at audit
      | none =>
        if slot.isSome then if verified then some checked_at else none
        else record.last_verified_at }

/-- `_attach_check_metadata` -/
def attachCheckMetadata (domain : Domain) (records : List DnsRecordInfo) (checks : Checks)
    (checked_at : Nat) : List DnsRecordInfo :=
  List.zipWith (attachOne py domain checks checked_at) records
    (checkRecordLayout.map (fun (slot, rest) => (some slot, rest)) ++
      [(none, none, none), (none, none, none)])

/-! ## The relays -/

/-- `sorted({...})` -/
def sortedTexts (texts : List Text) : List Text :=
  texts.dedup.mergeSort fun text other => decide (text ≤ other)

/-- `_resolve_ip_addresses` -/
def resolveIpAddresses (found : Option (List IpAddress)) : List Text :=
  sortedTexts ((found.getD []).map (IpAddress.write py.ipv6))

/-- `_check_ptr` -/
def checkPtr (net : Net) (address hostname : Text) : Check :=
  match net.ptr address with
  | none => (false, none)
  | some answers =>
    let names := sortedTexts (answers.map fun answer => py.lower (withoutDots answer))
    (names.contains (py.lower (withoutDots hostname)),
      if names.isEmpty then none else some (joinComma (names.map (· ++ ['.']))))

/-- `_check_one_relay_dns` -/
def checkOneRelayDns (net : Net) (hostname : Text) (checked_at : Nat) : List DnsRecordInfo :=
  let scope := "Relay · ".toList ++ hostname
  if (IpAddress.read hostname).isSome then
    [{  record_type := "CONFIG"
        hostname := hostname
        expected_value := "A DNS hostname matching the edge PTR and EHLO/HELO name".toList
        current_value := some hostname
        verified := false
        drift := true
        purpose := "Set the tunnel endpoint to the relay hostname so MailCue can audit HELO SPF and FCrDNS"
        scope := scope
        status_detail :=
          some "The tunnel endpoint is an IP address; relay DNS cannot be audited safely".toList
        last_checked_at := some checked_at }]
  else
    let spf_result := checkSpf py net hostname
    let ipv4_addresses := resolveIpAddresses py (net.a hostname)
    let ipv6_addresses := resolveIpAddresses py (net.aaaa hostname)
    let spf_verified := meets py (some .spf) "v=spf1 a -all".toList spf_result
    [{  record_type := "TXT"
        hostname := hostname
        expected_value := "v=spf1 a -all".toList
        current_value := spf_result.2
        verified := spf_verified
        drift := spf_result.2.isSome && !spf_verified
        purpose := "HELO SPF for tunnel-generated bounces and other empty-envelope mail"
        scope := scope
        status_detail := spfStatusDetail py spf_result.2
        last_checked_at := some checked_at
        last_verified_at := if spf_verified then some checked_at else none },
      { record_type := "A"
        hostname := hostname
        expected_value := "Public IPv4 address of this relay".toList
        current_value := if ipv4_addresses.isEmpty then none else some (joinComma ipv4_addresses)
        verified := !ipv4_addresses.isEmpty
        purpose := "Forward DNS for the relay's IPv4 egress address"
        scope := scope
        last_checked_at := some checked_at
        last_verified_at := if ipv4_addresses.isEmpty then none else some checked_at },
      { record_type := "AAAA"
        hostname := hostname
        expected_value :=
          "Public IPv6 address of this relay (when IPv6 egress is enabled)".toList
        current_value := if ipv6_addresses.isEmpty then none else some (joinComma ipv6_addresses)
        verified := !ipv6_addresses.isEmpty
        required := false
        purpose := "Optional IPv6 forward DNS; when published, matching PTR is required"
        scope := scope
        last_checked_at := some checked_at
        last_verified_at := if ipv6_addresses.isEmpty then none else some checked_at }] ++
      (ipv4_addresses ++ ipv6_addresses).map fun address =>
        let (ptr_verified, ptr_current) := checkPtr py net address hostname
        { record_type := "PTR"
          hostname := address
          expected_value := hostname ++ ['.']
          current_value := ptr_current
          verified := ptr_verified
          drift := ptr_current.isSome && !ptr_verified
          purpose := "Reverse DNS set at the relay hosting provider; must match its HELO name"
          scope := scope
          last_checked_at := some checked_at
          last_verified_at := if ptr_verified then some checked_at else none }

/-- `_check_relay_dns` -/
def checkRelayDns (net : Net) (hostnames : List Text) (checked_at : Nat) : List DnsRecordInfo :=
  hostnames.flatMap fun hostname => checkOneRelayDns py net hostname checked_at

/-! ## The two requests -/

/-- The check that is kept for a slot. -/
def Slot.check : Slot → CheckName
  | .mx => .mx
  | .spf => .spf
  | .dkim => .dkim
  | .dmarc => .dmarc
  | .mta_sts => .mta_sts
  | .tls_rpt => .tls_rpt

/-- One turn of `_stamp_audit_timestamps`. -/
def stampOne (checks : Checks) (now : Nat) (domain : Domain) (slot : Slot) : Domain :=
  { domain with
    last_checked_at := Function.update domain.last_checked_at slot (some now)
    last_verified_at :=
      if (checks slot.check).1 then Function.update domain.last_verified_at slot (some now)
      else domain.last_verified_at }

/-- `_stamp_audit_timestamps` -/
def stampAuditTimestamps (domain : Domain) (checks : Checks) (now : Nat) : Domain :=
  canonicalRecordSlots.foldl (stampOne checks now) domain

/-- The records that a request starts from. -/
def visitRecords (domain : Domain) (v : Visit) : List DnsRecordInfo :=
  let checks := runDnsChecks py domain v
  buildDnsRecords py domain v.hostname (checks .helo_spf).1 (checks .bimi).1 v.tunnel_hosts
    v.is_production

/-- The checks as both requests use them. -/
def visitChecks (domain : Domain) (v : Visit) : Checks :=
  applyExpectedCheckResults py (visitRecords py domain v) (runDnsChecks py domain v)

structure DnsCheckResponse where
  verified : Slot → Bool
  all_verified : Bool
  dns_records : List DnsRecordInfo

structure DomainDnsStateResponse where
  domain : Text
  records : List DnsRecordInfo
  has_drift : Bool
  has_missing : Bool
  last_dns_check : Option Nat

/-- The rows of the answer, of the domain and of the relays. -/
def answerRecords (domain kept : Domain) (v : Visit) : List DnsRecordInfo :=
  attachCheckMetadata py kept (visitRecords py domain v) (visitChecks py domain v) v.now ++
    checkRelayDns py v.net v.tunnel_hosts v.now

/-- `verify_dns` of a domain that is found. -/
def verifyDns (domain : Domain) (v : Visit) : Domain × DnsCheckResponse :=
  let checks := visitChecks py domain v
  let kept := stampAuditTimestamps
    { domain with
      verified := fun slot => (checks slot.check).1
      last_dns_check := some v.now } checks v.now
  let records := answerRecords py domain kept v
  (kept,
    { verified := kept.verified
      all_verified := (records.filter (·.required)).all (·.verified)
      dns_records := records })

/-- `compute_dns_state` of a domain that is found. -/
def computeDnsState (domain : Domain) (v : Visit) : Domain × DomainDnsStateResponse :=
  let kept := stampAuditTimestamps domain (visitChecks py domain v) v.now
  let records := answerRecords py domain kept v
  (kept,
    { domain := domain.name
      records := records
      has_drift := (records.filter (·.required)).any (·.drift)
      has_missing := records.any fun r =>
        r.required && r.current_value.isNone && r.last_checked_at.isSome
      last_dns_check := (records.filterMap (·.last_checked_at)).max? })

/-- `all_verified` of `_domain_to_response`. -/
def Domain.allVerified (domain : Domain) : Bool := canonicalRecordSlots.all domain.verified

end

/-! ## What a request comes to -/

section
variable {py : Python} {domain kept kept' : Domain} {v : Visit} {checks : Checks}
  {record : DnsRecordInfo} {slot : CheckName} {audit : Option Slot} {match_slot : Option MatchSlot}
  {check : Check} {now : Nat}

@[simp] theorem attachOne_required (layout : Option CheckName × Option Slot × Option MatchSlot) :
    (attachOne py kept checks now record layout).required = record.required := rfl

/-- A check that is good already meets the comparison. -/
theorem verified_attachOne
    (h : checks slot = (meets py match_slot record.expected_value check, check.2)) :
    (attachOne py kept checks now record (some slot, audit, match_slot)).verified =
      (checks slot).1 := by
  change ((checks slot).1 && !(match_slot.any fun slot' =>
    ((checks slot).2.any fun current => !recordMatches py slot' record.expected_value current))) = _
  rw [h]
  cases hmeets : meets py match_slot record.expected_value check with
  | false => rfl
  | true =>
    cases match_slot with
    | none => rfl
    | some slot' =>
      have hmatches := (Bool.and_eq_true _ _).mp hmeets |>.2
      obtain ⟨current, hcurrent, hsame⟩ := (Option.any_eq_true _ _).mp hmatches
      simp [hcurrent, hsame]

/-- Every row that has a check, with what it is checked by. -/
theorem mem_attached {row : DnsRecordInfo}
    (h : row ∈ attachCheckMetadata py kept (visitRecords py domain v) (visitChecks py domain v) now) :
    (∃ record slot audit match_slot,
      row = attachOne py kept (visitChecks py domain v) now record (some slot, audit, match_slot) ∧
        visitChecks py domain v slot =
          (meets py match_slot record.expected_value (runDnsChecks py domain v slot),
            (runDnsChecks py domain v slot).2) ∧
        (match_slot = none → slot = .mta_sts_host)) ∨
      row.required = false ∧ row.drift = false := by
  simp only [attachCheckMetadata, visitRecords, buildDnsRecords, checkRecordLayout, List.map_cons,
    List.map_nil, List.cons_append, List.nil_append, List.zipWith_cons_cons, List.zipWith_nil_left,
    List.mem_cons, List.not_mem_nil, or_false] at h
  rcases h with rfl | rfl | rfl | rfl | rfl | rfl | rfl | rfl | rfl | rfl | rfl | rfl
  all_goals first
    | exact .inl ⟨_, _, _, _, rfl, rfl, fun _ => rfl⟩
    | exact .inl ⟨_, _, _, _, rfl, rfl, fun hnone => by cases hnone⟩
    | exact .inr ⟨rfl, rfl⟩

/-- The checks behind the required rows. -/
def requiredChecks : List CheckName :=
  [.mx, .spf, .helo_spf, .dkim, .dmarc, .mta_sts_txt, .mta_sts_host, .mta_sts_policy, .tls_rpt]

theorem all_verified_attached :
    ((attachCheckMetadata py kept (visitRecords py domain v) (visitChecks py domain v) now).filter
        (·.required)).all (·.verified) =
      requiredChecks.all fun slot => (visitChecks py domain v slot).1 := by
  simp only [attachCheckMetadata, visitRecords, buildDnsRecords, checkRecordLayout, List.map_cons,
    List.map_nil, List.cons_append, List.nil_append, List.zipWith_cons_cons, List.zipWith_nil_left,
    List.filter_cons, List.filter_nil, attachOne_required, if_true, Bool.false_eq_true, if_false,
    List.all_cons, List.all_nil, requiredChecks]
  repeat rw [verified_attachOne rfl]

theorem requiredChecks_all :
    (requiredChecks.all fun slot => (visitChecks py domain v slot).1) =
      ((canonicalRecordSlots.all fun slot => (visitChecks py domain v slot.check).1) &&
        (visitChecks py domain v .helo_spf).1) := by
  have hchain : (visitChecks py domain v .mta_sts).1 =
      ((visitChecks py domain v .mta_sts_txt).1 && (visitChecks py domain v .mta_sts_host).1 &&
        (visitChecks py domain v .mta_sts_policy).1) := rfl
  simp only [requiredChecks, canonicalRecordSlots, List.all_cons, List.all_nil, Slot.check, hchain]
  ac_rfl

theorem mem_canonicalRecordSlots (slot : Slot) : slot ∈ canonicalRecordSlots := by
  cases slot <;> decide

theorem foldl_stampOne (slots : List Slot) :
    slots.foldl (stampOne checks now) domain =
      { domain with
        last_checked_at := fun slot => if slot ∈ slots then some now else domain.last_checked_at slot
        last_verified_at := fun slot =>
          if slot ∈ slots ∧ (checks slot.check).1 = true then some now
          else domain.last_verified_at slot } := by
  induction slots generalizing domain with
  | nil => simp
  | cons first slots ih =>
    rw [List.foldl_cons, ih]
    unfold stampOne
    congr 1
    · funext slot
      by_cases hslot : slot = first
      · simp [hslot]
      · simp [hslot]
    · funext slot
      by_cases hslot : slot = first
      · subst hslot
        by_cases hgood : (checks slot.check).1 = true <;> simp [hgood]
      · by_cases hgood : (checks first.check).1 = true <;> simp [hslot, hgood]

theorem stampAuditTimestamps_eq :
    stampAuditTimestamps domain checks now =
      { domain with
        last_checked_at := fun _ => some now
        last_verified_at := fun slot =>
          if (checks slot.check).1 then some now else domain.last_verified_at slot } := by
  rw [stampAuditTimestamps, foldl_stampOne]
  simp [mem_canonicalRecordSlots]

/-- Both requests answer with the same rows. -/
theorem records_computeDnsState :
    (computeDnsState py domain v).2.records = (verifyDns py domain v).2.dns_records := by
  simp only [computeDnsState, verifyDns, stampAuditTimestamps_eq]
  rfl

/-- What a row that is verified shows. -/
def Shown (row : DnsRecordInfo) : Prop :=
  row.verified = true → row.drift = false ∧ row.current_value.isSome = true

theorem isSome_of_any {α : Type} {value : Option α} {p : α → Bool} (h : value.any p = true) :
    value.isSome = true := by
  obtain ⟨a, ha, -⟩ := (Option.any_eq_true _ _).mp h
  rw [ha]
  rfl

theorem isSome_checkMtaStsHost {net : Net} {domain_name : Text}
    (h : (checkMtaStsHost py net domain_name).1 = true) :
    (checkMtaStsHost py net domain_name).2.isSome = true := by
  unfold checkMtaStsHost at h ⊢
  dsimp only at h ⊢
  split at h
  · cases h
  · rfl

theorem shown_attached {row : DnsRecordInfo}
    (h : row ∈ attachCheckMetadata py kept (visitRecords py domain v) (visitChecks py domain v) now)
    (hrequired : row.required = true) : Shown row := by
  intro hverified
  rcases mem_attached h with ⟨record, slot, audit, match_slot, rfl, hcheck, hhost⟩ | ⟨hfree, -⟩
  · have hgood : (visitChecks py domain v slot).1 = true := (verified_attachOne hcheck).symm.trans hverified
    have hdrift := ((Bool.and_eq_true _ _).mp hverified).2
    refine ⟨(Bool.not_eq_true' _).mp hdrift, ?_⟩
    change (visitChecks py domain v slot).2.isSome = true
    rw [hcheck] at hgood ⊢
    obtain ⟨hvalid, hmatches⟩ := (Bool.and_eq_true _ _).mp hgood
    cases match_slot with
    | some slot' => exact isSome_of_any hmatches
    | none =>
      obtain rfl := hhost rfl
      have hsame : runDnsChecks py domain v .mta_sts_host = checkMtaStsHost py v.net domain.name := by
        simp only [runDnsChecks, checkMtaStsEndpoint]
        split <;> rfl
      rw [hsame] at hvalid ⊢
      exact isSome_checkMtaStsHost hvalid
  · rw [hrequired] at hfree
    cases hfree

theorem isSome_checkPtr {net : Net} {address hostname : Text}
    (h : (checkPtr py net address hostname).1 = true) :
    (checkPtr py net address hostname).2.isSome = true := by
  unfold checkPtr at h ⊢
  split at h
  · cases h
  · next answers hanswers =>
    dsimp only at h ⊢
    generalize sortedTexts _ = names at h ⊢
    cases names with
    | nil => simp at h
    | cons name names => rfl

theorem shown_checkOneRelayDns {net : Net} {hostname : Text} {row : DnsRecordInfo}
    (h : row ∈ checkOneRelayDns py net hostname now) : Shown row := by
  unfold checkOneRelayDns at h
  dsimp only at h
  split at h
  · obtain rfl := List.mem_singleton.mp h
    intro hverified
    cases hverified
  · rcases List.mem_append.mp h with h | h
    · simp only [List.mem_cons, List.not_mem_nil, or_false] at h
      rcases h with rfl | rfl | rfl
      · intro hverified
        dsimp only at hverified ⊢
        refine ⟨by rw [hverified, Bool.not_true, Bool.and_false], ?_⟩
        exact isSome_of_any ((Bool.and_eq_true _ _).mp hverified).2
      · intro hverified
        have hsome : (resolveIpAddresses py (net.a hostname)).isEmpty = false := by
          simpa using hverified
        exact ⟨rfl, by simp [hsome]⟩
      · intro hverified
        have hsome : (resolveIpAddresses py (net.aaaa hostname)).isEmpty = false := by
          simpa using hverified
        exact ⟨rfl, by simp [hsome]⟩
    · obtain ⟨address, -, rfl⟩ := List.mem_map.mp h
      intro hverified
      dsimp only at hverified ⊢
      exact ⟨by rw [hverified, Bool.not_true, Bool.and_false], isSome_checkPtr hverified⟩

theorem all_verified_verifyDns :
    (verifyDns py domain v).2.all_verified =
      (requiredChecks.all (fun slot => (visitChecks py domain v slot).1) &&
        ((checkRelayDns py v.net v.tunnel_hosts v.now).filter (·.required)).all (·.verified)) := by
  rw [← all_verified_attached, ← List.all_append, ← List.filter_append]
  rfl

theorem shown_answer {row : DnsRecordInfo} (h : row ∈ answerRecords py domain kept v)
    (hrequired : row.required = true) : Shown row := by
  rcases List.mem_append.mp h with h | h
  · exact shown_attached h hrequired
  · obtain ⟨hostname, -, h⟩ := List.mem_flatMap.mp h
    exact shown_checkOneRelayDns h

end

/-- Asking for the state gives the rows that verifying gives. All is verified there where
the row of the domain says so of its six records and the host's own SPF and the required
rows of the relays are good, and then nothing has drifted and nothing is missing. -/
theorem verifyDns_answer (py : Python) (domain : Domain) (v : Visit) :
    (computeDnsState py domain v).2.records = (verifyDns py domain v).2.dns_records ∧
    ((verifyDns py domain v).2.all_verified = true ↔
      (verifyDns py domain v).1.allVerified = true ∧
        meets py (some .spf) "v=spf1 a -all".toList (checkSpf py v.net v.hostname) = true ∧
        ∀ row ∈ checkRelayDns py v.net v.tunnel_hosts v.now, row.required = true →
          row.verified = true) ∧
    ((verifyDns py domain v).2.all_verified = true →
      (computeDnsState py domain v).2.has_drift = false ∧
        (computeDnsState py domain v).2.has_missing = false) := by
  have hkept : (verifyDns py domain v).1.allVerified =
      canonicalRecordSlots.all fun slot => (visitChecks py domain v slot.check).1 := by
    simp only [verifyDns, stampAuditTimestamps_eq]
    rfl
  have hhelo : (visitChecks py domain v .helo_spf).1 =
      meets py (some .spf) "v=spf1 a -all".toList (checkSpf py v.net v.hostname) := rfl
  refine ⟨records_computeDnsState, ?_, ?_⟩
  · have hrelays : (((checkRelayDns py v.net v.tunnel_hosts v.now).filter (·.required)).all
        (·.verified)) = true ↔
        ∀ row ∈ checkRelayDns py v.net v.tunnel_hosts v.now, row.required = true →
          row.verified = true := by
      simp only [List.all_eq_true, List.mem_filter, and_imp]
    rw [all_verified_verifyDns, requiredChecks_all, hkept, hhelo, Bool.and_eq_true, Bool.and_eq_true, hrelays,
      and_assoc]
  · intro hall
    have hrows : ∀ row ∈ (computeDnsState py domain v).2.records, row.required = true →
        row.drift = false ∧ row.current_value.isSome = true := by
      intro row hrow hrequired
      rw [records_computeDnsState] at hrow
      have hverified : row.verified = true :=
        List.all_eq_true.mp hall row (List.mem_filter.mpr ⟨hrow, hrequired⟩)
      exact shown_answer hrow hrequired hverified
    constructor
    · apply Bool.eq_false_iff.mpr
      intro hdrift
      obtain ⟨row, hrow, hdrift⟩ := List.any_eq_true.mp hdrift
      obtain ⟨hmem, hrequired⟩ := List.mem_filter.mp hrow
      rw [(hrows row hmem hrequired).1] at hdrift
      cases hdrift
    · apply Bool.eq_false_iff.mpr
      intro hmissing
      obtain ⟨row, hrow, hmissing⟩ := List.any_eq_true.mp hmissing
      simp only [Bool.and_eq_true] at hmissing
      obtain ⟨⟨hrequired, hnone⟩, -⟩ := hmissing
      have hsome := (hrows row hrow hrequired).2
      rw [Option.isSome_iff_ne_none] at hsome
      exact hsome (Option.isNone_iff_eq_none.mp hnone)

/-! ## Runs of requests -/

abbrev Rows := Table Domain.name

inductive Request
  | add_domain (name selector : Text) (public_key_txt : Option Text) (now : Nat)
  | remove_domain (name : Text)
  | verify_dns (name : Text) (v : Visit)
  | compute_dns_state (name : Text) (v : Visit)

/-- The row that `add_domain` writes. -/
def newDomain (name selector : Text) (public_key_txt : Option Text) (now : Nat) : Domain where
  name := name
  created_at := some now
  dkim_selector := selector
  dkim_public_key_txt := public_key_txt

/-- One of the two requests that look a domain up, which is refused where there is none. -/
def onDomain (t : Rows) (name : Text) (f : Domain → Domain) : Rows :=
  match t.find name with
  | none => t
  | some domain => t.replace (f domain)

def handle (py : Python) (t : Rows) : Request → Rows
  | .add_domain name selector public_key_txt now =>
    (t.insert (newDomain name selector public_key_txt now)).getD t
  | .remove_domain name => t.erase name
  | .verify_dns name v => onDomain t name fun domain => (verifyDns py domain v).1
  | .compute_dns_state name v => onDomain t name fun domain => (computeDnsState py domain v).1

def rowsMachine (py : Python) : Machine Rows Request := ⟨Table.empty, handle py⟩

/-- A visit, and whether it was to verify. -/
abbrev Visited := Bool × Visit

/-- What a run leaves behind of one name: the row as it was added, and the visits since. -/
def historyStep (name : Text) (h : Option (Domain × List Visited)) :
    Request → Option (Domain × List Visited)
  | .add_domain name' selector public_key_txt now =>
    if name' = name then h.or (some (newDomain name selector public_key_txt now, [])) else h
  | .remove_domain name' => if name' = name then none else h
  | .verify_dns name' v =>
    if name' = name then h.map fun h => (h.1, h.2 ++ [(true, v)]) else h
  | .compute_dns_state name' v =>
    if name' = name then h.map fun h => (h.1, h.2 ++ [(false, v)]) else h

def history (name : Text) (requests : List Request) : Option (Domain × List Visited) :=
  requests.foldl (historyStep name) none

/-- The row after the visits: the flags are those of the last verification, the times those
of the last visit and of the last one that found the record good. -/
def settled (py : Python) (row : Domain) (visits : List Visited) : Domain :=
  { row with
    verified := fun slot => (visits.filter (·.1)).getLast?.any fun visit =>
      (visitChecks py row visit.2 slot.check).1
    last_dns_check := (visits.filter (·.1)).getLast?.map (·.2.now)
    last_checked_at := fun _ => visits.getLast?.map (·.2.now)
    last_verified_at := fun slot => (visits.filter fun visit =>
      (visitChecks py row visit.2 slot.check).1).getLast?.map (·.2.now) }

section
variable {py : Python}

/-- What is kept of earlier visits is no part of a check. -/
theorem visitChecks_settled (row : Domain) (visits : List Visited) (v : Visit) :
    visitChecks py (settled py row visits) v = visitChecks py row v := by
  funext slot
  cases slot <;> rfl

theorem settled_verify (row : Domain) (visits : List Visited) (v : Visit) :
    (verifyDns py (settled py row visits) v).1 = settled py row (visits ++ [(true, v)]) := by
  simp only [verifyDns, stampAuditTimestamps_eq, visitChecks_settled]
  unfold settled
  congr 1
  · funext slot
    simp
  · simp
  · funext slot
    simp
  · funext slot
    by_cases hgood : (visitChecks py row v slot.check).1 = true <;> simp [hgood]

theorem settled_compute (row : Domain) (visits : List Visited) (v : Visit) :
    (computeDnsState py (settled py row visits) v).1 = settled py row (visits ++ [(false, v)]) := by
  simp only [computeDnsState, stampAuditTimestamps_eq, visitChecks_settled]
  unfold settled
  congr 1
  · funext slot
    simp
  · simp
  · funext slot
    simp
  · funext slot
    by_cases hgood : (visitChecks py row v slot.check).1 = true <;> simp [hgood]

theorem find_onDomain {t : Rows} {f : Domain → Domain} (hf : ∀ domain, (f domain).name = domain.name)
    (name other : Text) :
    (onDomain t name f).find other = if name = other then (t.find other).map f else t.find other := by
  unfold onDomain
  split
  · next hnone =>
    split
    · next hsame =>
      subst hsame
      rw [hnone]
      rfl
    · rfl
  · next domain hfound =>
    have hname : domain.name = name := (Table.find_eq_some_iff.mp hfound).2
    have hold : t.find (f domain).name = some domain := by rw [hf, hname, hfound]
    rw [Table.find_replace hold, hf, hname]
    by_cases hsame : name = other
    · subst hsame
      rw [if_pos rfl, if_pos rfl, hfound]
      rfl
    · rw [if_neg hsame, if_neg (Ne.symm hsame)]

theorem find_insert_getD (t : Rows) (row : Domain) (other : Text) :
    ((t.insert row).getD t).find other =
      if row.name = other then (t.find other).or (some row) else t.find other := by
  cases hinsert : t.insert row with
  | none =>
    have htaken : row.name ∈ t.rows.map Domain.name := by
      by_contra hfree
      rw [Table.insert, dif_neg hfree] at hinsert
      cases hinsert
    obtain ⟨old, hold, hname⟩ := List.mem_map.mp htaken
    have hfound : t.find row.name = some old := Table.find_eq_some_iff.mpr ⟨hold, hname⟩
    split
    · next hsame =>
      subst hsame
      rw [Option.getD_none, hfound]
      rfl
    · rfl
  | some t' =>
    rw [Option.getD_some, Table.find_insert hinsert]
    by_cases hsame : row.name = other
    · subst hsame
      have hfree : t.find row.name = none := by
        apply Option.eq_none_iff_forall_ne_some.mpr
        intro old hold
        obtain ⟨hmem, hname⟩ := Table.find_eq_some_iff.mp hold
        exact (Table.insert_eq_some hinsert).2 (List.mem_map.mpr ⟨old, hmem, hname⟩)
      rw [if_pos rfl, if_pos rfl, hfree]
      rfl
    · rw [if_neg hsame, if_neg (Ne.symm hsame)]

theorem find_erase (t : Rows) (name other : Text) :
    (t.erase name).find other = if name = other then none else t.find other := by
  ext row
  rw [Table.find_eq_some_iff, Table.mem_erase]
  split
  · next hsame =>
    subst hsame
    simp
  · next hother =>
    rw [Table.find_eq_some_iff]
    constructor
    · intro h
      exact ⟨h.1.1, h.2⟩
    · intro h
      obtain ⟨hmem, hname⟩ := h
      exact ⟨⟨hmem, fun hsame => hother (hsame.symm.trans hname)⟩, hname⟩

/-- What the visits made of the row of a name. -/
def settledRow (py : Python) (h : Option (Domain × List Visited)) : Option Domain :=
  h.map fun h => settled py h.1 h.2

theorem find_handle {t : Rows} {h : Option (Domain × List Visited)} {name : Text}
    (ht : t.find name = settledRow py h) (request : Request) :
    (handle py t request).find name = settledRow py (historyStep name h request) := by
  cases request with
  | add_domain name' selector public_key_txt now =>
    rw [handle, find_insert_getD, historyStep, ht]
    show (if name' = name then _ else _) = _
    split
    · next hsame =>
      subst hsame
      cases h with
      | none => rfl
      | some h => rfl
    · rfl
  | remove_domain name' =>
    rw [handle, find_erase, historyStep, ht]
    split
    · rfl
    · rfl
  | verify_dns name' v =>
    rw [handle, find_onDomain (fun domain => by simp only [verifyDns, stampAuditTimestamps_eq]),
      historyStep, ht]
    split
    · cases h with
      | none => rfl
      | some h => exact congrArg some (settled_verify h.1 h.2 v)
    · rfl
  | compute_dns_state name' v =>
    rw [handle, find_onDomain (fun domain => by simp only [computeDnsState, stampAuditTimestamps_eq]),
      historyStep, ht]
    split
    · cases h with
      | none => rfl
      | some h => exact congrArg some (settled_compute h.1 h.2 v)
    · rfl

theorem find_run (requests : List Request) (name : Text) :
    ((rowsMachine py).run requests).find name = settledRow py (history name requests) := by
  induction requests using List.reverseRecOn with
  | nil => rfl
  | append_singleton requests request ih =>
    rw [Machine.run_snoc, history, List.foldl_append]
    exact find_handle ih request

/-! ## Times -/

/-- The visit that a request makes. -/
def Request.visit : Request → Option Visit
  | .verify_dns _ v | .compute_dns_state _ v => some v
  | _ => none

/-- No request finds the clock behind where an earlier one did. -/
def Forward (requests : List Request) : Prop :=
  (requests.filterMap Request.visit).Pairwise fun v v' => v.now ≤ v'.now

theorem visits_sublist {requests : List Request} {name : Text} {row : Domain}
    {visits : List Visited} (h : history name requests = some (row, visits)) :
    (visits.map Prod.snd).Sublist (requests.filterMap Request.visit) := by
  induction requests using List.reverseRecOn generalizing row visits with
  | nil => cases h
  | append_singleton requests request ih =>
    have hstep : historyStep name (history name requests) request = some (row, visits) := by
      rw [← h, history, history, List.foldl_append]
      rfl
    have hkeep {row' : Domain} {visits' : List Visited}
        (hbefore : history name requests = some (row', visits')) :
        (visits'.map Prod.snd).Sublist ((requests ++ [request]).filterMap Request.visit) := by
      rw [List.filterMap_append]
      exact (ih hbefore).trans (List.sublist_append_left _ _)
    have hgrow {verify : Bool} {v : Visit} (hvisit : request.visit = some v)
        (hmap : (history name requests).map (fun h => (h.1, h.2 ++ [(verify, v)])) =
          some (row, visits)) :
        (visits.map Prod.snd).Sublist ((requests ++ [request]).filterMap Request.visit) := by
      obtain ⟨⟨row', visits'⟩, hbefore, hpair⟩ := Option.map_eq_some_iff.mp hmap
      cases hpair
      have hone : [request].filterMap Request.visit = [v] := by simp [hvisit]
      rw [List.filterMap_append, hone, List.map_append]
      exact (ih hbefore).append (List.Sublist.refl [v])
    cases request with
    | add_domain name' selector public_key_txt now =>
      simp only [historyStep] at hstep
      split at hstep
      · cases hbefore : history name requests with
        | none =>
          rw [hbefore] at hstep
          cases hstep
          exact List.nil_sublist _
        | some before =>
          rw [hbefore] at hstep
          cases hstep
          exact hkeep hbefore
      · exact hkeep hstep
    | remove_domain name' =>
      simp only [historyStep] at hstep
      split at hstep
      · cases hstep
      · exact hkeep hstep
    | verify_dns name' v =>
      simp only [historyStep] at hstep
      split at hstep
      · exact hgrow rfl hstep
      · exact hkeep hstep
    | compute_dns_state name' v =>
      simp only [historyStep] at hstep
      split at hstep
      · exact hgrow rfl hstep
      · exact hkeep hstep

/-- The last of them is the latest. -/
theorem le_of_getLast? {visits : List Visited} (h : visits.Pairwise fun x y => x.2.now ≤ y.2.now)
    {visit last : Visited} (hvisit : visit ∈ visits) (hlast : visits.getLast? = some last) :
    visit.2.now ≤ last.2.now := by
  obtain ⟨before, rfl⟩ := List.getLast?_eq_some_iff.mp hlast
  rcases List.mem_append.mp hvisit with hmem | hmem
  · exact (List.pairwise_append.mp h).2.2 visit hmem last (List.mem_singleton_self last)
  · rw [List.mem_singleton.mp hmem]

theorem exists_getLast? {α : Type} {items : List α} {a : α} (h : a ∈ items) :
    ∃ last, items.getLast? = some last ∧ last ∈ items := by
  cases hlast : items.getLast? with
  | none =>
    rw [List.getLast?_eq_none_iff.mp hlast] at h
    cases h
  | some last => exact ⟨last, rfl, List.mem_of_getLast? hlast⟩

/-- A flag that is set was seen good when the domain was last verified, and the last time it
was seen good lies between then and the last visit. -/
theorem settled_ordered {row : Domain} {visits : List Visited} {slot : Slot}
    (h : visits.Pairwise fun x y => x.2.now ≤ y.2.now)
    (hverified : (settled py row visits).verified slot = true) :
    ∃ verified good checked, (settled py row visits).last_dns_check = some verified ∧
      (settled py row visits).last_verified_at slot = some good ∧
      (settled py row visits).last_checked_at slot = some checked ∧
      verified ≤ good ∧ good ≤ checked := by
  obtain ⟨last, hlast, hgood⟩ := (Option.any_eq_true _ _).mp hverified
  have hmem : last ∈ visits := List.mem_of_mem_filter (List.mem_of_getLast? hlast)
  have hfound : last ∈ visits.filter fun visit => (visitChecks py row visit.2 slot.check).1 :=
    List.mem_filter.mpr ⟨hmem, hgood⟩
  obtain ⟨good, hlastGood, hmemGood⟩ := exists_getLast? hfound
  obtain ⟨checked, hchecked, -⟩ := exists_getLast? hmem
  refine ⟨last.2.now, good.2.now, checked.2.now, congrArg (Option.map _) hlast,
    congrArg (Option.map _) hlastGood, congrArg (Option.map _) hchecked, ?_, ?_⟩
  · exact le_of_getLast? (h.sublist List.filter_sublist) hfound hlastGood
  · exact le_of_getLast? h (List.mem_of_mem_filter hmemGood) hchecked

end

/-- After any run of requests on any domains, a row is as it was added but for its flags,
which are those of the last verification of it, and its times, of the last visit and of the
last one that found the record good: asking for the state sets no flag. While the clock goes
forward, what is flagged was last seen good between its last verification and last visit. -/
theorem rows_after_run (py : Python) (requests : List Request) (name : Text) :
    ((rowsMachine py).run requests).find name =
        (history name requests).map (fun h => settled py h.1 h.2) ∧
      (Forward requests → ∀ row, ((rowsMachine py).run requests).find name = some row →
        ∀ slot, row.verified slot = true →
          ∃ verified good checked, row.last_dns_check = some verified ∧
            row.last_verified_at slot = some good ∧ row.last_checked_at slot = some checked ∧
            verified ≤ good ∧ good ≤ checked) := by
  refine ⟨find_run requests name, ?_⟩
  intro hforward row hfound slot hverified
  rw [find_run] at hfound
  obtain ⟨⟨added, visits⟩, hhistory, rfl⟩ := Option.map_eq_some_iff.mp hfound
  have htimes := hforward.sublist (visits_sublist hhistory)
  rw [List.pairwise_map] at htimes
  exact settled_ordered htimes hverified

/-! ## Publishing what is asked for -/

/-- A TXT record of this text, cut into strings anywhere, among others that its check does
not look at. -/
def Publishes (net : Net) (qname value : Text) (accepts : Text → Bool) : Prop :=
  ∃ (before : List (List Bytes)) (pieces : List Text) (after : List (List Bytes)),
    net.txt qname = some (before ++ pieces.map Utf8.encode :: after) ∧
    pieces.flatten = value ∧ ∀ other ∈ before ++ after, accepts (joinTxtRdata other) = false

/-- What `_check_spf` takes for a record. -/
def isSpf (py : Python) (txt : Text) : Bool := "v=spf1".toList.isPrefixOf (py.lower txt)

/-- A relay by its name, with its own SPF record, addresses and names of these. -/
structure RelayPublished (py : Python) (net : Net) (hostname : Text) : Prop where
  named : IpAddress.read hostname = none
  spf : Publishes net hostname "v=spf1 a -all".toList (isSpf py)
  a : ∃ address addresses, net.a hostname = some (address :: addresses)
  ptr : ∀ address ∈ resolveIpAddresses py (net.a hostname) ++ resolveIpAddresses py (net.aaaa hostname),
    ∃ answers, net.ptr address = some answers ∧
      ∃ answer ∈ answers, py.lower (withoutDots answer) = py.lower (withoutDots hostname)

/-- The records are the ones the list of records asks for, and the policy is served as the
server itself does once it has a certificate. -/
structure Published (py : Python) (domain : Domain) (v : Visit) : Prop where
  mx : ∃ before exchange after, v.net.mx domain.name = some (before ++ (10, exchange) :: after) ∧
    withoutDots exchange = v.hostname ∧ ∀ other ∈ before, withoutDots other.2 ≠ v.hostname
  spf : Publishes v.net domain.name (buildSpfExpected py v.hostname v.tunnel_hosts) (isSpf py)
  helo_spf : Publishes v.net v.hostname "v=spf1 a -all".toList (isSpf py)
  dkim : ∃ key txt, domain.dkim_public_key_txt = some key ∧ key ≠ [] ∧
    Text.contains txt "p=".toList = true ∧ normalizeDkimTxt txt = normalizeDkimTxt key ∧
    Publishes v.net (domain.dkim_selector ++ "._domainkey.".toList ++ domain.name) txt
      (Text.contains · "p=".toList)
  dmarc : Publishes v.net ("_dmarc.".toList ++ domain.name)
    ("v=DMARC1; p=reject; rua=mailto:postmaster@".toList ++ domain.name) "v=DMARC1".toList.isPrefixOf
  mta_sts : Publishes v.net ("_mta-sts.".toList ++ domain.name) (buildMtaStsExpected domain)
    "v=STSv1".toList.isPrefixOf
  tls_rpt : Publishes v.net ("_smtp._tls.".toList ++ domain.name)
    ("v=TLSRPTv1; rua=mailto:tls-reports@".toList ++ domain.name) "v=TLSRPTv1".toList.isPrefixOf
  host : ∃ address addresses, v.net.a ("mta-sts.".toList ++ domain.name) = some (address :: addresses) ∧
    ∀ found ∈ address :: addresses ++ (v.net.aaaa ("mta-sts.".toList ++ domain.name)).getD [],
      found.isGlobal = true
  policy : ∃ response, v.net.fetch
      ("https://mta-sts.".toList ++ domain.name ++ "/.well-known/mta-sts.txt".toList) =
        .response response ∧
    response.status_code = 200 ∧ "text/plain".toList.isPrefixOf (py.lower response.content_type) ∧
    response.content.length ≤ 64 * 1024 ∧
    response.text = mtaStsPolicyWellknown v.is_production true v.hostname
  relays : ∀ hostname ∈ v.tunnel_hosts, RelayPublished py v.net hostname

section
variable {py : Python} {net : Net} {qname value : Text} {accepts : Text → Bool}

theorem decodeReplace_encode (text : Text) : decodeReplace (Utf8.encode text) = text := by
  rw [decodeReplace, Utf8.Decoder.run_encode]
  exact List.append_nil text

theorem joinTxtRdata_pieces (pieces : List Text) :
    joinTxtRdata (pieces.map Utf8.encode) = pieces.flatten := by
  induction pieces with
  | nil => rfl
  | cons piece pieces ih =>
    rw [List.map_cons, joinTxtRdata, List.flatMap_cons, decodeReplace_encode]
    exact congrArg (piece ++ ·) ih

/-- What the checks look at of the texts that are found. -/
theorem Publishes.texts (h : Publishes net qname value accepts) (hvalue : accepts value = true) :
    ∃ answers, net.txt qname = some answers ∧
      (answers.map joinTxtRdata).filter accepts = [value] ∧
      (answers.map joinTxtRdata).find? accepts = some value := by
  obtain ⟨before, pieces, after, htxt, hflatten, hothers⟩ := h
  have hpass : ∀ others : List (List Bytes), (∀ other ∈ others, accepts (joinTxtRdata other) = false) →
      (others.map joinTxtRdata).filter accepts = [] ∧
        (others.map joinTxtRdata).find? accepts = none := by
    intro others hall
    constructor
    · rw [List.filter_eq_nil_iff]
      intro txt htxt
      obtain ⟨other, hother, rfl⟩ := List.mem_map.mp htxt
      simp [hall other hother]
    · rw [List.find?_eq_none]
      intro txt htxt
      obtain ⟨other, hother, rfl⟩ := List.mem_map.mp htxt
      simp [hall other hother]
  obtain ⟨hbefore, hfind⟩ := hpass before fun other hother =>
    hothers other (List.mem_append_left after hother)
  obtain ⟨hafter, -⟩ := hpass after fun other hother =>
    hothers other (List.mem_append_right before hother)
  have hmap : (before ++ pieces.map Utf8.encode :: after).map joinTxtRdata =
      before.map joinTxtRdata ++ value :: after.map joinTxtRdata := by
    rw [List.map_append, List.map_cons, joinTxtRdata_pieces, hflatten]
  refine ⟨_, htxt, ?_, ?_⟩
  · rw [hmap, List.filter_append, List.filter_cons_of_pos hvalue, hbefore, hafter]
    rfl
  · rw [hmap, List.find?_append, hfind, List.find?_cons_of_pos hvalue]
    rfl

theorem Publishes.checkTxt {judge : Text → Bool} (h : Publishes net qname value accepts)
    (hvalue : accepts value = true) : checkTxt net qname accepts judge = (judge value, some value) := by
  obtain ⟨answers, htxt, -, hfind⟩ := h.texts hvalue
  simp only [Domains.checkTxt, htxt, hfind]

theorem isSpf_joinWords {tokens : List Text}
    (h : ∀ token ∈ tokens, IsHost token) (hne : tokens ≠ []) :
    isSpf py (joinWords ("v=spf1".toList :: tokens)) = true := by
  have hversion : ∀ c ∈ "v=spf1".toList, Text.ascii c = true := List.all_eq_true.mp (by decide)
  have hascii : ∀ c ∈ joinWords ("v=spf1".toList :: tokens), Text.ascii c = true := by
    intro c hc
    rcases Text.mem_intercalate hc with rfl | ⟨token, htoken, hmem⟩
    · decide
    · rcases List.mem_cons.mp htoken with rfl | htoken
      · exact hversion c hmem
      · have hterm := (h token htoken).2 c hmem
        simp only [isTermChar, Bool.and_eq_true] at hterm
        exact hterm.1.1.1
  obtain ⟨first, others, rfl⟩ := List.exists_cons_of_ne_nil hne
  have hlower : Text.asciiLower "v=spf1".toList = "v=spf1".toList := by decide
  rw [isSpf, py.ascii_lower _ hascii, joinWords_map_asciiLower, List.map_cons, List.map_cons,
    joinWords_cons, hlower, List.isPrefixOf_iff_prefix]
  exact List.prefix_append _ _

/-- The record of terms in order, where they are ten lookups at most. -/
theorem Publishes.spf {terms : List (Text × Nat)}
    (h : Publishes net qname (joinWords ("v=spf1".toList :: terms.map (·.1))) (isSpf py))
    (hne : terms ≠ [])
    (hterms : ∀ t ∈ terms, Counts py t.1 t.2 ∧ Counts py (Text.asciiLower t.1) t.2 ∧ IsHost t.1)
    (hfew : (terms.map (·.2)).sum ≤ 10) :
    meets py (some .spf) (joinWords ("v=spf1".toList :: terms.map (·.1))) (checkSpf py net qname) =
      true := by
  obtain ⟨hvalid, hnormalized⟩ := joined_verified_iff hne hterms
  have hstarts : isSpf py (joinWords ("v=spf1".toList :: terms.map (·.1))) = true := by
    apply isSpf_joinWords
    · intro token htoken
      obtain ⟨t, ht, rfl⟩ := List.mem_map.mp htoken
      exact (hterms t ht).2.2
    · simpa using hne
  generalize joinWords ("v=spf1".toList :: terms.map (·.1)) = record at *
  obtain ⟨answers, htxt, hfilter, -⟩ := h.texts hstarts
  have hcheck : checkSpf py net qname = ((validateSpfRecord py record).isOk, some record) := by
    have hfilter' : (answers.map joinTxtRdata).filter
        (fun txt => "v=spf1".toList.isPrefixOf (py.lower txt)) = [record] := hfilter
    simp only [checkSpf, htxt, hfilter']
  rw [hcheck, meets, hvalid.mpr hfew]
  change (true && (spfMatches py record record)) = true
  rw [spfMatches_self, hnormalized.mpr hfew]
  rfl

/-! ### The policy -/

theorem whole_of_isHost {text : Text} (h : IsHost text) : Tunnels.Metrics.Whole text := by
  intro c hc
  have hspace := h.isWord.2 c hc
  apply Bool.eq_false_iff.mpr
  intro hbreak
  simp [Mailboxes.isLineBreak] at hbreak
  simp [Text.isSpace] at hspace
  omega

/-- A text whose last line is not closed. -/
theorem splitlines_open {lines : List Text} {last : Text}
    (h : ∀ line ∈ lines, Tunnels.Metrics.Whole line) (hlast : Tunnels.Metrics.Whole last)
    (hne : last ≠ []) :
    Tunnels.Metrics.splitlines (lines.flatMap (· ++ ['\n']) ++ last) = lines ++ [last] := by
  have hcr : '\r' ∉ lines.flatMap (· ++ ['\n']) ++ last := by
    intro hmem
    rcases List.mem_append.mp hmem with hmem | hmem
    · obtain ⟨line, hline, hmem⟩ := List.mem_flatMap.mp hmem
      rcases List.mem_append.mp hmem with hmem | hmem
      · exact absurd (h line hline _ hmem) (by decide)
      · exact absurd (List.mem_singleton.mp hmem) (by decide)
    · exact absurd (hlast _ hmem) (by decide)
  have hended : ∀ line ∈ lines.map (· ++ ['\n']), Lines.Ended Mailboxes.isLineBreak line := by
    intro ended hmem
    obtain ⟨line, hline, rfl⟩ := List.mem_map.mp hmem
    exact ⟨line, '\n', rfl, by decide, h line hline⟩
  have hlines : Lines.AreLines Mailboxes.isLineBreak (lines.map (· ++ ['\n']) ++ [last]) := by
    constructor
    · intro line hline
      rcases List.mem_append.mp hline with hline | hline
      · exact .inl (hended line hline)
      · rw [List.mem_singleton.mp hline]
        exact .inr ⟨hne, hlast⟩
    · rw [List.pairwise_append]
      exact ⟨List.pairwise_of_forall_mem_list fun line hline _ _ => hended line hline,
        List.pairwise_singleton _ _, fun line hline _ _ => hended line hline⟩
  have hplain : ∀ line, Tunnels.Metrics.Whole line →
      ∀ c ∈ line, (!Mailboxes.isLineBreak c) = true := by
    intro line hline c hc
    rw [hline c hc]
    rfl
  have hflatten : lines.flatMap (· ++ ['\n']) ++ last =
      (lines.map (· ++ ['\n']) ++ [last]).flatten := by
    rw [List.flatten_append, List.flatMap_def, List.flatten_singleton]
  rw [Tunnels.Metrics.splitlines, Tunnels.Metrics.crlfAsOne_of_not_mem hcr, hflatten,
    Lines.splitLines_flatten hlines, List.map_append, List.map_map, List.map_singleton,
    List.takeWhile_eq_self_iff.mpr (hplain last hlast)]
  congr 1
  refine (List.map_congr_left fun line hline => ?_).trans (List.map_id _)
  show (line ++ ['\n']).takeWhile _ = line
  rw [List.takeWhile_append_of_pos (hplain line (h line hline)),
    List.takeWhile_cons_of_neg (by decide), List.append_nil]

/-- A text that neither starts nor ends with white space. -/
theorem strip_of_ends {text : Text} (hhead : ∀ c ∈ text.head?, Text.isSpace c = false)
    (hlast : ∀ c ∈ text.getLast?, Text.isSpace c = false) : Text.strip Text.isSpace text = text := by
  have hdrop : text.dropWhile Text.isSpace = text := by
    cases text with
    | nil => rfl
    | cons c rest => rw [List.dropWhile_cons_of_neg (by simp [hhead c rfl])]
  rw [Text.strip, hdrop, List.rdropWhile_eq_self_iff]
  intro hne
  simp [hlast _ (List.getLast?_eq_some_getLast hne)]

variable {hostname : Text} {is_production : Bool}

theorem policyLines_ok (hname : IsHost hostname) (is_production : Bool) :
    ∀ line ∈ policyLines (if is_production then "enforce" else "testing") hostname,
      Tunnels.Metrics.Whole line ∧ Text.strip Text.isSpace line = line ∧ line ≠ [] := by
  have hlast : ∀ c ∈ ("mx: ".toList ++ hostname).getLast?, Text.isSpace c = false := by
    intro c hc
    rw [List.getLast?_append_of_ne_nil _ hname.1] at hc
    exact hname.isWord.2 c (List.mem_of_getLast? hc)
  have hhead : ∀ c ∈ ("mx: ".toList ++ hostname).head?, Text.isSpace c = false := by
    intro c hc
    cases hc
    decide
  have hmx : Tunnels.Metrics.Whole ("mx: ".toList ++ hostname) := by
    intro c hc
    rcases List.mem_append.mp hc with hc | hc
    · have hall : Tunnels.Metrics.Whole "mx: ".toList := by decide
      exact hall c hc
    · exact whole_of_isHost hname c hc
  intro line hline
  simp only [policyLines, List.mem_cons, List.not_mem_nil, or_false] at hline
  rcases hline with rfl | rfl | rfl | rfl
  · decide
  · cases is_production <;> decide
  · exact ⟨hmx, strip_of_ends hhead hlast, List.cons_ne_nil _ _⟩
  · decide

/-- The policy as it is expected, and as the server serves it, are in normal form alike. -/
theorem normalize_policy (hname : IsHost hostname) (is_production : Bool) :
    normalizeMtaStsPolicy (buildMtaStsPolicy is_production hostname) =
        buildMtaStsPolicy is_production hostname ∧
      normalizeMtaStsPolicy (mtaStsPolicyWellknown is_production true hostname) =
        buildMtaStsPolicy is_production hostname := by
  have hok := policyLines_ok hname is_production
  have hnormal {text : Text} (hsplit : Tunnels.Metrics.splitlines text =
      policyLines (if is_production then "enforce" else "testing") hostname) :
      normalizeMtaStsPolicy text = buildMtaStsPolicy is_production hostname := by
    have hstrip : (policyLines (if is_production then "enforce" else "testing") hostname).map
        (Text.strip Text.isSpace) =
        policyLines (if is_production then "enforce" else "testing") hostname :=
      (List.map_congr_left fun line hline => (hok line hline).2.1).trans (List.map_id _)
    have hfilter : (policyLines (if is_production then "enforce" else "testing") hostname).filter
        (!·.isEmpty) = policyLines (if is_production then "enforce" else "testing") hostname := by
      rw [List.filter_eq_self]
      intro line hline
      simpa using (hok line hline).2.2
    rw [normalizeMtaStsPolicy, hsplit, hstrip, hfilter]
    rfl
  constructor
  · apply hnormal
    have hsplit := @splitlines_open
      ((policyLines (if is_production then "enforce" else "testing") hostname).take 3)
      "max_age: 86400".toList (fun line hline => (hok line (List.mem_of_mem_take hline)).1)
      (by decide) (by decide)
    rw [buildMtaStsPolicy]
    generalize (if is_production then "enforce" else "testing") = mode at hsplit ⊢
    have htext : ['\n'].intercalate (policyLines mode hostname) =
        ((policyLines mode hostname).take 3).flatMap (· ++ ['\n']) ++ "max_age: 86400".toList := by
      simp [policyLines, List.intercalate]
    rw [htext, hsplit]
    rfl
  · apply hnormal
    rw [mtaStsPolicyWellknown, Bool.and_true]
    exact Tunnels.Metrics.splitlines_ended fun line hline => (hok line hline).1

theorem checkMtaStsHost_public {domain_name : Text} {address : IpAddress} {addresses : List IpAddress}
    (ha : net.a ("mta-sts.".toList ++ domain_name) = some (address :: addresses))
    (hglobal : ∀ found ∈ address :: addresses ++
      (net.aaaa ("mta-sts.".toList ++ domain_name)).getD [], found.isGlobal = true) :
    (checkMtaStsHost py net domain_name).1 = true := by
  unfold checkMtaStsHost
  dsimp only
  rw [ha, Option.getD_some]
  split
  · next hnone =>
    have hmem : address ∈ (address :: addresses ++
        (net.aaaa ("mta-sts.".toList ++ domain_name)).getD []).eraseDups :=
      List.mem_eraseDups.mpr List.mem_cons_self
    rw [hnone] at hmem
    cases hmem
  · rw [List.all_eq_true]
    intro found hfound
    exact hglobal found (List.mem_eraseDups.mp hfound)

end

/-! ### The checks of what is published -/

section
variable {py : Python} {net : Net}

theorem counts_a : Counts py "a".toList 1 := by
  intro state
  have hterm : IsHost "a".toList := isHost_of_all (by decide) (by decide)
  have hwhole : withoutQualifier "a".toList = "a".toList := rfl
  have hok : checkMechanism py "a" "a".toList "a".toList = .ok () := rfl
  exact checkTerm_mechanism hwhole hterm rfl hok

theorem helo_good {qname : Text}
    (h : Publishes net qname "v=spf1 a -all".toList (isSpf py)) :
    meets py (some .spf) "v=spf1 a -all".toList (checkSpf py net qname) = true := by
  have hterms : ∀ t ∈ [("a".toList, 1), ("-all".toList, 0)],
      Counts py t.1 t.2 ∧ Counts py (Text.asciiLower t.1) t.2 ∧ IsHost t.1 := by
    intro t ht
    simp only [List.mem_cons, List.not_mem_nil, or_false] at ht
    rcases ht with rfl | rfl
    · exact ⟨counts_a, counts_a, isHost_of_all (by decide) (by decide)⟩
    · exact ⟨counts_all (.inl rfl), counts_all (.inl rfl), isHost_of_all (by decide) (by decide)⟩
  exact @Publishes.spf py net qname [("a".toList, 1), ("-all".toList, 0)] h (by decide) hterms
    (by decide)

theorem mem_sortedTexts {texts : List Text} {text : Text} : text ∈ sortedTexts texts ↔ text ∈ texts := by
  rw [sortedTexts, List.mem_mergeSort, List.mem_dedup]

theorem relay_good {hostname : Text} {now : Nat} (h : RelayPublished py net hostname)
    {row : DnsRecordInfo} (hrow : row ∈ checkOneRelayDns py net hostname now)
    (hrequired : row.required = true) : row.verified = true := by
  have hnamed : ¬ (IpAddress.read hostname).isSome = true := by simp [h.named]
  unfold checkOneRelayDns at hrow
  rw [if_neg hnamed] at hrow
  rcases List.mem_append.mp hrow with hrow | hrow
  · simp only [List.mem_cons, List.not_mem_nil, or_false] at hrow
    rcases hrow with rfl | rfl | rfl
    · exact helo_good h.spf
    · obtain ⟨address, addresses, ha⟩ := h.a
      have hmem : address.write py.ipv6 ∈ resolveIpAddresses py (net.a hostname) := by
        rw [resolveIpAddresses, mem_sortedTexts, ha]
        exact List.mem_map_of_mem List.mem_cons_self
      dsimp only
      cases hfound : resolveIpAddresses py (net.a hostname) with
      | nil =>
        rw [hfound] at hmem
        cases hmem
      | cons first rest => rfl
    · cases hrequired
  · obtain ⟨address, haddress, rfl⟩ := List.mem_map.mp hrow
    obtain ⟨answers, hptr, answer, hanswer, hname⟩ := h.ptr address haddress
    show (checkPtr py net address hostname).1 = true
    simp only [checkPtr, hptr, List.contains_iff_mem, mem_sortedTexts]
    exact List.mem_map.mpr ⟨answer, hanswer, hname⟩

variable {domain : Domain} {v : Visit}

theorem version_good {version : String} {qname value : Text} {slot : MatchSlot}
    (h : Publishes net qname value version.toList.isPrefixOf)
    (hvalue : version.toList.isPrefixOf value = true) (hsame : recordMatches py slot value value = true) :
    meets py (some slot) value (checkVersion net version qname) = true := by
  rw [checkVersion, h.checkTxt hvalue]
  exact hsame

theorem mx_good (h : Published py domain v) :
    meets py (some .mx) ("10 ".toList ++ v.hostname ++ ['.']) (checkMx v.net domain.name v.hostname) =
      true := by
  obtain ⟨before, exchange, after, hmx, hexchange, hbefore⟩ := h.mx
  have hfind : (before ++ (10, exchange) :: after).find?
      (fun rdata => decide (withoutDots rdata.2 = v.hostname)) = some (10, exchange) := by
    rw [List.find?_append, List.find?_eq_none.mpr, List.find?_cons_of_pos (by simp [hexchange])]
    · rfl
    · intro other hother
      simpa using hbefore other hother
  have hten : Nat.toDigits 10 10 = "10".toList := by decide
  have hformat : formatMxRdata (10, exchange) = "10 ".toList ++ v.hostname ++ ['.'] := by
    rw [formatMxRdata, hexchange, hten]
    rfl
  simp only [checkMx, hmx, hfind, hformat]
  simp [meets, recordMatches]

theorem starts_with (version more : String) (rest : Text) :
    version.toList.isPrefixOf ((version ++ more).toList ++ rest) = true := by
  rw [String.toList_append, List.append_assoc]
  exact List.isPrefixOf_iff_prefix.mpr (List.prefix_append _ _)

/-- A number is as good an `id` as any. -/
theorem mta_sts_matches {id : Text} (hne : id ≠ []) (hid : ∀ c ∈ id, Text.isSpace c = false) :
    recordMatches py .mta_sts ("v=STSv1; id=".toList ++ id) ("v=STSv1; id=".toList ++ id) = true := by
  have hstrip : Text.strip Text.isSpace ("v=STSv1; id=".toList ++ id) = "v=STSv1; id=".toList ++ id := by
    apply strip_of_ends
    · intro c hc
      cases hc
      decide
    · intro c hc
      rw [List.getLast?_append_of_ne_nil _ hne] at hc
      exact hid c (List.mem_of_getLast? hc)
  simp only [recordMatches, hstrip, Bool.and_eq_true, List.isPrefixOf_iff_prefix]
  refine ⟨List.prefix_append _ _, ?_⟩
  have hpos := List.length_pos_of_ne_nil hne
  simp only [List.length_append, decide_eq_true_eq]
  omega

theorem mta_sts_good (h : Publishes net ("_mta-sts.".toList ++ domain.name)
    (buildMtaStsExpected domain) "v=STSv1".toList.isPrefixOf) :
    meets py (some .mta_sts) (buildMtaStsExpected domain) (checkMtaSts net domain.name) = true := by
  have hid : ∀ c ∈ Nat.toDigits 10 (domain.created_at.elim 1 (· / 1000000)), Text.isSpace c = false :=
    fun c hc => Tunnels.Metrics.not_space_of_isDigit (Tunnels.Metrics.digits_plain _ c hc)
  have hne : Nat.toDigits 10 (domain.created_at.elim 1 (· / 1000000)) ≠ [] := Nat.toDigits_ne_nil
  unfold buildMtaStsExpected at h ⊢
  generalize Nat.toDigits 10 (domain.created_at.elim 1 (· / 1000000)) = id at h hid hne ⊢
  exact version_good h (starts_with "v=STSv1" "; id=" id) (mta_sts_matches hne hid)

theorem policy_good (h : Published py domain v) (hname : IsHost v.hostname) :
    meets py (some .mta_sts_policy) (buildMtaStsPolicy v.is_production v.hostname)
      (checkMtaStsPolicy py v.net v.is_production domain.name v.hostname) = true := by
  obtain ⟨response, hfetch, hstatus, htype, hlength, htext⟩ := h.policy
  obtain ⟨hexpected, hserved⟩ := normalize_policy hname v.is_production
  have hcheck : checkMtaStsPolicy py v.net v.is_production domain.name v.hostname =
      (true, some (buildMtaStsPolicy v.is_production v.hostname)) := by
    unfold checkMtaStsPolicy
    rw [hfetch]
    dsimp only
    rw [if_neg (not_not.mpr hstatus), if_neg (by rw [htype]; decide), if_neg (Nat.not_lt.mpr hlength),
      htext, hexpected, hserved, decide_eq_true rfl]
  rw [hcheck]
  generalize buildMtaStsPolicy v.is_production v.hostname = policy
  exact decide_eq_true rfl

theorem dkim_good (h : Published py domain v) :
    (visitChecks py domain v .dkim).1 = true := by
  obtain ⟨key, txt, hkey, hne, hcontains, hsame, htxt⟩ := h.dkim
  have hcheck : runDnsChecks py domain v .dkim = (true, some txt) := by
    simp only [runDnsChecks, checkDkim]
    rw [htxt.checkTxt hcontains, hkey]
    simp [hsame]
  have hexpected : dkimExpected domain.dkim_public_key_txt = key := by
    rw [hkey]
    cases key with
    | nil => exact absurd rfl hne
    | cons c key => rfl
  change meets py (some .dkim) (dkimExpected domain.dkim_public_key_txt)
    (runDnsChecks py domain v .dkim) = true
  rw [hexpected, hcheck]
  simp [meets, recordMatches, hsame]

theorem endpoint_good (h : Published py domain v) (hname : IsHost v.hostname) :
    (visitChecks py domain v .mta_sts_host).1 = true ∧
      (visitChecks py domain v .mta_sts_policy).1 = true := by
  have hpublic : (checkMtaStsHost py v.net domain.name).1 = true := by
    obtain ⟨address, addresses, ha, hglobal⟩ := h.host
    exact checkMtaStsHost_public ha hglobal
  have hendpoint : checkMtaStsEndpoint py v.net v.is_production domain.name v.hostname =
      (checkMtaStsHost py v.net domain.name,
        checkMtaStsPolicy py v.net v.is_production domain.name v.hostname) := by
    simp only [checkMtaStsEndpoint, hpublic]
    rfl
  constructor
  · change ((checkMtaStsEndpoint py v.net v.is_production domain.name v.hostname).1.1 && true) = true
    rw [hendpoint, Bool.and_true, hpublic]
  · change meets py (some .mta_sts_policy) _
      (checkMtaStsEndpoint py v.net v.is_production domain.name v.hostname).2 = true
    rw [hendpoint]
    exact policy_good h hname

theorem spf_good (h : Published py domain v) (hname : IsHost v.hostname)
    (hhosts : ∀ host ∈ v.tunnel_hosts, IsHost host) (hfew : namedHosts v.tunnel_hosts ≤ 9) :
    meets py (some .spf) (buildSpfExpected py v.hostname v.tunnel_hosts)
      (checkSpf py v.net domain.name) = true := by
  have hsome : expectedTerms py v.hostname v.tunnel_hosts ≠ [] := by
    unfold expectedTerms
    split
    · exact List.cons_ne_nil _ _
    · exact List.cons_ne_nil _ _
  have hspf := h.spf
  rw [buildSpfExpected_eq] at hspf ⊢
  exact hspf.spf hsome (counts_expectedTerms hname hhosts)
    ((sum_expectedTerms v.hostname v.tunnel_hosts).mpr hfew)

end

/-- Where the records that are asked for are published and the policy is served, and no more
than nine relays are named, verifying the domain finds all of it good and stamps every one
of the six records. -/
theorem published_verifies (py : Python) (domain : Domain) (v : Visit)
    (h : Published py domain v) (hname : IsHost v.hostname)
    (hhosts : ∀ host ∈ v.tunnel_hosts, IsHost host) (hfew : namedHosts v.tunnel_hosts ≤ 9) :
    (verifyDns py domain v).2.all_verified = true ∧
      ∀ slot, (verifyDns py domain v).1.verified slot = true ∧
        (verifyDns py domain v).1.last_verified_at slot = some v.now := by
  have hchecks : ∀ slot ∈ requiredChecks, (visitChecks py domain v slot).1 = true := by
    intro slot hslot
    cases slot with
    | mx => exact mx_good h
    | spf => exact spf_good h hname hhosts hfew
    | helo_spf => exact helo_good h.helo_spf
    | dkim => exact dkim_good h
    | dmarc =>
      exact version_good h.dmarc (starts_with "v=DMARC1" "; p=reject; rua=mailto:postmaster@" _)
        (decide_eq_true rfl)
    | bimi => exact absurd hslot (by decide)
    | mta_sts => exact absurd hslot (by decide)
    | mta_sts_txt => exact mta_sts_good h.mta_sts
    | mta_sts_host => exact (endpoint_good h hname).1
    | mta_sts_policy => exact (endpoint_good h hname).2
    | tls_rpt =>
      exact version_good h.tls_rpt (starts_with "v=TLSRPTv1" "; rua=mailto:tls-reports@" _)
        (decide_eq_true rfl)
  have hall := @requiredChecks_all py domain v
  rw [List.all_eq_true.mpr hchecks, eq_comm, Bool.and_eq_true] at hall
  constructor
  · have hrelays : ((checkRelayDns py v.net v.tunnel_hosts v.now).filter (·.required)).all
        (·.verified) = true := by
      rw [List.all_eq_true]
      intro row hrow
      obtain ⟨hmem, hrequired⟩ := List.mem_filter.mp hrow
      obtain ⟨hostname, hhost, hone⟩ := List.mem_flatMap.mp hmem
      exact relay_good (h.relays hostname hhost) hone hrequired
    rw [all_verified_verifyDns, List.all_eq_true.mpr hchecks, hrelays, Bool.and_true]
  · intro slot
    have hslot := List.all_eq_true.mp hall.1 slot (mem_canonicalRecordSlots slot)
    simp only [verifyDns, stampAuditTimestamps_eq]
    exact ⟨hslot, if_pos hslot⟩

/-! A domain whose mail leaves by one relay. -/

def exampleDomain : Domain where
  name := "example.com".toList
  created_at := some 1700000000000000
  dkim_selector := "mail".toList
  dkim_public_key_txt := some "v=DKIM1; k=rsa; p=MIIBIjAN".toList

/-- The texts of each name, as the strings they are cut into. -/
def exampleTexts : List (String × List (List String)) :=
  [("example.com", [["verification=1"], ["v=spf1 mx a:relay.", "example.net -all"]]),
    ("mail.example.com", [["v=spf1 a -all"]]),
    ("relay.example.net", [["v=spf1 a -all"]]),
    ("mail._domainkey.example.com", [["v=DKIM1; k=rsa; ", "p=MIIB", "IjAN"]]),
    ("_dmarc.example.com", [["v=DMARC1; p=reject; rua=mailto:postmaster@example.com"]]),
    ("_mta-sts.example.com", [["v=STSv1; id=1700000000"]]),
    ("_smtp._tls.example.com", [["v=TLSRPTv1; rua=mailto:tls-reports@example.com"]])]

def exampleNet : Net where
  txt qname := (exampleTexts.find? fun entry => entry.1.toList = qname).map fun entry =>
    entry.2.map fun strings => (strings.map String.toList).map Utf8.encode
  mx _ := some [(20, "backup.example.org.".toList), (10, "mail.example.com.".toList)]
  a qname := if qname = "relay.example.net".toList then some [.v4 [192, 0, 2, 7]]
    else some [.v4 [93, 184, 216, 34]]
  aaaa _ := none
  ptr _ := some ["Relay.example.net.".toList]
  fetch _ := .response
    { status_code := 200
      content_type := "text/plain; charset=utf-8".toList
      content := []
      text := mtaStsPolicyWellknown true true "mail.example.com".toList }

def exampleVisit : Visit where
  net := exampleNet
  hostname := "mail.example.com".toList
  tunnel_hosts := ["relay.example.net".toList]
  is_production := true
  now := 1700000001000000

theorem example_published : Published .asciiOnly exampleDomain exampleVisit where
  mx := ⟨[(20, "backup.example.org.".toList)], "mail.example.com.".toList, [], rfl, by decide,
    by decide⟩
  spf := ⟨[["verification=1".toList].map Utf8.encode],
    ["v=spf1 mx a:relay.".toList, "example.net -all".toList], [], by decide +kernel,
    by decide +kernel, by decide +kernel⟩
  helo_spf := ⟨[], ["v=spf1 a -all".toList], [], by decide +kernel, by decide +kernel, by decide⟩
  dkim := ⟨"v=DKIM1; k=rsa; p=MIIBIjAN".toList, "v=DKIM1; k=rsa; p=MIIBIjAN".toList, rfl, by decide,
    by decide, rfl, [], ["v=DKIM1; k=rsa; ".toList, "p=MIIB".toList, "IjAN".toList], [],
    by decide +kernel, by decide +kernel, by decide⟩
  dmarc := ⟨[], ["v=DMARC1; p=reject; rua=mailto:postmaster@example.com".toList], [],
    by decide +kernel, by decide +kernel, by decide⟩
  mta_sts := ⟨[], ["v=STSv1; id=1700000000".toList], [], by decide +kernel, by decide +kernel,
    by decide⟩
  tls_rpt := ⟨[], ["v=TLSRPTv1; rua=mailto:tls-reports@example.com".toList], [],
    by decide +kernel, by decide +kernel, by decide⟩
  host := ⟨.v4 [93, 184, 216, 34], [], by decide +kernel, by decide +kernel⟩
  policy := ⟨_, rfl, rfl, by decide, Nat.zero_le _, rfl⟩
  relays := by
    intro hostname hhost
    obtain rfl := List.mem_singleton.mp hhost
    constructor
    · decide
    · exact ⟨[], ["v=spf1 a -all".toList], [], by decide +kernel, by decide +kernel, by decide⟩
    · exact ⟨.v4 [192, 0, 2, 7], [], rfl⟩
    · intro address _
      exact ⟨_, rfl, _, List.mem_singleton_self _, by decide⟩

theorem example_verifies :
    (verifyDns .asciiOnly exampleDomain exampleVisit).2.all_verified = true ∧
      ∀ slot, (verifyDns .asciiOnly exampleDomain exampleVisit).1.verified slot = true ∧
        (verifyDns .asciiOnly exampleDomain exampleVisit).1.last_verified_at slot =
          some 1700000001000000 :=
  published_verifies .asciiOnly exampleDomain exampleVisit example_published
    (isHost_of_all (by decide) (by decide))
    (by
      intro host hhost
      rw [List.mem_singleton.mp hhost]
      exact isHost_of_all (by decide) (by decide))
    (by decide)

end MailCue.Backend.Domains
