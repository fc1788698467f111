import Mathlib
import MailCue.Lib.IpAddress

/-!
# URLs in parts

`urllib.parse.urlsplit` and what it derives from the authority. A URL is refused where the
brackets of its authority hold no IPv6 address or do not match, or where its normal form
has a delimiter that it does not have itself; a port where it is none. The normal form
(NFKC) is a parameter.
-/
namespace MailCue.Lib.Url

structure SplitResult where
  scheme : Text
  netloc : Text
  path : Text
  query : Text
  fragment : Text
  deriving DecidableEq, Repr

/-! ## The authority -/

/-- `text.partition(sep)`, without what it found. -/
def partition (sep : Char) (text : Text) : Text × Text :=
  (text.takeWhile (· != sep), (text.dropWhile (· != sep)).tail)

def isHex (c : Char) : Bool := (IpAddress.hexValue c).isSome

/-- `_check_bracketed_host`: an IPv6 address, or the form kept for later versions. -/
def isBracketedHost (hostname : Text) : Bool :=
  match hostname with
  | 'v' :: rest =>
    let digits := rest.takeWhile isHex
    !digits.isEmpty &&
      match rest.drop digits.length with
      | '.' :: _ :: _ => true
      | _ => false
  | _ => (IpAddress.read hostname).any fun address => address.version == .six

/-- `_check_bracketed_netloc` -/
def isBracketed (netloc : Text) : Bool :=
  let hostname_and_port := Text.afterLast '@' netloc
  if '[' ∈ hostname_and_port then
    let (before_bracket, bracketed) := partition '[' hostname_and_port
    let (hostname, port) := partition ']' bracketed
    before_bracket.isEmpty && port.head?.all (· == ':') && isBracketedHost hostname
  else isBracketedHost (partition ':' hostname_and_port).1

/-- Brackets in pairs, around an address. -/
def bracketsMatch (netloc : Text) : Bool :=
  if '[' ∈ netloc ∧ ']' ∈ netloc then isBracketed netloc else !('[' ∈ netloc || ']' ∈ netloc)

section
variable (nfkc : Text → Text)

/-- `_checknetloc`: the normal form has no other delimiters. -/
def isStable (netloc : Text) : Bool :=
  let plain := netloc.filter fun c => !(c ∈ "@:#?".toList)
  netloc.isEmpty || netloc.all Text.ascii || nfkc plain == plain ||
    (nfkc plain).all fun c => !(c ∈ "/?#@:".toList)

/-! ## Splitting -/

def isSchemeChar (c : Char) : Bool := c.isAlphanum || c == '+' || c == '-' || c == '.'

def splitScheme (url : Text) : Text × Text :=
  let (scheme, rest) := partition ':' url
  if ':' ∈ url ∧ scheme.head?.any Char.isAlpha ∧ scheme.all isSchemeChar then
    (Text.asciiLower scheme, rest)
  else ([], url)

def isDelimiter (c : Char) : Bool := c == '/' || c == '?' || c == '#'

/-- The authority behind two slashes, and the rest. -/
def splitNetloc (url : Text) : Text × Text :=
  match url with
  | '/' :: '/' :: rest =>
    (rest.takeWhile (!isDelimiter ·), rest.dropWhile (!isDelimiter ·))
  | _ => ([], url)

/-- The characters `urlsplit` drops in front, and those it drops everywhere. -/
def cleaned (url : Text) : Text :=
  (url.dropWhile fun c => c.toNat ≤ 0x20).filter fun c => !(c ∈ ['\t', '\r', '\n'])

/-- `urlsplit`, `none` for a ValueError. -/
def urlsplit (url : Text) : Option SplitResult :=
  let (scheme, url) := splitScheme (cleaned url)
  let (netloc, url) := splitNetloc url
  let (url, fragment) := partition '#' url
  let (path, query) := partition '?' url
  if bracketsMatch netloc && isStable nfkc netloc then some ⟨scheme, netloc, path, query, fragment⟩
  else none

end

/-! ## Joining -/

/-- `uses_netloc` -/
def usesNetloc : List String :=
  ["", "ftp", "http", "gopher", "nntp", "telnet", "imap", "wais", "file", "mms", "https", "shttp",
    "snews", "prospero", "rtsp", "rtsps", "rtspu", "rsync", "svn", "svn+ssh", "sftp", "nfs",
    "git", "git+ssh", "ws", "wss", "itms-services"]

/-- The authority with its slashes, and the path. -/
def joinNetloc (scheme netloc path : Text) : Text :=
  if !netloc.isEmpty then
    "//".toList ++ netloc ++ if path.head?.all (· == '/') then path else '/' :: path
  else if "//".toList.isPrefixOf path ∨ (!scheme.isEmpty ∧
      scheme ∈ usesNetloc.map String.toList ∧ path.head?.all (· == '/')) then
    "//".toList ++ path
  else path

/-- `urlunsplit` -/
def urlunsplit (parsed : SplitResult) : Text :=
  let scheme := if parsed.scheme.isEmpty then [] else parsed.scheme ++ [':']
  let query := if parsed.query.isEmpty then [] else '?' :: parsed.query
  let fragment := if parsed.fragment.isEmpty then [] else '#' :: parsed.fragment
  scheme ++ joinNetloc parsed.scheme parsed.netloc parsed.path ++ query ++ fragment

/-! ## What the authority holds -/

/-- The limit of `int` on digits. -/
def MAX_STR_DIGITS : Nat := 4300

namespace SplitResult

variable (parsed : SplitResult)

def hostinfo : Text × Text :=
  let hostinfo := Text.afterLast '@' parsed.netloc
  if '[' ∈ hostinfo then
    let (hostname, port) := partition ']' (partition '[' hostinfo).2
    (hostname, (partition ':' port).2)
  else partition ':' hostinfo

/-- `hostname`, in lower case but for a zone behind a percent sign. -/
def hostname (lower : Text → Text) : Option Text :=
  let hostname := parsed.hostinfo.1
  if hostname.isEmpty then none
  else some (lower (hostname.takeWhile (· != '%')) ++ hostname.dropWhile (· != '%'))

/-- `username` or `password` is not None. -/
def hasCredentials : Bool := '@' ∈ parsed.netloc

/-- `port`, `none` for a ValueError. -/
def port : Option (Option Nat) :=
  let port := parsed.hostinfo.2
  if port.isEmpty then some none
  else if port.all Char.isDigit && port.length ≤ MAX_STR_DIGITS &&
      IpAddress.decimalValue port ≤ 65535 then
    some (some (IpAddress.decimalValue port))
  else none

end SplitResult

end MailCue.Lib.Url
