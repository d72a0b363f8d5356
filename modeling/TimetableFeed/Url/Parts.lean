import TimetableFeed.Text.Quoted
import TimetableFeed.Url.Host

/-!
# The parts of a URL

A URL falls into scheme, authority, path, query and fragment; missing parts are empty. White space
and controls in front are dropped, and so are tabs and line breaks anywhere. An authority whose
brackets do not enclose a host, or in which a compatibility character hides a delimiter, is an
error.

Main definitions: `Parts.read?`, `Parts.write`.
-/

namespace TimetableFeed.Url

inductive Error where
  | brackets
  | futureAddress
  | address4
  | notAnAddress (host : String)
  | hiddenDelimiter (authority : String)
  deriving DecidableEq, Repr

def Error.message : Error → String
  | .brackets => "Invalid IPv6 URL"
  | .futureAddress => "IPvFuture address is invalid"
  | .address4 => "An IPv4 address cannot be in brackets"
  | .notAnAddress host => Text.quoted host ++ " does not appear to be an IPv4 or IPv6 address"
  | .hiddenDelimiter authority =>
    "netloc '" ++ authority ++ "' contains invalid characters under NFKC normalization"

/-- The parts of a URL, without their delimiters. -/
structure Parts where
  scheme : List Char
  authority : List Char
  path : List Char
  query : List Char
  fragment : List Char
  deriving DecidableEq, Repr

def isLetter (c : Char) : Bool := ('a' ≤ c && c ≤ 'z') || ('A' ≤ c && c ≤ 'Z')

def isSchemeChar (c : Char) : Bool :=
  isLetter c || ('0' ≤ c && c ≤ '9') || c == '+' || c == '-' || c == '.'

/-- The text as URLs are read: nothing blank in front, no tabs, no line breaks. -/
def clean (cs : List Char) : List Char :=
  (cs.dropWhile fun c => c.toNat ≤ 0x20).filter fun c => c ≠ '\t' ∧ c ≠ '\n' ∧ c ≠ '\r'

/-- The scheme in lower case, empty if there is none, and what follows its colon. -/
def takeScheme (cs : List Char) : List Char × List Char :=
  match Text.cut ':' cs with
  | (scheme, some rest) =>
    if scheme.head?.any isLetter && scheme.all isSchemeChar then (scheme.map Char.toLower, rest)
    else ([], cs)
  | (_, none) => ([], cs)

/-- The authority, empty if there is none, and what follows it. -/
def takeAuthority : List Char → List Char × List Char
  | '/' :: '/' :: rest =>
    let inside (c : Char) : Bool := c != '/' && c != '?' && c != '#'
    (rest.takeWhile inside, rest.dropWhile inside)
  | cs => ([], cs)

/-- The part after the last `mark`; all of it if there is none. -/
def afterLast (mark : Char) (cs : List Char) : List Char :=
  (cs.reverse.takeWhile (· ≠ mark)).reverse

def checkHost (host : List Char) : Except Error Unit :=
  if host.head? = some 'v' then
    if isFutureAddress host then .ok () else .error .futureAddress
  else if isAddress4 host then .error .address4
  else if isAddress6 host then .ok ()
  else .error (.notAnAddress (String.ofList host))

/-- Checks the brackets of an authority. -/
def checkBrackets (authority : List Char) : Except Error Unit :=
  match authority.contains '[', authority.contains ']' with
  | false, false => .ok ()
  | true, true =>
    let server := afterLast '@' authority
    match Text.cut '[' server with
    | (before, some bracketed) =>
      let (host, after?) := Text.cut ']' bracketed
      if !before.isEmpty || !(after?.all fun after => after.isEmpty || after.head? == some ':') then
        .error .brackets
      else checkHost host
    -- all brackets belong to the user, but then the server is checked like a host in brackets
    | (_, none) => checkHost (Text.cut ':' server).1
  | _, _ => .error .brackets

/-- The characters whose compatibility decomposition holds one of `/?#@:`. -/
def hidesDelimiter (c : Char) : Bool :=
  [0x2047, 0x2048, 0x2049, 0x2100, 0x2101, 0x2105, 0x2106, 0x2A74, 0xFE13, 0xFE16, 0xFE55, 0xFE56,
    0xFE5F, 0xFE6B, 0xFF03, 0xFF0F, 0xFF1A, 0xFF1F, 0xFF20].contains c.toNat

def checkDelimiters (authority : List Char) : Except Error Unit :=
  if authority.any hidesDelimiter then .error (.hiddenDelimiter (String.ofList authority))
  else .ok ()

/-- The schemes whose URLs have an authority even if it is empty. -/
def schemesWithAuthority : List String :=
  ["ftp", "http", "gopher", "nntp", "telnet", "imap", "wais", "file", "mms", "https", "shttp",
    "snews", "prospero", "rtsp", "rtspu", "rsync", "svn", "svn+ssh", "sftp", "nfs", "git",
    "git+ssh", "ws", "wss"]

namespace Parts

/-- The parts of a text, whatever its authority is. -/
def ofChars (cs : List Char) : Parts :=
  let (scheme, rest) := takeScheme (clean cs)
  let (authority, rest) := takeAuthority rest
  let (rest, fragment?) := Text.cut '#' rest
  let (path, query?) := Text.cut '?' rest
  ⟨scheme, authority, path, query?.getD [], fragment?.getD []⟩

def read? (cs : List Char) : Except Error Parts := do
  let parts := ofChars cs
  checkBrackets parts.authority
  checkDelimiters parts.authority
  return parts

/-- Authority and path. -/
def hierarchy (p : Parts) : List Char :=
  -- an empty authority is written only if the path does not look like one
  if !p.authority.isEmpty ||
      (schemesWithAuthority.contains (String.ofList p.scheme) && p.path.take 2 != ['/', '/']) then
    let path := if p.path.isEmpty || p.path.head? == some '/' then p.path else '/' :: p.path
    '/' :: '/' :: p.authority ++ path
  else p.path

/-- The text of the parts; empty ones are left out together with their delimiters. -/
def write (p : Parts) : List Char :=
  (if p.scheme.isEmpty then [] else p.scheme ++ [':']) ++ p.hierarchy ++
    (if p.query.isEmpty then [] else '?' :: p.query) ++
    (if p.fragment.isEmpty then [] else '#' :: p.fragment)

end Parts

end TimetableFeed.Url
