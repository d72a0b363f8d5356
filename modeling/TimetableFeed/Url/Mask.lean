import TimetableFeed.Url.Parts
import TimetableFeed.Url.Query

/-!
# Masking credentials

Addresses of feeds often carry keys and passwords. Before a URL is shown, the user name and password
in its authority and the values of the telling names in its query are masked. Names are compared
without regard to case.
-/

namespace TimetableFeed.Url

def mask : List Char := "<redacted>".toList

/-- The names whose values are credentials. -/
def sensitiveNames : List String :=
  ["apikey", "api_key", "key", "token", "access_token", "subscription-key", "password"]

/-- A character in lower case, as far as ASCII goes; the Kelvin sign lowers into ASCII too. -/
def lowerChar (c : Char) : Char := if c.toNat = 0x212A then 'k' else c.toLower

def isSensitive (name : List Char) : Bool :=
  sensitiveNames.contains (String.ofList (name.map lowerChar))

def maskAuthority (authority : List Char) : List Char :=
  if authority.contains '@' then mask ++ '@' :: afterLast '@' authority else authority

def maskPair (pair : Pair) : Pair := (pair.1, if isSensitive pair.1 then mask else pair.2)

def maskQuery (query : List Char) : List Char := writeQuery ((readQuery query).map maskPair)

def Parts.masked (p : Parts) : Parts :=
  { p with
    authority := maskAuthority p.authority
    query := if p.query.isEmpty then [] else maskQuery p.query }

def masked? (url : String) : Except Error String :=
  (Parts.read? url.toList).map fun parts => String.ofList parts.masked.write

end TimetableFeed.Url
