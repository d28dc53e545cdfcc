import Ochestrate.Framework.Files
import Ochestrate.Tools.Base

/-!
# Tool security

`app/tools/security.py`: where tools may read and write, what they may fetch
and what a statement has to say before it is sent to the database.
-/

namespace Ochestrate

/-- What `urlparse` makes of a text. -/
structure ParsedUrl where
  scheme : String
  netloc : String
  hostname : Option String
  path : String
  query : String

/-- What `ipaddress` says about an address. -/
structure IpAddress where
  isPrivate : Bool
  isLoopback : Bool
  isLinkLocal : Bool
  isReserved : Bool
  isMulticast : Bool

/-- The address is not to be reached from a tool. -/
def IpAddress.blocked (ip : IpAddress) : Bool :=
  ip.isPrivate || ip.isLoopback || ip.isLinkLocal || ip.isReserved || ip.isMulticast

/-- How a host name is resolved: to addresses, to none, or with another
exception. -/
inductive AddressInfo
  | addresses (candidates : List String)
  | gaierror
  | raised (exc : Exc)

/-- The language's functions on texts of URLs, and the resolver. -/
structure Network where
  urlparse : String → Except Exc ParsedUrl
  urljoin : String → String → Except Exc String
  /-- `ipaddress.ip_address(host)`, or `none` for a `ValueError` -/
  ipAddress : String → Option IpAddress
  getaddrinfo : String → AddressInfo

structure ToolSecurityConfig where
  allowedDirectories : List Place
  allowedDomains : List String
  allowedSchemes : Option (List String) := none
  blockPrivateNetworks : Bool := true
  fetchTimeoutSeconds : Int := 10
  maxFetchChars : Int := 8000
  maxRedirects : Int := 3
  searchProvider : String := "duckduckgo"
  searchResultLimit : Int := 5
  dbWriteProtectionEnabled : Bool := true
  dbConfirmField : String := "confirm_write"
  dbRequireTenantScope : Bool := true
  maxFileSizeMb : Int := 10

namespace ToolSecurityConfig

/-- `is_path_allowed`: an allowed directory is relative to itself. -/
def isPathAllowed (security : ToolSecurityConfig) (target : Place) : Bool :=
  let resolved := Place.resolve target
  security.allowedDirectories.any fun allowed => allowed.isPrefixOf resolved

section Urls

variable (B : Builtins) (network : Network) (security : ToolSecurityConfig)

/-- `self.allowed_schemes or ["https", "http"]`, in lower case. -/
def schemes : List String :=
  (match security.allowedSchemes with
    | none | some [] => ["https", "http"]
    | some schemes => schemes).map B.lower

/-- `is_domain_allowed` -/
def isDomainAllowed (url : String) : Except Exc Bool := do
  let parsed ← network.urlparse url
  if B.lower parsed.scheme ∉ security.schemes B then return false
  let host := B.lower (parsed.hostname.getD "")
  if host = "" then return false
  if "*" ∈ security.allowedDomains then return true
  return security.allowedDomains.any fun d => host = B.lower d || ("." ++ B.lower d).toList <:+ host.toList

/-- `_is_private_host` -/
def isPrivateHost (host : String) : Except Exc Bool :=
  match network.ipAddress host with
  | some ip => .ok ip.blocked
  | none =>
    match network.getaddrinfo host with
    | .gaierror => .ok true
    | .raised exc => .error exc
    | .addresses candidates => .ok (candidates.any fun candidate => (network.ipAddress candidate).any IpAddress.blocked)

/-- `is_url_safe` -/
def isUrlSafe (url : String) : Except Exc Bool := do
  let parsed ← network.urlparse url
  if B.lower parsed.scheme ∉ security.schemes B then return false
  if ¬ (← isDomainAllowed B network security url) then return false
  match parsed.hostname with
  | none | some "" => return false
  | some host =>
    if ¬ security.blockPrivateNetworks then return true
    return !(← isPrivateHost network host)

end Urls

end ToolSecurityConfig

end Ochestrate
