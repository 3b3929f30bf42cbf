import Feedpulse.Config

/-!
# URLs of feeds

`normalizeFeedUrl` and `buildNormalizedFeedUrlHash`: the normal form by which feeds are
told apart, and its hash. The URL parser of the runtime and the check of host names are
parameters.
-/

namespace Feedpulse

/-- The parts of a URL that the program reads, as the runtime parsed them. -/
structure ParsedUrl where
  /-- scheme with its colon -/
  protocol : String
  /-- user information as it stands before the host -/
  userinfo : String
  /-- host without port -/
  hostname : String
  /-- port, empty if it is the default one -/
  port : String
  /-- path -/
  pathname : String
  /-- query with its question mark -/
  search : String
  /-- fragment with its hash sign -/
  hash : String
  deriving DecidableEq, Repr

/-- The functions on URLs that the runtime provides, and the check of hosts. -/
structure UrlRuntime extends Runtime where
  /-- `new URL(text)`, if it does not throw -/
  parseUrl : String → Option ParsedUrl
  /-- `parsed.protocol = value` -/
  setProtocol : ParsedUrl → String → ParsedUrl
  /-- `parsed.hostname = value` -/
  setHostname : ParsedUrl → String → ParsedUrl
  /-- `parsed.port = value` -/
  setPort : ParsedUrl → String → ParsedUrl
  /-- `parsed.pathname = value` -/
  setPathname : ParsedUrl → String → ParsedUrl
  /-- `parsed.hash = value` -/
  setHash : ParsedUrl → String → ParsedUrl
  /-- `parsed.toString()` -/
  urlToString : ParsedUrl → String
  /-- the host name is neither empty nor blocked -/
  isPublicHostname : String → Bool

namespace FeedUrl

/-- `assertSafePublicUrl` for a parsed URL: whether it does not throw. -/
def isSafePublicUrl (rt : UrlRuntime) (allowPrivateHosts : Bool) (parsed : ParsedUrl) : Bool :=
  if parsed.protocol ≠ "http:" && parsed.protocol ≠ "https:" then false
  else if allowPrivateHosts then true
  else rt.isPublicHostname parsed.hostname

/-- `assertSafePublicUrl` for the text of a URL: whether it does not throw. -/
def isSafePublicUrlText (rt : UrlRuntime) (allowPrivateHosts : Bool) (url : String) : Bool :=
  match rt.parseUrl url with
  | none => false
  | some parsed => isSafePublicUrl rt allowPrivateHosts parsed

/-- `path.replace(/\/{2,}/g, '/')` on characters. The flag records that the run of slashes
being read has been written. -/
def collapseSlashes : Bool → List Char → List Char
  | _, [] => []
  | inRun, c :: cs =>
    if c = '/' then
      if inRun then collapseSlashes true cs else '/' :: collapseSlashes true cs
    else c :: collapseSlashes false cs

/-- `path.replace(/\/+$/g, '')` on characters. -/
def dropTrailingSlashes (cs : List Char) : List Char :=
  (cs.reverse.dropWhile fun c => c = '/').reverse

/-- The path of a normal form: slashes are collapsed, trailing ones dropped. -/
def normalizePathname (pathname : String) : String :=
  let normalizedPath := collapseSlashes false pathname.toList
  String.ofList (if normalizedPath = ['/'] then ['/'] else dropTrailingSlashes normalizedPath)

/-- The port is the default one of the protocol. -/
def isDefaultPort (protocol port : String) : Bool :=
  (protocol = "http:" && port = "80") || (protocol = "https:" && port = "443")

/-- The setters `normalizeFeedUrl` applies, in order. -/
def normalizeParts (rt : UrlRuntime) (parsed : ParsedUrl) : ParsedUrl :=
  let protocol := rt.toLowerCase parsed.protocol
  let parsed := rt.setProtocol parsed protocol
  let parsed := rt.setHostname parsed (rt.toLowerCase parsed.hostname)
  let parsed := if isDefaultPort protocol parsed.port then rt.setPort parsed "" else parsed
  let parsed := rt.setPathname parsed (normalizePathname parsed.pathname)
  rt.setHash parsed ""

/-- `normalizeFeedUrl`. -/
def normalizeFeedUrl (rt : UrlRuntime) (allowPrivateHosts : Bool) (input : String) :
    Except String String :=
  let trimmed := Text.trim input
  if trimmed = "" then .error "feed_url_empty"
  else match rt.parseUrl trimmed with
    | none => .error "feed_url_invalid"
    | some parsed =>
      let protocol := rt.toLowerCase parsed.protocol
      if protocol ≠ "http:" && protocol ≠ "https:" then
        .error "feed_url_protocol_not_supported"
      else if !isSafePublicUrl rt allowPrivateHosts parsed then
        .error "feed_url_host_not_allowed"
      else .ok (rt.urlToString (normalizeParts rt parsed))

/-- `buildNormalizedFeedUrlHash`. -/
def buildNormalizedFeedUrlHash (rt : UrlRuntime) (normalizedUrl : String) : String :=
  rt.sha256Hex normalizedUrl

/-- `buildNormalizedUrlHashOrNull`: the hash of the normal form, if there is one. -/
def buildNormalizedUrlHashOrNull (rt : UrlRuntime) (allowPrivateHosts : Bool) (url : String) :
    Option String :=
  match normalizeFeedUrl rt allowPrivateHosts url with
  | .ok normalizedUrl => some (buildNormalizedFeedUrlHash rt normalizedUrl)
  | .error _ => none

end FeedUrl

end Feedpulse
