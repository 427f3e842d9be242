import VetisTokio.ConfigData

/-! service::http, the service of HTTP/1 and HTTP/2 connections. An answer keeps
the call of the host's route apart from the response, so that a request that
reaches a handler can be told from one that was answered before. -/
namespace VetisTokio.ServiceHttp
open HttpData ConfigData

class RuntimeHost (H : Type) where
  config : H → HostConfig
  route : H → Request → VetisResult Response

/- The http crate's checks on header names and values, its reading of a value as
text, and the headers that a text response starts from. -/
structure HttpCrate where
  headerName : String → Except String HeaderName
  headerValue : String → Except String HeaderValue
  toStr : HeaderValue → Option String
  textHeaders : HeaderMap

structure HttpService (H : Type) where
  hosts : VetisHosts H
  clientAddr : SocketAddr
  logger : Option Logger

structure Answer (H : Type) where
  routed : Option (H × Request)
  response : VetisResult Response

def toLowercase (text : String) : String := String.ofList (text.toList.map Char.toLower)

def textResponse (crate : HttpCrate) (status : Nat) (headers : HeaderMap) (text : String) : Response :=
  ⟨status, headers ++ crate.textHeaders, textBody text⟩

/- The authority of the URI, else the Host header where it is readable text. -/
def requestHostname (crate : HttpCrate) (req : Request) : Option String :=
  match req.uri.authority with
  | some authority => some authority
  | none => (req.headers.get HttpData.host).bind crate.toStr

def unsafeScheme (scheme : String) : Bool := toLowercase scheme == "http" || toLowercase scheme == "ws"

def redirected (config : HostConfig) (uri : Uri) : Option String :=
  match uri.scheme with
  | some scheme =>
    if unsafeScheme scheme && config.allowUnsafeConnections then
      if config.tls.isSome && config.enableHsts then some scheme else none
    else none
  | none => none

def redirectTarget (scheme hostname : String) (uri : Uri) : String :=
  match uri.query with
  | some query => scheme ++ "://" ++ hostname ++ uri.path ++ query
  | none => scheme ++ "://" ++ hostname ++ uri.path

def serverError (text : String) : VetisError := .host (.content (.serverError text))

def redirect (crate : HttpCrate) (target : String) : VetisResult Response :=
  match crate.headerValue target with
  | .ok value => .ok (textResponse crate StatusCode.permanentRedirect [(location, value)]
      "Unprotected connection denied.")
  | .error text => .error (serverError text)

def addDefaultHeader (crate : HttpCrate) (response : Response) (header : String × String) :
    VetisResult Response :=
  match crate.headerName header.1 with
  | .error text => .error (serverError text)
  | .ok name =>
    match crate.headerValue header.2 with
    | .error text => .error (serverError text)
    | .ok value => .ok { response with headers := response.headers.insert name value }

def addDefaultHeaders (crate : HttpCrate) (config : HostConfig) (response : Response) : VetisResult Response :=
  match config.defaultHeaders with
  | some defaults => defaults.foldlM (addDefaultHeader crate) response
  | none => .ok response

variable {H : Type} [RuntimeHost H]

def routedAnswer (crate : HttpCrate) (host : H) (req : Request) : Answer H :=
  ⟨some (host, req), do
    let response ← RuntimeHost.route host req
    addDefaultHeaders crate (RuntimeHost.config host) response⟩

def HttpService.call (crate : HttpCrate) (service : HttpService H) (req : Request) : Answer H :=
  match requestHostname crate req with
  | none => ⟨none, .ok (textResponse crate StatusCode.badRequest [] "No hostname found in request")⟩
  | some hostname =>
    match service.hosts.lookup hostname with
    | none => ⟨none, .ok (textResponse crate StatusCode.badGateway [] "Host not found")⟩
    | some host =>
      match redirected (RuntimeHost.config host) req.uri with
      | some scheme => ⟨none, redirect crate (redirectTarget scheme hostname req.uri)⟩
      | none => routedAnswer crate host req

theorem redirectedSource {config : HostConfig} {uri : Uri} {scheme : String}
    (h : redirected config uri = some scheme) :
    uri.scheme = some scheme ∧ unsafeScheme scheme = true ∧ config.allowUnsafeConnections = true ∧
      config.tls.isSome = true ∧ config.enableHsts = true := by
  unfold redirected at h
  split at h <;> try contradiction
  rename_i found
  split at h <;> try contradiction
  rename_i allowed
  split at h <;> try contradiction
  rename_i secured
  cases Option.some.inj h
  rw [Bool.and_eq_true] at allowed secured
  exact ⟨found, allowed.1, allowed.2, secured.1, secured.2⟩

theorem callFound {crate : HttpCrate} {service : HttpService H} {req : Request} {hostname : String} {host : H}
    (named : requestHostname crate req = some hostname) (found : service.hosts.lookup hostname = some host)
    (kept : redirected (RuntimeHost.config host) req.uri = none) :
    service.call crate req = routedAnswer crate host req := by
  simp only [HttpService.call, named, found, kept]

theorem callRouted {crate : HttpCrate} {service : HttpService H} {req passed : Request} {host : H}
    (h : (service.call crate req).routed = some (host, passed)) :
    passed = req ∧ ∃ hostname, requestHostname crate req = some hostname ∧
      service.hosts.lookup hostname = some host := by
  unfold HttpService.call at h
  split at h <;> try contradiction
  rename_i hostname named
  split at h <;> try contradiction
  rename_i found
  split at h <;> try contradiction
  simp only [routedAnswer, Option.some.injEq, Prod.mk.injEq] at h
  exact ⟨h.2.symm, hostname, named, h.1 ▸ found⟩

end VetisTokio.ServiceHttp
