import VetisTokio.ServiceHttp

/-! service::quic, the service of HTTP/3 requests, written apart from the one of
HTTP/1 and HTTP/2 connections. What a service holds, and what it asks of the http
crate and of a host, is the same. -/
namespace VetisTokio.ServiceQuic
open HttpData ConfigData ServiceHttp

/- Only the URI names the host here. -/
def requestHostname (req : Request) : Option String := req.uri.authority

/- A header that is not one is left out. -/
def addDefaultHeader (crate : HttpCrate) (response : Response) (header : String × String) : Response :=
  match crate.headerName header.1 with
  | .error _ => response
  | .ok name =>
    match crate.headerValue header.2 with
    | .error _ => response
    | .ok value => { response with headers := response.headers.insert name value }

def addDefaultHeaders (crate : HttpCrate) (config : HostConfig) (response : Response) : Response :=
  match config.defaultHeaders with
  | some defaults => defaults.foldl (addDefaultHeader crate) response
  | none => response

variable {H : Type} [RuntimeHost H]

def routedResponse (crate : HttpCrate) (host : H) (req : Request) : Response :=
  match RuntimeHost.route host req with
  | .error _ => textResponse crate StatusCode.internalServerError [] "Internal server error"
  | .ok response => addDefaultHeaders crate (RuntimeHost.config host) response

def HttpService.call (crate : HttpCrate) (service : HttpService H) (req : Request) : Answer H :=
  match requestHostname req with
  | none => ⟨none, .ok (textResponse crate StatusCode.badRequest [] "No hostname found in request")⟩
  | some hostname =>
    match service.hosts.lookup hostname with
    | some host => ⟨some (host, req), .ok (routedResponse crate host req)⟩
    | none => ⟨none, .ok (textResponse crate StatusCode.badRequest [] "Host not found")⟩

end VetisTokio.ServiceQuic
