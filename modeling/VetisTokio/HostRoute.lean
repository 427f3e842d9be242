import Mathlib.Data.List.Infix
import VetisTokio.HostModel
import VetisTokio.ServiceHttp

/-! host: the route of a request to the handler of one of the host's paths, and
the status pages that answer where no handler does. The calls of handlers are
kept beside the response. Which entry a search by the start of a path ends at is
the router's own business. -/
namespace VetisTokio.HostRoute
open HttpData ConfigData HostModel ServiceHttp

/- An open file is the results of the reads that are made of it. -/
structure HostFiles extends FileSystem where
  openFile : String → Except String (Nat → Except String Bytes)

structure RouteCrates where
  http : HttpCrate
  canonicalReason : Nat → Option String
  streamHeaders : HeaderMap
  longestCommonPrefix : VetisPathRouter → String → Option (String × Path)

/- `io::ReaderStream` under the frames of a body: a read that fills nothing ends it. -/
def readerStream (reads : Nat → Except String Bytes) : HttpBody := fun n =>
  match reads n with
  | .ok [] => none
  | .ok bytes => some (.ok (.data bytes))
  | .error text => some (.error text)

def statusPage (files : HostFiles) (config : HostConfig) (status : UInt16) :
    Option (Nat → Except String Bytes) := do
  let pages ← config.statusPages
  let page ← pages.lookup status
  let dir ← config.rootDirectory
  let file := resolved (some dir) page
  if files.exists? file then (files.openFile file).toOption else none

def serveStatusPage (crates : RouteCrates) (files : HostFiles) (host : Host) (status : UInt16) :
    VetisResult Response :=
  match StatusCode.fromU16 status with
  | none => .error (serverError "Invalid status code")
  | some code =>
    match statusPage files host.config status with
    | some reads => .ok ⟨code, crates.streamHeaders, readerStream reads⟩
    | none => .ok (textResponse crates.http code [] ((crates.canonicalReason code).getD "Unknown status code"))

def containsDots (path : String) : Bool := decide (['.', '.'] <:+: path.toList)

def findPath (crates : RouteCrates) (paths : VetisPathRouter) (uriPath : String) : Option Path :=
  match paths.lookup uriPath with
  | some path => some path
  | none => (crates.longestCommonPrefix paths uriPath).map Prod.snd

def stripPrefix (start text : String) : Option String :=
  if start.toList <+: text.toList then some (String.ofList (text.toList.drop start.toList.length)) else none

def targetPath (path : Path) (uriPath : String) : String := (stripPrefix path.uri uriPath).getD uriPath

def hostContext (host : Host) (logger : Option Logger) (target : String) : HostContext :=
  ⟨target, logger, host.config.rootDirectory⟩

def contentStatus : ContentError → Nat
  | .forbidden => StatusCode.forbidden
  | .notFound _ => StatusCode.notFound
  | .invalidMetadata _ => StatusCode.internalServerError
  | .invalidRange _ => StatusCode.rangeNotSatisfiable
  | .serverError _ => StatusCode.internalServerError

def errorStatus : VetisError → Option Nat
  | .host (.proxy _) => some StatusCode.badGateway
  | .host (.auth _) => some StatusCode.unauthorized
  | .host (.content inner) => some (contentStatus inner)
  | _ => none

structure HandlerCall where
  path : Path
  request : Request
  context : HostContext

def HandlerCall.outcome (call : HandlerCall) : VetisResult Response := call.path.handle call.request call.context

structure Routed where
  calls : List HandlerCall
  response : VetisResult Response

def handled (crates : RouteCrates) (files : HostFiles) (host : Host) (outcome : VetisResult Response) :
    VetisResult Response :=
  match outcome with
  | .ok response => .ok response
  | .error error =>
    match errorStatus error with
    | some status => serveStatusPage crates files host (StatusCode.asU16 status)
    | none => .error error

def route (crates : RouteCrates) (files : HostFiles) (logger : Option Logger) (host : Host) (req : Request) : Routed :=
  if containsDots req.uri.path then
    ⟨[], serveStatusPage crates files host (StatusCode.asU16 StatusCode.forbidden)⟩
  else
    match findPath crates host.paths req.uri.path with
    | none => ⟨[], serveStatusPage crates files host (StatusCode.asU16 StatusCode.notFound)⟩
    | some path =>
      let call : HandlerCall := ⟨path, req, hostContext host logger (targetPath path req.uri.path)⟩
      ⟨[call], handled crates files host call.outcome⟩

def ServedHost (_crates : RouteCrates) (_files : HostFiles) (_logger : Option Logger) : Type := Host

instance (crates : RouteCrates) (files : HostFiles) (logger : Option Logger) :
    RuntimeHost (ServedHost crates files logger) where
  config host := Host.config host
  route host req := (route crates files logger host req).response

section
variable {crates : RouteCrates} {files : HostFiles} {logger : Option Logger} {host : Host} {req : Request}

def HasStatus (result : VetisResult Response) (status : Nat) : Prop :=
  ∃ response, result = .ok response ∧ response.status = status

theorem pageStatus {status : UInt16} {code : Nat} (valid : StatusCode.fromU16 status = some code) :
    HasStatus (serveStatusPage crates files host status) code := by
  unfold serveStatusPage
  rw [valid]
  cases statusPage files host.config status with
  | some reads => exact ⟨_, rfl, rfl⟩
  | none => exact ⟨_, rfl, rfl⟩

theorem contentStatusValid (inner : ContentError) :
    StatusCode.fromU16 (StatusCode.asU16 (contentStatus inner)) = some (contentStatus inner) := by
  cases inner <;> rfl

theorem errorStatusValid {error : VetisError} {status : Nat} (mapped : errorStatus error = some status) :
    StatusCode.fromU16 (StatusCode.asU16 status) = some status := by
  unfold errorStatus at mapped
  split at mapped <;> try contradiction
  · cases Option.some.inj mapped
    rfl
  · cases Option.some.inj mapped
    rfl
  · cases Option.some.inj mapped
    exact contentStatusValid _

theorem handledError {error : VetisError} {status : Nat} (mapped : errorStatus error = some status) :
    HasStatus (handled crates files host (.error error)) status := by
  simp only [handled, mapped]
  exact pageStatus (errorStatusValid mapped)

theorem stripPrefixSome {start text rest : String} :
    stripPrefix start text = some rest ↔ text.toList = start.toList ++ rest.toList := by
  unfold stripPrefix
  split
  · rename_i starts
    obtain ⟨more, whole⟩ := starts
    simp only [Option.some.injEq, ← whole, List.drop_left, List.append_cancel_left_eq]
    exact ⟨fun same => by rw [← same, String.toList_ofList], fun same => by rw [same, String.ofList_toList]⟩
  · rename_i other
    constructor
    · intro missing
      contradiction
    · intro whole
      exact absurd ⟨_, whole.symm⟩ other

theorem targetOfStart {path : Path} {uriPath : String} (starts : path.uri.toList <+: uriPath.toList) :
    uriPath.toList = path.uri.toList ++ (targetPath path uriPath).toList := by
  obtain ⟨more, whole⟩ := starts
  have stripped : stripPrefix path.uri uriPath = some (String.ofList more) :=
    stripPrefixSome.mpr (by rw [String.toList_ofList, whole])
  rw [targetPath, stripped, Option.getD_some, String.toList_ofList, whole]

theorem dotsRefused (dots : containsDots req.uri.path = true) : (route crates files logger host req).calls = [] ∧
    HasStatus (route crates files logger host req).response StatusCode.forbidden := by
  simp only [route, dots, if_true]
  exact ⟨trivial, pageStatus rfl⟩

theorem missingRefused (plain : containsDots req.uri.path = false)
    (missing : findPath crates host.paths req.uri.path = none) : (route crates files logger host req).calls = [] ∧
      HasStatus (route crates files logger host req).response StatusCode.notFound := by
  simp only [route, plain, missing, Bool.false_eq_true, if_false]
  exact ⟨trivial, pageStatus rfl⟩

theorem foundHandled {path : Path} (plain : containsDots req.uri.path = false)
    (found : findPath crates host.paths req.uri.path = some path) : route crates files logger host req =
      let call : HandlerCall := ⟨path, req, hostContext host logger (targetPath path req.uri.path)⟩
      ⟨[call], handled crates files host call.outcome⟩ := by
  simp only [route, plain, found, Bool.false_eq_true, if_false]

end

end VetisTokio.HostRoute
