import VetisTokio.Library.Prefixes
import VetisTokio.HostRoute

/-! Which handler a request reaches, for any way of putting a host's paths
together. The router is seen through the list of the paths that were put into it,
in their order; of the prefix search only its documented result is used. -/
namespace VetisTokio.HostRouting
open HttpData ConfigData HostModel HostRoute Prefixes

def Keys (router : VetisPathRouter) (key : List Char) : Prop := ∃ uri ∈ router, uri.toList = key

/- `get_longest_common_prefix`: the longest key that the text starts with. -/
structure FindsLongest (find : VetisPathRouter → String → Option (String × Path)) : Prop where
  found : ∀ router text uri path, find router text = some (uri, path) →
    router.lookup uri = some path ∧ Longest (Keys router) text.toList uri.toList
  missing : ∀ router text, find router text = none → ∀ uri ∈ router, ¬ uri.toList <+: text.toList

/- A host after any of the operations on it, with all the paths it was ever given. -/
inductive Registered (crate : VetisCrate) (fs : FileSystem) : Host → List Path → Prop where
  | new {config host} : Host.new crate fs config = .ok host → Registered crate fs host config.paths
  | addPath {host paths} (path : Path) : Registered crate fs host paths →
      Registered crate fs (host.addPath path) (paths ++ [path])
  | addTls {host paths} (tls : Tls) : Registered crate fs host paths → Registered crate fs (host.addTls tls) paths
  | configMut {host paths} (config : HostConfig) : Registered crate fs host paths →
      Registered crate fs { host with config := config } paths

def Uris (paths : List Path) (key : List Char) : Prop := ∃ path ∈ paths, path.uri.toList = key

def lastUnder (paths : List Path) (uri : String) : Option Path := paths.reverse.find? (fun path => path.uri == uri)

section
variable {crate : VetisCrate} {fs : FileSystem} {host : Host} {paths : List Path}

theorem lastUnderMore (paths : List Path) (path : Path) (uri : String) :
    lastUnder (paths ++ [path]) uri = if path.uri = uri then some path else lastUnder paths uri := by
  unfold lastUnder
  rw [List.reverse_append, List.reverse_singleton, List.singleton_append]
  by_cases same : path.uri = uri
  · rw [if_pos same, List.find?_cons_of_pos (by simpa using same)]
  · rw [if_neg same, List.find?_cons_of_neg (by simpa using same)]

theorem addPathLookup (router : VetisPathRouter) (path : Path) (uri : String) :
    (HostModel.addPath router path).lookup uri = if path.uri = uri then some path else router.lookup uri := by
  unfold HostModel.addPath
  by_cases same : path.uri = uri
  · rw [if_pos same, ← same, AList.lookup_insert]
  · rw [if_neg same, AList.lookup_insert_ne (Ne.symm same)]

theorem foldedLookup (paths : List Path) (uri : String) :
    (paths.foldl HostModel.addPath ∅).lookup uri = lastUnder paths uri := by
  induction paths using List.reverseRecOn with
  | nil => simp [lastUnder]
  | append_singleton before path ih =>
    rw [List.foldl_append, List.foldl_cons, List.foldl_nil, addPathLookup, lastUnderMore, ih]

theorem registeredLookup (registered : Registered crate fs host paths) (uri : String) :
    host.paths.lookup uri = lastUnder paths uri := by
  induction registered with
  | new made =>
    obtain ⟨tls, rfl⟩ := newSource made
    exact foldedLookup _ uri
  | addPath path _ ih => rw [lastUnderMore, ← ih, Host.addPath, addPathLookup]
  | addTls tls _ ih => exact ih
  | configMut config _ ih => exact ih

theorem lastUnderSource {uri : String} {path : Path} (last : lastUnder paths uri = some path) :
    path ∈ paths ∧ path.uri = uri :=
  ⟨List.mem_reverse.mp (List.mem_of_find?_eq_some last), by simpa using List.find?_some last⟩

theorem lastUnderNone {uri : String} : lastUnder paths uri = none ↔ ∀ path ∈ paths, path.uri ≠ uri := by
  simp [lastUnder, List.find?_eq_none]

theorem registeredKeys (registered : Registered crate fs host paths) {uri : String} :
    uri ∈ host.paths ↔ ∃ path ∈ paths, path.uri = uri := by
  rw [← AList.lookup_isSome, registeredLookup registered, ← Option.ne_none_iff_isSome, ne_eq, lastUnderNone]
  push Not
  rfl

end

section
variable {crates : RouteCrates} {router : VetisPathRouter} {text : String}

theorem findPathLongest (finds : FindsLongest crates.longestCommonPrefix) {path : Path}
    (found : findPath crates router text = some path) :
    ∃ uri, router.lookup uri = some path ∧ Longest (Keys router) text.toList uri.toList := by
  unfold findPath at found
  split at found
  · rename_i same
    cases Option.some.inj found
    have known : text ∈ router := AList.lookup_isSome.mp (by rw [same]; rfl)
    exact ⟨text, same, longestWhole ⟨text, known, rfl⟩⟩
  · obtain ⟨⟨uri, last⟩, searched, same⟩ := Option.map_eq_some_iff.mp found
    cases same
    exact ⟨uri, finds.found router text uri last searched⟩

theorem findPathNone (finds : FindsLongest crates.longestCommonPrefix)
    (missing : findPath crates router text = none) : ∀ uri ∈ router, ¬ uri.toList <+: text.toList := by
  unfold findPath at missing
  split at missing <;> try contradiction
  exact finds.missing router text (Option.map_eq_none_iff.mp missing)

end

/- The URI equals the path, or ends where a segment of the path ends. -/
def Above (uri path : String) : Prop :=
  ∃ rest, path.toList = uri.toList ++ rest ∧ (rest = [] ∨ rest.head? = some '/' ∨ uri.toList.getLast? = some '/')

inductive Answered : VetisResult Response → VetisResult Response → Prop where
  | unchanged (response) : Answered (.ok response) (.ok response)
  | proxy {text response} : response.status = 502 → Answered (.error (.host (.proxy text))) (.ok response)
  | auth {text response} : response.status = 401 → Answered (.error (.host (.auth text))) (.ok response)
  | forbidden {response} : response.status = 403 → Answered (.error (.host (.content .forbidden))) (.ok response)
  | notFound {text response} : response.status = 404 →
      Answered (.error (.host (.content (.notFound text)))) (.ok response)
  | invalidMetadata {text response} : response.status = 500 →
      Answered (.error (.host (.content (.invalidMetadata text)))) (.ok response)
  | invalidRange {text response} : response.status = 416 →
      Answered (.error (.host (.content (.invalidRange text)))) (.ok response)
  | serverError {text response} : response.status = 500 →
      Answered (.error (.host (.content (.serverError text)))) (.ok response)
  | passed {error} : (∀ text, error ≠ .host (.proxy text)) → (∀ text, error ≠ .host (.auth text)) →
      (∀ inner, error ≠ .host (.content inner)) → Answered (.error error) (.error error)

structure Chosen (paths : List Path) (host : Host) (logger : Option Logger) (req : Request) (call : HandlerCall) :
    Prop where
  request : call.request = req
  context : call.context.logger = logger ∧ call.context.rootDirectory = host.config.rootDirectory
  last : lastUnder paths call.path.uri = some call.path
  starts : req.uri.path.toList = call.path.uri.toList ++ call.context.uri.toList
  longest : ∀ path ∈ paths, Above path.uri req.uri.path → path.uri.toList.length ≤ call.path.uri.toList.length

structure RoutedBy (paths : List Path) (host : Host) (logger : Option Logger) (req : Request) (routed : Routed) :
    Prop where
  once : routed.calls.length ≤ 1
  nobody : (∀ path ∈ paths, ¬ path.uri.toList <+: req.uri.path.toList) →
    routed.calls = [] ∧ HasStatus routed.response 404
  somebody : ∀ path ∈ paths, Above path.uri req.uri.path → routed.calls.length = 1
  chosen : ∀ call ∈ routed.calls, Chosen paths host logger req call
  answered : ∀ call ∈ routed.calls, Answered call.outcome routed.response

section
variable {crate : VetisCrate} {fs : FileSystem} {crates : RouteCrates} {files : HostFiles} {host : Host}
  {paths : List Path} {logger : Option Logger} {req : Request}

theorem aboveStarts {uri path : String} (above : Above uri path) : uri.toList <+: path.toList := by
  obtain ⟨rest, whole, _⟩ := above
  exact ⟨rest, whole.symm⟩

theorem handledAnswered (outcome : VetisResult Response) : Answered outcome (handled crates files host outcome) := by
  cases outcome with
  | ok response => exact .unchanged response
  | error error =>
    cases mapped : errorStatus error with
    | some status =>
      obtain ⟨response, same, has⟩ := @handledError crates files host error status mapped
      rw [same]
      unfold errorStatus at mapped
      split at mapped <;> try contradiction
      · exact .proxy (has.trans (Option.some.inj mapped).symm)
      · exact .auth (has.trans (Option.some.inj mapped).symm)
      · rename_i inner
        have code := has.trans (Option.some.inj mapped).symm
        cases inner with
        | forbidden => exact .forbidden code
        | notFound text => exact .notFound code
        | invalidMetadata text => exact .invalidMetadata code
        | invalidRange text => exact .invalidRange code
        | serverError text => exact .serverError code
    | none =>
      simp only [handled, mapped]
      refine .passed ?_ ?_ ?_
      · rintro text rfl
        contradiction
      · rintro text rfl
        contradiction
      · rintro inner rfl
        contradiction

theorem foundSource (finds : FindsLongest crates.longestCommonPrefix) (registered : Registered crate fs host paths)
    {text : String} {path : Path} (found : findPath crates host.paths text = some path) :
    lastUnder paths path.uri = some path ∧ Longest (Uris paths) text.toList path.uri.toList := by
  obtain ⟨uri, last, longest⟩ := findPathLongest finds found
  rw [registeredLookup registered] at last
  obtain ⟨member, same⟩ := lastUnderSource last
  subst same
  refine ⟨last, ⟨path, member, rfl⟩, longest.starts, ?_⟩
  rintro _ ⟨other, inside, rfl⟩ starts
  exact longest.longest _ ⟨other.uri, (registeredKeys registered).mpr ⟨other, inside, rfl⟩, rfl⟩ starts

theorem foundChosen (finds : FindsLongest crates.longestCommonPrefix) (registered : Registered crate fs host paths)
    {path : Path} (found : findPath crates host.paths req.uri.path = some path) : Chosen paths host logger req
      ⟨path, req, hostContext host logger (targetPath path req.uri.path)⟩ := by
  obtain ⟨last, longest⟩ := foundSource finds registered found
  refine ⟨rfl, ⟨rfl, rfl⟩, last, targetOfStart longest.starts, ?_⟩
  intro other member above
  exact longest.longest _ ⟨other, member, rfl⟩ (aboveStarts above)

theorem missingSource (finds : FindsLongest crates.longestCommonPrefix) (registered : Registered crate fs host paths)
    {text : String} (missing : findPath crates host.paths text = none) :
    ∀ path ∈ paths, ¬ path.uri.toList <+: text.toList := by
  intro path member
  exact findPathNone finds missing path.uri ((registeredKeys registered).mpr ⟨path, member, rfl⟩)

theorem routedByPaths (finds : FindsLongest crates.longestCommonPrefix) (registered : Registered crate fs host paths)
    (plain : ¬ ['.', '.'] <:+: req.uri.path.toList) :
    RoutedBy paths host logger req (route crates files logger host req) := by
  have allowed : containsDots req.uri.path = false := decide_eq_false plain
  cases found : findPath crates host.paths req.uri.path with
  | none =>
    have nowhere := missingSource finds registered found
    obtain ⟨quiet, status⟩ := @missingRefused crates files logger host req allowed found
    refine ⟨by simp [quiet], fun _ => ⟨quiet, status⟩, ?_, by simp [quiet], by simp [quiet]⟩
    intro path member above
    exact absurd (aboveStarts above) (nowhere path member)
  | some path =>
    have chosen : Chosen paths host logger req _ := foundChosen finds registered found
    rw [foundHandled allowed found]
    refine ⟨Nat.le_refl 1, ?_, fun _ _ _ => rfl, ?_, ?_⟩
    · intro nowhere
      have starts : path.uri.toList <+: req.uri.path.toList := ⟨_, chosen.starts.symm⟩
      exact absurd starts (nowhere path (lastUnderSource chosen.last).1)
    · intro call member
      cases List.mem_singleton.mp member
      exact chosen
    · intro call member
      cases List.mem_singleton.mp member
      exact handledAnswered _

end

def searchLongest (router : VetisPathRouter) (text : String) : Option (String × Path) := do
  let key ← longestOf (router.keys.map String.toList) text.toList
  let path ← router.lookup (String.ofList key)
  some (String.ofList key, path)

theorem searchLongestFinds : FindsLongest searchLongest := by
  constructor
  · intro router text uri path found
    simp only [searchLongest, bind, Option.bind_eq_some_iff, Option.some.injEq, Prod.mk.injEq] at found
    obtain ⟨key, searched, last, known, rfl, rfl⟩ := found
    rw [String.toList_ofList]
    have longest := longestOfSource searched
    obtain ⟨uri, member, same⟩ := List.mem_map.mp longest.among
    refine ⟨known, ⟨uri, AList.mem_keys.mpr member, same⟩, longest.starts, ?_⟩
    rintro other ⟨text, inside, rfl⟩ starts
    exact longest.longest _ (List.mem_map_of_mem (AList.mem_keys.mp inside)) starts
  · intro router text missing uri member
    cases searched : longestOf (router.keys.map String.toList) text.toList with
    | none => exact longestOfNone searched _ (List.mem_map_of_mem (AList.mem_keys.mp member))
    | some key =>
      obtain ⟨uri, inside, rfl⟩ := List.mem_map.mp (longestOfSource searched).among
      have again : String.ofList uri.toList ∈ router := by
        rw [String.ofList_toList]
        exact AList.mem_keys.mpr inside
      obtain ⟨path, known⟩ := Option.isSome_iff_exists.mp (AList.lookup_isSome.mpr again)
      simp [searchLongest, searched, known] at missing

def sampleVetis : VetisCrate := ⟨fun _ => none, fun cert key => ⟨cert, key, none, []⟩, fun _ => true⟩

def sampleRoutes : RouteCrates where
  http := ⟨fun text => .ok ⟨text⟩, fun text => .ok ⟨text.toUTF8.toList⟩, fun _ => none, []⟩
  canonicalReason _ := none
  streamHeaders := []
  longestCommonPrefix := searchLongest

def noFiles : HostFiles := ⟨⟨fun _ => false, fun _ => .error "not found"⟩, fun _ => .error "not found"⟩

def echoPath (uri : String) : Path := ⟨uri, fun _ context => .ok ⟨200, [], textBody context.uri⟩⟩

def echoConfig (uris : List String) : HostConfig :=
  { hostname := "localhost", bindAddresses := [(.v4 0, 8080)], protos := [.http11], paths := uris.map echoPath }

def echoHost (uris : List String) : Host := ⟨echoConfig uris, (echoConfig uris).paths.foldl HostModel.addPath ∅, none⟩

def getPath (path : String) : Request := ⟨"GET", ⟨none, none, path, none⟩, .http11, [], fun _ => none⟩

theorem echoRegistered (uris : List String) :
    Registered sampleVetis noFiles.toFileSystem (echoHost uris) (echoConfig uris).paths := .new rfl

theorem childRouted : RoutedBy (echoConfig ["/", "/hello"]).paths (echoHost ["/", "/hello"]) none (getPath "/hello/child")
    (route sampleRoutes noFiles none (echoHost ["/", "/hello"]) (getPath "/hello/child")) :=
  routedByPaths searchLongestFinds (echoRegistered ["/", "/hello"]) (by decide)

end VetisTokio.HostRouting
