import VetisTokio.HostRouting

/-! host::path, the paths that are made of handler functions, and what a path does to a
host that it is added to: it takes over the requests that its URI is now the longest for
and leaves all the others as they were. -/
namespace VetisTokio.HostPaths
open HttpData ConfigData HostModel ServiceHttp HostRoute HostRouting Prefixes

abbrev HandlerFn := Request → HostContext → VetisResult Response

structure HandlerPathBuilder where
  uri : String
  handler : Option HandlerFn

def HandlerPath.builder : HandlerPathBuilder := ⟨"/", none⟩

def HandlerPathBuilder.setUri (b : HandlerPathBuilder) (uri : String) : HandlerPathBuilder := { b with uri := uri }

def HandlerPathBuilder.setHandler (b : HandlerPathBuilder) (handler : HandlerFn) : HandlerPathBuilder :=
  { b with handler := some handler }

def HandlerPathBuilder.build (b : HandlerPathBuilder) : VetisResult Path :=
  if b.uri.isEmpty then .error (.host (.handler (.uri "URI cannot be empty")))
  else
    match b.handler with
    | some handler => .ok ⟨b.uri, handler⟩
    | none => .error (.host (.handler (.handler "Handler must be set")))

inductive Setting where
  | uri (text : String)
  | handler (handler : HandlerFn)

def HandlerPathBuilder.set (b : HandlerPathBuilder) : Setting → HandlerPathBuilder
  | .uri text => b.setUri text
  | .handler handler => b.setHandler handler

def uriOf : Setting → Option String
  | .uri text => some text
  | _ => none

def handlerOf : Setting → Option HandlerFn
  | .handler handler => some handler
  | _ => none

def lastSet {A : Type} (f : Setting → Option A) (settings : List Setting) : Option A := (settings.filterMap f).getLast?

theorem lastSetMore {A : Type} (f : Setting → Option A) (settings : List Setting) (setting : Setting) :
    lastSet f (settings ++ [setting]) = (f setting).or (lastSet f settings) := by
  simp only [lastSet, List.filterMap_append, List.getLast?_append]
  cases seen : f setting <;> simp [seen]

theorem settingsFold (settings : List Setting) : settings.foldl HandlerPathBuilder.set HandlerPath.builder =
    ⟨(lastSet uriOf settings).getD "/", lastSet handlerOf settings⟩ := by
  induction settings using List.reverseRecOn with
  | nil => rfl
  | append_singleton before setting ih =>
    rw [List.foldl_append, List.foldl_cons, List.foldl_nil, ih, lastSetMore, lastSetMore]
    cases setting <;> rfl

inductive BuiltPath (settings : List Setting) : VetisResult Path → Prop where
  | path {uri handler} (given : (lastSet uriOf settings).getD "/" = uri) (full : uri ≠ "")
      (set : lastSet handlerOf settings = some handler) : BuiltPath settings (.ok ⟨uri, handler⟩)
  | noUri (given : lastSet uriOf settings = some "") :
      BuiltPath settings (.error (.host (.handler (.uri "URI cannot be empty"))))
  | noHandler (full : (lastSet uriOf settings).getD "/" ≠ "") (unset : lastSet handlerOf settings = none) :
      BuiltPath settings (.error (.host (.handler (.handler "Handler must be set"))))

theorem buildSource (settings : List Setting) :
    BuiltPath settings (settings.foldl HandlerPathBuilder.set HandlerPath.builder).build := by
  rw [settingsFold]
  unfold HandlerPathBuilder.build
  dsimp only
  split
  · rename_i blank
    have empty := String.isEmpty_iff.mp blank
    refine .noUri ?_
    cases given : lastSet uriOf settings with
    | none =>
      rw [given] at empty
      exact absurd empty (by decide)
    | some uri =>
      rw [given] at empty
      exact congrArg some empty
  · rename_i blank
    have full : (lastSet uriOf settings).getD "/" ≠ "" := fun empty => blank (String.isEmpty_iff.mpr empty)
    split
    · rename_i handler set
      exact .path rfl full set
    · rename_i unset
      exact .noHandler full unset

section
variable {crates : RouteCrates} {files : HostFiles} {logger : Option Logger} {host : Host} {path : Path} {req : Request}
  {router other : VetisPathRouter} {text : String}

theorem findPathIff (finds : FindsLongest crates.longestCommonPrefix) : findPath crates router text = some path ↔
    ∃ uri, router.lookup uri = some path ∧ Longest (Keys router) text.toList uri.toList := by
  refine ⟨findPathLongest finds, ?_⟩
  rintro ⟨uri, known, longest⟩
  cases found : findPath crates router text with
  | none =>
    have member : uri ∈ router := AList.lookup_isSome.mp (by rw [known]; rfl)
    exact absurd longest.starts (findPathNone finds found uri member)
  | some last =>
    obtain ⟨again, same, also⟩ := findPathLongest finds found
    cases String.toList_inj.mp (longestUnique longest also)
    exact same.symm.trans known

theorem findPathAlike (finds : FindsLongest crates.longestCommonPrefix) (alike : ∀ uri, router.lookup uri = other.lookup uri) :
    findPath crates router text = findPath crates other text := by
  have keys : Keys router = Keys other := by
    funext key
    simp only [Keys, ← AList.lookup_isSome, alike]
  refine Option.ext fun path => ?_
  rw [findPathIff finds, findPathIff finds, keys]
  simp only [alike]

theorem pagesAlike {one : Host} (config : one.config = host.config) (status : UInt16) :
    serveStatusPage crates files one status = serveStatusPage crates files host status := by
  unfold serveStatusPage
  rw [config]

theorem handledAlike {one : Host} (config : one.config = host.config) (outcome : VetisResult Response) :
    handled crates files one outcome = handled crates files host outcome := by
  unfold handled
  simp only [pagesAlike config]

theorem routeAlike {one : Host} (config : one.config = host.config)
    (found : findPath crates one.paths req.uri.path = findPath crates host.paths req.uri.path) :
    route crates files logger one req = route crates files logger host req := by
  unfold route hostContext
  rw [found, config]
  simp only [pagesAlike config, handledAlike config]

theorem lastUnderFilter (paths : List Path) (uri : String) :
    lastUnder paths uri = (paths.filter fun path => path.uri == uri).getLast? := by
  rw [lastUnder, ← List.head?_filter, List.filter_reverse, List.head?_reverse]

theorem onlyOrderUnderUri {crate : VetisCrate} {fs : FileSystem} {one : Host} {paths others : List Path}
    (finds : FindsLongest crates.longestCommonPrefix) (registered : Registered crate fs host paths)
    (also : Registered crate fs one others) (config : one.config = host.config)
    (alike : ∀ uri, (others.filter fun path => path.uri == uri) = paths.filter fun path => path.uri == uri)
    (files : HostFiles) (logger : Option Logger) (req : Request) :
    route crates files logger one req = route crates files logger host req := by
  refine routeAlike config (findPathAlike finds ?_)
  intro uri
  rw [registeredLookup also, registeredLookup registered, lastUnderFilter, lastUnderFilter, alike]

def helloFirst : Host := ((echoHost []).addPath (echoPath "/hello")).addPath (echoPath "/")

def rootFirst : Host := ((echoHost []).addPath (echoPath "/")).addPath (echoPath "/hello")

theorem bothOrders (uri : String) : ([echoPath "/hello", echoPath "/"].filter fun path => path.uri == uri) =
    [echoPath "/", echoPath "/hello"].filter fun path => path.uri == uri := by
  by_cases root : "/" = uri
  · subst root
    rfl
  · have other : ((echoPath "/").uri == uri) = false := by simpa [echoPath] using root
    simp only [List.filter_cons, List.filter_nil, other, Bool.false_eq_true, if_false]

theorem helloRegistered : Registered sampleVetis noFiles.toFileSystem helloFirst [echoPath "/hello", echoPath "/"] :=
  .addPath _ (.addPath _ (echoRegistered []))

theorem rootRegistered : Registered sampleVetis noFiles.toFileSystem rootFirst [echoPath "/", echoPath "/hello"] :=
  .addPath _ (.addPath _ (echoRegistered []))

theorem helloAlike : route sampleRoutes noFiles none helloFirst (getPath "/hello/child") =
    route sampleRoutes noFiles none rootFirst (getPath "/hello/child") :=
  onlyOrderUnderUri searchLongestFinds rootRegistered helloRegistered rfl bothOrders noFiles none (getPath "/hello/child")

def Wins (host : Host) (path : Path) (text : String) : Prop :=
  path.uri.toList <+: text.toList ∧
    ∀ uri ∈ host.paths, uri.toList <+: text.toList → uri.toList.length ≤ path.uri.toList.length

theorem keysMore : Keys (host.addPath path).paths = fun key => key = path.uri.toList ∨ Keys host.paths key := by
  funext key
  simp only [Keys, Host.addPath, HostModel.addPath, AList.mem_insert, or_and_right, exists_or, exists_eq_left, eq_iff_iff]
  rw [eq_comm]

theorem longestAdded :
    Longest (Keys (host.addPath path).paths) text.toList path.uri.toList ↔ Wins host path text := by
  rw [keysMore]
  constructor
  · rintro ⟨_, starts, longest⟩
    exact ⟨starts, fun uri member also => longest _ (.inr ⟨uri, member, rfl⟩) also⟩
  · rintro ⟨starts, longest⟩
    refine ⟨.inl rfl, starts, ?_⟩
    rintro _ (rfl | ⟨uri, member, rfl⟩) also
    · exact Nat.le_refl _
    · exact longest uri member also

theorem longestKept (loses : ¬ Wins host path text) {uri : String} (other : uri ≠ path.uri) :
    Longest (Keys (host.addPath path).paths) text.toList uri.toList ↔ Longest (Keys host.paths) text.toList uri.toList := by
  rw [keysMore]
  constructor
  · rintro ⟨among, starts, longest⟩
    refine ⟨among.resolve_left fun same => other (String.toList_inj.mp same), starts, ?_⟩
    exact fun key inside => longest key (.inr inside)
  · rintro ⟨among, starts, longest⟩
    refine ⟨.inr among, starts, ?_⟩
    rintro key (rfl | inside) also
    · by_contra longer
      refine loses ⟨also, fun uri member before => ?_⟩
      exact Nat.le_trans (longest _ ⟨uri, member, rfl⟩ before) (Nat.le_of_not_le longer)
    · exact longest key inside also

theorem winnerFound (finds : FindsLongest crates.longestCommonPrefix) (wins : Wins host path text) :
    findPath crates (host.addPath path).paths text = some path :=
  (findPathIff finds).mpr ⟨path.uri, AList.lookup_insert _, longestAdded.mpr wins⟩

theorem loserUnfound (finds : FindsLongest crates.longestCommonPrefix) (loses : ¬ Wins host path text) :
    findPath crates (host.addPath path).paths text = findPath crates host.paths text := by
  refine Option.ext fun found => ?_
  rw [findPathIff finds, findPathIff finds]
  have kept : ∀ uri, uri ≠ path.uri → (host.addPath path).paths.lookup uri = host.paths.lookup uri :=
    fun uri other => AList.lookup_insert_ne other
  constructor
  · rintro ⟨uri, known, longest⟩
    have other : uri ≠ path.uri := by
      rintro rfl
      exact loses (longestAdded.mp longest)
    exact ⟨uri, (kept uri other).symm.trans known, (longestKept loses other).mp longest⟩
  · rintro ⟨uri, known, longest⟩
    have other : uri ≠ path.uri := by
      rintro rfl
      exact loses ⟨longest.starts, fun uri member also => longest.longest _ ⟨uri, member, rfl⟩ also⟩
    exact ⟨uri, (kept uri other).trans known, (longestKept loses other).mpr longest⟩

structure TakesOver (crates : RouteCrates) (files : HostFiles) (logger : Option Logger) (host : Host) (path : Path)
    (req : Request) : Prop where
  won : containsDots req.uri.path = false → Wins host path req.uri.path →
    route crates files logger (host.addPath path) req =
      let call : HandlerCall := ⟨path, req, hostContext host logger (targetPath path req.uri.path)⟩
      ⟨[call], handled crates files host call.outcome⟩
  unchanged : containsDots req.uri.path = true ∨ ¬ Wins host path req.uri.path →
    route crates files logger (host.addPath path) req = route crates files logger host req

theorem addedPathRoutes (finds : FindsLongest crates.longestCommonPrefix) (files : HostFiles) (logger : Option Logger)
    (host : Host) (path : Path) (req : Request) : TakesOver crates files logger host path req := by
  refine ⟨?_, ?_⟩
  · intro plain wins
    rw [foundHandled plain (winnerFound finds wins)]
    rfl
  · rintro (dots | loses)
    · simp only [route, dots, if_true]
      rfl
    · exact routeAlike rfl (loserUnfound finds loses)

theorem childAdded : TakesOver sampleRoutes noFiles none (echoHost ["/"]) (echoPath "/hello") (getPath "/hello/child") :=
  addedPathRoutes searchLongestFinds noFiles none (echoHost ["/"]) (echoPath "/hello") (getPath "/hello/child")

end

section
variable {crates : RouteCrates} {files : HostFiles} {logger : Option Logger} {path : Path} {req : Request}

theorem addedLater (later : List Path) (host : Host) {uri : String} (others : ∀ path ∈ later, path.uri ≠ uri) :
    (later.foldl Host.addPath host).paths.lookup uri = host.paths.lookup uri := by
  induction later generalizing host with
  | nil => rfl
  | cons path later ih =>
    rw [List.forall_mem_cons] at others
    rw [List.foldl_cons, ih _ others.2, Host.addPath, addPathLookup, if_neg others.1]

theorem addedConfig (later : List Path) (host : Host) : (later.foldl Host.addPath host).config = host.config := by
  induction later generalizing host with
  | nil => rfl
  | cons path later ih => exact ih _

theorem wholeTarget (whole : req.uri.path = path.uri) : targetPath path req.uri.path = "" := by
  have stripped : stripPrefix path.uri req.uri.path = some "" :=
    stripPrefixSome.mpr (by rw [whole, String.toList_empty, List.append_nil])
  rw [targetPath, stripped, Option.getD_some]

structure CalledLast (crates : RouteCrates) (files : HostFiles) (logger : Option Logger) (host : Host)
    (settings : List Setting) (path : Path) (req : Request) (routed : Routed) : Prop where
  handler : lastSet handlerOf settings = some path.handle
  uri : (lastSet uriOf settings).getD "/" = path.uri
  calls : routed.calls = [⟨path, req, ⟨"", logger, host.config.rootDirectory⟩⟩]
  response : routed.response = handled crates files host (path.handle req ⟨"", logger, host.config.rootDirectory⟩)

theorem builtPathCalled (settings : List Setting) (later : List Path) (host : Host)
    (built : (settings.foldl HandlerPathBuilder.set HandlerPath.builder).build = .ok path)
    (others : ∀ other ∈ later, other.uri ≠ path.uri) (whole : req.uri.path = path.uri)
    (plain : containsDots req.uri.path = false) :
    CalledLast crates files logger host settings path req
      (route crates files logger (later.foldl Host.addPath (host.addPath path)) req) := by
  have found : findPath crates (later.foldl Host.addPath (host.addPath path)).paths req.uri.path = some path := by
    have under : (later.foldl Host.addPath (host.addPath path)).paths.lookup req.uri.path = some path := by
      rw [whole, addedLater later _ others, Host.addPath, addPathLookup, if_pos rfl]
    rw [findPath, under]
  have config : (later.foldl Host.addPath (host.addPath path)).config = host.config := addedConfig later _
  have made := buildSource settings
  rw [built] at made
  obtain ⟨given, _, set⟩ := made
  rw [foundHandled plain found, wholeTarget whole, hostContext, config]
  exact ⟨set, given, rfl, handledAlike config _⟩

def greet : Setting := .handler fun _ _ => .ok ⟨200, [], textBody "Hello"⟩

theorem greetCalled : CalledLast sampleRoutes noFiles none (echoHost ["/hello"])
    [.uri "/a", greet, .handler (echoPath "").handle, .uri "/hello"] (echoPath "/hello") (getPath "/hello")
    (route sampleRoutes noFiles none
      ([echoPath "/", echoPath "/hello/child"].foldl Host.addPath ((echoHost ["/hello"]).addPath (echoPath "/hello")))
      (getPath "/hello")) :=
  builtPathCalled _ [echoPath "/", echoPath "/hello/child"] (echoHost ["/hello"]) rfl (by decide) rfl (by decide)

end

end VetisTokio.HostPaths
