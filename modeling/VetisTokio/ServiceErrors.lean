import VetisTokio.HostRouting
import VetisTokio.ServicesAlike

/-! The errors that `call` of service::http resolves to. Each of them comes from a
step behind the lookup of the host: the location of the redirect, the route, or a
default header. -/
namespace VetisTokio.ServiceErrors
open HttpData ConfigData HostModel ServiceHttp ServicesAlike HostRoute HostRouting

def Resolves (result : VetisResult Response) : Prop := ∃ response, result = .ok response

section
variable {H : Type} [RuntimeHost H]

structure Answerable (crate : HttpCrate) (host : H) (hostname : String) (req : Request) : Prop where
  redirect : ∀ scheme, redirected (RuntimeHost.config host) req.uri = some scheme →
    ∃ value, crate.headerValue (redirectTarget scheme hostname req.uri) = .ok value
  route : redirected (RuntimeHost.config host) req.uri = none →
    Resolves (RuntimeHost.route host req) ∧ ValidDefaults crate (RuntimeHost.config host)

variable {crate : HttpCrate} {host : H} {hostname : String} {req : Request}

theorem redirectResolvesIff {target : String} :
    Resolves (redirect crate target) ↔ ∃ value, crate.headerValue target = .ok value := by
  unfold redirect Resolves
  cases crate.headerValue target <;> simp

theorem routedResolvesIff : Resolves (routedAnswer crate host req).response ↔
    Resolves (RuntimeHost.route host req) ∧ ValidDefaults crate (RuntimeHost.config host) := by
  constructor
  · rintro ⟨out, same⟩
    obtain ⟨response, routed, added⟩ := bindOkIff.mp same
    exact ⟨⟨response, routed⟩, (defaultsAdded.mp added).1⟩
  · rintro ⟨⟨response, routed⟩, valid⟩
    exact ⟨_, bindOkIff.mpr ⟨response, routed, defaultsAdded.mpr ⟨valid, rfl⟩⟩⟩

theorem foundResolvesIff {service : HttpService H} (named : requestHostname crate req = some hostname)
    (found : service.hosts.lookup hostname = some host) :
    Resolves (service.call crate req).response ↔ Answerable crate host hostname req := by
  cases sent : redirected (RuntimeHost.config host) req.uri with
  | some scheme =>
    simp only [HttpService.call, named, found, sent, redirectResolvesIff]
    constructor
    · intro valid
      refine ⟨?_, fun none => by simp [sent] at none⟩
      intro other same
      cases Option.some.inj (sent.symm.trans same)
      exact valid
    · intro answerable
      exact answerable.redirect scheme sent
  | none =>
    rw [callFound named found sent, routedResolvesIff]
    constructor
    · intro both
      exact ⟨fun scheme some => by simp [sent] at some, fun _ => both⟩
    · intro answerable
      exact answerable.route sent

end

def Turned (outcome : VetisResult Response) : Prop :=
  Resolves outcome ∨ (∃ text, outcome = .error (.host (.proxy text))) ∨ (∃ text, outcome = .error (.host (.auth text))) ∨
    ∃ inner, outcome = .error (.host (.content inner))

section
variable {crates : RouteCrates} {files : HostFiles} {logger : Option Logger} {host : Host} {req : Request}

theorem statusResolves {result : VetisResult Response} {status : Nat} (has : HasStatus result status) :
    Resolves result := by
  obtain ⟨response, same, _⟩ := has
  exact ⟨response, same⟩

theorem handledResolvesIff {outcome : VetisResult Response} :
    Resolves (handled crates files host outcome) ↔ Turned outcome := by
  cases outcome with
  | ok response => simp [handled, Turned, Resolves]
  | error error =>
    cases mapped : errorStatus error with
    | some status =>
      have turned : Turned (.error error) := by
        unfold errorStatus at mapped
        split at mapped <;> try contradiction
        · exact .inr (.inl ⟨_, rfl⟩)
        · exact .inr (.inr (.inl ⟨_, rfl⟩))
        · exact .inr (.inr (.inr ⟨_, rfl⟩))
      exact ⟨fun _ => turned, fun _ => statusResolves (handledError mapped)⟩
    | none =>
      simp only [handled, mapped]
      constructor
      · rintro ⟨response, same⟩
        contradiction
      · rintro (⟨response, same⟩ | ⟨text, same⟩ | ⟨text, same⟩ | ⟨inner, same⟩) <;> cases same <;> contradiction

theorem routeResolvesIff : Resolves (route crates files logger host req).response ↔
    (containsDots req.uri.path = false → ∀ path, findPath crates host.paths req.uri.path = some path →
      Turned (path.handle req (hostContext host logger (targetPath path req.uri.path)))) := by
  cases dots : containsDots req.uri.path with
  | true => simp [statusResolves (dotsRefused dots).2]
  | false =>
    cases found : findPath crates host.paths req.uri.path with
    | none => simp [statusResolves (missingRefused dots found).2]
    | some path => simp [foundHandled dots found, handledResolvesIff, HandlerCall.outcome]

end

theorem callResolvesIff (crate : HttpCrate) :
    (∀ (H : Type) [RuntimeHost H] (service : HttpService H) (req : Request),
      Resolves (service.call crate req).response ↔ ∀ hostname host, requestHostname crate req = some hostname →
        service.hosts.lookup hostname = some host → Answerable crate host hostname req) ∧
    (∀ crates files logger (host : ServedHost crates files logger) (req : Request),
      Resolves (RuntimeHost.route host req) ↔
        (containsDots req.uri.path = false → ∀ path, findPath crates (Host.paths host) req.uri.path = some path →
          Turned (path.handle req (hostContext host logger (targetPath path req.uri.path))))) := by
  refine ⟨?_, fun crates files logger host req => routeResolvesIff⟩
  intro H _ service req
  cases named : requestHostname crate req with
  | none => simp [HttpService.call, named, Resolves]
  | some hostname =>
    cases found : service.hosts.lookup hostname with
    | none =>
      have answered : Resolves (service.call crate req).response := by simp [HttpService.call, named, found, Resolves]
      refine ⟨fun _ => ?_, fun _ => answered⟩
      intro other host same known
      cases Option.some.inj same
      simp [found] at known
    | some host =>
      rw [foundResolvesIff named found]
      refine ⟨?_, fun all => all hostname host rfl found⟩
      intro answerable other again same known
      cases Option.some.inj same
      cases Option.some.inj (found.symm.trans known)
      exact answerable

def failingPath : Path := ⟨"/", fun _ _ => .error (.host (.handler (.handler "overloaded")))⟩

def failingHost : Host :=
  ⟨{ hostname := "localhost", bindAddresses := [(.v4 0, 80)], protos := [.http11], paths := [failingPath] },
    HostModel.addPath ∅ failingPath, none⟩

def failingService : HttpService (ServedHost sampleRoutes noFiles none) :=
  ⟨(∅ : VetisHosts (ServedHost sampleRoutes noFiles none)).insert "localhost" failingHost,
    ⟨.v4 0x7f000001, 40000⟩, none⟩

theorem handlerErrorEscapes : ¬ ∀ (service : HttpService (ServedHost sampleRoutes noFiles none)) (req : Request),
    Resolves (service.call sampleRoutes.http req).response := by
  intro claim
  obtain ⟨response, same⟩ := claim failingService (getOver "http" "localhost")
  have answer : (failingService.call sampleRoutes.http (getOver "http" "localhost")).response =
      .error (.host (.handler (.handler "overloaded"))) := rfl
  rw [answer] at same
  contradiction

end VetisTokio.ServiceErrors
