import VetisTokio.ServicePlaintext
import VetisTokio.ServiceQuic

/-! The two services side by side, on one table and one request. They part wherever
a step can fail: the one passes the error on, the other answers or goes past it. -/
namespace VetisTokio.ServicesAlike
open HttpData ConfigData ServiceHttp ServicePlaintext

def ValidHeader (crate : HttpCrate) (header : String × String) : Prop :=
  (∃ name, crate.headerName header.1 = .ok name) ∧ ∃ value, crate.headerValue header.2 = .ok value

def ValidDefaults (crate : HttpCrate) (config : HostConfig) : Prop :=
  ∀ defaults, config.defaultHeaders = some defaults → ∀ header ∈ defaults, ValidHeader crate header

section
variable {crate : HttpCrate} {config : HostConfig} {response out : Response}

theorem headerAdded {header : String × String} : addDefaultHeader crate response header = .ok out ↔
    ValidHeader crate header ∧ ServiceQuic.addDefaultHeader crate response header = out := by
  unfold addDefaultHeader ServiceQuic.addDefaultHeader ValidHeader
  cases crate.headerName header.1 with
  | error text => simp
  | ok name => cases crate.headerValue header.2 <;> simp

theorem headersAdded {defaults : List (String × String)} :
    defaults.foldlM (addDefaultHeader crate) response = .ok out ↔
      (∀ header ∈ defaults, ValidHeader crate header) ∧
        defaults.foldl (ServiceQuic.addDefaultHeader crate) response = out := by
  induction defaults generalizing response with
  | nil => simp [pure, Except.pure]
  | cons header rest ih =>
    rw [List.foldlM_cons, List.foldl_cons, List.forall_mem_cons, bindOkIff]
    simp only [headerAdded, ih]
    constructor
    · rintro ⟨next, ⟨valid, rfl⟩, others, same⟩
      exact ⟨⟨valid, others⟩, same⟩
    · rintro ⟨⟨valid, others⟩, same⟩
      exact ⟨_, ⟨valid, rfl⟩, others, same⟩

theorem defaultsAdded : addDefaultHeaders crate config response = .ok out ↔
    ValidDefaults crate config ∧ ServiceQuic.addDefaultHeaders crate config response = out := by
  unfold addDefaultHeaders ServiceQuic.addDefaultHeaders ValidDefaults
  cases config.defaultHeaders with
  | none => simp
  | some defaults => simp [headersAdded]

end

def SameAnswer (one other : VetisResult Response) : Prop :=
  ∃ left right, one = .ok left ∧ other = .ok right ∧ left.status = right.status ∧ left.headers = right.headers

variable {H : Type} [RuntimeHost H] {crate : HttpCrate} {service : HttpService H} {req : Request}

theorem unsecuredScheme {config : HostConfig} {uri : Uri} {scheme : String} (given : uri.scheme = some scheme)
    (secured : toLowercase scheme = "https") : redirected config uri = none := by
  have safe : unsafeScheme scheme = false := by
    rw [unsafeScheme, secured]
    decide
  simp [redirected, given, safe]

theorem routedAlikeIff {host : H} : SameAnswer (routedAnswer crate host req).response
    (.ok (ServiceQuic.routedResponse crate host req)) ↔
      ∃ response, RuntimeHost.route host req = .ok response ∧ ValidDefaults crate (RuntimeHost.config host) := by
  constructor
  · rintro ⟨left, _, answered, _⟩
    obtain ⟨response, routed, added⟩ := bindOkIff.mp answered
    exact ⟨response, routed, (defaultsAdded.mp added).1⟩
  · rintro ⟨response, routed, valid⟩
    refine ⟨_, _, bindOkIff.mpr ⟨response, routed, defaultsAdded.mpr ⟨valid, rfl⟩⟩, rfl, ?_⟩
    rw [ServiceQuic.routedResponse, routed]
    exact ⟨rfl, rfl⟩

theorem servicesAlikeIff {scheme authority : String} (given : req.uri.scheme = some scheme)
    (secured : toLowercase scheme = "https") (named : req.uri.authority = some authority) :
    SameAnswer (service.call crate req).response (ServiceQuic.HttpService.call crate service req).response ↔
      ∃ host response, service.hosts.lookup authority = some host ∧ RuntimeHost.route host req = .ok response ∧
        ValidDefaults crate (RuntimeHost.config host) := by
  have one : requestHostname crate req = some authority := by simp [requestHostname, named]
  have other : ServiceQuic.requestHostname req = some authority := named
  cases found : service.hosts.lookup authority with
  | none =>
    simp [HttpService.call, ServiceQuic.HttpService.call, one, other, found, SameAnswer, textResponse,
      StatusCode.badRequest, StatusCode.badGateway]
  | some host =>
    rw [callFound one found (unsecuredScheme given secured)]
    simp only [ServiceQuic.HttpService.call, other, found, Option.some.injEq, routedAlikeIff]
    constructor
    · rintro ⟨response, both⟩
      exact ⟨host, response, rfl, both⟩
    · rintro ⟨_, response, rfl, both⟩
      exact ⟨response, both⟩

def getOver (scheme authority : String) : Request :=
  ⟨"GET", ⟨some scheme, some authority, "/", none⟩, .http2, [], fun _ => none⟩

theorem secretServedAlike : SameAnswer (plainService.call asciiCrate (getOver "https" "example.com")).response
    (ServiceQuic.HttpService.call asciiCrate plainService (getOver "https" "example.com")).response := by
  refine (servicesAlikeIff rfl (by decide) rfl).mpr ⟨securedHost, _, AList.lookup_insert _, rfl, ?_⟩
  intro defaults none
  cases none

theorem strayAnsweredApart : ¬ ∀ (service : HttpService FixedHost) (req : Request) (authority : String),
    req.uri.scheme = some "https" → req.uri.authority = some authority →
      SameAnswer (service.call asciiCrate req).response (ServiceQuic.HttpService.call asciiCrate service req).response := by
  intro claim
  obtain ⟨left, right, one, other, same, _⟩ := claim plainService (getOver "https" "nobody.com") "nobody.com" rfl rfl
  cases one
  cases other
  exact absurd same (by decide)

end VetisTokio.ServicesAlike
