import VetisTokio.Library.MultiMap
import VetisTokio.HstsRedirect
import VetisTokio.ServicesAlike

/-! The default headers of a host on the responses of its route. Each of the services
adds them one by one; a header map is a map with several values to a name. -/
namespace VetisTokio.DefaultHeaders
open HttpData ConfigData ServiceHttp ServicePlaintext ServicesAlike HstsRedirect PercentCoding MultiMap

/- What the http crate makes of texts that it takes: names are lower-cased, values are kept. -/
structure ReadsHeaders (crate : HttpCrate) : Prop where
  name : ∀ text name, crate.headerName text = .ok name → name.name = toLowercase text
  value : WritesText crate

def headerRow (header : String × String) : HeaderName × HeaderValue := (⟨toLowercase header.1⟩, ⟨utf8 header.2.toList⟩)

def NamesDiffer (defaults : List (String × String)) : Prop :=
  defaults.Pairwise (fun header other => toLowercase header.1 ≠ toLowercase other.1)

structure Applied (defaults : List (String × String)) (response sent : Response) : Prop where
  status : sent.status = response.status
  body : sent.body = response.body
  own : ∀ header ∈ defaults, values sent.headers (headerRow header).1 = [(headerRow header).2]
  others : ∀ name : HeaderName, (∀ header ∈ defaults, name.name ≠ toLowercase header.1) →
    values sent.headers name = values response.headers name

section
variable {crate : HttpCrate} {defaults listed : List (String × String)} {response : Response}

theorem headerReplaces (reads : ReadsHeaders crate) {header : String × String} (valid : ValidHeader crate header) :
    ServiceQuic.addDefaultHeader crate response header =
      { response with headers := replace response.headers (headerRow header).1 (headerRow header).2 } := by
  obtain ⟨⟨⟨name⟩, named⟩, ⟨⟨bytes⟩, written⟩⟩ := valid
  have lowered : name = toLowercase header.1 := reads.name _ _ named
  have kept : bytes = utf8 header.2.toList := reads.value _ _ written
  simp only [ServiceQuic.addDefaultHeader, named, written, lowered, kept]
  rfl

theorem headersReplace (reads : ReadsHeaders crate) (valid : ∀ header ∈ defaults, ValidHeader crate header) :
    defaults.foldl (ServiceQuic.addDefaultHeader crate) response =
      { response with headers := replaceAll response.headers (defaults.map headerRow) } := by
  induction defaults generalizing response with
  | nil => rfl
  | cons header rest ih =>
    obtain ⟨first, others⟩ := List.forall_mem_cons.mp valid
    rw [List.foldl_cons, headerReplaces reads first, ih others]
    rfl

theorem rowsDiffer (differ : NamesDiffer defaults) :
    (defaults.map headerRow).Pairwise (fun row other => row.1 ≠ other.1) := by
  rw [List.pairwise_map]
  exact differ.imp fun different same => different (HeaderName.mk.inj same)

theorem foldApplied (reads : ReadsHeaders crate) (valid : ∀ header ∈ defaults, ValidHeader crate header)
    (differ : NamesDiffer defaults) :
    Applied defaults response (defaults.foldl (ServiceQuic.addDefaultHeader crate) response) := by
  rw [headersReplace reads valid]
  refine ⟨rfl, rfl, ?_, ?_⟩
  · intro header member
    exact valuesAllReplaced (rowsDiffer differ) (List.mem_map_of_mem member)
  · intro name absent
    refine valuesAllKept ?_
    intro row member
    obtain ⟨header, inside, rfl⟩ := List.mem_map.mp member
    exact fun same => absent header inside (congrArg HeaderName.name same)

theorem appliedPerm (order : listed.Perm defaults) {sent : Response} (applied : Applied listed response sent) :
    Applied defaults response sent := by
  refine ⟨applied.status, applied.body, ?_, ?_⟩
  · intro header member
    exact applied.own header (order.mem_iff.mpr member)
  · intro name absent
    exact applied.others name fun header member => absent header (order.mem_iff.mp member)

theorem differPerm (order : listed.Perm defaults) (differ : NamesDiffer defaults) : NamesDiffer listed :=
  order.symm.pairwise differ Ne.symm

theorem defaultsApply (reads : ReadsHeaders crate) {config : HostConfig} (given : config.defaultHeaders = some listed)
    (order : listed.Perm defaults) (valid : ∀ header ∈ defaults, ValidHeader crate header)
    (differ : NamesDiffer defaults) :
    Applied defaults response (ServiceQuic.addDefaultHeaders crate config response) := by
  rw [ServiceQuic.addDefaultHeaders, given]
  exact appliedPerm order (foldApplied reads (fun header member => valid header (order.mem_iff.mp member))
    (differPerm order differ))

end

section
variable {H : Type} [RuntimeHost H] {crate : HttpCrate} {service : HttpService H} {req passed : Request} {host : H}

theorem httpRouted (routed : (service.call crate req).routed = some (host, passed)) :
    service.call crate req = routedAnswer crate host passed := by
  obtain ⟨rfl, hostname, named, found⟩ := callRouted routed
  cases kept : redirected (RuntimeHost.config host) passed.uri with
  | none => exact callFound named found kept
  | some scheme => simp [HttpService.call, named, found, kept] at routed

theorem quicRouted (routed : (ServiceQuic.HttpService.call crate service req).routed = some (host, passed)) :
    (ServiceQuic.HttpService.call crate service req).response = .ok (ServiceQuic.routedResponse crate host passed) := by
  unfold ServiceQuic.HttpService.call at routed ⊢
  split at routed <;> try contradiction
  split at routed <;> try contradiction
  simp only [Option.some.injEq, Prod.mk.injEq] at routed
  obtain ⟨rfl, rfl⟩ := routed
  rfl

end

theorem headersApplied {H : Type} [RuntimeHost H] {crate : HttpCrate} (reads : ReadsHeaders crate)
    {service : HttpService H} {req passed : Request} {host : H} {response : Response}
    {defaults listed : List (String × String)} (given : (RuntimeHost.config host).defaultHeaders = some listed)
    (order : listed.Perm defaults) (valid : ∀ header ∈ defaults, ValidHeader crate header)
    (differ : NamesDiffer defaults) (returned : RuntimeHost.route host passed = .ok response) :
    ((service.call crate req).routed = some (host, passed) →
      ∃ sent, (service.call crate req).response = .ok sent ∧ Applied defaults response sent) ∧
    ((ServiceQuic.HttpService.call crate service req).routed = some (host, passed) →
      ∃ sent, (ServiceQuic.HttpService.call crate service req).response = .ok sent ∧ Applied defaults response sent) := by
  have applied : Applied defaults response (ServiceQuic.addDefaultHeaders crate (RuntimeHost.config host) response) :=
    defaultsApply reads given order valid differ
  constructor
  · intro routed
    have all : ValidDefaults crate (RuntimeHost.config host) := by
      intro others same header member
      cases Option.some.inj (given.symm.trans same)
      exact valid header (order.mem_iff.mp member)
    refine ⟨_, ?_, applied⟩
    rw [httpRouted routed]
    exact bindOkIff.mpr ⟨response, returned, defaultsAdded.mpr ⟨all, rfl⟩⟩
  · intro routed
    refine ⟨_, ?_, applied⟩
    rw [quicRouted routed, ServiceQuic.routedResponse, returned]

def nameChar (c : Char) : Bool := c.isAlphanum || c == '-' || c == '_'

def lowerCrate : HttpCrate :=
  { textCrate with
    headerName := fun text =>
      if text ≠ "" ∧ text.toList.all nameChar then .ok ⟨toLowercase text⟩ else .error "invalid HTTP header name" }

theorem lowerReads : ReadsHeaders lowerCrate := by
  refine ⟨?_, textCrateWrites⟩
  intro text name named
  simp only [lowerCrate] at named
  split at named <;> try contradiction
  cases Except.ok.inj named
  rfl

def twoDefaults : List (String × String) := [("Server", "vetis"), ("X-Frame-Options", "DENY")]

def cookies : HeaderMap :=
  [(⟨"set-cookie"⟩, ⟨[0x61]⟩), (⟨"server"⟩, ⟨[0x62]⟩), (⟨"set-cookie"⟩, ⟨[0x63]⟩), (⟨"server"⟩, ⟨[0x64]⟩)]

def cookieHost : FixedHost :=
  ⟨{ hostname := "example.com", bindAddresses := [(.v4 0, 80)], protos := [.http11],
      defaultHeaders := some twoDefaults.reverse }, ⟨200, cookies, textBody "hello"⟩⟩

def cookieService : HttpService FixedHost :=
  ⟨(∅ : VetisHosts FixedHost).insert "example.com" cookieHost, ⟨.v4 0x7f000001, 40000⟩, none⟩

theorem cookiesApplied :
    (∃ sent, (cookieService.call lowerCrate (getOver "https" "example.com")).response = .ok sent ∧
      Applied twoDefaults cookieHost.answer sent) ∧
    ∃ sent, (ServiceQuic.HttpService.call lowerCrate cookieService (getOver "https" "example.com")).response = .ok sent ∧
      Applied twoDefaults cookieHost.answer sent := by
  have valid : ∀ header ∈ twoDefaults, ValidHeader lowerCrate header := by
    intro header member
    simp only [twoDefaults, List.mem_cons, List.not_mem_nil, or_false] at member
    rcases member with rfl | rfl
    · exact ⟨⟨_, rfl⟩, ⟨_, rfl⟩⟩
    · exact ⟨⟨_, rfl⟩, ⟨_, rfl⟩⟩
  have differ : NamesDiffer twoDefaults := by
    simp only [NamesDiffer, twoDefaults, List.pairwise_pair]
    decide
  have given : (RuntimeHost.config cookieHost).defaultHeaders = some twoDefaults.reverse := rfl
  have returned : RuntimeHost.route cookieHost (getOver "https" "example.com") = .ok cookieHost.answer := rfl
  have reversed : twoDefaults.reverse.Perm twoDefaults := List.reverse_perm _
  constructor
  · exact (headersApplied lowerReads given reversed valid differ returned).1 rfl
  · exact (headersApplied lowerReads given reversed valid differ returned).2 rfl

end VetisTokio.DefaultHeaders
