import Mathlib.Logic.Relation
import VetisTokio.Library.PercentCoding
import VetisTokio.Library.UriReference
import VetisTokio.ServicePlaintext

/-! The redirect of requests that come in the clear to a host with HSTS: where it
leads, what it keeps of the URI, and which forms of a request get it. The URI of a
request is the http crate's reading of its text, with an empty path for the root. -/
namespace VetisTokio.HstsRedirect
open HttpData ConfigData ServiceHttp PercentCoding UriReference

def uriOf (parts : Parts) : Uri where
  scheme := parts.scheme.map String.ofList
  authority := parts.authority.map String.ofList
  path := if parts.path = [] then "/" else String.ofList parts.path
  query := parts.query.map String.ofList

def readUri (text : String) : Uri := uriOf (parse text.toList)

structure Shaped (uri : Uri) : Prop where
  absolute : uri.scheme.isSome = true → uri.authority.isSome = true ∧ uri.path ≠ ""
  authority : ∀ authority ∈ uri.authority, Clean authorityStops authority.toList
  path : Clean pathStops uri.path.toList
  query : ∀ query ∈ uri.query, Clean queryStops query.toList

def WritesText (crate : HttpCrate) : Prop :=
  ∀ text value, crate.headerValue text = .ok value → value.bytes = utf8 text.toList

def visible (b : UInt8) : Bool := (32 ≤ b && b != 127) || b == 9

/- No text is refused for a header value but for a control character in it. -/
def TakesVisible (crate : HttpCrate) : Prop :=
  ∀ text, (utf8 text.toList).all visible = true → ∃ value, crate.headerValue text = .ok value

structure Printable (uri : Uri) : Prop where
  scheme : ∀ scheme ∈ uri.scheme, (utf8 scheme.toList).all visible = true
  authority : ∀ authority ∈ uri.authority, (utf8 authority.toList).all visible = true
  path : (utf8 uri.path.toList).all visible = true
  query : ∀ query ∈ uri.query, (utf8 query.toList).all visible = true

variable {H : Type} [RuntimeHost H]

/- The service's own answer, not one of a route. -/
structure Redirected (crate : HttpCrate) (service : HttpService H) (req : Request) (response : Response) : Prop where
  unrouted : (service.call crate req).routed = none
  answered : (service.call crate req).response = .ok response
  status : response.status = StatusCode.permanentRedirect

def Redirects (crate : HttpCrate) (service : HttpService H) (req : Request) : Prop :=
  ∃ response, Redirected crate service req response

def RedirectsTo (crate : HttpCrate) (service : HttpService H) (req : Request) (text : String) : Prop :=
  ∃ response, Redirected crate service req response ∧
    ∃ value, response.headers.get location = some value ∧ value.bytes = utf8 text.toList

def Follows (crate : HttpCrate) (service : HttpService H) (req next : Request) : Prop :=
  ∃ text, RedirectsTo crate service req text ∧ next = { req with uri := readUri text }

section
variable {crate : HttpCrate} {service : HttpService H} {req : Request} {text scheme hostname : String} {host : H}

theorem redirectMade {value : HeaderValue} (named : requestHostname crate req = some hostname)
    (found : service.hosts.lookup hostname = some host)
    (chosen : redirected (RuntimeHost.config host) req.uri = some scheme)
    (valid : crate.headerValue (redirectTarget scheme hostname req.uri) = .ok value) :
    Redirected crate service req
      (textResponse crate StatusCode.permanentRedirect [(location, value)] "Unprotected connection denied.") := by
  have call : service.call crate req = ⟨none, redirect crate (redirectTarget scheme hostname req.uri)⟩ := by
    simp only [HttpService.call, named, found, chosen]
  have made := congrArg Answer.response call
  simp only [redirect, valid] at made
  exact ⟨by rw [call], made, rfl⟩

theorem redirectedOnly {response : Response} (redirects : Redirected crate service req response) :
    ∃ hostname host scheme value, requestHostname crate req = some hostname ∧
      service.hosts.lookup hostname = some host ∧ redirected (RuntimeHost.config host) req.uri = some scheme ∧
      crate.headerValue (redirectTarget scheme hostname req.uri) = .ok value ∧
      response.headers.get location = some value := by
  obtain ⟨unrouted, answered, status⟩ := redirects
  unfold HttpService.call at unrouted answered
  split at answered
  · cases Except.ok.inj answered
    exact absurd status (by decide : StatusCode.badRequest ≠ StatusCode.permanentRedirect)
  · rename_i hostname named
    split at answered
    · cases Except.ok.inj answered
      exact absurd status (by decide : StatusCode.badGateway ≠ StatusCode.permanentRedirect)
    · rename_i host found
      split at answered
      · rename_i scheme chosen
        simp only [redirect] at answered
        split at answered <;> try contradiction
        rename_i value valid
        cases Except.ok.inj answered
        exact ⟨hostname, host, scheme, value, named, found, chosen, valid, rfl⟩
      · rename_i kept
        simp only [named, found, kept, routedAnswer] at unrouted
        contradiction

theorem redirectsSource (writes : WritesText crate) (redirects : RedirectsTo crate service req text) :
    ∃ hostname scheme, requestHostname crate req = some hostname ∧ req.uri.scheme = some scheme ∧
      unsafeScheme scheme = true ∧ text = redirectTarget scheme hostname req.uri := by
  obtain ⟨response, only, value, header, bytes⟩ := redirects
  obtain ⟨hostname, host, scheme, made, named, _, chosen, valid, same⟩ := redirectedOnly only
  rw [header] at same
  cases Option.some.inj same
  rw [writes _ _ valid] at bytes
  obtain ⟨given, insecure, _⟩ := redirectedSource chosen
  exact ⟨hostname, scheme, named, given, insecure, String.toList_injective (utf8Injective bytes.symm)⟩

def queryText : Option String → List Char
  | some query => query.toList
  | none => []

theorem targetText (scheme hostname : String) (uri : Uri) : (redirectTarget scheme hostname uri).toList =
    scheme.toList ++ ':' :: '/' :: '/' :: (hostname.toList ++ (uri.path.toList ++ queryText uri.query)) := by
  unfold redirectTarget
  cases uri.query <;> simp [String.toList_append, queryText]

theorem unsafeName (insecure : unsafeScheme scheme = true) : scheme.toList ≠ [] ∧ Clean schemeStops scheme.toList := by
  have letters : scheme.toList.map Char.toLower = "http".toList ∨ scheme.toList.map Char.toLower = "ws".toList := by
    rw [unsafeScheme, Bool.or_eq_true, beq_iff_eq, beq_iff_eq] at insecure
    refine insecure.imp ?_ ?_ <;>
    · intro same
      rw [← same, toLowercase, String.toList_ofList]
  constructor
  · intro none
    rw [none] at letters
    revert letters
    decide
  · intro c member stop
    have lower : Char.toLower c ∈ scheme.toList.map Char.toLower := List.mem_map_of_mem member
    simp only [schemeStops, List.mem_cons, List.not_mem_nil, or_false] at stop
    rcases letters with same | same <;>
    · rw [same] at lower
      rcases stop with rfl | rfl | rfl | rfl <;>
      · revert lower
        decide

theorem readScheme (insecure : unsafeScheme scheme = true) (hostname : String) (uri : Uri) :
    (readUri (redirectTarget scheme hostname uri)).scheme = some scheme := by
  obtain ⟨given, clean⟩ := unsafeName insecure
  rw [readUri, uriOf, targetText, parseScheme given clean]
  exact congrArg some String.ofList_toList

/- A query is put behind the path as it is, and only a path from the root keeps the
authority apart. -/
theorem readWhole (hostname : String) {uri : Uri} (insecure : unsafeScheme scheme = true)
    (authority : Clean authorityStops hostname.toList) (path : Clean pathStops uri.path.toList)
    (rooted : uri.path.toList.head? = some '/') (bare : uri.query = none) :
    readUri (redirectTarget scheme hostname uri) = ⟨some scheme, some hostname, uri.path, none⟩ := by
  have formed : Hierarchical ⟨some scheme.toList, some hostname.toList, uri.path.toList, none, none⟩
      scheme.toList hostname.toList := by
    refine ⟨⟨rfl, unsafeName insecure⟩, ⟨rfl, authority⟩, ?_, path, by simp⟩
    intro c found
    exact Option.some.inj (found.symm.trans rooted)
  have composed : (redirectTarget scheme hostname uri).toList =
      compose ⟨some scheme.toList, some hostname.toList, uri.path.toList, none, none⟩ := by
    rw [targetText, bare]
    simp [compose, putScheme, putAuthority, putQuery, putFragment, queryText]
  have nonempty : uri.path.toList ≠ [] := by
    intro none
    rw [none] at rooted
    contradiction
  rw [readUri, composed, parseCompose formed]
  simp [uriOf, nonempty]

def secureCounterpart (scheme : String) : Option String :=
  if toLowercase scheme == "http" then some "https"
  else if toLowercase scheme == "ws" then some "wss"
  else none

structure LeadsToTls (crate : HttpCrate) (service : HttpService H) (req : Request) (text : String) : Prop where
  secure : ∃ scheme secure, req.uri.scheme = some scheme ∧ secureCounterpart scheme = some secure ∧
    (readUri text).scheme.map toLowercase = some secure
  authority : (readUri text).authority = req.uri.authority
  ends : ∀ later, Relation.TransGen (Follows crate service) req later → ¬ RedirectsTo crate service later text

theorem counterpartOther {secure : String} (counterpart : secureCounterpart scheme = some secure) :
    toLowercase scheme ≠ secure := by
  unfold secureCounterpart at counterpart
  split at counterpart
  · rename_i same
    cases Option.some.inj counterpart
    rw [beq_iff_eq.mp same]
    decide
  · split at counterpart <;> try contradiction
    rename_i same
    cases Option.some.inj counterpart
    rw [beq_iff_eq.mp same]
    decide

theorem neverSecured (writes : WritesText crate) (redirects : RedirectsTo crate service req text) :
    ¬ LeadsToTls crate service req text := by
  intro leads
  obtain ⟨hostname, scheme, named, given, insecure, rfl⟩ := redirectsSource writes redirects
  obtain ⟨asked, secure, same, counterpart, reads⟩ := leads.secure
  rw [given] at same
  cases Option.some.inj same
  rw [readScheme insecure] at reads
  exact counterpartOther counterpart (Option.some.inj reads)

theorem namedAuthority (shaped : Shaped req.uri) (given : req.uri.scheme = some scheme)
    (named : requestHostname crate req = some hostname) :
    req.uri.authority = some hostname ∧ Clean authorityStops hostname.toList := by
  obtain ⟨authority, same⟩ := Option.isSome_iff_exists.mp (shaped.absolute (by rw [given]; rfl)).1
  rw [requestHostname, same] at named
  cases Option.some.inj named
  exact ⟨same, shaped.authority _ same⟩

theorem redirectLoops (writes : WritesText crate) (shaped : Shaped req.uri) (bare : req.uri.query = none)
    (rooted : req.uri.path.toList.head? = some '/') (redirects : RedirectsTo crate service req text) :
    Follows crate service req req := by
  refine ⟨text, redirects, ?_⟩
  obtain ⟨hostname, scheme, named, given, insecure, rfl⟩ := redirectsSource writes redirects
  obtain ⟨authority, clean⟩ := namedAuthority shaped given named
  rw [readWhole hostname insecure clean shaped.path rooted bare, ← given, ← authority, ← bare]

structure Preserved (uri read : Uri) : Prop where
  authority : read.authority = uri.authority
  path : read.path = uri.path
  query : read.query = uri.query

theorem authorityRead {parts : Parts} (read : (uriOf parts).authority = some hostname) :
    parts.authority = some hostname.toList := by
  obtain ⟨authority, given, rfl⟩ := Option.map_eq_some_iff.mp read
  rw [String.toList_ofList, given]

theorem pathRead {parts : Parts} {path : String} (read : (uriOf parts).path = path) :
    parts.path = [] ∧ path = "/" ∨ parts.path = path.toList := by
  simp only [uriOf] at read
  split at read
  · rename_i empty
    exact .inl ⟨empty, read.symm⟩
  · exact .inr (by rw [← read, String.toList_ofList])

theorem queryRead {parts : Parts} {query : String} (read : (uriOf parts).query = some query) :
    parts.query = some query.toList := by
  obtain ⟨text, given, rfl⟩ := Option.map_eq_some_iff.mp read
  rw [String.toList_ofList, given]

theorem readBehind {parts : Parts} {uri : Uri} (insecure : unsafeScheme scheme = true)
    (read : parse (redirectTarget scheme hostname uri).toList = parts)
    (authority : parts.authority = some hostname.toList) :
    parts.path ++ (putQuery parts.query ++ putFragment parts.fragment) = uri.path.toList ++ queryText uri.query := by
  obtain ⟨given, clean⟩ := unsafeName insecure
  have named : parts.scheme = some scheme.toList := by rw [← read, targetText, parseScheme given clean]
  have whole := composeParse (redirectTarget scheme hostname uri).toList
  rw [read, compose, named, authority, targetText] at whole
  simpa [putScheme, putAuthority] using whole

/- The mark that is missing is one character too few, wherever the query is found. -/
theorem queryLost {parts : Parts} {uri : Uri} {query : String} (asked : uri.query = some query)
    (behind : parts.path ++ (putQuery parts.query ++ putFragment parts.fragment) =
      uri.path.toList ++ queryText uri.query)
    (path : (uriOf parts).path = uri.path) : (uriOf parts).query ≠ some query := by
  intro kept
  rw [queryRead kept, asked] at behind
  rcases pathRead path with ⟨empty, root⟩ | same
  · rw [empty, root] at behind
    exact absurd (List.cons.inj behind).1 (by decide)
  · rw [same, List.append_cancel_left_eq] at behind
    have lengths := congrArg List.length behind
    simp [putQuery, queryText] at lengths
    omega

theorem preservedIff (writes : WritesText crate) (shaped : Shaped req.uri)
    (redirects : RedirectsTo crate service req text) :
    Preserved req.uri (readUri text) ↔ req.uri.query = none ∧ req.uri.path.toList.head? = some '/' := by
  obtain ⟨hostname, scheme, named, given, insecure, rfl⟩ := redirectsSource writes redirects
  obtain ⟨authority, clean⟩ := namedAuthority shaped given named
  constructor
  · intro preserved
    have placed := authorityRead (preserved.authority.trans authority)
    have behind := readBehind insecure rfl placed
    constructor
    · cases asked : req.uri.query with
      | none => rfl
      | some query => exact absurd (preserved.query.trans asked) (queryLost asked behind preserved.path)
    · rcases pathRead preserved.path with ⟨_, root⟩ | same
      · rw [root]
        rfl
      · have nonempty : req.uri.path.toList ≠ [] := by
          intro none
          exact (shaped.absolute (by rw [given]; rfl)).2 (String.toList_eq_nil_iff.mp none)
        obtain ⟨c, rest, starts⟩ := List.exists_cons_of_ne_nil nonempty
        rw [starts, parseRooted placed (same.trans starts)]
        rfl
  · rintro ⟨bare, rooted⟩
    rw [readWhole hostname insecure clean shaped.path rooted bare]
    exact ⟨authority.symm, rfl, bare.symm⟩

/- The authority once in the request line and once in the Host header alone. -/
structure TwoForms (crate : HttpCrate) (origin absolute : Request) (scheme authority : String) : Prop where
  line : absolute.uri.scheme = some scheme ∧ absolute.uri.authority = some authority
  http : toLowercase scheme = "http"
  origin : origin = { absolute with uri := { absolute.uri with scheme := none, authority := none } }
  header : (absolute.headers.get HttpData.host).bind crate.toStr = some authority

structure Guarded (config : HostConfig) : Prop where
  tls : config.tls.isSome = true
  hsts : config.enableHsts = true
  allowed : config.allowUnsafeConnections = true

variable {origin absolute : Request} {authority : String}

theorem guardedRedirected {config : HostConfig} {uri : Uri} (guarded : Guarded config) (given : uri.scheme = some scheme)
    (http : toLowercase scheme = "http") : redirected config uri = some scheme := by
  simp [redirected, given, unsafeScheme, http, guarded.tls, guarded.hsts, guarded.allowed]

theorem originKept (forms : TwoForms crate origin absolute scheme authority) : ¬ Redirects crate service origin := by
  rintro ⟨response, redirects⟩
  obtain ⟨hostname, host, asked, value, named, found, chosen, _⟩ := redirectedOnly redirects
  have given := (redirectedSource chosen).1
  rw [forms.origin] at given
  contradiction

theorem absoluteRedirects (forms : TwoForms crate origin absolute scheme authority)
    (found : service.hosts.lookup authority = some host) (guarded : Guarded (RuntimeHost.config host)) :
    Redirects crate service absolute ↔ ∃ value, crate.headerValue (redirectTarget scheme authority absolute.uri) =
      .ok value := by
  have chosen := guardedRedirected guarded forms.line.1 forms.http
  have named : requestHostname crate absolute = some authority := by rw [requestHostname, forms.line.2]
  constructor
  · rintro ⟨response, redirects⟩
    obtain ⟨hostname, served, asked, value, known, looked, taken, valid, _⟩ := redirectedOnly redirects
    rw [named] at known
    cases Option.some.inj known
    rw [found] at looked
    cases Option.some.inj looked
    rw [chosen] at taken
    cases Option.some.inj taken
    exact ⟨value, valid⟩
  · rintro ⟨value, valid⟩
    exact ⟨_, redirectMade named found chosen valid⟩

theorem targetVisible {uri : Uri} (printable : Printable uri) (given : uri.scheme = some scheme)
    (named : uri.authority = some authority) :
    (utf8 (redirectTarget scheme authority uri).toList).all visible = true := by
  have asked : (utf8 (queryText uri.query)).all visible = true := by
    cases found : uri.query with
    | none => rfl
    | some query => exact printable.query query found
  have mark : (utf8 "://".toList).all visible = true := by decide
  have text : (redirectTarget scheme authority uri).toList =
      scheme.toList ++ ("://".toList ++ (authority.toList ++ (uri.path.toList ++ queryText uri.query))) :=
    targetText scheme authority uri
  simp only [text, utf8, List.flatMap_append, List.all_append, Bool.and_eq_true]
  exact ⟨printable.scheme scheme given, mark, printable.authority authority named, printable.path, asked⟩

theorem sameDecisionIff (forms : TwoForms crate origin absolute scheme authority)
    (found : service.hosts.lookup authority = some host) (guarded : Guarded (RuntimeHost.config host)) :
    ((Redirects crate service origin ↔ Redirects crate service absolute) ↔
      ∀ value, crate.headerValue (redirectTarget scheme authority absolute.uri) ≠ .ok value) ∧
    (TakesVisible crate → Printable absolute.uri →
      ¬ (Redirects crate service origin ↔ Redirects crate service absolute)) := by
  have kept : ¬ Redirects crate service origin := originKept forms
  have redirects := absoluteRedirects forms found guarded
  constructor
  · rw [redirects, iff_false_left kept, not_exists]
  · intro takes printable both
    have taken := takes _ (targetVisible printable forms.line.1 forms.line.2)
    exact kept (both.mpr (redirects.mpr taken))

end

def textCrate : HttpCrate :=
  { ServicePlaintext.asciiCrate with
    headerValue := fun text =>
      if (utf8 text.toList).all visible then .ok ⟨utf8 text.toList⟩ else .error "failed to parse header value" }

theorem textCrateWrites : WritesText textCrate := by
  intro text value made
  simp only [textCrate] at made
  split at made <;> try contradiction
  cases Except.ok.inj made
  rfl

theorem textCrateTakes : TakesVisible textCrate := by
  intro text seen
  exact ⟨_, if_pos seen⟩

open ServicePlaintext in
def hstsHost : FixedHost :=
  ⟨{ hostname := "localhost", bindAddresses := [(.v4 0, 9000)], protos := [.http11],
      tls := some ⟨"server.der", "server.key.der"⟩, allowUnsafeConnections := true, enableHsts := true },
    ⟨200, [], textBody "results"⟩⟩

open ServicePlaintext in
def hstsService : HttpService FixedHost :=
  ⟨(∅ : VetisHosts FixedHost).insert "localhost" hstsHost, ⟨.v4 0x7f000001, 40000⟩, none⟩

def hostHeader : HeaderMap := [(HttpData.host, ⟨utf8 "localhost".toList⟩)]

def getSearch (query : Option String) : Request :=
  ⟨"GET", ⟨some "http", some "localhost", "/search", query⟩, .http11, hostHeader, fun _ => none⟩

def originSearch : Request := ⟨"GET", ⟨none, none, "/search", none⟩, .http11, hostHeader, fun _ => none⟩

theorem searchShaped (query : Option String) (clean : ∀ text ∈ query, Clean queryStops text.toList) :
    Shaped (getSearch query).uri := by
  refine ⟨fun _ => ⟨rfl, (by decide : "/search" ≠ "")⟩, ?_, (by decide : Clean pathStops "/search".toList), clean⟩
  intro authority given
  cases Option.some.inj given
  decide

theorem searchRedirected : RedirectsTo textCrate hstsService (getSearch none) "http://localhost/search" :=
  ⟨_, redirectMade rfl (AList.lookup_insert _) rfl rfl, _, rfl, rfl⟩

theorem queryRedirected : RedirectsTo textCrate hstsService (getSearch (some "q=1")) "http://localhost/searchq=1" :=
  ⟨_, redirectMade rfl (AList.lookup_insert _) rfl rfl, _, rfl, rfl⟩

theorem searchUnsecured : ¬ LeadsToTls textCrate hstsService (getSearch none) "http://localhost/search" :=
  neverSecured textCrateWrites searchRedirected

theorem searchToItself : ¬ ∀ req text, RedirectsTo textCrate hstsService req text →
    LeadsToTls textCrate hstsService req text := by
  intro claim
  obtain ⟨scheme, secure, given, counterpart, reads⟩ := (claim _ _ searchRedirected).secure
  cases Option.some.inj given
  cases Option.some.inj counterpart
  revert reads
  decide

theorem searchPreserved : Preserved (getSearch none).uri (readUri "http://localhost/search") :=
  (preservedIff textCrateWrites (searchShaped none (by simp)) searchRedirected).mpr ⟨rfl, rfl⟩

theorem queryDropped : ¬ ∀ req text, Shaped req.uri → RedirectsTo textCrate hstsService req text →
    Preserved req.uri (readUri text) := by
  intro claim
  have kept := (claim _ _ (searchShaped (some "q=1") (by simp; decide)) queryRedirected).query
  revert kept
  decide

theorem searchForms : TwoForms textCrate originSearch (getSearch none) "http" "localhost" :=
  ⟨⟨rfl, rfl⟩, rfl, rfl, rfl⟩

theorem searchGuarded : Guarded (RuntimeHost.config hstsHost) := ⟨rfl, rfl, rfl⟩

theorem searchPrintable : Printable (getSearch none).uri := by
  refine ⟨?_, ?_, (by decide), by simp [getSearch]⟩ <;>
  · intro text given
    cases Option.some.inj given
    decide

theorem formsApart : ¬ (Redirects textCrate hstsService originSearch ↔
    Redirects textCrate hstsService (getSearch none)) := by
  intro both
  exact (sameDecisionIff searchForms (AList.lookup_insert _) searchGuarded).2 textCrateTakes searchPrintable both

theorem originServed : ¬ ∀ origin absolute, TwoForms textCrate origin absolute "http" "localhost" →
    (Redirects textCrate hstsService origin ↔ Redirects textCrate hstsService absolute) := by
  intro claim
  obtain ⟨response, redirected, _⟩ := searchRedirected
  obtain ⟨response, origin⟩ := (claim _ _ searchForms).mpr ⟨response, redirected⟩
  exact originKept searchForms ⟨response, origin⟩

end VetisTokio.HstsRedirect
