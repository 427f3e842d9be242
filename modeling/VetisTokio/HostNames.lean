import VetisTokio.HostKeys
import VetisTokio.HostRouting

/-! The authority of a request against the keys of a table. HTTP has many spellings
for one host and port, the table has one. -/
namespace VetisTokio.HostNames
open HttpData ConfigData HostModel ServiceHttp DispatcherModel ListenerModel HostRoute HostRouting
  HostKeys

inductive Scheme where
  | http
  | https
  deriving DecidableEq, Repr

def Scheme.defaultPort : Scheme → UInt16
  | .http => 80
  | .https => 443

def decimalValue (digits : List Char) : Nat := digits.foldl (fun value digit => 10 * value + (digit.toNat - 48)) 0

structure Decimal (text : String) (value : Nat) : Prop where
  digits : text.toList ≠ [] ∧ ∀ c ∈ text.toList, c.isDigit = true
  value : decimalValue text.toList = value

def PortSpelled (scheme : Scheme) (port : UInt16) : Option String → Prop
  | none => port = scheme.defaultPort
  | some digits => Decimal digits port.toNat

/- One way of writing a host and a port in a request over a scheme. The scheme is that
of the URI, or where the URI has none, that of the connection. -/
structure Spelling (scheme : Scheme) (hostname : String) (port : UInt16) where
  name : String
  digits : Option String
  sameName : toLowercase name = toLowercase hostname
  samePort : PortSpelled scheme port digits

def written (name : String) (digits : Option String) : String :=
  match digits with
  | none => name
  | some text => name ++ ":" ++ text

def Spelling.text {scheme : Scheme} {hostname : String} {port : UInt16} (spelling : Spelling scheme hostname port) :
    String := written spelling.name spelling.digits

def keyDigits (port : UInt16) : Option String := if port ∈ TcpListener.bare then none else some (toString port)

theorem keyWritten (port : UInt16) (hostname : String) :
    hostKey TcpListener.bare port hostname = written hostname (keyDigits port) := by
  unfold hostKey keyDigits
  split_ifs <;> rfl

theorem writtenChars (name text : String) :
    (written name (some text)).toList = name.toList ++ ':' :: text.toList := by
  rw [written, String.toList_append, String.toList_append, List.append_assoc]
  rfl

theorem firstSplit {separator : Char} {before other after more : List Char} (plain : separator ∉ before)
    (clear : separator ∉ other) (same : before ++ separator :: after = other ++ separator :: more) :
    before = other ∧ after = more := by
  induction before generalizing other with
  | nil =>
    cases other with
    | nil => exact ⟨rfl, (List.cons.inj same).2⟩
    | cons c rest => exact absurd (List.cons.inj same).1 (fun head => clear (head ▸ List.mem_cons_self))
  | cons c rest ih =>
    cases other with
    | nil => exact absurd (List.cons.inj same).1 (fun head => plain (head ▸ List.mem_cons_self))
    | cons d others =>
      obtain ⟨rfl, tails⟩ := List.cons.inj same
      obtain ⟨rfl, rfl⟩ := ih (fun inside => plain (List.mem_cons_of_mem _ inside))
        (fun inside => clear (List.mem_cons_of_mem _ inside)) tails
      exact ⟨rfl, rfl⟩

theorem writtenInj {name other : String} {digits others : Option String} (plain : ':' ∉ name.toList)
    (clear : ':' ∉ other.toList) : written name digits = written other others ↔ name = other ∧ digits = others := by
  constructor
  · intro same
    cases digits with
    | none =>
      cases others with
      | none => exact ⟨same, rfl⟩
      | some text =>
        have chars : name.toList = (written other (some text)).toList := congrArg String.toList same
        rw [writtenChars] at chars
        exact absurd (by simp [chars]) plain
    | some text =>
      cases others with
      | none =>
        have chars : (written name (some text)).toList = other.toList := congrArg String.toList same
        rw [writtenChars] at chars
        exact absurd (by simp [← chars]) clear
      | some more =>
        have chars := congrArg String.toList same
        rw [writtenChars, writtenChars] at chars
        obtain ⟨first, rest⟩ := firstSplit plain clear chars
        exact ⟨String.toList_inj.mp first, congrArg some (String.toList_inj.mp rest)⟩
  · rintro ⟨rfl, rfl⟩
    rfl

section
variable {H : Type} {crate : HttpCrate} {service : HttpService H} {req : Request} {host : H}

def Finds (crate : HttpCrate) (service : HttpService H) (req : Request) (host : H) : Prop :=
  ∃ hostname, requestHostname crate req = some hostname ∧ service.hosts.lookup hostname = some host

theorem findsIff {hostname : String} (named : requestHostname crate req = some hostname) :
    Finds crate service req host ↔ service.hosts.lookup hostname = some host := by
  constructor
  · intro ⟨other, same, found⟩
    cases Option.some.inj (named.symm.trans same)
    exact found
  · intro found
    exact ⟨hostname, named, found⟩

theorem notFoundAnswered [RuntimeHost H] {hostname : String} (named : requestHostname crate req = some hostname)
    (missing : service.hosts.lookup hostname = none) : HasStatus (service.call crate req).response 502 := by
  simp only [HttpService.call, named, missing]
  exact ⟨_, rfl, rfl⟩

end

theorem foundBySpellingIff {service : HttpService Host} {config : ListenerConfig} {hosts : List Host}
    {l : TcpListener} {host : Host} {crate : HttpCrate} {req : Request} {scheme : Scheme}
    (added : hosts.foldlM TcpListener.addHost (TcpListener.new config) = .ok l) (served : service.hosts = l.hosts)
    (registered : l.hosts.lookup (hostKey TcpListener.bare config.port host.hostname) = some host)
    (dns : DnsName host.hostname) (spelling : Spelling scheme host.hostname config.port)
    (named : requestHostname crate req = some spelling.text) :
    Finds crate service req host ↔ spelling.name = host.hostname ∧ spelling.digits = keyDigits config.port := by
  rw [findsIff named, served, ← writtenInj (spelledNoColon dns spelling.sameName) (dnsNoColon dns), ← keyWritten]
  constructor
  · intro found
    rw [tcpFilled added] at found
    exact (filledSource found).2.symm
  · intro same
    rw [Spelling.text, same]
    exact registered

def echoListener : TcpListener := filled TcpListener.bare ⟨.v4 0, 443, 1⟩ [echoHost ["/"]]

def echoService : HttpService Host := ⟨echoListener.hosts, ⟨.v4 0, 40000⟩, none⟩

def getOf (authority : String) : Request :=
  ⟨"GET", ⟨some "https", some authority, "/", none⟩, .http2, [], fun _ => none⟩

def plainSpelling : Spelling .https "localhost" 443 := ⟨"localhost", none, rfl, rfl⟩

theorem decimal443 : Decimal "443" 443 := by
  have digits : "443".toList.all Char.isDigit = true := by decide
  exact ⟨⟨by decide, List.all_eq_true.mp digits⟩, rfl⟩

def explicitSpelling : Spelling .https "localhost" 443 := ⟨"localhost", some "443", rfl, decimal443⟩

theorem localhostDns : DnsName "localhost" := by decide

theorem echoRegisteredBare :
    echoListener.hosts.lookup (hostKey TcpListener.bare 443 (echoHost ["/"]).hostname) = some (echoHost ["/"]) := by
  rw [echoListener, filledLookup]
  exact List.find?_cons_of_pos (by decide)

theorem foundByPlainSpelling :
    Finds sampleRoutes.http echoService (getOf "localhost") (echoHost ["/"]) := by
  have added : [echoHost ["/"]].foldlM TcpListener.addHost (TcpListener.new ⟨.v4 0, 443, 1⟩) = .ok echoListener := rfl
  exact (foundBySpellingIff added rfl echoRegisteredBare localhostDns plainSpelling rfl).mpr ⟨rfl, rfl⟩

theorem explicitPortMissing : echoListener.hosts.lookup "localhost:443" = none := by
  rw [echoListener, filledLookup]
  decide

theorem explicitPortMissed : (¬ ∀ (spelling : Spelling .https "localhost" 443) (req : Request),
    requestHostname sampleRoutes.http req = some spelling.text →
      Finds sampleRoutes.http echoService req (echoHost ["/"])) ∧
    HasStatus ((HttpService.mk echoListener.hosts ⟨.v4 0, 40000⟩ none :
      HttpService (ServedHost sampleRoutes noFiles none)).call sampleRoutes.http (getOf "localhost:443")).response 502 := by
  have named : requestHostname sampleRoutes.http (getOf "localhost:443") = some "localhost:443" := rfl
  refine ⟨?_, notFoundAnswered named explicitPortMissing⟩
  intro claim
  have found := (findsIff named).mp (claim explicitSpelling (getOf "localhost:443") rfl)
  exact absurd (explicitPortMissing.symm.trans found) (by simp)

end VetisTokio.HostNames
