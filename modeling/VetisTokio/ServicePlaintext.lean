import VetisTokio.WorkerModel

/-! Requests that arrive without TLS. The service of a connection is the same on
both sides of the sniffing in `TcpWorker::run`, so all it can go by is the form
of the request and the flags of the host. -/
namespace VetisTokio.ServicePlaintext
open HttpData ConfigData ServiceHttp WorkerModel

variable {H : Type}

theorem serviceHosts {hosts : VetisHosts H} {logger : Option Logger} {stream : TcpStream} {tls : Bool}
    {service : HttpService H} (sniffed : TcpWorker.service hosts logger stream = .ok (tls, service)) :
    service.hosts = hosts := by
  obtain ⟨clientAddr, _, sniffed⟩ := bindOkIff.mp sniffed
  obtain ⟨seen, _, sniffed⟩ := bindOkIff.mp sniffed
  cases Except.ok.inj sniffed
  rfl

variable [RuntimeHost H]

structure Plaintext (crate : HttpCrate) (hosts : VetisHosts H) (logger : Option Logger) (stream : TcpStream)
    (service : HttpService H) (host : H) (req : Request) : Prop where
  sniffed : TcpWorker.service hosts logger stream = .ok (false, service)
  named : ∃ hostname, requestHostname crate req = some hostname ∧ hosts.lookup hostname = some host

def TlsOnly (host : H) : Prop :=
  (RuntimeHost.config host).tls.isSome = true ∧ (RuntimeHost.config host).allowUnsafeConnections = false

def NeverRouted (crate : HttpCrate) (service : HttpService H) (host : H) (req : Request) : Prop :=
  ∀ passed, (service.call crate req).routed ≠ some (host, passed)

theorem notRedirected {host : H} (tlsOnly : TlsOnly host) (uri : Uri) :
    redirected (RuntimeHost.config host) uri = none := by
  cases found : redirected (RuntimeHost.config host) uri with
  | none => rfl
  | some scheme =>
    have allowed := (redirectedSource found).2.2.1
    rw [tlsOnly.2] at allowed
    contradiction

theorem plaintextRouted {crate : HttpCrate} {hosts : VetisHosts H} {logger : Option Logger} {stream : TcpStream}
    {service : HttpService H} {host : H} {req : Request}
    (plaintext : Plaintext crate hosts logger stream service host req) (tlsOnly : TlsOnly host) :
    ¬ NeverRouted crate service host req := by
  intro never
  obtain ⟨hostname, named, found⟩ := plaintext.named
  rw [← serviceHosts plaintext.sniffed] at found
  have answer := callFound named found (notRedirected tlsOnly req.uri)
  exact never req (by rw [answer]; rfl)

structure FixedHost where
  config : HostConfig
  answer : Response

instance : RuntimeHost FixedHost := ⟨FixedHost.config, fun host _ => .ok host.answer⟩

def asciiCrate : HttpCrate where
  headerName text := .ok ⟨text⟩
  headerValue text := .ok ⟨text.toUTF8.toList⟩
  toStr value := some (String.ofList (value.bytes.map (fun b => Char.ofNat b.toNat)))
  textHeaders := []

def securedHost : FixedHost :=
  ⟨{ hostname := "example.com", bindAddresses := [(.v4 0, 80)], protos := [.http11],
      tls := some ⟨"cert.der", "key.der"⟩, enableHsts := true }, ⟨200, [], textBody "secret"⟩⟩

def securedHosts : VetisHosts FixedHost := (∅ : VetisHosts FixedHost).insert "example.com" securedHost
def plainGet : TcpStream := ⟨0, .ok ⟨.v4 0x7f000001, 40000⟩, .ok [0x47, 0x45]⟩
def getSecret : Request := ⟨"GET", ⟨some "http", some "example.com", "/secret", none⟩, .http11, [], fun _ => none⟩
def plainService : HttpService FixedHost := ⟨securedHosts, ⟨.v4 0x7f000001, 40000⟩, none⟩

theorem plainGetSniffed : Plaintext asciiCrate securedHosts none plainGet plainService securedHost getSecret :=
  ⟨rfl, "example.com", rfl, AList.lookup_insert _⟩

theorem secretRouted : TlsOnly securedHost ∧ ¬ NeverRouted asciiCrate plainService securedHost getSecret :=
  ⟨⟨rfl, rfl⟩, plaintextRouted plainGetSniffed ⟨rfl, rfl⟩⟩

theorem secretDisclosed : ¬ ∀ (service : HttpService FixedHost) (stream : TcpStream) (req : Request),
    Plaintext asciiCrate securedHosts none stream service securedHost req → TlsOnly securedHost →
      NeverRouted asciiCrate service securedHost req := by
  intro claim
  exact claim plainService plainGet getSecret plainGetSniffed ⟨rfl, rfl⟩ getSecret rfl

end VetisTokio.ServicePlaintext
