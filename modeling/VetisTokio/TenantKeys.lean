import VetisTokio.TenantReach
import VetisTokio.SniTable

/-! The certificates that a started server presents, traced back to the files that they
were read from. A resolver has a name of a table from the configuration of a host that is
bound there, with the pair that this configuration names, and from nowhere else. -/
namespace VetisTokio.TenantKeys
open HttpData ConfigData HostModel ServiceHttp TlsFactory DispatcherModel ListenerModel Rt HostKeys SniTable Assembly
  HostServed ServerModel ServerParts TenantReach

def PairOf (crates : Crates) (fs : FileSystem) (config : HostConfig) (tls : Tls) : Prop :=
  ∃ security cert key, config.tls = some security ∧ loadCertificate fs config.rootDirectory security = .ok cert ∧
    loadKey fs config.rootDirectory security = .ok key ∧ tls = crates.vetis.tlsFromCertAndKey cert key

structure OwnPair {W : Type} (crates : Crates) (os : Os W) (fs : FileSystem) (http3 : Bool) (key : Key) (own : HostConfig)
    (name : String) (certified : CertifiedKey) : Prop where
  speaks : serves http3 key.kind own = true
  bound : ∃ bindAddress ∈ own.bindAddresses, KeyFor os bindAddress key
  named : ':' ∉ own.hostname.toList → name = toLowercase own.hostname
  pair : ∃ tls der, PairOf crates fs own tls ∧ crates.rustls.privateKeyDer tls.key = some der ∧
    certified = ⟨tls.cert :: tls.ca.toList, der⟩

structure Presents {W : Type} (crates : Crates) (os : Os W) (fs : FileSystem) (http3 : Bool) (config : ServerConfig)
    (key : Key) (hosts : VetisHosts Host) : Prop where
  only : ∀ tls, createTlsConfig crates.rustls crates.order hosts = .ok tls → ∀ name certified,
    tls.resolver.lookup name = some certified → ∃ own ∈ config.hosts, OwnPair crates os fs http3 key own name certified
  every : ∀ tls, createTlsConfig crates.rustls crates.order hosts = .ok tls → ∀ name host,
    hosts.lookup name = some host → host.tls.isSome = true → toLowercase (sniHostname name) ∈ tls.resolver

section
variable {W : Type} {crates : Crates} {os : Os W} {fs : FileSystem} {http3 : Bool} {config : ServerConfig} {v v' : Vetis}
  {s : Server} {labels : List ServerLabel} {w now after : W}

theorem newPair {own : HostConfig} {host : Host} {tls : Tls} (made : Host.new crates.vetis fs own = .ok host)
    (has : host.tls = some tls) : PairOf crates fs own tls := by
  unfold Host.new at made
  cases found : own.tls with
  | none =>
    rw [found] at made
    cases Except.ok.inj made
    contradiction
  | some security =>
    rw [found] at made
    obtain ⟨cert, first, made⟩ := bindOkIff.mp made
    obtain ⟨key, second, made⟩ := bindOkIff.mp made
    cases Except.ok.inj made
    exact ⟨security, cert, key, found, first, second, (Option.some.inj has).symm⟩

theorem loadedSource {host : Host} (known : host ∈ loaded crates fs config) :
    ∃ own ∈ config.hosts, Host.new crates.vetis fs own = .ok host := by
  obtain ⟨own, member, made⟩ := List.mem_filterMap.mp known
  refine ⟨own, member, ?_⟩
  cases result : Host.new crates.vetis fs own with
  | error e => simp [result, Except.toOption] at made
  | ok again =>
    rw [result] at made
    exact congrArg Except.ok (Option.some.inj made)

theorem tableKeyRead (key : Key) (host : Host) (plain : ':' ∉ host.hostname.toList) :
    sniHostname (tableKey key host) = host.hostname := by
  unfold tableKey bareKey
  cases key.kind with
  | tcp => simpa [hostKey] using sniOfKey [80, 443] key.port plain
  | udp => simpa [hostKey] using sniOfKey [443] key.port plain

theorem tablePresents (adds : RustlsAdds crates.rustls) (through : GoesThrough crates.order) {l : Listener}
    (tenants : ∀ name host, l.hosts.lookup name = some host →
      host ∈ loaded crates fs config ∧ Tenant os http3 (listenerKey l) name host) :
    Presents crates os fs http3 config (listenerKey l) l.hosts := by
  refine ⟨?_, ?_⟩
  · intro tls made name certified found
    obtain ⟨out, folded, same, _⟩ := createSource made
    rw [same] at found
    rcases foldSound adds folded found with before | ⟨entry, inside, stored, tls, der, has, parsed, chained⟩
    · simp at before
    · obtain ⟨known, speaks, bound, named⟩ := tenants entry.1 entry.2 ((entryIff through).mp inside)
      obtain ⟨own, member, new⟩ := loadedSource known
      have config := newConfig new
      rw [config] at speaks bound
      refine ⟨own, member, speaks, bound, fun plain => ?_, tls, der, newPair new has, parsed, chained⟩
      have hostname : entry.2.hostname = own.hostname := congrArg HostConfig.hostname config
      rw [← stored, storedName, named, tableKeyRead _ _ (by rw [hostname]; exact plain), hostname]
  · intro tls made name host there has
    obtain ⟨out, folded, same, _⟩ := createSource made
    rw [same]
    exact (foldComplete adds folded).2 (name, host) ((entryIff through).mpr there) has

structure KeysFromFiles (crates : Crates) (os : Os W) (fs : FileSystem) (http3 : Bool) (config : ServerConfig) (s : Server) :
    Prop where
  tcp : ∀ i d, tcpAt i s = some d → Presents crates os fs http3 config ⟨.tcp, d.config.interface, d.config.port⟩ d.hosts
  udp : ∀ i d, udpAt i s = some d → Presents crates os fs http3 config ⟨.udp, d.config.interface, d.config.port⟩ d.hosts

theorem keysFromFiles (adds : RustlsAdds crates.rustls) (through : GoesThrough crates.order)
    (made : Vetis.fromConfig crates os fs http3 config now = .ok (v, w)) (started : v.start crates os w = (.ok (), v', after))
    (ran : Runs.run (Server.step crates) (Server.of v') labels = some s) : KeysFromFiles crates os fs http3 config s := by
  have tenants := configTenants made
  refine ⟨?_, ?_⟩
  · intro i d here
    obtain ⟨l, place, table, key⟩ := tcpTabled started ran here
    rw [← table, ← key]
    exact tablePresents adds through (tenants l (List.mem_of_getElem? place))
  · intro i d here
    obtain ⟨l, place, table, key⟩ := udpTabled started ran here
    rw [← table, ← key]
    exact tablePresents adds through (tenants l (List.mem_of_getElem? place))

end

def securedConfig (hostname directory : String) : HostConfig where
  hostname := hostname
  bindAddresses := [(.v4 0, 8443)]
  protos := [.http2]
  tls := some ⟨"cert.der", "key.der"⟩
  rootDirectory := some directory

def securedServer : ServerConfig := ⟨[securedConfig "a" "/a", securedConfig "b" "/b"], 1⟩

def pairFiles : FileSystem := ⟨fun _ => true, fun file => .ok [if file.startsWith "/a" then 1 else 2]⟩

theorem securedPresents : ∃ v w v' after s, Vetis.fromConfig sampleCrates sampleOs pairFiles false securedServer 0 = .ok (v, w) ∧
    v.start sampleCrates sampleOs w = (.ok (), v', after) ∧
      Runs.run (Server.step sampleCrates) (Server.of v') [.tcp 0 .poll] = some s ∧
        KeysFromFiles sampleCrates sampleOs pairFiles false securedServer s := by
  have made : Vetis.fromConfig sampleCrates sampleOs pairFiles false securedServer 0 = .ok (_, _) := rfl
  refine ⟨_, _, ?_, ?_, ?_, made, ?started, ?ran, keysFromFiles sampleAdds sampleThrough made ?started ?ran⟩
  case started => rfl
  case ran => rfl

end VetisTokio.TenantKeys
