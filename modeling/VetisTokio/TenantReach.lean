import VetisTokio.HostRoute
import VetisTokio.HostServed
import VetisTokio.ServerParts
import VetisTokio.ServiceQuic

/-! Which host a request can get to, from the calls that made the server to a request on
one of its connections. A host is found where it asked to be bound, on a listener of
a protocol that it speaks and under its own name, and nowhere else. -/
namespace VetisTokio.TenantReach
open HttpData ConfigData HostModel ServiceHttp TlsFactory WorkerModel DispatcherModel DispatcherRuns ListenerModel Rt
  KeyedCells Assembly AddHost HostServed ServerStart ServerModel ServerParts

structure Tenant {W : Type} (os : Os W) (http3 : Bool) (key : Key) (name : String) (host : Host) : Prop where
  speaks : serves http3 key.kind host.config = true
  bound : ∃ bindAddress ∈ host.config.bindAddresses, KeyFor os bindAddress key
  named : name = tableKey key host

def AllTenants {W : Type} (os : Os W) (http3 : Bool) (hosts : List Host) (listeners : List Listener) : Prop :=
  ∀ l ∈ listeners, ∀ name host, l.hosts.lookup name = some host → host ∈ hosts ∧ Tenant os http3 (listenerKey l) name host

section
variable {W : Type} {crates : Crates} {os : Os W} {fs : FileSystem} {http3 : Bool} {workers : Nat} {host : Host}
  {hosts : List Host} {listeners out : List Listener} {bindAddress : IpAddr × UInt16} {w after : W}

theorem tenantsMore {more : List Host} (inside : ∀ host ∈ hosts, host ∈ more) (all : AllTenants os http3 hosts listeners) :
    AllTenants os http3 more listeners := by
  intro l member name host found
  obtain ⟨known, tenant⟩ := all l member name host found
  exact ⟨inside host known, tenant⟩

theorem mergeTenants {kind : Kind} {config : ListenerConfig} {own : UInt16} {l : Listener}
    (made : MadeFor kind config own l) (merged : mergeHost host l listeners = .ok out) (known : host ∈ hosts)
    (speaks : serves http3 kind host.config = true) (address : bindAddress ∈ host.config.bindAddresses)
    (keyed : KeyFor os bindAddress ⟨kind, config.interface, own⟩) (all : AllTenants os http3 hosts listeners) :
    AllTenants os http3 hosts out := by
  rw [mergeUpsert] at merged
  cases Except.ok.inj merged
  have put : ∀ c, listenerKey c = listenerKey l →
      (∀ name host, c.hosts.lookup name = some host → host ∈ hosts ∧ Tenant os http3 (listenerKey c) name host) →
        ∀ name found, (withHost host c).hosts.lookup name = some found →
          found ∈ hosts ∧ Tenant os http3 (listenerKey (withHost host c)) name found := by
    intro c same before name found there
    rw [withHostLookup] at there
    rw [withHostKey]
    by_cases own : name = tableKey (listenerKey c) host
    · rw [own, Function.update_self] at there
      cases Option.some.inj there
      rw [same, made.key] at own ⊢
      exact ⟨known, speaks, ⟨bindAddress, address, keyed⟩, own⟩
    · rw [Function.update_of_ne own] at there
      exact before name found there
  refine upsertForallAt put (put l rfl ?_) all
  intro name found there
  simp [made.empty] at there

theorem addressTenants (added : addHostToAddress crates os http3 workers host listeners bindAddress w = .ok (out, after))
    (known : host ∈ hosts) (address : bindAddress ∈ host.config.bindAddresses) (all : AllTenants os http3 hosts listeners) :
    AllTenants os http3 hosts out := by
  obtain ⟨first, port, middle, tcp, rest⟩ := addressSource added
  have half : AllTenants os http3 hosts first ∧ (bindAddress.2 ≠ 0 → port = 0) ∧
      (port ≠ 0 → Reserved os.bindTcp os.localAddr port) := by
    rcases tcpMerged tcp with ⟨_, rfl, none, _⟩ | ⟨wanted, own, l, made, merged, given, chosen⟩
    · exact ⟨all, fun _ => none, fun some => absurd none some⟩
    · have keyed : KeyFor os bindAddress ⟨.tcp, bindAddress.1, own⟩ :=
        ⟨rfl, fun set => (given set).1, fun zero => .inl (chosen zero).2⟩
      refine ⟨mergeTenants made merged known wanted address keyed all, fun set => (given set).2, fun some => ?_⟩
      have zero : bindAddress.2 = 0 := by
        by_contra set
        exact some (given set).2
      rw [(chosen zero).1]
      exact (chosen zero).2
  obtain ⟨placed, fixed, reserved⟩ := half
  rcases rest with ⟨_, rfl, _⟩ | ⟨enabled, udp⟩
  · exact placed
  · rcases udpMerged udp with ⟨_, rfl, _⟩ | ⟨wanted, own, l, made, merged, handed, given, chosen⟩
    · exact placed
    · have speaks : serves http3 .udp host.config = true := by
        simp only [serves, enabled, Bool.true_and]
        exact wanted
      have keyed : KeyFor os bindAddress ⟨.udp, bindAddress.1, own⟩ := by
        refine ⟨rfl, fun set => given (fixed set) set, fun zero => ?_⟩
        by_cases none : port = 0
        · exact .inr (chosen none zero)
        · refine .inl ?_
          rw [handed none]
          exact reserved none
      exact mergeTenants made merged known speaks address keyed placed

theorem hostTenants (added : addHostToListeners crates os http3 workers host listeners w = .ok (out, after))
    (known : host ∈ hosts) (all : AllTenants os http3 hosts listeners) : AllTenants os http3 hosts out := by
  refine foldKeeps (P := AllTenants os http3 hosts) ?_ added all
  exact fun bindAddress member listeners w out after call => addressTenants call known member

inductive Built (crates : Crates) (os : Os W) (http3 : Bool) : List Host → VetisBuilder → Prop where
  | builder (default : ServerConfig) : Built crates os http3 [] (Vetis.builder default)
  | config {given : List Host} (b : VetisBuilder) (config : ServerConfig) : Built crates os http3 given b →
      Built crates os http3 given (b.setConfig config)
  | addHost {given : List Host} {now later : W} (b made : VetisBuilder) (one : Host) : Built crates os http3 given b →
      b.addHost crates os http3 one now = .ok (made, later) → Built crates os http3 (given ++ [one]) made

theorem builtTenants {b : VetisBuilder} (built : Built crates os http3 hosts b) : AllTenants os http3 hosts b.listeners := by
  induction built with
  | builder default => simp [AllTenants, Vetis.builder]
  | config b config _ ih => exact ih
  | addHost b made one _ call ih =>
    obtain ⟨listeners, later, added, done⟩ := bindSource call
    cases Except.ok.inj done
    exact hostTenants added (by simp) (tenantsMore (by simp +contextual) ih)

def loaded (crates : Crates) (fs : FileSystem) (config : ServerConfig) : List Host :=
  config.hosts.filterMap (fun config => (Host.new crates.vetis fs config).toOption)

theorem configTenants {config : ServerConfig} {v : Vetis}
    (made : Vetis.fromConfig crates os fs http3 config w = .ok (v, after)) :
    AllTenants os http3 (loaded crates fs config) v.listeners := by
  obtain ⟨listeners, last, added, done⟩ := bindSource made
  cases Except.ok.inj done
  refine foldKeeps (P := AllTenants os http3 (loaded crates fs config)) ?_ added (by simp [AllTenants])
  intro own member listeners w out after call
  obtain ⟨host, middle, lifted, added⟩ := bindSource call
  have new := (liftSource lifted).1
  refine hostTenants added (List.mem_filterMap.mpr ⟨own, member, ?_⟩)
  rw [new]
  rfl

inductive MadeOf (crates : Crates) (os : Os W) (fs : FileSystem) (http3 : Bool) : List Host → Vetis → Prop where
  | built {given : List Host} {b : VetisBuilder} (calls : Built crates os http3 given b) :
      MadeOf crates os fs http3 given b.build
  | config {config : ServerConfig} {v : Vetis} {now later : W}
      (made : Vetis.fromConfig crates os fs http3 config now = .ok (v, later)) :
      MadeOf crates os fs http3 (loaded crates fs config) v

theorem madeTenants {v : Vetis} (made : MadeOf crates os fs http3 hosts v) :
    AllTenants os http3 hosts v.listeners := by
  cases made with
  | built calls => exact builtTenants calls
  | config made => exact configTenants made

end

section
variable {crates : Crates} {d out : TcpDispatcher} {l : TcpLabel}

theorem tcpTable (taken : d.step crates l = some out) : out.hosts = d.hosts ∧ out.config = d.config := by
  cases tcpSource taken with
  | poll place =>
    unfold TcpDispatcher.start
    cases d.init crates <;> exact ⟨rfl, rfl⟩
  | _ => exact ⟨rfl, rfl⟩

end

theorem udpTable {d out : UdpDispatcher} {l : UdpLabel} (taken : d.step l = some out) :
    out.hosts = d.hosts ∧ out.config = d.config := by
  cases udpSource taken <;> exact ⟨rfl, rfl⟩

section
variable {W : Type} {crates : Crates} {os : Os W} {fs : FileSystem} {http3 : Bool} {hosts : List Host} {v v' : Vetis}
  {s : Server} {labels : List ServerLabel} {w after : W}

theorem tcpTabled (started : v.start crates os w = (.ok (), v', after))
    (ran : Runs.run (Server.step crates) (Server.of v') labels = some s) {i : Nat} {d : TcpDispatcher}
    (here : tcpAt i s = some d) : ∃ l, v.listeners[i]? = some l ∧ l.hosts = d.hosts ∧
      listenerKey l = ⟨.tcp, d.config.interface, d.config.port⟩ := by
  obtain ⟨table, config, logger, begun, own⟩ := (tcpAlone started ran here).dispatcher
  have kept := Runs.invariant (fun d : TcpDispatcher => d.hosts = table ∧ d.config = config)
    (fun before taken => ⟨(tcpTable taken).1.trans before.1, (tcpTable taken).2.trans before.2⟩) ⟨rfl, rfl⟩ own
  rw [tcpAt, Server.of, (startedListeners started).1, List.getElem?_map] at begun
  obtain ⟨l, place, handle⟩ := Option.bind_eq_some_iff.mp begun
  obtain ⟨given, found, rfl⟩ := Option.map_eq_some_iff.mp place
  cases given with
  | udp u => contradiction
  | tcp t =>
    cases Option.some.inj handle
    refine ⟨.tcp t, found, kept.1.symm, ?_⟩
    rw [kept.2]
    rfl

theorem udpTabled (started : v.start crates os w = (.ok (), v', after))
    (ran : Runs.run (Server.step crates) (Server.of v') labels = some s) {i : Nat} {d : UdpDispatcher}
    (here : udpAt i s = some d) : ∃ l, v.listeners[i]? = some l ∧ l.hosts = d.hosts ∧
      listenerKey l = ⟨.udp, d.config.interface, d.config.port⟩ := by
  obtain ⟨table, config, logger, begun, own⟩ := (udpAlone started ran here).dispatcher
  have kept := Runs.invariant (fun d : UdpDispatcher => d.hosts = table ∧ d.config = config)
    (fun before taken => ⟨(udpTable taken).1.trans before.1, (udpTable taken).2.trans before.2⟩) ⟨rfl, rfl⟩ own
  rw [udpAt, Server.of, (startedListeners started).1, List.getElem?_map] at begun
  obtain ⟨l, place, handle⟩ := Option.bind_eq_some_iff.mp begun
  obtain ⟨given, found, rfl⟩ := Option.map_eq_some_iff.mp place
  cases given with
  | tcp t => contradiction
  | udp u =>
    cases Option.some.inj handle
    refine ⟨.udp u, found, kept.1.symm, ?_⟩
    rw [kept.2]
    rfl

/- Where a request is routed to on a listener, it is passed on as it is to a host that was
given to the server, that speaks the listener's protocol, asked for its address and has
the name that the request gives. -/
structure Owned (os : Os W) (http3 : Bool) (hosts : List Host) (key : Key) (named : Option String) (req : Request)
    (routed : Option (Host × Request)) : Prop where
  only : ∀ host passed, routed = some (host, passed) → host ∈ hosts ∧ passed = req ∧
    ∃ name, named = some name ∧ Tenant os http3 key name host

structure OwnersOnly (os : Os W) (http3 : Bool) (hosts : List Host) (s : Server) : Prop where
  tcp : ∀ i d, tcpAt i s = some d → ∀ (crates : HostRoute.RouteCrates) (files : HostRoute.HostFiles)
    (service : HttpService (HostRoute.ServedHost crates files d.logger)), service.hosts = d.hosts → ∀ req,
      Owned os http3 hosts ⟨.tcp, d.config.interface, d.config.port⟩ (requestHostname crates.http req) req
        (service.call crates.http req).routed
  udp : ∀ i d, udpAt i s = some d → ∀ (crates : HostRoute.RouteCrates) (files : HostRoute.HostFiles)
    (service : HttpService (HostRoute.ServedHost crates files d.logger)), service.hosts = d.hosts → ∀ req,
      Owned os http3 hosts ⟨.udp, d.config.interface, d.config.port⟩ (ServiceQuic.requestHostname req) req
        (ServiceQuic.HttpService.call crates.http service req).routed

theorem quicRouted {H : Type} [RuntimeHost H] {crate : HttpCrate} {service : HttpService H} {req passed : Request} {host : H}
    (h : (ServiceQuic.HttpService.call crate service req).routed = some (host, passed)) :
    passed = req ∧ ∃ hostname, ServiceQuic.requestHostname req = some hostname ∧
      service.hosts.lookup hostname = some host := by
  unfold ServiceQuic.HttpService.call at h
  split at h <;> try contradiction
  rename_i hostname named
  split at h <;> try contradiction
  rename_i found
  simp only [Option.some.injEq, Prod.mk.injEq] at h
  exact ⟨h.2.symm, hostname, named, h.1 ▸ found⟩

theorem ownersOnly (made : MadeOf crates os fs http3 hosts v) (started : v.start crates os w = (.ok (), v', after))
    (ran : Runs.run (Server.step crates) (Server.of v') labels = some s) : OwnersOnly os http3 hosts s := by
  have tenants := madeTenants made
  refine ⟨?_, ?_⟩
  · intro i d here crates files service same req
    obtain ⟨l, place, table, key⟩ := tcpTabled started ran here
    refine ⟨?_⟩
    intro host passed routed
    obtain ⟨unchanged, name, named, found⟩ := callRouted (H := HostRoute.ServedHost crates files d.logger) routed
    rw [same, ← table] at found
    obtain ⟨known, tenant⟩ := tenants l (List.mem_of_getElem? place) name host found
    exact ⟨known, unchanged, name, named, key ▸ tenant⟩
  · intro i d here crates files service same req
    obtain ⟨l, place, table, key⟩ := udpTabled started ran here
    refine ⟨?_⟩
    intro host passed routed
    obtain ⟨unchanged, name, named, found⟩ := quicRouted (H := HostRoute.ServedHost crates files d.logger) routed
    rw [same, ← table] at found
    obtain ⟨known, tenant⟩ := tenants l (List.mem_of_getElem? place) name host found
    exact ⟨known, unchanged, name, named, key ▸ tenant⟩

def oneOf (hostname : String) : VetisBuilder :=
  ⟨⟨[], 1⟩, [.tcp ((TcpListener.new ⟨.v4 0, 8080, 1⟩).insertHost TcpListener.bare (plainHost hostname))]⟩

def twoHosts (one other : String) : VetisBuilder :=
  ⟨⟨[], 1⟩, [.tcp (((TcpListener.new ⟨.v4 0, 8080, 1⟩).insertHost TcpListener.bare (plainHost one)).insertHost
    TcpListener.bare (plainHost other))]⟩

theorem twoBuilt (one other : String) :
    Built sampleCrates sampleOs true [plainHost one, plainHost other] (twoHosts one other) := by
  have first : (Vetis.builder ⟨[], 1⟩).addHost sampleCrates sampleOs true (plainHost one) 0 = .ok (oneOf one, 0) := rfl
  have second : (oneOf one).addHost sampleCrates sampleOs true (plainHost other) 0 = .ok (twoHosts one other, 0) := rfl
  exact .addHost _ _ _ (.addHost _ _ _ (.builder ⟨[], 1⟩) first) second

theorem twoMade (one other : String) : MadeOf sampleCrates sampleOs BuilderConfig.bareFiles true
    [plainHost one, plainHost other] (twoHosts one other).build := .built (twoBuilt one other)

def pollsBoth : List ServerLabel := [.tcp 0 .poll, .tcp 0 (.worker 0 .poll)]

def twoStarted : Server := Server.of ((twoHosts "a" "b").build.start sampleCrates sampleOs 0).2.1

theorem twoOwners : ∃ v' after s, (twoHosts "a" "b").build.start sampleCrates sampleOs 0 = (.ok (), v', after) ∧
    Runs.run (Server.step sampleCrates) (Server.of v') pollsBoth = some s ∧
      OwnersOnly sampleOs true [plainHost "a", plainHost "b"] s := by
  have started : (twoHosts "a" "b").build.start sampleCrates sampleOs 0 = (.ok (), _, _) := rfl
  have ran : Runs.run (Server.step sampleCrates) twoStarted pollsBoth = some _ := rfl
  exact ⟨_, _, _, started, ran, ownersOnly (twoMade "a" "b") started ran⟩

end

end VetisTokio.TenantReach
