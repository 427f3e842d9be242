import VetisTokio.TenantReach

/-! A started server as a map, from the hosts that were given to it to where each request
goes. The map knows of no listeners, tables or tasks, and the server agrees with it
exactly, in every state that it can reach. -/
namespace VetisTokio.RoutingMap
open HttpData ConfigData HostModel ServiceHttp DispatcherModel ListenerModel Rt KeyedCells Assembly ServerStart
  ServerModel ServerParts TenantReach Components

def destination (http3 : Bool) (hosts : List Host) (key : Key) (name : String) : Option Host :=
  (tables http3 hosts key).bind (fun table => table name)

def tcpDestination (crate : HttpCrate) (http3 : Bool) (hosts : List Host) (key : Key) (req : Request) :
    Option (Host × Request) := do
  let name ← requestHostname crate req
  let host ← destination http3 hosts key name
  if redirected host.config req.uri = none then some (host, req) else none

def udpDestination (http3 : Bool) (hosts : List Host) (key : Key) (req : Request) : Option (Host × Request) := do
  let name ← ServiceQuic.requestHostname req
  let host ← destination http3 hosts key name
  some (host, req)

def ListensAt (s : Server) (i : Nat) : Key → Prop
  | ⟨.tcp, interface, port⟩ => ∃ d, tcpAt i s = some d ∧ d.config.interface = interface ∧ d.config.port = port
  | ⟨.udp, interface, port⟩ => ∃ d, udpAt i s = some d ∧ d.config.interface = interface ∧ d.config.port = port

structure RoutesAs (http3 : Bool) (hosts : List Host) (s : Server) : Prop where
  listens : ∀ key, (∃ i, ListensAt s i key) ↔ ∃ host ∈ hosts, registers http3 key host = true
  single : ∀ key i j, ListensAt s i key → ListensAt s j key → i = j
  tcp : ∀ i d, tcpAt i s = some d → ∀ (crates : HostRoute.RouteCrates) (files : HostRoute.HostFiles)
    (service : HttpService (HostRoute.ServedHost crates files d.logger)), service.hosts = d.hosts → ∀ req,
      (service.call crates.http req).routed =
        tcpDestination crates.http http3 hosts ⟨.tcp, d.config.interface, d.config.port⟩ req
  udp : ∀ i d, udpAt i s = some d → ∀ (crates : HostRoute.RouteCrates) (files : HostRoute.HostFiles)
    (service : HttpService (HostRoute.ServedHost crates files d.logger)), service.hosts = d.hosts → ∀ req,
      (ServiceQuic.HttpService.call crates.http service req).routed =
        udpDestination http3 hosts ⟨.udp, d.config.interface, d.config.port⟩ req

section
variable {H : Type} [RuntimeHost H]

theorem httpCalled (crate : HttpCrate) (service : HttpService H) (req : Request) : (service.call crate req).routed = (do
    let name ← requestHostname crate req
    let host ← service.hosts.lookup name
    if redirected (RuntimeHost.config host) req.uri = none then some (host, req) else none) := by
  unfold HttpService.call
  cases requestHostname crate req with
  | none => rfl
  | some name =>
    cases found : service.hosts.lookup name with
    | none => simp [found]
    | some host => cases sent : redirected (RuntimeHost.config host) req.uri <;> simp [found, sent, routedAnswer]

theorem quicCalled (crate : HttpCrate) (service : HttpService H) (req : Request) :
    (ServiceQuic.HttpService.call crate service req).routed = (do
      let name ← ServiceQuic.requestHostname req
      let host ← service.hosts.lookup name
      some (host, req)) := by
  unfold ServiceQuic.HttpService.call
  cases ServiceQuic.requestHostname req with
  | none => rfl
  | some name => cases found : service.hosts.lookup name <;> simp [found]

end

section
variable {W : Type} {crates : Crates} {os : Os W} {fs : FileSystem} {http3 : Bool} {hosts : List Host} {v v' : Vetis}

structure Maps (http3 : Bool) (hosts : List Host) (listeners : List Listener) : Prop where
  distinct : Distinct listenerKey listeners
  map : represents listeners = tables http3 hosts

theorem mapsMore {workers : Nat} {host : Host} {listeners out : List Listener} {w after : W}
    (maps : Maps http3 hosts listeners) (given : PortsGiven host.config)
    (added : addHostToListeners crates os http3 workers host listeners w = .ok (out, after)) :
    Maps http3 (hosts ++ [host]) out := by
  rw [hostAdded given added]
  refine ⟨upsertAllDistinct (withHostKey host) (freshKey workers) _ maps.distinct, ?_⟩
  funext key
  rw [representsAdded, tablesMore, maps.map]

theorem builtMaps {b : VetisBuilder} (built : Built crates os http3 hosts b)
    (given : ∀ host ∈ hosts, PortsGiven host.config) : Maps http3 hosts b.listeners := by
  induction built with
  | builder default => exact ⟨List.nodup_nil, rfl⟩
  | config b config _ ih => exact ih given
  | addHost b made one _ call ih =>
    rw [List.forall_mem_append, List.forall_mem_singleton] at given
    obtain ⟨listeners, later, added, done⟩ := bindSource call
    cases Except.ok.inj done
    exact mapsMore (ih given.1) given.2 added

theorem loadedAll {configs : List HostConfig}
    (all : List.Forall₂ (fun config host => Host.new crates.vetis fs config = .ok host) configs hosts) :
    configs.filterMap (fun config => (Host.new crates.vetis fs config).toOption) = hosts := by
  induction all with
  | nil => rfl
  | cons made _ ih => rw [List.filterMap_cons_some (by rw [made]; rfl), ih]

theorem madeMaps (made : MadeOf crates os fs http3 hosts v) (given : ∀ host ∈ hosts, PortsGiven host.config) :
    Maps http3 hosts v.listeners := by
  cases made with
  | built calls => exact builtMaps calls given
  | config made =>
    obtain ⟨listeners, later, added, done⟩ := bindSource made
    cases Except.ok.inj done
    obtain ⟨hosts, all, calls⟩ := configAdds added
    rw [loaded, loadedAll all] at given ⊢
    obtain ⟨distinct, map⟩ := addedMap given calls
    exact ⟨distinct, map⟩

end

section
variable {W : Type} {crates : Crates} {os : Os W} {fs : FileSystem} {http3 : Bool} {hosts : List Host} {v v' : Vetis}
  {s : Server} {labels : List ServerLabel} {w after : W} {i : Nat}

theorem listensIff (started : v.start crates os w = (.ok (), v', after))
    (ran : Runs.run (Server.step crates) (Server.of v') labels = some s) (key : Key) :
    ListensAt s i key ↔ ∃ l, v.listeners[i]? = some l ∧ listenerKey l = key := by
  constructor
  · intro listens
    rcases key with ⟨_ | _, interface, port⟩
    · obtain ⟨d, here, rfl, rfl⟩ := listens
      obtain ⟨l, place, _, key⟩ := tcpTabled started ran here
      exact ⟨l, place, key⟩
    · obtain ⟨d, here, rfl, rfl⟩ := listens
      obtain ⟨l, place, _, key⟩ := udpTabled started ran here
      exact ⟨l, place, key⟩
  · rintro ⟨l, place, rfl⟩
    cases l with
    | tcp t =>
      have begun : tcpAt i (Server.of v') = some (TcpDispatcher.new t.hosts t.config (some ⟨⟩)) := by
        rw [tcpAt, Server.of, (startedListeners started).1, List.getElem?_map, place]
        rfl
      obtain ⟨d, there, _⟩ := partRun (tcpPart crates i (TcpDispatcher.new t.hosts t.config (some ⟨⟩))) trivial begun ran
      obtain ⟨l, again, _, key⟩ := tcpTabled started ran there
      cases Option.some.inj (place.symm.trans again)
      rw [key]
      exact ⟨d, there, rfl, rfl⟩
    | udp u =>
      have begun : udpAt i (Server.of v') = some (UdpDispatcher.new u.hosts u.config (some ⟨⟩)) := by
        rw [udpAt, Server.of, (startedListeners started).1, List.getElem?_map, place]
        rfl
      obtain ⟨d, there, _⟩ := partRun (udpPart crates i (UdpDispatcher.new u.hosts u.config (some ⟨⟩))) trivial begun ran
      obtain ⟨l, again, _, key⟩ := udpTabled started ran there
      cases Option.some.inj (place.symm.trans again)
      rw [key]
      exact ⟨d, there, rfl, rfl⟩

theorem tableReads (maps : Maps http3 hosts v.listeners) {l : Listener} (place : v.listeners[i]? = some l) (name : String) :
    l.hosts.lookup name = destination http3 hosts (listenerKey l) name := by
  have seen := viewOfMem maps.distinct (List.mem_of_getElem? place)
  rw [destination, ← maps.map, represents, seen]
  rfl

theorem tablesSome (key : Key) :
    (∃ table, tables http3 hosts key = some table) ↔ ∃ host ∈ hosts, registers http3 key host = true := by
  rw [← List.any_eq_true]
  unfold tables
  split <;> simp_all

theorem listensMap (maps : Maps http3 hosts v.listeners) (started : v.start crates os w = (.ok (), v', after))
    (ran : Runs.run (Server.step crates) (Server.of v') labels = some s) (key : Key) :
    (∃ i, ListensAt s i key) ↔ ∃ host ∈ hosts, registers http3 key host = true := by
  simp only [listensIff started ran]
  rw [← tablesSome, ← maps.map]
  constructor
  · rintro ⟨i, l, place, rfl⟩
    exact ⟨_, congrArg _ (viewOfMem maps.distinct (List.mem_of_getElem? place))⟩
  · rintro ⟨table, found⟩
    obtain ⟨l, seen, _⟩ := Option.map_eq_some_iff.mp found
    obtain ⟨member, same⟩ := viewSource seen
    obtain ⟨i, place⟩ := List.mem_iff_getElem?.mp member
    exact ⟨i, l, place, same⟩

theorem listensOnce (maps : Maps http3 hosts v.listeners) (started : v.start crates os w = (.ok (), v', after))
    (ran : Runs.run (Server.step crates) (Server.of v') labels = some s) {key : Key} {j : Nat} (here : ListensAt s i key)
    (there : ListensAt s j key) : i = j := by
  obtain ⟨l, place, rfl⟩ := (listensIff started ran key).mp here
  obtain ⟨other, also, same⟩ := (listensIff started ran (listenerKey l)).mp there
  have keys : (v.listeners.map listenerKey)[i]? = (v.listeners.map listenerKey)[j]? := by
    rw [List.getElem?_map, List.getElem?_map, place, also, Option.map_some, Option.map_some, same]
  have inside : i < (v.listeners.map listenerKey).length := by
    rw [List.length_map]
    exact (List.getElem?_eq_some_iff.mp place).1
  exact (List.getElem?_inj inside maps.distinct).mp keys

theorem tcpReads (maps : Maps http3 hosts v.listeners) (started : v.start crates os w = (.ok (), v', after))
    (ran : Runs.run (Server.step crates) (Server.of v') labels = some s) {d : TcpDispatcher} (here : tcpAt i s = some d)
    (name : String) : d.hosts.lookup name = destination http3 hosts ⟨.tcp, d.config.interface, d.config.port⟩ name := by
  obtain ⟨l, place, table, key⟩ := tcpTabled started ran here
  rw [← table, ← key]
  exact tableReads maps place name

theorem udpReads (maps : Maps http3 hosts v.listeners) (started : v.start crates os w = (.ok (), v', after))
    (ran : Runs.run (Server.step crates) (Server.of v') labels = some s) {d : UdpDispatcher} (here : udpAt i s = some d)
    (name : String) : d.hosts.lookup name = destination http3 hosts ⟨.udp, d.config.interface, d.config.port⟩ name := by
  obtain ⟨l, place, table, key⟩ := udpTabled started ran here
  rw [← table, ← key]
  exact tableReads maps place name

theorem routesAs (made : MadeOf crates os fs http3 hosts v) (given : ∀ host ∈ hosts, PortsGiven host.config)
    (started : v.start crates os w = (.ok (), v', after))
    (ran : Runs.run (Server.step crates) (Server.of v') labels = some s) : RoutesAs http3 hosts s := by
  have maps := madeMaps made given
  refine ⟨listensMap maps started ran, fun key i j => listensOnce maps started ran, ?_, ?_⟩
  · intro i d here crates files service same req
    have lookups : ∀ name, service.hosts.lookup name =
        destination http3 hosts ⟨.tcp, d.config.interface, d.config.port⟩ name := by
      intro name
      rw [same]
      exact tcpReads maps started ran here name
    refine (httpCalled crates.http service req).trans ?_
    simp only [lookups]
    rfl
  · intro i d here crates files service same req
    have lookups : ∀ name, service.hosts.lookup name =
        destination http3 hosts ⟨.udp, d.config.interface, d.config.port⟩ name := by
      intro name
      rw [same]
      exact udpReads maps started ran here name
    refine (quicCalled crates.http service req).trans ?_
    simp only [lookups]
    rfl

theorem portsGiven (one other : String) : ∀ host ∈ [plainHost one, plainHost other], PortsGiven host.config := by
  intro host member bindAddress inside
  simp only [List.mem_cons, List.not_mem_nil, or_false] at member
  rcases member with rfl | rfl <;> cases List.mem_singleton.mp inside <;> decide

theorem bothRoute : ∃ v' after s, (twoHosts "a" "b").build.start sampleCrates sampleOs 0 = (.ok (), v', after) ∧
    Runs.run (Server.step sampleCrates) (Server.of v') pollsBoth = some s ∧
      RoutesAs true [plainHost "a", plainHost "b"] s := by
  have started : (twoHosts "a" "b").build.start sampleCrates sampleOs 0 = (.ok (), _, _) := rfl
  have ran : Runs.run (Server.step sampleCrates) twoStarted pollsBoth = some _ := rfl
  exact ⟨_, _, _, started, ran, routesAs (twoMade "a" "b") (portsGiven "a" "b") started ran⟩

structure RoutesAlike (s other : Server) : Prop where
  listens : ∀ key, (∃ i, ListensAt s i key) ↔ ∃ i, ListensAt other i key
  tcp : ∀ i d, tcpAt i s = some d → ∃ j e, tcpAt j other = some e ∧ e.config.interface = d.config.interface ∧
    e.config.port = d.config.port ∧ ∀ name, e.hosts.lookup name = d.hosts.lookup name
  udp : ∀ i d, udpAt i s = some d → ∃ j e, udpAt j other = some e ∧ e.config.interface = d.config.interface ∧
    e.config.port = d.config.port ∧ ∀ name, e.hosts.lookup name = d.hosts.lookup name

theorem orderAlike {V : Type} {own : Crates} {system : Os V} {disk : FileSystem} {others : List Host} {u u' : Vetis}
    {other : Server} {past : List ServerLabel} {now later : V} (made : MadeOf crates os fs http3 hosts v)
    (given : ∀ host ∈ hosts, PortsGiven host.config) (started : v.start crates os w = (.ok (), v', after))
    (ran : Runs.run (Server.step crates) (Server.of v') labels = some s)
    (also : MadeOf own system disk http3 others u) (begun : u.start own system now = (.ok (), u', later))
    (went : Runs.run (Server.step own) (Server.of u') past = some other) (perm : others.Perm hosts)
    (apart : hosts.Pairwise (KeysApart http3)) : RoutesAlike s other := by
  have maps := madeMaps made given
  have second := madeMaps also fun host member => given host (perm.mem_iff.mp member)
  have listens : ∀ key, (∃ i, ListensAt s i key) ↔ ∃ i, ListensAt other i key := by
    intro key
    rw [listensMap maps started ran, listensMap second begun went]
    exact exists_congr fun host => and_congr_left fun _ => perm.mem_iff.symm
  have same : destination http3 others = destination http3 hosts := by
    unfold destination
    rw [tablesReordered perm apart]
  refine ⟨listens, ?_, ?_⟩
  · intro i d here
    obtain ⟨j, e, there, interface, port⟩ :=
      (listens ⟨.tcp, d.config.interface, d.config.port⟩).mp ⟨i, d, here, rfl, rfl⟩
    refine ⟨j, e, there, interface, port, fun name => ?_⟩
    rw [tcpReads second begun went there, tcpReads maps started ran here, same, interface, port]
  · intro i d here
    obtain ⟨j, e, there, interface, port⟩ :=
      (listens ⟨.udp, d.config.interface, d.config.port⟩).mp ⟨i, d, here, rfl, rfl⟩
    refine ⟨j, e, there, interface, port, fun name => ?_⟩
    rw [udpReads second begun went there, udpReads maps started ran here, same, interface, port]

theorem eitherOrder : ∃ v' u' after later s other,
    (twoHosts "a" "b").build.start sampleCrates sampleOs 0 = (.ok (), v', after) ∧
    (twoHosts "b" "a").build.start sampleCrates sampleOs 0 = (.ok (), u', later) ∧
    Runs.run (Server.step sampleCrates) (Server.of v') pollsBoth = some s ∧
    Runs.run (Server.step sampleCrates) (Server.of u') [] = some other ∧ RoutesAlike s other := by
  have started : (twoHosts "a" "b").build.start sampleCrates sampleOs 0 = (.ok (), _, _) := rfl
  have begun : (twoHosts "b" "a").build.start sampleCrates sampleOs 0 = (.ok (), _, _) := rfl
  have ran : Runs.run (Server.step sampleCrates) twoStarted pollsBoth = some _ := rfl
  have went : Runs.run (Server.step sampleCrates)
    (Server.of ((twoHosts "b" "a").build.start sampleCrates sampleOs 0).2.1) [] = some _ := rfl
  have apart : [plainHost "a", plainHost "b"].Pairwise (KeysApart true) := by
    rw [List.pairwise_pair]
    intro key _ _
    unfold tableKey
    split
    · decide
    · simp [plainHost, Host.hostname]
  exact ⟨_, _, _, _, _, _, started, begun, ran, went, orderAlike (twoMade "a" "b") (portsGiven "a" "b") started ran
    (twoMade "b" "a") begun went (.swap _ _ _) apart⟩

end

end VetisTokio.RoutingMap
