import VetisTokio.CrewShutdown

/-! The dispatchers on their way out. What guides a dispatcher is that its workers have a
signal to wait for while it waits itself, and that they are told or aborted before it
is gone. -/
namespace VetisTokio.DispatcherShutdown
open HttpData ConfigData SignalChannel WorkerModel WorkerRuns DispatcherModel DispatcherRuns DispatcherDrain ServerModel
  ListenerStop CrewShutdown

section
variable {crates : Crates} {d out : TcpDispatcher} {l : TcpLabel}

structure TcpGuided (d : TcpDispatcher) : Prop where
  manned : Manned d
  told : ∀ w ∈ d.crew.workers, Told w
  left : tcpOver d.place = true → d.crew.dropped = true

theorem newTcpGuided (hosts : VetisHosts HostModel.Host) (config : ListenerConfig) (logger : Option Logger) :
    TcpGuided (TcpDispatcher.new hosts config logger) :=
  ⟨newManned hosts config logger, List.forall_mem_nil _, fun isOver => by contradiction⟩

theorem toldHired {C : Type} {workers : Nat} : ∀ w ∈ List.replicate workers (Worker.new : Worker C), Told w := by
  intro w member
  rw [List.eq_of_mem_replicate member]
  exact newTold

theorem tcpGuidedStep (guided : TcpGuided d) (taken : d.step crates l = some out) : TcpGuided out := by
  have manned := mannedStep guided.manned taken
  cases tcpMove taken with
  | poll place =>
    refine ⟨manned, ?_, ?_⟩
    · unfold TcpDispatcher.start TcpDispatcher.init
      cases TlsFactory.createTlsConfig crates.rustls crates.order d.hosts with
      | ok tls => exact toldHired
      | error e => exact guided.told
    · unfold TcpDispatcher.start
      cases d.init crates <;> exact fun isOver => by contradiction
  | looped before after workers signal =>
    refine ⟨manned, workers ▸ guided.told, fun isOver => ?_⟩
    exact absurd after.1 (overPastWaiting isOver)
  | stopped waiting => exact ⟨manned, guided.told, fun isOver => by contradiction⟩
  | joined place isOver => exact ⟨manned, guided.told, fun _ => rfl⟩
  | worker moved =>
    exact ⟨manned, toldWorkers guided.told moved, fun isOver => (crewKeeps moved).2.2.1.trans (guided.left isOver)⟩

structure TcpGone (d : TcpDispatcher) : Prop where
  isOver : tcpOver d.place = true
  quiet : ∀ w ∈ d.crew.workers, Quiet w

def closingTcp : TcpLabel → Bool
  | .stop | .joined => true
  | .worker _ l => closing TcpWorker.protocol l
  | _ => false

def tcpLeft (d : TcpDispatcher) : Nat := placeLeft d.place + crewLeft d.crew

theorem tcpWorkerNearer (ready : Ready d.crew) (guided : TcpGuided d) (busy : ¬ ∀ w ∈ d.crew.workers, Quiet w) :
    ∃ l out, closingTcp l = true ∧ d.step crates l = some out ∧ tcpLeft out < tcpLeft d := by
  obtain ⟨i, l, crew, allowed, moved, less⟩ := crewNearer (p := TcpWorker.protocol) ready guided.told busy
  exact ⟨.worker i l, { d with crew := crew }, allowed, by simp only [TcpDispatcher.step, moved, Option.map_some],
    Nat.add_lt_add_left less _⟩

theorem tcpNearer (guided : TcpGuided d) (busy : ¬ TcpGone d) :
    ∃ l out, closingTcp l = true ∧ d.step crates l = some out ∧ tcpLeft out < tcpLeft d := by
  by_cases waits : d.place.waits = true
  · refine ⟨.stop, { d with place := .joining, crew := d.crew.stop }, rfl, if_pos waits, ?_⟩
    have two : placeLeft d.place = 2 := by
      cases place : d.place <;> simp_all [placeLeft, TcpPlace.waits]
    simp only [tcpLeft, crewLeft, two, Crew.stop]
    simp [placeLeft]
  · by_cases isOver : tcpOver d.place = true
    · exact tcpWorkerNearer (.inr (guided.left isOver)) guided fun quiet => busy ⟨isOver, quiet⟩
    · have place : d.place = .joining := by
        cases place : d.place <;> simp_all [tcpOver, TcpPlace.waits]
      by_cases joined : d.crew.joined = true
      · refine ⟨.joined, { d with place := .ended (.ok ()), crew := d.crew.drop }, rfl, if_pos ⟨place, joined⟩, ?_⟩
        simp [tcpLeft, crewLeft, place, placeLeft, Crew.drop]
      · have many : d.crew.workers ≠ [] := by
          intro none
          simp [Crew.joined, none] at joined
        refine tcpWorkerNearer (.inl (guided.manned.joining place many)) guided fun quiet => joined ?_
        exact List.all_eq_true.mpr fun w member => (quiet w member).isOver

end

section
variable {d out : UdpDispatcher} {l : UdpLabel}

structure UdpGuided (d : UdpDispatcher) : Prop where
  fresh : d.place = .unpolled → d.crew.workers = []
  waiting : d.place.waits = true → d.crew.workers ≠ [] → d.crew.signal = some channel
  joining : d.place = .joining → d.crew.workers ≠ [] → signalled d.crew.signal ⟨0⟩ = true
  told : ∀ w ∈ d.crew.workers, Told w
  left : udpOver d.place = true → d.crew.dropped = true

theorem newUdpGuided (hosts : VetisHosts HostModel.Host) (config : ListenerConfig) (logger : Option Logger) :
    UdpGuided (UdpDispatcher.new hosts config logger) :=
  ⟨fun _ => rfl, fun _ many => absurd rfl many, fun place => by contradiction, List.forall_mem_nil _,
    fun isOver => by contradiction⟩

theorem udpLooped (guided : UdpGuided d) (before : d.place.waits = true) {place : UdpPlace}
    (after : place.waits = true ∧ place ≠ .unpolled) {crew : Crew Connection} (workers : crew.workers = d.crew.workers)
    (signal : crew.signal = d.crew.signal) : UdpGuided { d with place := place, crew := crew } := by
  refine ⟨fun fresh => absurd fresh after.2, ?_, ?_, workers ▸ guided.told, ?_⟩
  · intro _ many
    exact signal.trans (guided.waiting before (workers ▸ many))
  · rintro rfl
    exact absurd after.1 (by decide)
  · intro isOver
    cases place <;> simp_all [udpOver, UdpPlace.waits]

theorem udpReturned (guided : UdpGuided d) (result : VetisResult Unit) : UdpGuided (d.returned result) :=
  ⟨fun place => by contradiction, fun waits => by contradiction, fun place => by contradiction, guided.told,
    fun _ => rfl⟩

theorem udpGuidedStep (guided : UdpGuided d) (taken : d.step l = some out) : UdpGuided out := by
  cases udpSource taken with
  | poll place =>
    exact ⟨fun place => by contradiction, fun _ _ => rfl, fun place => by contradiction, toldHired,
      fun isOver => by contradiction⟩
  | incoming place => exact udpLooped guided (by simp [place, UdpPlace.waits]) (by simp [UdpPlace.waits]) rfl rfl
  | shaken place => exact udpLooped guided (by simp [place, UdpPlace.waits]) (by simp [UdpPlace.waits]) rfl rfl
  | sent place room =>
    obtain ⟨_, rfl⟩ := sendSource room
    exact udpLooped guided (by simp [place, UdpPlace.waits]) (by simp [UdpPlace.waits]) rfl rfl
  | closed place => exact udpLooped guided (by simp [place, UdpPlace.waits]) (by simp [UdpPlace.waits]) rfl rfl
  | refused place => exact udpReturned guided _
  | idle place => exact udpReturned guided _
  | stopped waits =>
    refine ⟨fun place => by contradiction, fun waits => by contradiction, ?_, guided.told, fun isOver => by contradiction⟩
    intro _ many
    have signal := guided.waiting waits many
    simp only [Crew.stop, signal, Option.map_some]
    rfl
  | joined place isOver => exact udpReturned guided _
  | @worker i l crew moved =>
    obtain ⟨_, _, dropped, signal, count⟩ := crewKeeps moved
    have same : crew.workers ≠ [] → d.crew.workers ≠ [] := by
      intro many none
      rw [none] at count
      exact many (List.length_eq_zero_iff.mp count)
    refine ⟨?_, fun waits many => signal.trans (guided.waiting waits (same many)),
      fun place many => signal ▸ guided.joining place (same many), toldWorkers guided.told moved,
      fun isOver => dropped.trans (guided.left isOver)⟩
    intro place
    rw [guided.fresh place] at count
    exact List.length_eq_zero_iff.mp count

structure UdpGone (d : UdpDispatcher) : Prop where
  isOver : udpOver d.place = true
  quiet : ∀ w ∈ d.crew.workers, Quiet w

def closingUdp : UdpLabel → Bool
  | .stop | .joined => true
  | .worker _ l => closing UdpWorker.protocol l
  | _ => false

def udpPlaceLeft : UdpPlace → Nat
  | .ended _ => 0
  | .joining => 1
  | _ => 2

def udpLeft (d : UdpDispatcher) : Nat := udpPlaceLeft d.place + crewLeft d.crew

theorem udpWorkerNearer (ready : Ready d.crew) (guided : UdpGuided d) (busy : ¬ ∀ w ∈ d.crew.workers, Quiet w) :
    ∃ l out, closingUdp l = true ∧ d.step l = some out ∧ udpLeft out < udpLeft d := by
  obtain ⟨i, l, crew, allowed, moved, less⟩ := crewNearer (p := UdpWorker.protocol) ready guided.told busy
  exact ⟨.worker i l, { d with crew := crew }, allowed, by simp only [UdpDispatcher.step, moved, Option.map_some],
    Nat.add_lt_add_left less _⟩

theorem udpNearer (guided : UdpGuided d) (busy : ¬ UdpGone d) :
    ∃ l out, closingUdp l = true ∧ d.step l = some out ∧ udpLeft out < udpLeft d := by
  by_cases waits : d.place.waits = true
  · refine ⟨.stop, { d with place := .joining, crew := d.crew.stop }, rfl, if_pos waits, ?_⟩
    have two : udpPlaceLeft d.place = 2 := by
      cases place : d.place <;> simp_all [udpPlaceLeft, UdpPlace.waits]
    simp only [udpLeft, crewLeft, two, Crew.stop]
    simp [udpPlaceLeft]
  · by_cases isOver : udpOver d.place = true
    · exact udpWorkerNearer (.inr (guided.left isOver)) guided fun quiet => busy ⟨isOver, quiet⟩
    · have place : d.place = .joining := by
        cases place : d.place <;> simp_all [udpOver, UdpPlace.waits]
      by_cases joined : d.crew.joined = true
      · refine ⟨.joined, d.returned (.ok ()), rfl, if_pos ⟨place, joined⟩, ?_⟩
        simp [udpLeft, crewLeft, place, udpPlaceLeft, UdpDispatcher.returned, Crew.drop]
      · have many : d.crew.workers ≠ [] := by
          intro none
          simp [Crew.joined, none] at joined
        refine udpWorkerNearer (.inl (guided.joining place many)) guided fun quiet => joined ?_
        exact List.all_eq_true.mpr fun w member => (quiet w member).isOver

end

end VetisTokio.DispatcherShutdown
