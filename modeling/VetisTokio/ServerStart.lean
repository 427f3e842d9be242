import VetisTokio.DispatcherRuns
import VetisTokio.Rt

/-! What a call of `start` leaves behind, when it succeeds and when one of the
listeners is the first to fail. -/
namespace VetisTokio.ServerStart
open HttpData ConfigData HostModel SignalChannel TlsFactory WorkerModel DispatcherModel DispatcherRuns ListenerModel Rt

variable {W : Type} {crates : Crates} {os : Os W} {w after : W}

def Listener.running : Listener → Bool
  | .tcp l => l.handle.isSome
  | .udp l => l.handle.isSome

def listening : Listener → Listener
  | .tcp l => .tcp (l.spawned (TcpDispatcher.new l.hosts l.config l.logger))
  | .udp l => .udp (l.spawned (UdpDispatcher.new l.hosts l.config l.logger))

def refused : Listener → Listener
  | .tcp l => .tcp l
  | .udp l => .udp { l with inner := none }

def reserved : Listener → Bool
  | .tcp _ => false
  | .udp l => l.inner.isSome

def tlsOk (crates : Crates) (l : Listener) : Prop := (createTlsConfig crates.rustls crates.order l.hosts).isOk = true

inductive ListenStep (crates : Crates) (l : Listener) : VetisResult Unit → Listener → Prop where
  | listens (tls : ∀ u, l = .udp u → tlsOk crates l) : ListenStep crates l (.ok ()) (listening l)
  | fails (e : VetisError) (free : ∀ t, l = .tcp t → t.inner = none) : ListenStep crates l (.error e) (refused l)

theorem quicConfigOk {hosts : VetisHosts Host} (ok : quicConfig crates os hosts = .ok ()) :
    (createTlsConfig crates.rustls crates.order hosts).isOk = true := by
  obtain ⟨tls, made, _⟩ := bindOkIff.mp ok
  rw [made]
  rfl

theorem endpointOk {hosts : VetisHosts Host} {socket : Socket} (ok : (quicEndpoint crates os hosts socket w).1 = .ok ()) :
    (createTlsConfig crates.rustls crates.order hosts).isOk = true := by
  unfold quicEndpoint at ok
  split at ok
  · simp at ok
  · rename_i made
    exact quicConfigOk made

theorem tcpListens (os : Os W) (l : TcpListener) (w : W) :
    (∃ after, TcpListener.listen os l w = (.ok (), l.spawned (TcpDispatcher.new l.hosts l.config l.logger), after)) ∨
    (l.inner = none ∧ ∃ e after, TcpListener.listen os l w = (.error e, l, after)) := by
  unfold TcpListener.listen
  cases kept : l.inner with
  | some socket => exact Or.inl ⟨w, rfl⟩
  | none =>
    rcases os.bindTcp l.addr w with ⟨result, after⟩
    cases result with
    | error text => exact Or.inr ⟨rfl, .bind text, after, rfl⟩
    | ok socket => exact Or.inl ⟨after, rfl⟩

theorem udpListens (crates : Crates) (os : Os W) (l : UdpListener) (w : W) :
    ((createTlsConfig crates.rustls crates.order l.hosts).isOk = true ∧ ∃ after, UdpListener.listen crates os l w =
      (.ok (), l.spawned (UdpDispatcher.new l.hosts l.config l.logger), after)) ∨
    (∃ e after, UdpListener.listen crates os l w = (.error e, { l with inner := none }, after)) := by
  unfold UdpListener.listen
  rcases l.socket os w with ⟨taken, between⟩
  cases taken with
  | error e => exact Or.inr ⟨e, between, rfl⟩
  | ok socket =>
    cases made : quicEndpoint crates os l.hosts socket between with
    | mk result after =>
      cases result with
      | error e => exact Or.inr ⟨e, after, by simp only [made]⟩
      | ok u => exact Or.inl ⟨endpointOk (congrArg Prod.fst made), after, by simp only [made]⟩

theorem listenSource (l : Listener) (w : W) :
    ListenStep crates l (l.listen crates os w).1 (l.listen crates os w).2.1 := by
  cases l with
  | tcp l =>
    rcases tcpListens os l w with ⟨after, same⟩ | ⟨free, e, after, same⟩
    · simp only [Listener.listen, same]
      exact .listens (by simp)
    · simp only [Listener.listen, same]
      refine .fails e ?_
      intro t equal
      cases equal
      exact free
  | udp l =>
    rcases udpListens crates os l w with ⟨tls, after, same⟩ | ⟨e, after, same⟩
    · simp only [Listener.listen, same]
      exact .listens (fun _ _ => tls)
    · simp only [Listener.listen, same]
      exact .fails e (by simp)

def FailsAt (crates : Crates) (os : Os W) : List Listener → W → Nat → Prop
  | [], _, _ => False
  | l :: _, w, 0 => ∃ e, ((l.setLogger ⟨⟩).listen crates os w).1 = .error e
  | l :: rest, w, k + 1 => ((l.setLogger ⟨⟩).listen crates os w).1 = .ok () ∧
      FailsAt crates os rest ((l.setLogger ⟨⟩).listen crates os w).2.2 k

theorem startCons (l : Listener) (rest : List Listener) (w : W) :
    startListeners crates os ⟨⟩ (l :: rest) w =
      match ((l.setLogger ⟨⟩).listen crates os w).1 with
      | .error e => (.error e, ((l.setLogger ⟨⟩).listen crates os w).2.1 :: rest,
          ((l.setLogger ⟨⟩).listen crates os w).2.2)
      | .ok _ => ((startListeners crates os ⟨⟩ rest ((l.setLogger ⟨⟩).listen crates os w).2.2).1,
          ((l.setLogger ⟨⟩).listen crates os w).2.1 ::
            (startListeners crates os ⟨⟩ rest ((l.setLogger ⟨⟩).listen crates os w).2.2).2.1,
          (startListeners crates os ⟨⟩ rest ((l.setLogger ⟨⟩).listen crates os w).2.2).2.2) := by
  rw [startListeners]
  rcases (l.setLogger ⟨⟩).listen crates os w with ⟨result, l', w'⟩
  cases result <;> rfl

theorem startedAll {listeners out : List Listener}
    (ok : startListeners crates os ⟨⟩ listeners w = (.ok (), out, after)) :
    out = listeners.map (fun l => listening (l.setLogger ⟨⟩)) ∧ ∀ u, Listener.udp u ∈ listeners → tlsOk crates (.udp u) := by
  induction listeners generalizing w out with
  | nil =>
    cases ok
    exact ⟨rfl, by simp⟩
  | cons l rest ih =>
    rw [startCons] at ok
    have source := @listenSource W crates os (l.setLogger ⟨⟩) w
    revert ok source
    rcases (l.setLogger ⟨⟩).listen crates os w with ⟨result, l', w'⟩
    intro ok source
    cases source with
    | fails e free => simp at ok
    | listens tls =>
      simp only [Prod.mk.injEq] at ok
      obtain ⟨first, rfl, last⟩ := ok
      obtain ⟨same, others⟩ := ih (Prod.ext first (Prod.ext rfl last))
      refine ⟨congrArg (listening (l.setLogger ⟨⟩) :: ·) same, ?_⟩
      intro u member
      rcases List.mem_cons.mp member with here | inside
      · subst here
        exact tls (u.setLogger ⟨⟩) rfl
      · exact others u inside

theorem loggerAgain (l : Listener) : (l.setLogger ⟨⟩).setLogger ⟨⟩ = l.setLogger ⟨⟩ := by
  cases l <;> rfl

theorem listeningRuns (l : Listener) : Listener.running (listening l) = true := by
  cases l <;> rfl

theorem refusedSame {l : Listener} (free : reserved l = false) : refused (l.setLogger ⟨⟩) = l.setLogger ⟨⟩ := by
  cases l with
  | tcp l => rfl
  | udp l =>
    simp only [reserved, Option.isSome_eq_false_iff, Option.isNone_iff_eq_none] at free
    simp [refused, Listener.setLogger, PortListener.setLogger, free]

theorem startEq (v : Vetis) (many : v.listeners ≠ []) (w : W) : v.start crates os w =
    ((startListeners crates os ⟨⟩ v.listeners w).1,
      ⟨v.config, (startListeners crates os ⟨⟩ v.listeners w).2.1, some ⟨⟩⟩,
      (startListeners crates os ⟨⟩ v.listeners w).2.2) := by
  unfold Vetis.start
  rw [if_neg (by simpa using many)]
  rfl

theorem failedLoop {listeners : List Listener} {k : Nat} (fails : FailsAt crates os listeners w k) :
    ∃ e out after, startListeners crates os ⟨⟩ listeners w = (.error e, out, after) ∧
      (k = 0 → ∃ l rest, listeners = l :: rest ∧ out = refused (l.setLogger ⟨⟩) :: rest) ∧
      (k ≠ 0 → ∃ l ∈ out, Listener.running l = true) := by
  induction listeners generalizing w k with
  | nil => cases k <;> contradiction
  | cons l rest ih =>
    have source := @listenSource W crates os (l.setLogger ⟨⟩) w
    rw [startCons]
    cases k with
    | zero =>
      obtain ⟨e, failed⟩ := fails
      revert failed source
      rcases (l.setLogger ⟨⟩).listen crates os w with ⟨result, l', w'⟩
      intro source failed
      cases source with
      | listens tls => simp at failed
      | fails e free => exact ⟨e, _, _, rfl, fun _ => ⟨l, rest, rfl, rfl⟩, fun other => absurd rfl other⟩
    | succ k =>
      obtain ⟨first, later⟩ := fails
      revert first later source
      rcases (l.setLogger ⟨⟩).listen crates os w with ⟨result, l', w'⟩
      intro source first later
      obtain ⟨e, out, after, loop, _, _⟩ := ih later
      cases source with
      | fails e free => simp at first
      | listens tls =>
        simp only [loop]
        refine ⟨e, _, after, rfl, by simp, fun _ => ⟨_, List.mem_cons_self, listeningRuns _⟩⟩

def NeverStarted (v : Vetis) : Prop := ∀ l ∈ v.listeners, Listener.running l = false

structure LeavesNothing (crates : Crates) (os : Os W) (v v' : Vetis) : Prop where
  nobody : ∀ l ∈ v'.listeners, Listener.running l = false
  sockets : v'.listeners.map Listener.inner = v.listeners.map Listener.inner
  again : ∀ w, v'.start crates os w = v.start crates os w

theorem leavesNothingFirst {v : Vetis} {l : Listener} {rest : List Listener} (fresh : NeverStarted v)
    (listeners : v.listeners = l :: rest) (free : reserved l = false) :
    LeavesNothing crates os v ⟨v.config, refused (l.setLogger ⟨⟩) :: rest, some ⟨⟩⟩ := by
  rw [refusedSame free]
  refine ⟨?_, ?_, ?_⟩
  · intro other member
    rcases List.mem_cons.mp member with rfl | inside
    · have quiet := fresh l (by simp [listeners])
      cases l <;> exact quiet
    · exact fresh other (by simp [listeners, inside])
  · rw [listeners]
    cases l <;> rfl
  · intro w
    rw [startEq _ (by simp), startEq v (by simp [listeners]), listeners, startCons, startCons, loggerAgain]

theorem failedStart {v v' : Vetis} {k : Nat} {result : VetisResult Unit} (fresh : NeverStarted v)
    (fails : FailsAt crates os v.listeners w k) (started : v.start crates os w = (result, v', after)) :
    (∃ e, result = .error e) ∧
      (LeavesNothing crates os v v' ↔ k = 0 ∧ ∀ l, v.listeners.head? = some l → reserved l = false) := by
  have many : v.listeners ≠ [] := by
    intro none
    rw [none] at fails
    cases k <;> contradiction
  obtain ⟨e, out, later, loop, first, runs⟩ := failedLoop fails
  rw [startEq v many, loop] at started
  cases started
  refine ⟨⟨e, rfl⟩, ?_, ?_⟩
  · intro leaves
    have place : k = 0 := by
      by_contra other
      obtain ⟨l, member, running⟩ := runs other
      rw [leaves.nobody l member] at running
      contradiction
    refine ⟨place, ?_⟩
    intro l head
    obtain ⟨l', rest, listeners, same⟩ := first place
    rw [listeners] at head
    cases Option.some.inj head
    have sockets := leaves.sockets
    rw [same, listeners] at sockets
    cases l with
    | tcp l => rfl
    | udp l =>
      have kept : none = l.inner := (List.cons.inj sockets).1
      simp [reserved, ← kept]
  · intro ⟨place, free⟩
    obtain ⟨l, rest, listeners, rfl⟩ := first place
    exact leavesNothingFirst fresh listeners (free l (by simp [listeners]))

def takenOs : Os Nat :=
  { sampleOs with bindTcp := fun addr w =>
      if addr.port = 80 then (.error "Address already in use", w) else sampleOs.bindTcp addr w }

def tcpOn (port : UInt16) : Listener := .tcp (TcpListener.new ⟨.v4 0, port, 1⟩)
def serverOn (ports : List UInt16) : Vetis := ⟨⟨[], 1⟩, ports.map tcpOn, none⟩

theorem neverStartedOn (ports : List UInt16) : NeverStarted (serverOn ports) := by
  intro l member
  obtain ⟨port, _, rfl⟩ := List.mem_map.mp member
  rfl

theorem firstTaken : ∃ result v' after, (serverOn [80]).start sampleCrates takenOs 0 = (result, v', after) ∧
    ((∃ e, result = .error e) ∧ (LeavesNothing sampleCrates takenOs (serverOn [80]) v' ↔
      0 = 0 ∧ ∀ l, (serverOn [80]).listeners.head? = some l → reserved l = false)) := by
  have started : (serverOn [80]).start sampleCrates takenOs 0 = (_, _, _) := rfl
  exact ⟨_, _, _, started, failedStart (neverStartedOn [80]) ⟨_, rfl⟩ started⟩

theorem secondTaken : ¬ ∀ (W : Type) (crates : Crates) (os : Os W) (v v' : Vetis) (w after : W) (k : Nat)
    (result : VetisResult Unit), NeverStarted v → FailsAt crates os v.listeners w k →
      v.start crates os w = (result, v', after) → LeavesNothing crates os v v' := by
  intro claim
  have leaves := claim Nat sampleCrates takenOs (serverOn [8080, 80]) _ 0 _ 1 _ (neverStartedOn _) ⟨rfl, _, rfl⟩ rfl
  have quiet := leaves.nobody _ List.mem_cons_self
  contradiction

/- No state of the dispatcher in which it can accept has fewer workers than the
configuration of its listener asks for. -/
def Staffed (crates : Crates) : Listener → Prop
  | .tcp l => ∀ start, l.handle = some start → ∀ labels d result next,
      Runs.run (TcpDispatcher.step crates) start labels = some d →
        d.step crates (.accept result) = some next → l.config.workers ≤ d.crew.workers.length
  | .udp l => ∀ start, l.handle = some start → ∀ labels d attempt next,
      Runs.run UdpDispatcher.step start labels = some d →
        d.step (.incoming attempt) = some next → l.config.workers ≤ d.crew.workers.length

structure EveryListenerServes (crates : Crates) (v : Vetis) : Prop where
  tls : ∀ l ∈ v.listeners, tlsOk crates l
  workers : ∀ l ∈ v.listeners, Staffed crates l

def tcpLooping : TcpPlace → Bool
  | .accepting | .logging | .sending _ => true
  | _ => false

def udpLooping : UdpPlace → Bool
  | .accepting | .handshaking _ | .sending _ => true
  | _ => false

structure TcpHired (crates : Crates) (hosts : VetisHosts Host) (config : ListenerConfig) (d : TcpDispatcher) :
    Prop where
  made : (createTlsConfig crates.rustls crates.order hosts).isOk = true
  sameHosts : d.hosts = hosts
  sameConfig : d.config = config
  workers : tcpLooping d.place = true → d.crew.workers.length = config.workers

theorem startHired {d : TcpDispatcher} (made : (createTlsConfig crates.rustls crates.order d.hosts).isOk = true) :
    d.start crates = { d with
      place := .accepting, crew := (d.crew.init d.config.workers).bounded d.config.workers } := by
  unfold TcpDispatcher.start TcpDispatcher.init
  cases tls : createTlsConfig crates.rustls crates.order d.hosts with
  | error e =>
    rw [tls] at made
    contradiction
  | ok tls => rfl

theorem loopsWhereWaiting {place : TcpPlace} (waiting : place.waits = true ∧ place ≠ .unpolled) :
    tcpLooping place = true := by
  cases place <;> simp_all [tcpLooping, TcpPlace.waits]

theorem tcpHiredStep {hosts : VetisHosts Host} {config : ListenerConfig} {d out : TcpDispatcher} {l : TcpLabel}
    (hired : TcpHired crates hosts config d) (taken : d.step crates l = some out) :
    TcpHired crates hosts config out := by
  have held : tcpLooping d.place = true → d.crew.workers.length = config.workers := hired.workers
  cases tcpMove taken with
  | poll place =>
    rw [startHired (hired.sameHosts ▸ hired.made)]
    exact ⟨hired.made, hired.sameHosts, hired.sameConfig, fun _ => by
      simp [Crew.bounded, Crew.init, hired.sameConfig]⟩
  | looped before after workers signal =>
    exact ⟨hired.made, hired.sameHosts, hired.sameConfig, fun _ => workers ▸ held (loopsWhereWaiting before)⟩
  | stopped waiting => exact ⟨hired.made, hired.sameHosts, hired.sameConfig, by simp [tcpLooping]⟩
  | joined place isOver => exact ⟨hired.made, hired.sameHosts, hired.sameConfig, by simp [tcpLooping]⟩
  | worker moved =>
    have same := (crewKeeps moved).2.2.2.2
    exact ⟨hired.made, hired.sameHosts, hired.sameConfig, fun looping => same.trans (held looping)⟩

structure UdpHired (config : ListenerConfig) (d : UdpDispatcher) : Prop where
  sameConfig : d.config = config
  workers : udpLooping d.place = true → d.crew.workers.length = config.workers

theorem udpHiredStep {config : ListenerConfig} {d out : UdpDispatcher} {l : UdpLabel} (hired : UdpHired config d)
    (taken : d.step l = some out) : UdpHired config out := by
  have held : udpLooping d.place = true → d.crew.workers.length = config.workers := hired.workers
  cases udpSource taken with
  | poll place =>
    exact ⟨hired.sameConfig, fun _ => by
      simp [UdpDispatcher.start, Crew.bounded, Crew.init, hired.sameConfig]⟩
  | incoming place => exact ⟨hired.sameConfig, fun _ => held (by rw [place]; rfl)⟩
  | shaken place => exact ⟨hired.sameConfig, fun _ => held (by rw [place]; rfl)⟩
  | refused place => exact ⟨hired.sameConfig, by simp [UdpDispatcher.returned, udpLooping]⟩
  | sent place room =>
    obtain ⟨_, rfl⟩ := sendSource room
    exact ⟨hired.sameConfig, fun _ => held (by rw [place]; rfl)⟩
  | closed place => exact ⟨hired.sameConfig, by simp [udpLooping]⟩
  | idle place => exact ⟨hired.sameConfig, by simp [UdpDispatcher.returned, udpLooping]⟩
  | stopped waiting => exact ⟨hired.sameConfig, by simp [udpLooping]⟩
  | joined place isOver => exact ⟨hired.sameConfig, by simp [UdpDispatcher.returned, udpLooping]⟩
  | worker moved =>
    have same := (crewKeeps moved).2.2.2.2
    exact ⟨hired.sameConfig, fun looping => same.trans (held looping)⟩

theorem listeningStaffed {l : Listener} (made : tlsOk crates l) : Staffed crates (listening l) := by
  cases l with
  | tcp l =>
    intro start handle labels d result next ran taken
    cases Option.some.inj handle
    have hired : TcpHired crates l.hosts l.config d := Runs.invariant (TcpHired crates l.hosts l.config) tcpHiredStep
      ⟨made, rfl, rfl, by simp [TcpDispatcher.new, tcpLooping]⟩ ran
    have looping : tcpLooping d.place = true := by
      cases tcpSource taken with
      | accepted place => rw [place]; rfl
      | logged place evaluated => rw [place]; rfl
      | skipped place ignored => rw [place]; rfl
      | discarded place => rw [place]; rfl
    exact Nat.le_of_eq (hired.workers looping).symm
  | udp l =>
    intro start handle labels d attempt next ran taken
    cases Option.some.inj handle
    have hired : UdpHired l.config d := Runs.invariant (UdpHired l.config) udpHiredStep
      ⟨rfl, by simp [UdpDispatcher.new, udpLooping]⟩ ran
    have looping : udpLooping d.place = true := by
      cases udpSource taken with
      | incoming place => rw [place]; rfl
    exact Nat.le_of_eq (hired.workers looping).symm

theorem listeningTls (l : Listener) : tlsOk crates (listening (l.setLogger ⟨⟩)) ↔ tlsOk crates l := by
  cases l <;> exact Iff.rfl

theorem startedListeners {v v' : Vetis} (started : v.start crates os w = (.ok (), v', after)) :
    v'.listeners = v.listeners.map (fun l => listening (l.setLogger ⟨⟩)) ∧
      ∀ u, Listener.udp u ∈ v.listeners → tlsOk crates (.udp u) := by
  have many : v.listeners ≠ [] := by
    intro none
    simp [Vetis.start, none] at started
  rw [startEq v many] at started
  simp only [Prod.mk.injEq] at started
  obtain ⟨ok, rfl, rfl⟩ := started
  exact startedAll (Prod.ext ok rfl)

theorem tlsOkIff {l : Listener} : tlsOk crates l ↔ LoadsEach crates.rustls (crates.order.hosts l.hosts) := by
  rw [← createdEach, tlsOk]
  cases createTlsConfig crates.rustls crates.order l.hosts with
  | ok tls => exact iff_of_true rfl ⟨tls, rfl⟩
  | error e => exact iff_of_false Bool.noConfusion (fun ⟨_, made⟩ => by contradiction)

theorem servesIff {v v' : Vetis} (started : v.start crates os w = (.ok (), v', after)) :
    EveryListenerServes crates v' ↔ ∀ l, Listener.tcp l ∈ v.listeners → tlsOk crates (.tcp l) := by
  obtain ⟨same, udp⟩ := startedListeners started
  refine ⟨?_, ?_⟩
  · intro serves l member
    refine (listeningTls (.tcp l)).mp (serves.tls _ ?_)
    rw [same]
    exact List.mem_map_of_mem member
  · intro tcp
    have made : ∀ l ∈ v'.listeners, ∃ l', l = listening (l'.setLogger ⟨⟩) ∧ tlsOk crates l' := by
      intro l member
      rw [same] at member
      obtain ⟨l', inside, rfl⟩ := List.mem_map.mp member
      refine ⟨l', rfl, ?_⟩
      cases l' with
      | tcp t => exact tcp t inside
      | udp u => exact udp u inside
    refine ⟨?_, ?_⟩
    · intro l member
      obtain ⟨l', rfl, ok⟩ := made l member
      exact (listeningTls l').mpr ok
    · intro l member
      obtain ⟨l', rfl, ok⟩ := made l member
      refine listeningStaffed ?_
      cases l' <;> exact ok

theorem startedServes {v v' : Vetis} (started : v.start crates os w = (.ok (), v', after)) :
    (EveryListenerServes crates v' ↔ ∀ l, Listener.tcp l ∈ v.listeners → tlsOk crates (.tcp l)) ∧
      ∀ l, Listener.tcp l ∈ v.listeners → (tlsOk crates (.tcp l) ↔ LoadsEach crates.rustls (crates.order.hosts l.hosts)) :=
  ⟨servesIff started, fun _ _ => tlsOkIff⟩

def httpsServer (tls : Option Tls) : Vetis :=
  ⟨⟨[], 1⟩, [.tcp ((TcpListener.new ⟨.v4 0, 443, 2⟩).insertHost TcpListener.bare
    ⟨{ hostname := "example.com", bindAddresses := [(.v4 0, 443)], protos := [.http11],
       tls := some ⟨"cert.der", "key.der"⟩ }, ∅, tls⟩)], none⟩

theorem keyedServerServes : ∃ v' after, (httpsServer (some ⟨[0x30], [0x30], none, []⟩)).start sampleCrates sampleOs 0 =
    (.ok (), v', after) ∧ EveryListenerServes sampleCrates v' := by
  have started : (httpsServer (some ⟨[0x30], [0x30], none, []⟩)).start sampleCrates sampleOs 0 = (.ok (), _, _) := rfl
  refine ⟨_, _, started, (startedServes started).1.mpr ?_⟩
  intro l member
  cases List.mem_singleton.mp member
  rfl

theorem brokenKeyStarts : ¬ ∀ (W : Type) (crates : Crates) (os : Os W) (v v' : Vetis) (w after : W),
    v.start crates os w = (.ok (), v', after) → EveryListenerServes crates v' := by
  intro claim
  have serves := claim Nat sampleCrates sampleOs (httpsServer (some ⟨[0x30], [], none, []⟩)) _ 0 _ rfl
  have made := serves.tls _ List.mem_cons_self
  unfold tlsOk at made
  exact absurd made (by decide)

end VetisTokio.ServerStart
