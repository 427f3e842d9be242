import VetisTokio.DispatcherRuns

/-! The accept loop of the UDP dispatcher. It waits for each handshake in place
and returns with the first one that fails; the dispatcher goes with it, and so do
the workers in its join set. -/
namespace VetisTokio.UdpAccept
open HttpData ConfigData HostModel SignalChannel WorkerModel WorkerRuns DispatcherModel DispatcherRuns

def attempted : UdpLabel → Option Attempt
  | .incoming attempt => some attempt
  | _ => none

def incomings (labels : List UdpLabel) : List Attempt := labels.filterMap attempted

def successes (attempts : List Attempt) : List Connection := attempts.filterMap Except.toOption

def isFailure (attempt : Attempt) : Bool := !attempt.isOk

def Undisturbed : UdpLabel → Prop
  | .stop | .closed => False
  | _ => True

def shaking : UdpPlace → List Attempt
  | .handshaking attempt => [attempt]
  | _ => []

def inHand : UdpPlace → List Connection
  | .sending conn => [conn]
  | _ => []

def passed (d : UdpDispatcher) : List Connection := d.crew.sent ++ inHand d.place

structure Alive (crew : Crew Connection) : Prop where
  kept : crew.dropped = false
  quiet : signalled crew.signal ⟨0⟩ = false
  running : ∀ w ∈ crew.workers, Running w

theorem udpRunning {w next : Worker Connection} {l : Label Connection} (running : Running w)
    (closed : l ≠ .closed) (stop : l ≠ .stop) (dropped : l ≠ .dropped)
    (taken : w.step UdpWorker.protocol l = some next) : Running next := by
  cases stepSource taken with
  | poll place => simp [Running]
  | received place known => simp [Running]
  | unknown place fails => simp [UdpWorker.protocol] at fails
  | spawned place read => simp [Running, Worker.spawn]
  | unreadable place fails => simp [UdpWorker.protocol] at fails
  | inserted place => simp [Running]
  | closed place => exact absurd rfl closed
  | stopped place => exact absurd rfl stop
  | dropped place => exact absurd rfl dropped
  | task found moved => exact running

theorem aliveStep {crew out : Crew Connection} {i : Nat} {l : Label Connection} (alive : Alive crew)
    (taken : crew.step UdpWorker.protocol i l = some out) : Alive out := by
  have permitted := (crewSource taken).permitted
  obtain ⟨_, _, dropped, signal, _⟩ := crewKeeps taken
  refine ⟨dropped.trans alive.kept, signal ▸ alive.quiet, ?_⟩
  refine crewForall alive.running ?_ taken
  intro w next _ running moved
  refine udpRunning running ?_ ?_ ?_ moved
  · intro same
    subst l
    simp [Crew.permits, alive.kept] at permitted
  · intro same
    subst l
    simp [Crew.permits, alive.quiet] at permitted
  · intro same
    subst l
    simp [Crew.permits, alive.kept] at permitted

structure Forwarding (past : List UdpLabel) (d : UdpDispatcher) : Prop where
  settled : d.place.waits = true ∨ ∃ result, d.place = .ended result
  idle : d.place ≠ .idle
  all : d.place.waits = true → incomings past = (passed d).map .ok ++ shaking d.place
  alive : d.place.waits = true → Alive d.crew
  ended : ∀ result, d.place = .ended result → ∃ text, incomings past = d.crew.sent.map .ok ++ [.error text]

variable {d out : UdpDispatcher} {past labels : List UdpLabel} {l : UdpLabel}

theorem newForwarding (hosts : VetisHosts Host) (config : ListenerConfig) (logger : Option Logger) :
    Forwarding [] (UdpDispatcher.new hosts config logger) :=
  ⟨Or.inl rfl, by simp [UdpDispatcher.new], fun _ => rfl, fun _ => ⟨rfl, rfl, by simp [UdpDispatcher.new, Crew.new]⟩,
    by simp [UdpDispatcher.new]⟩

theorem incomingsMore (past : List UdpLabel) (l : UdpLabel) :
    incomings (past ++ [l]) = incomings past ++ (attempted l).toList :=
  Runs.observedMore attempted past l

theorem forwardingStep (forwarding : Forwarding past d) (calm : Undisturbed l) (taken : d.step l = some out) :
    Forwarding (past ++ [l]) out := by
  cases udpSource taken with
  | poll place =>
    have waits : d.place.waits = true := by rw [place]; rfl
    have all := forwarding.all waits
    have alive := forwarding.alive waits
    refine ⟨Or.inl rfl, by simp [UdpDispatcher.start], fun _ => ?_, fun _ => ?_, by simp [UdpDispatcher.start]⟩
    · simpa [incomingsMore, attempted, passed, place, inHand, shaking, UdpDispatcher.start, Crew.bounded, Crew.init]
        using all
    · refine ⟨alive.kept, rfl, ?_⟩
      intro w member
      rw [List.eq_of_mem_replicate member]
      simp [Running, Worker.new]
  | @incoming attempt place =>
    have waits : d.place.waits = true := by rw [place]; rfl
    have all := forwarding.all waits
    refine ⟨Or.inl rfl, by simp, fun _ => ?_, fun _ => forwarding.alive waits, by simp⟩
    simpa [incomingsMore, attempted, passed, place, inHand, shaking] using all
  | @shaken conn place =>
    have waits : d.place.waits = true := by rw [place]; rfl
    have all := forwarding.all waits
    refine ⟨Or.inl rfl, by simp, fun _ => ?_, fun _ => forwarding.alive waits, by simp⟩
    simpa [incomingsMore, attempted, passed, place, inHand, shaking] using all
  | @refused text place =>
    have waits : d.place.waits = true := by rw [place]; rfl
    have all := forwarding.all waits
    refine ⟨Or.inr ⟨_, rfl⟩, by simp [UdpDispatcher.returned], ?_, ?_, ?_⟩
    · simp [UdpDispatcher.returned, UdpPlace.waits]
    · simp [UdpDispatcher.returned, UdpPlace.waits]
    · intro result _
      refine ⟨text, ?_⟩
      simpa [incomingsMore, attempted, passed, place, inHand, shaking, UdpDispatcher.returned, Crew.drop] using all
  | @sent conn crew place room =>
    have waits : d.place.waits = true := by rw [place]; rfl
    have all := forwarding.all waits
    have alive := forwarding.alive waits
    obtain ⟨_, rfl⟩ := sendSource room
    refine ⟨Or.inl rfl, by simp, fun _ => ?_, fun _ => ⟨alive.kept, alive.quiet, alive.running⟩, by simp⟩
    simpa [incomingsMore, attempted, passed, place, inHand, shaking] using all
  | closed place => exact absurd calm (by simp [Undisturbed])
  | idle place => exact absurd place forwarding.idle
  | stopped waiting => exact absurd calm (by simp [Undisturbed])
  | joined place isOver =>
    rcases forwarding.settled with waits | ⟨result, ended⟩
    · simp [place, UdpPlace.waits] at waits
    · simp [place] at ended
  | @worker i l crew moved =>
    have sent := (crewKeeps moved).1
    have same : incomings (past ++ [.worker i l]) = incomings past := by
      simp [incomingsMore, attempted]
    refine ⟨forwarding.settled, forwarding.idle, ?_, ?_, ?_⟩
    · intro waits
      simpa only [same, passed, sent] using forwarding.all waits
    · intro waits
      exact aliveStep (forwarding.alive waits) moved
    · intro result place
      simpa only [same, sent] using forwarding.ended result place

theorem forwardingRun {hosts : VetisHosts Host} {config : ListenerConfig} {logger : Option Logger}
    (calm : ∀ l ∈ labels, Undisturbed l)
    (ran : Runs.run UdpDispatcher.step (UdpDispatcher.new hosts config logger) labels = some d) :
    Forwarding labels d :=
  Runs.historyInvariant Forwarding (fun _ l => Undisturbed l) forwardingStep (newForwarding hosts config logger)
    (Runs.meetsOfForall (fun l member _ => calm l member)) ran

theorem intactWorkersStep (intact : ∀ w ∈ d.crew.workers, Intact w) (taken : d.step l = some out) :
    ∀ w ∈ out.crew.workers, Intact w := by
  cases udpSource taken with
  | poll place =>
    intro w member
    rw [List.eq_of_mem_replicate member]
    exact newIntact
  | sent place room =>
    obtain ⟨_, rfl⟩ := sendSource room
    exact intact
  | worker moved => exact crewForall intact (fun _ before taken => intactStep before taken) moved
  | incoming place => exact intact
  | shaken place => exact intact
  | refused place => exact intact
  | closed place => exact intact
  | idle place => exact intact
  | stopped waiting => exact intact
  | joined place isOver => exact intact

theorem intactWorkersRun {hosts : VetisHosts Host} {config : ListenerConfig} {logger : Option Logger}
    (ran : Runs.run UdpDispatcher.step (UdpDispatcher.new hosts config logger) labels = some d) :
    ∀ w ∈ d.crew.workers, Intact w :=
  Runs.invariant (fun d : UdpDispatcher => ∀ w ∈ d.crew.workers, Intact w) intactWorkersStep
    (by simp [UdpDispatcher.new, Crew.new]) ran

structure Unread (d : UdpDispatcher) : Prop where
  nobody : d.config.workers = 0
  workers : d.crew.workers = []
  full : d.crew.sent = d.crew.channel
  room : d.crew.channel.length ≤ d.crew.capacity
  small : d.crew.capacity ≤ 1

theorem unreadStep (unread : Unread d) (taken : d.step l = some out) : Unread out := by
  have nobody := unread.nobody
  cases udpSource taken with
  | poll place =>
    have room := unread.room
    have small := unread.small
    refine ⟨nobody, by simp [UdpDispatcher.start, Crew.bounded, Crew.init, nobody], unread.full, ?_, ?_⟩
    · simp only [UdpDispatcher.start, Crew.bounded, Crew.init, nobody]
      omega
    · simp [UdpDispatcher.start, Crew.bounded, nobody]
  | sent place room =>
    obtain ⟨below, rfl⟩ := sendSource room
    refine ⟨nobody, unread.workers, by simp [unread.full], ?_, unread.small⟩
    simp only [List.length_append, List.length_singleton]
    omega
  | worker moved =>
    obtain ⟨w, next, found, _⟩ := crewMoved moved
    simp [unread.workers] at found
  | incoming place => exact ⟨nobody, unread.workers, unread.full, unread.room, unread.small⟩
  | shaken place => exact ⟨nobody, unread.workers, unread.full, unread.room, unread.small⟩
  | refused place => exact ⟨nobody, unread.workers, unread.full, unread.room, unread.small⟩
  | closed place => exact ⟨nobody, unread.workers, unread.full, unread.room, unread.small⟩
  | idle place => exact ⟨nobody, unread.workers, unread.full, unread.room, unread.small⟩
  | stopped waiting => exact ⟨nobody, unread.workers, unread.full, unread.room, unread.small⟩
  | joined place isOver => exact ⟨nobody, unread.workers, unread.full, unread.room, unread.small⟩

theorem unreadRun {hosts : VetisHosts Host} {config : ListenerConfig} {logger : Option Logger}
    (nobody : config.workers = 0)
    (ran : Runs.run UdpDispatcher.step (UdpDispatcher.new hosts config logger) labels = some d) : Unread d :=
  Runs.invariant Unread unreadStep ⟨nobody, rfl, rfl, Nat.le_refl _, Nat.zero_le _⟩ ran

structure RunOn (start : UdpDispatcher) (attempts : List Attempt) (labels : List UdpLabel) (d : UdpDispatcher) :
    Prop where
  ran : Runs.run UdpDispatcher.step start labels = some d
  calm : ∀ l ∈ labels, Undisturbed l
  offered : incomings labels <+: attempts

def Drained (attempts : List Attempt) (labels : List UdpLabel) (d : UdpDispatcher) : Prop :=
  (d.place = .accepting ∧ incomings labels = attempts) ∨ ∃ result, d.place = .ended result

structure Ready (d : UdpDispatcher) : Prop where
  place : d.place = .accepting
  empty : d.crew.channel = []
  room : 0 < d.crew.capacity
  worker : ∃ w rest, d.crew.workers = w :: rest ∧ w.loop = .receiving

theorem firstWorker {w next : Worker Connection} {rest : List (Worker Connection)} {l : Label Connection}
    (workers : d.crew.workers = w :: rest) (permitted : d.crew.permits l = true)
    (moved : w.step UdpWorker.protocol l = some next) : d.step (.worker 0 l) = some { d with
      crew := { d.crew with workers := next :: rest, channel := afterTake d.crew.channel l } } := by
  simp [UdpDispatcher.step, Crew.step, permitted, Runs.stepAt, workers, moved]

theorem readyFirst (hosts : VetisHosts Host) {config : ListenerConfig} (logger : Option Logger)
    (some : 0 < config.workers) : ∃ d, Ready d ∧ RunOn (UdpDispatcher.new hosts config logger) []
      [.poll, .worker 0 .poll] d := by
  obtain ⟨n, more⟩ := Nat.exists_eq_add_one.mpr some
  let d := (UdpDispatcher.new hosts config logger).start
  have workers : d.crew.workers = Worker.new :: List.replicate n Worker.new := by
    simp [d, UdpDispatcher.start, UdpDispatcher.new, Crew.bounded, Crew.init, more, List.replicate_succ]
  refine ⟨_, ⟨rfl, rfl, ?_, ⟨_, _, rfl, rfl⟩⟩,
    ⟨Runs.runCons.mpr ⟨d, rfl, Runs.runSingle.mpr (firstWorker workers rfl rfl)⟩, ?_, List.prefix_refl _⟩⟩
  · show 0 < max config.workers 1
    omega
  · simp [Undisturbed]

theorem sendOne (place : d.place = .accepting) (room : d.crew.channel.length < d.crew.capacity) (conn : Connection) :
    Runs.run UdpDispatcher.step d [.incoming (.ok conn), .handshake, .send] = some { d with
      crew := { d.crew with channel := d.crew.channel ++ [conn], sent := d.crew.sent ++ [conn] } } := by
  simp [Runs.run, UdpDispatcher.step, place, Crew.send, room]

theorem refuseOne (place : d.place = .accepting) (text : String) :
    Runs.run UdpDispatcher.step d [.incoming (.error text), .handshake] =
      some (d.returned (.error (.worker text))) := by
  simp [Runs.run, UdpDispatcher.step, place, UdpDispatcher.returned]

theorem forwardOne (ready : Ready d) (conn : Connection) : ∃ more out, Runs.run UdpDispatcher.step d more = some out ∧
    Ready out ∧ (∀ l ∈ more, Undisturbed l) ∧ incomings more = [.ok conn] := by
  obtain ⟨w, rest, workers, receiving⟩ := ready.worker
  let sent : UdpDispatcher := { d with
    crew := { d.crew with channel := [conn], sent := d.crew.sent ++ [conn] } }
  have forwarded : Runs.run UdpDispatcher.step d [.incoming (.ok conn), .handshake, .send] = some sent := by
    rw [sendOne ready.place (by simpa [ready.empty] using ready.room), ready.empty]
    rfl
  let sniffing : Worker Connection := { w with loop := .sniffing conn conn.remoteAddress }
  have received : w.step UdpWorker.protocol (.recv conn) = some sniffing := by
    simp [Worker.step, receiving, UdpWorker.protocol, sniffing]
  have first := @firstWorker sent w sniffing rest (.recv conn) workers (by simp [Crew.permits, sent]) received
  let spawned := sniffing.spawn conn conn.remoteAddress false
  let held : Worker Connection := { spawned with
    loop := .receiving, connections := w.connections.insert conn.remoteAddress w.tasks.length }
  have second := @firstWorker { sent with crew := { sent.crew with workers := sniffing :: rest, channel := [] } }
    sniffing spawned rest .sniff rfl rfl rfl
  have third := @firstWorker { sent with crew := { sent.crew with workers := spawned :: rest, channel := [] } }
    spawned held rest .insert rfl rfl rfl
  have ran := Runs.runAppend.mpr ⟨sent, forwarded, Runs.runCons.mpr ⟨_, first, Runs.runCons.mpr ⟨_, second,
    Runs.runSingle.mpr third⟩⟩⟩
  refine ⟨_, _, ran, ⟨ready.place, rfl, ready.room, ⟨held, rest, rfl, rfl⟩⟩, ?_, rfl⟩
  simp [Undisturbed]

theorem forwardAll (ready : Ready d) (conns : List Connection) : ∃ more out,
    Runs.run UdpDispatcher.step d more = some out ∧ Ready out ∧ (∀ l ∈ more, Undisturbed l) ∧
      incomings more = conns.map .ok := by
  induction conns generalizing d with
  | nil => exact ⟨[], d, rfl, ready, by simp, rfl⟩
  | cons conn rest ih =>
    obtain ⟨one, middle, ran, still, calm, given⟩ := forwardOne ready conn
    obtain ⟨more, out, later, last, quiet, all⟩ := ih still
    refine ⟨one ++ more, out, Runs.runAppend.mpr ⟨middle, ran, later⟩, last, ?_, ?_⟩
    · intro l member
      rcases List.mem_append.mp member with left | right
      · exact calm l left
      · exact quiet l right
    · rw [incomings, List.filterMap_append]
      exact congrArg₂ (· ++ ·) given all

structure Isolated (start : UdpDispatcher) (attempts : List Attempt) : Prop where
  drains : ∃ labels d, RunOn start attempts labels d ∧ Drained attempts labels d
  forwards : ∀ labels d, RunOn start attempts labels d → Drained attempts labels d →
    d.crew.sent = successes attempts
  keeps : ∀ before text after, attempts = before ++ .error text :: after →
    ∀ labels d others e, RunOn start attempts labels d → Drained attempts labels d →
      RunOn start (before ++ after) others e → Drained (before ++ after) others e → d.crew.sent = e.crew.sent
  workers : ∀ labels d, RunOn start attempts labels d → ∀ w ∈ d.crew.workers, Running w
  quiet : ∀ labels d, RunOn start attempts labels d → ∀ w ∈ d.crew.workers, ∀ task ∈ w.tasks,
    task.finished = false → signalled w.signal task.shutSignal = false

def FailuresLast (attempts : List Attempt) : Prop :=
  attempts.Pairwise (fun earlier later => isFailure earlier = true → isFailure later = true)

def Harmless (workers : Nat) (attempts : List Attempt) : Prop :=
  (0 < workers ∧ ∀ attempt ∈ attempts, isFailure attempt = false) ∨
  (workers = 0 ∧ (successes attempts).length ≤ 1 ∧ FailuresLast attempts)

variable {hosts : VetisHosts Host} {config : ListenerConfig} {logger : Option Logger} {attempts : List Attempt}

theorem successesMap (conns : List Connection) (rest : List Attempt) :
    successes (conns.map .ok ++ rest) = conns ++ successes rest := by
  induction conns with
  | nil => rfl
  | cons conn more ih => exact congrArg (conn :: ·) ih

theorem failureSplit (attempts : List Attempt) : (∃ conns : List Connection, attempts = conns.map .ok) ∨
    ∃ (conns : List Connection) (text : String) (rest : List Attempt), attempts = conns.map .ok ++ .error text :: rest := by
  induction attempts with
  | nil => exact Or.inl ⟨[], rfl⟩
  | cons attempt more ih =>
    cases attempt with
    | error text => exact Or.inr ⟨[], text, more, rfl⟩
    | ok conn =>
      rcases ih with ⟨conns, rfl⟩ | ⟨conns, text, rest, rfl⟩
      · exact Or.inl ⟨conn :: conns, rfl⟩
      · exact Or.inr ⟨conn :: conns, text, rest, rfl⟩

theorem fineMap (fine : ∀ attempt ∈ attempts, isFailure attempt = false) :
    ∃ conns : List Connection, attempts = conns.map .ok := by
  rcases failureSplit attempts with all | ⟨conns, text, rest, rfl⟩
  · exact all
  · have failed := fine (.error text) (by simp)
    contradiction

theorem nothingAfter {conns : List Connection} {text : String} {rest : List Attempt}
    (last : FailuresLast (conns.map .ok ++ .error text :: rest)) : successes rest = [] := by
  have tail := (List.pairwise_cons.mp (List.pairwise_append.mp last).2.1).1
  apply List.filterMap_eq_nil_iff.mpr
  intro attempt member
  have failed := tail attempt member rfl
  cases attempt with
  | ok conn => simp [isFailure, Except.isOk, Except.toBool] at failed
  | error text => rfl

theorem drainedSource (on : RunOn (UdpDispatcher.new hosts config logger) attempts labels d)
    (drained : Drained attempts labels d) : attempts = d.crew.sent.map .ok ∨
      ∃ text rest, attempts = d.crew.sent.map .ok ++ .error text :: rest := by
  have forwarding := forwardingRun on.calm on.ran
  rcases drained with ⟨place, all⟩ | ⟨result, place⟩
  · left
    rw [← all, forwarding.all (by rw [place]; rfl)]
    simp [passed, place, inHand, shaking]
  · right
    obtain ⟨text, given⟩ := forwarding.ended result place
    obtain ⟨rest, whole⟩ := on.offered
    exact ⟨text, rest, by rw [← whole, given]; simp⟩

theorem drainedSuccesses (last : FailuresLast attempts)
    (on : RunOn (UdpDispatcher.new hosts config logger) attempts labels d) (drained : Drained attempts labels d) :
    d.crew.sent = successes attempts := by
  rcases drainedSource on drained with all | ⟨text, rest, all⟩
  · have sent := successesMap d.crew.sent []
    rw [List.append_nil, ← all] at sent
    simpa [successes] using sent.symm
  · have none : successes rest = [] := nothingAfter (all ▸ last)
    have sent := successesMap d.crew.sent (.error text :: rest)
    rw [← all] at sent
    rw [sent, show successes (.error text :: rest) = successes rest from rfl, none, List.append_nil]

theorem failuresLastOfNone (fine : ∀ attempt ∈ attempts, isFailure attempt = false) : FailuresLast attempts := by
  refine List.pairwise_of_forall_mem_list ?_
  intro earlier member later _ failed
  rw [fine earlier member] at failed
  contradiction

theorem failuresLastOfSplit (conns : List Connection) (text : String) {rest : List Attempt}
    (none : successes rest = []) : FailuresLast (conns.map .ok ++ .error text :: rest) := by
  have failed : ∀ attempt ∈ Except.error text :: rest, isFailure attempt = true := by
    intro attempt member
    rcases List.mem_cons.mp member with rfl | inside
    · rfl
    · have missing := List.filterMap_eq_nil_iff.mp none attempt inside
      cases attempt with
      | ok conn => contradiction
      | error other => rfl
  refine List.pairwise_append.mpr ⟨failuresLastOfNone ?_, ?_, ?_⟩
  · simp [isFailure, Except.isOk, Except.toBool]
  · exact List.pairwise_of_forall_mem_list (fun _ _ later member _ => failed later member)
  · intro earlier _ later member _
    exact failed later member

theorem notEnded (fine : ∀ attempt ∈ attempts, isFailure attempt = false)
    (on : RunOn (UdpDispatcher.new hosts config logger) attempts labels d) : d.place.waits = true := by
  have forwarding := forwardingRun on.calm on.ran
  rcases forwarding.settled with waits | ⟨result, place⟩
  · exact waits
  · obtain ⟨text, given⟩ := forwarding.ended result place
    have member : Except.error text ∈ attempts := on.offered.subset (by simp [given])
    have failed := fine _ member
    contradiction

theorem drainsFine (some : 0 < config.workers) (conns : List Connection) :
    ∃ labels d, RunOn (UdpDispatcher.new hosts config logger) (conns.map .ok) labels d ∧ Ready d ∧
      incomings labels = conns.map .ok := by
  obtain ⟨first, ready, on⟩ := readyFirst hosts logger some
  obtain ⟨more, d, ran, last, calm, given⟩ := forwardAll ready conns
  have all : incomings ([.poll, .worker 0 .poll] ++ more) = conns.map .ok := by
    rw [incomings, List.filterMap_append]
    exact given
  refine ⟨[.poll, .worker 0 .poll] ++ more, d, ⟨Runs.runAppend.mpr ⟨first, on.ran, ran⟩, ?_, ?_⟩, last, all⟩
  · intro l member
    rcases List.mem_append.mp member with left | right
    · exact on.calm l left
    · exact calm l right
  · exact all ▸ List.prefix_refl _

theorem isolatedFine (some : 0 < config.workers) (fine : ∀ attempt ∈ attempts, isFailure attempt = false) :
    Isolated (UdpDispatcher.new hosts config logger) attempts := by
  refine ⟨?_, ?_, ?_, ?_, ?_⟩
  · obtain ⟨conns, rfl⟩ := fineMap fine
    obtain ⟨labels, d, on, ready, all⟩ := drainsFine some conns
    exact ⟨labels, d, on, Or.inl ⟨ready.place, all⟩⟩
  · intro labels d on drained
    exact drainedSuccesses (failuresLastOfNone fine) on drained
  · intro before text after same
    have failed := fine (.error text) (by simp [same])
    contradiction
  · intro labels d on
    exact ((forwardingRun on.calm on.ran).alive (notEnded fine on)).running
  · intro labels d on w member task inside _
    have running := ((forwardingRun on.calm on.ran).alive (notEnded fine on)).running w member
    exact intactSignal (intactWorkersRun on.ran w member) running inside

theorem drainsNobody (nobody : config.workers = 0) (short : (successes attempts).length ≤ 1) :
    ∃ labels d, RunOn (UdpDispatcher.new hosts config logger) attempts labels d ∧ Drained attempts labels d := by
  let start := (UdpDispatcher.new hosts config logger).start
  have first : Runs.run UdpDispatcher.step (UdpDispatcher.new hosts config logger) [.poll] = some start := rfl
  have room : start.crew.channel.length < start.crew.capacity := by
    show 0 < max config.workers 1
    omega
  rcases failureSplit attempts with ⟨conns, rfl⟩ | ⟨conns, text, rest, rfl⟩
  · rw [← List.append_nil (conns.map _), successesMap] at short
    rcases conns with _ | ⟨conn, _ | ⟨other, more⟩⟩
    · exact ⟨[.poll], start, ⟨first, by simp [Undisturbed], List.prefix_refl _⟩, Or.inl ⟨rfl, rfl⟩⟩
    · have ran := Runs.runAppend.mpr ⟨start, first, sendOne rfl room conn⟩
      exact ⟨_, _, ⟨ran, by simp [Undisturbed], List.prefix_refl _⟩, Or.inl ⟨rfl, rfl⟩⟩
    · simp [successes] at short
  · rw [successesMap] at short
    rcases conns with _ | ⟨conn, _ | ⟨other, more⟩⟩
    · have ran := Runs.runAppend.mpr ⟨start, first, refuseOne rfl text⟩
      exact ⟨_, _, ⟨ran, by simp [Undisturbed], ⟨rest, rfl⟩⟩, Or.inr ⟨_, rfl⟩⟩
    · have sent := Runs.runAppend.mpr ⟨start, first, sendOne rfl room conn⟩
      have ran := Runs.runAppend.mpr ⟨_, sent, refuseOne rfl text⟩
      exact ⟨_, _, ⟨ran, by simp [Undisturbed], ⟨rest, rfl⟩⟩, Or.inr ⟨_, rfl⟩⟩
    · simp at short

theorem isolatedNobody (nobody : config.workers = 0) (short : (successes attempts).length ≤ 1)
    (last : FailuresLast attempts) : Isolated (UdpDispatcher.new hosts config logger) attempts := by
  refine ⟨drainsNobody nobody short, ?_, ?_, ?_, ?_⟩
  · intro labels d on drained
    exact drainedSuccesses last on drained
  · intro before text after same labels d others e on drained other stopped
    have fewer : FailuresLast (before ++ after) := by
      refine List.Pairwise.sublist ?_ last
      rw [same]
      exact (List.sublist_cons_self _ _).append_left before
    rw [drainedSuccesses last on drained, drainedSuccesses fewer other stopped, same]
    rw [successes, successes, List.filterMap_append, List.filterMap_append]
    rfl
  · intro labels d on w member
    rw [(unreadRun nobody on.ran).workers] at member
    contradiction
  · intro labels d on w member
    rw [(unreadRun nobody on.ran).workers] at member
    contradiction

theorem workerLost (some : 0 < config.workers) (conns : List Connection) (text : String) (rest : List Attempt) :
    ∃ labels d, RunOn (UdpDispatcher.new hosts config logger) (conns.map .ok ++ .error text :: rest) labels d ∧
      ∃ w ∈ d.crew.workers, ¬ Running w := by
  obtain ⟨labels, d, on, ready, all⟩ := @drainsFine hosts config logger some conns
  obtain ⟨w, others, workers, receiving⟩ := ready.worker
  have refused := Runs.runAppend.mpr ⟨d, on.ran, refuseOne ready.place text⟩
  have lost := @firstWorker (d.returned (.error (.worker text))) w (w.finish none) others .dropped workers rfl
    (by simp [Worker.step, Worker.suspended, receiving])
  refine ⟨_, _, ⟨Runs.runAppend.mpr ⟨_, refused, Runs.runSingle.mpr lost⟩, ?_, ⟨rest, ?_⟩⟩,
    w.finish none, List.mem_cons_self, fun running => running none rfl⟩
  · intro l member
    simp only [List.append_assoc, List.mem_append, List.mem_cons, List.not_mem_nil, or_false] at member
    rcases member with old | (rfl | rfl) | rfl
    · exact on.calm l old
    · trivial
    · trivial
    · trivial
  · simp only [incomings] at all
    simp [incomings, attempted, all]

theorem harmlessSource (isolated : Isolated (UdpDispatcher.new hosts config logger) attempts) :
    Harmless config.workers attempts := by
  obtain ⟨labels, d, on, drained⟩ := isolated.drains
  have sent := isolated.forwards labels d on drained
  rcases Nat.eq_zero_or_pos config.workers with nobody | some
  · right
    have unread := unreadRun nobody on.ran
    have short : (successes attempts).length ≤ 1 := by
      have room := unread.room
      have small := unread.small
      rw [← sent, unread.full]
      omega
    refine ⟨nobody, short, ?_⟩
    rcases drainedSource on drained with all | ⟨text, rest, all⟩
    · rw [all]
      exact failuresLastOfNone (by simp [isFailure, Except.isOk, Except.toBool])
    · have none : successes rest = [] := by
        have whole := successesMap d.crew.sent (.error text :: rest)
        rw [← all, ← sent] at whole
        simpa [successes, Except.toOption] using whole
      exact all ▸ failuresLastOfSplit d.crew.sent text none
  · left
    refine ⟨some, ?_⟩
    rcases failureSplit attempts with ⟨conns, rfl⟩ | ⟨conns, text, rest, rfl⟩
    · simp [isFailure, Except.isOk, Except.toBool]
    · obtain ⟨more, lost, ran, w, member, isOver⟩ := @workerLost hosts config logger some conns text rest
      exact absurd (isolated.workers more lost ran w member) isOver

theorem attemptsIsolatedIff (hosts : VetisHosts Host) (config : ListenerConfig) (logger : Option Logger)
    (attempts : List Attempt) :
    Isolated (UdpDispatcher.new hosts config logger) attempts ↔ Harmless config.workers attempts := by
  refine ⟨harmlessSource, ?_⟩
  intro harmless
  rcases harmless with ⟨some, fine⟩ | ⟨nobody, short, last⟩
  · exact isolatedFine some fine
  · exact isolatedNobody nobody short last

def quicConfig : ListenerConfig := ⟨.v4 0, 443, 1⟩
def timedOut : Attempt := .error "timed out"
def laterClient : Connection := ⟨0, .v4 0x7f000001, 40000⟩

theorem oneFailureEnds : ¬ ∀ hosts config logger attempts,
    Isolated (UdpDispatcher.new hosts config logger) attempts := by
  intro claim
  have isolated := claim ∅ quicConfig none [timedOut, .ok laterClient]
  have on : RunOn (UdpDispatcher.new ∅ quicConfig none) [timedOut, .ok laterClient]
      [.poll, .incoming timedOut, .handshake] _ := ⟨rfl, by simp [Undisturbed], ⟨[.ok laterClient], rfl⟩⟩
  have sent := isolated.forwards _ _ on (Or.inr ⟨_, rfl⟩)
  exact absurd sent (by decide)

end VetisTokio.UdpAccept
