import VetisTokio.Library.Refinement
import VetisTokio.Library.WorkQueue
import VetisTokio.TcpAccept
import VetisTokio.UdpAccept
import VetisTokio.WorkerIsolation

/-! The channel between a dispatcher and its workers, as a queue that is shared out. A
dispatcher offers what it has accepted and its workers claim it, so what all of them
serve together is a part of what came in, and nothing of it is served twice. -/
namespace VetisTokio.ConnectionQueue
open HttpData ConfigData HostModel TlsFactory WorkerModel WorkerRuns WorkerIsolation DispatcherModel DispatcherRuns
  WorkQueue Refinement

section
variable {C : Type} {p : Protocol C} {w next : Worker C} {l : Label C}

def holds (w : Worker C) : List C := served w ++ inHand w.loop

theorem stopServed (w : Worker C) : served w.stop = served w := by
  refine List.ext_getElem? fun t => ?_
  simp only [served, Worker.stop, List.getElem?_map, List.getElem?_mapIdx, Option.map_map]
  congr 1
  funext task
  simp only [Function.comp_apply]
  split <;> rfl

theorem holdsStep (taken : w.step p l = some next) : (holds next).Sublist (holds w ++ (receivedConn l).toList) := by
  have keeps : (served w).Sublist (holds w) := List.sublist_append_left _ _
  cases stepSource taken with
  | poll place => simp [holds, served, inHand, receivedConn, place]
  | received place known => simp [holds, served, inHand, receivedConn, place]
  | unknown place fails => simp [holds, served, inHand, Worker.finish, place]
  | spawned place read => simp [holds, served, inHand, receivedConn, Worker.spawn, place]
  | unreadable place fails => simp [holds, served, inHand, receivedConn, Worker.finish]
  | inserted place => simp [holds, served, inHand, receivedConn, place]
  | closed place => simp [holds, served, inHand, receivedConn, Worker.finish]
  | stopped place =>
    have ended : holds w.stop = served w := by
      rw [holds, stopServed]
      exact List.append_nil _
    rw [ended]
    exact keeps.trans (List.sublist_append_left _ _)
  | dropped place => simp [holds, served, inHand, receivedConn, Worker.finish]
  | task found moved =>
    have same := servedSet found moved
    simp only [holds, served, receivedConn, Option.toList_none, List.append_nil]
    rw [same]
    exact List.Sublist.refl _

end

section
variable {C : Type} [DecidableEq C] {p : Protocol C} {crew out : Crew C} {q : Queue C} {i : Nat} {l : Label C}

structure CrewModels (crew : Crew C) (q : Queue C) : Prop where
  waiting : crew.channel = q.waiting
  offered : crew.sent = q.offered
  shares : ∀ (i : Nat) w, crew.workers[i]? = some w → (holds w).Sublist (share i q.claimed)

omit [DecidableEq C] in
theorem hiredModels (models : CrewModels crew q) (workers n : Nat) :
    CrewModels ((crew.init workers).bounded n) q := by
  refine ⟨models.waiting, models.offered, ?_⟩
  intro i w found
  have fresh : w = Worker.new := List.eq_of_mem_replicate (List.mem_of_getElem? found)
  rw [fresh]
  exact List.nil_sublist _

theorem crewOffers {conn : C} (models : CrewModels crew q) (same : crew.capacity = q.capacity)
    (room : crew.send conn = some out) :
    ∃ b, q.step (.offer conn) = some b ∧ CrewModels out b ∧ b.capacity = q.capacity := by
  obtain ⟨space, rfl⟩ := sendSource room
  rw [models.waiting, same] at space
  refine ⟨q.offer conn space, offerTaken space, ⟨?_, ?_, models.shares⟩, rfl⟩
  · simp only [Queue.offer, models.waiting]
  · simp only [Queue.offer, models.offered]

omit [DecidableEq C] in
theorem sharesAfter {j : Nat} {w next : Worker C} {claims : List (Nat × C)} (found : crew.workers[i]? = some w)
    (own : (holds next).Sublist (share i claims))
    (others : ∀ (j : Nat) w, j ≠ i → crew.workers[j]? = some w → (holds w).Sublist (share j claims)) {other : Worker C}
    (place : (crew.workers.set i next)[j]? = some other) : (holds other).Sublist (share j claims) := by
  rcases Rows.setSource found place with ⟨rfl, rfl⟩ | ⟨apart, there⟩
  · exact own
  · exact others j other apart there

theorem crewClaims {conn : C} (models : CrewModels crew q) (taken : crew.step p i (.recv conn) = some out) :
    ∃ b, q.step (.claim i conn) = some b ∧ CrewModels out b ∧ b.capacity = q.capacity := by
  obtain ⟨w, next, found, moved, workers⟩ := crewMoved taken
  obtain ⟨row, _, same⟩ := (crewSource taken).row
  have first := (crewSource taken).permitted
  simp only [Crew.permits, beq_iff_eq] at first
  obtain ⟨rest, channel⟩ := List.head?_eq_some_iff.mp first
  have waiting : q.waiting = conn :: rest := models.waiting.symm.trans channel
  refine ⟨q.claim i conn rest waiting, claimTaken waiting, ⟨?_, ?_, ?_⟩, rfl⟩
  · rw [same]
    simp [afterTake, channel, Queue.claim]
  · rw [(crewKeeps taken).1, models.offered]
    rfl
  · intro j other place
    rw [workers] at place
    refine sharesAfter found ?_ ?_ place
    · have held := holdsStep moved
      rw [Queue.claim, shareMore, if_pos rfl]
      exact held.trans ((models.shares i w found).append_right _)
    · intro j other apart there
      rw [Queue.claim, shareMore, if_neg (Ne.symm apart)]
      exact models.shares j other there

theorem channelKept (quiet : receivedConn l = none) (taken : crew.step p i l = some out) : out.channel = crew.channel := by
  obtain ⟨row, _, rfl⟩ := (crewSource taken).row
  cases l <;> first | rfl | simp [receivedConn] at quiet

theorem crewIdles (models : CrewModels crew q) (quiet : receivedConn l = none) (taken : crew.step p i l = some out) :
    CrewModels out q := by
  obtain ⟨w, next, found, moved, workers⟩ := crewMoved taken
  refine ⟨(channelKept quiet taken).trans models.waiting, (crewKeeps taken).1.trans models.offered, ?_⟩
  intro j other place
  rw [workers] at place
  refine sharesAfter found ?_ (fun j other _ there => models.shares j other there) place
  have held := holdsStep moved
  rw [quiet] at held
  exact (held.trans (List.append_nil _ ▸ List.Sublist.refl _)).trans (models.shares i w found)

/- What has become of the connections that came in, given which of them were claimed
and by whom. -/
structure HandedOut (accepted : List C) (claims : List (Nat × C)) (config : ListenerConfig) (crew : Crew C) :
    Prop where
  sent : crew.sent.Sublist accepted
  order : crew.sent = claims.map Prod.snd ++ crew.channel
  bounded : crew.channel.length ≤ max config.workers 1
  each : ∀ (i : Nat) w, crew.workers[i]? = some w → (holds w).Sublist (share i claims)
  once : (crew.workers.flatMap holds).Subperm accepted

omit [DecidableEq C] in
theorem modelsHandOut {accepted : List C} {config : ListenerConfig} (models : CrewModels crew q)
    (size : q.capacity = max config.workers 1) (came : crew.sent.Sublist accepted) :
    HandedOut accepted q.claimed config crew := by
  have order : crew.sent = q.claimed.map Prod.snd ++ crew.channel := by
    rw [models.offered, models.waiting]
    exact q.whole
  refine ⟨came, order, ?_, models.shares, ?_⟩
  · rw [models.waiting, ← size]
    exact q.fits
  · have shared : (crew.workers.map holds).flatten.Subperm (q.claimed.map Prod.snd) := by
      refine sharesApart _ 0 _ ?_
      intro i hold place
      rw [List.getElem?_map, Option.map_eq_some_iff] at place
      obtain ⟨w, found, rfl⟩ := place
      rw [Nat.zero_add]
      exact models.shares i w found
    have claimed : (q.claimed.map Prod.snd).Sublist crew.sent := order ▸ List.sublist_append_left _ _
    exact shared.trans (claimed.trans came).subperm

end

section
variable {crates : Crates} {d out : TcpDispatcher} {l : TcpLabel}

def tcpShown (d : TcpDispatcher) : TcpLabel → Option (Op TcpStream)
  | .send =>
    match d.place with
    | .sending stream => some (.offer stream)
    | _ => none
  | .worker i l => (receivedConn l).map (.claim i)
  | _ => none

def tcpClaim : TcpLabel → Option (Nat × TcpStream)
  | .worker i l => (receivedConn l).map (fun stream => (i, stream))
  | _ => none

structure TcpModels (config : ListenerConfig) (d : TcpDispatcher) (q : Queue TcpStream) : Prop where
  configured : d.config = config
  size : q.capacity = max config.workers 1
  bounded : d.place.waits = true → d.place ≠ .unpolled → d.crew.capacity = q.capacity
  crew : CrewModels d.crew q

theorem tcpLooped {config : ListenerConfig} {q : Queue TcpStream} (models : TcpModels config d q)
    (place : d.place = .accepting ∨ d.place = .logging) (next : TcpPlace) :
    TcpModels config { d with place := next } q := by
  have size : d.crew.capacity = q.capacity := by
    rcases place with place | place <;> exact models.bounded (by simp [place, TcpPlace.waits]) (by simp [place])
  exact ⟨models.configured, models.size, fun _ _ => size, models.crew⟩

theorem tcpStartModels {config : ListenerConfig} {q : Queue TcpStream} (models : TcpModels config d q) :
    TcpModels config (d.start crates) q := by
  have size : max d.config.workers 1 = q.capacity := by rw [models.size, models.configured]
  unfold TcpDispatcher.start TcpDispatcher.init
  cases createTlsConfig crates.rustls crates.order d.hosts with
  | ok tls => exact ⟨models.configured, models.size, fun _ _ => size, hiredModels models.crew _ _⟩
  | error e =>
    exact ⟨models.configured, models.size, fun _ _ => size, models.crew.waiting, models.crew.offered, models.crew.shares⟩

theorem tcpRefines (crates : Crates) (config : ListenerConfig) :
    Refines (TcpDispatcher.step crates) Queue.step tcpShown (TcpModels config) := by
  constructor
  · intro d l out q op models taken shown
    cases tcpSource taken with
    | sent place room =>
      simp only [tcpShown, place, Option.some.injEq] at shown
      subst shown
      have size := models.bounded (by simp [place, TcpPlace.waits]) (by simp [place])
      obtain ⟨b, offered, crew, capacity⟩ := crewOffers models.crew size room
      refine ⟨b, offered, models.configured, capacity.trans models.size, fun _ _ => ?_, crew⟩
      rw [capacity, ← size, (sendSource room).2]
    | @worker i l crew moved =>
      obtain ⟨conn, received, rfl⟩ := Option.map_eq_some_iff.mp shown
      cases l <;> simp only [receivedConn, reduceCtorEq, Option.some.injEq] at received
      subst received
      obtain ⟨b, claimed, crew, capacity⟩ := crewClaims models.crew moved
      refine ⟨b, claimed, models.configured, capacity.trans models.size, fun waits polled => ?_, crew⟩
      rw [capacity, ← models.bounded waits polled]
      exact (crewKeeps moved).2.1
    | _ => contradiction
  · intro d l out q models taken shown
    cases tcpSource taken with
    | poll place => exact tcpStartModels models
    | sent place room => simp [tcpShown, place] at shown
    | @worker i l crew moved =>
      have quiet := Option.map_eq_none_iff.mp shown
      refine ⟨models.configured, models.size, fun waits polled => ?_, crewIdles models.crew quiet moved⟩
      exact ((crewKeeps moved).2.1).trans (models.bounded waits polled)
    | stopped waiting =>
      exact ⟨models.configured, models.size, by simp [TcpPlace.waits],
        models.crew.waiting, models.crew.offered, models.crew.shares⟩
    | joined place isOver =>
      exact ⟨models.configured, models.size, by simp [TcpPlace.waits],
        models.crew.waiting, models.crew.offered, models.crew.shares⟩
    | accepted place => exact tcpLooped models (.inl place) _
    | logged place evaluated => exact tcpLooped models (.inl place) _
    | skipped place ignored => exact tcpLooped models (.inl place) _
    | discarded place => exact tcpLooped models (.inr place) _

open TcpAccept in
theorem tcpPassedStep {past : List TcpLabel} (before : (passed d).Sublist (TcpAccept.successes (results past)))
    (taken : d.step crates l = some out) :
    (passed out).Sublist (TcpAccept.successes (results (past ++ [l]))) := by
  have sent : d.crew.sent.Sublist (TcpAccept.successes (results past)) := (List.sublist_append_left _ _).trans before
  cases tcpSource taken with
  | poll place =>
    obtain ⟨same, after, _⟩ := @startKeeps crates d
    rw [resultsQuiet past rfl]
    simpa [passed, same, after, TcpAccept.inHand] using sent
  | @accepted stream place =>
    rw [resultsMore, successesOk]
    exact sent.append_right [stream]
  | logged place evaluated =>
    rw [resultsMore, successesError]
    simpa [passed, TcpAccept.inHand] using sent
  | skipped place ignored =>
    rw [resultsMore, successesError]
    simpa [passed, TcpAccept.inHand] using sent
  | @discarded result place =>
    rw [resultsMore, TcpAccept.successes, List.filterMap_append]
    have more := sent.trans (List.sublist_append_left _ ([result].filterMap Except.toOption))
    simpa [passed, TcpAccept.inHand, TcpAccept.successes] using more
  | sent place room =>
    obtain ⟨_, rfl⟩ := sendSource room
    rw [resultsQuiet past rfl]
    simpa [passed, place, TcpAccept.inHand] using before
  | stopped waiting =>
    rw [resultsQuiet past rfl]
    simpa [passed, TcpAccept.inHand, Crew.stop] using sent
  | joined place isOver =>
    rw [resultsQuiet past rfl]
    simpa [passed, TcpAccept.inHand, Crew.drop] using sent
  | worker moved =>
    rw [resultsQuiet past rfl, passed, (crewKeeps moved).1]
    exact before

theorem tcpClaimed (d : TcpDispatcher) (l : TcpLabel) : (tcpShown d l).bind claimOf = tcpClaim l := by
  cases l with
  | send => cases place : d.place <;> simp [tcpShown, place, claimOf, tcpClaim]
  | worker i l => cases l <;> rfl
  | _ => rfl

theorem streamsHandedOut {hosts : VetisHosts Host} {config : ListenerConfig} {logger : Option Logger}
    {labels : List TcpLabel}
    (ran : Runs.run (TcpDispatcher.step crates) (TcpDispatcher.new hosts config logger) labels = some d) :
    HandedOut (TcpAccept.successes (TcpAccept.results labels)) (labels.filterMap tcpClaim) config d.crew := by
  have start : TcpModels config (TcpDispatcher.new hosts config logger) (Queue.empty (max config.workers 1)) :=
    ⟨rfl, rfl, fun _ polled => absurd rfl polled, rfl, rfl, fun i w found => by simp [TcpDispatcher.new, Crew.new] at found⟩
  obtain ⟨q, queued, models⟩ := runRefined (tcpRefines crates config) start ran
  obtain ⟨claims, _⟩ := claimsRun queued
  rw [shownPart tcpClaimed ran] at claims
  have passed := Runs.historyInvariant (fun past d => (TcpAccept.passed d).Sublist
    (TcpAccept.successes (TcpAccept.results past))) (fun _ _ => True) (fun before _ taken => tcpPassedStep before taken)
    (List.Sublist.refl _) (Runs.meetsOfForall (fun _ _ _ => trivial)) ran
  have handed := modelsHandOut models.crew models.size ((List.sublist_append_left _ _).trans passed)
  rwa [claims] at handed

def twoStreams : List TcpLabel :=
  [.poll, .accept (.ok (knownStream 0)), .send, .worker 0 .poll, .worker 0 (.recv (knownStream 0)),
    .accept (.ok (knownStream 1)), .send]

theorem twoHandedOut : ∃ d, Runs.run (TcpDispatcher.step sampleCrates) (TcpDispatcher.new ∅ ⟨.v4 0, 80, 1⟩ none)
    twoStreams = some d ∧ HandedOut [knownStream 0, knownStream 1] [(0, knownStream 0)] ⟨.v4 0, 80, 1⟩ d.crew := by
  have ran : Runs.run (TcpDispatcher.step sampleCrates) (TcpDispatcher.new ∅ ⟨.v4 0, 80, 1⟩ none) twoStreams =
    some _ := rfl
  exact ⟨_, ran, streamsHandedOut ran⟩

end

section
variable {d out : UdpDispatcher} {l : UdpLabel}

def udpShown (d : UdpDispatcher) : UdpLabel → Option (Op Connection)
  | .send =>
    match d.place with
    | .sending conn => some (.offer conn)
    | _ => none
  | .worker i l => (receivedConn l).map (.claim i)
  | _ => none

def udpClaim : UdpLabel → Option (Nat × Connection)
  | .worker i l => (receivedConn l).map (fun conn => (i, conn))
  | _ => none

structure UdpModels (config : ListenerConfig) (d : UdpDispatcher) (q : Queue Connection) : Prop where
  configured : d.config = config
  size : q.capacity = max config.workers 1
  bounded : d.place.waits = true → d.place ≠ .unpolled → d.crew.capacity = q.capacity
  crew : CrewModels d.crew q

theorem udpLooped {config : ListenerConfig} {q : Queue Connection} (models : UdpModels config d q)
    (waits : d.place.waits = true) (polled : d.place ≠ .unpolled) (next : UdpPlace) :
    UdpModels config { d with place := next } q :=
  ⟨models.configured, models.size, fun _ _ => models.bounded waits polled, models.crew⟩

theorem udpLeft {config : ListenerConfig} {q : Queue Connection} {next : UdpPlace} {crew : Crew Connection}
    (models : UdpModels config d q) (left : ¬ next.waits = true) (channel : crew.channel = d.crew.channel)
    (sent : crew.sent = d.crew.sent) (workers : crew.workers = d.crew.workers) :
    UdpModels config { d with place := next, crew := crew } q :=
  ⟨models.configured, models.size, fun waits => absurd waits left, channel.trans models.crew.waiting,
    sent.trans models.crew.offered, workers ▸ models.crew.shares⟩

theorem udpRefines (config : ListenerConfig) :
    Refines UdpDispatcher.step Queue.step udpShown (UdpModels config) := by
  constructor
  · intro d l out q op models taken shown
    cases udpSource taken with
    | sent place room =>
      simp only [udpShown, place, Option.some.injEq] at shown
      subst shown
      have size := models.bounded (by simp [place, UdpPlace.waits]) (by simp [place])
      obtain ⟨b, offered, crew, capacity⟩ := crewOffers models.crew size room
      refine ⟨b, offered, models.configured, capacity.trans models.size, fun _ _ => ?_, crew⟩
      rw [capacity, ← size, (sendSource room).2]
    | @worker i l crew moved =>
      obtain ⟨conn, received, rfl⟩ := Option.map_eq_some_iff.mp shown
      cases l <;> simp only [receivedConn, reduceCtorEq, Option.some.injEq] at received
      subst received
      obtain ⟨b, claimed, crew, capacity⟩ := crewClaims models.crew moved
      refine ⟨b, claimed, models.configured, capacity.trans models.size, fun waits polled => ?_, crew⟩
      rw [capacity, ← models.bounded waits polled]
      exact (crewKeeps moved).2.1
    | shaken place => simp [udpShown] at shown
    | refused place => simp [udpShown] at shown
    | _ => contradiction
  · intro d l out q models taken shown
    cases udpSource taken with
    | poll place =>
      refine ⟨models.configured, models.size, fun _ _ => ?_, hiredModels models.crew _ _⟩
      rw [models.size, ← models.configured]
      rfl
    | sent place room => simp [udpShown, place] at shown
    | @worker i l crew moved =>
      have quiet := Option.map_eq_none_iff.mp shown
      refine ⟨models.configured, models.size, fun waits polled => ?_, crewIdles models.crew quiet moved⟩
      exact ((crewKeeps moved).2.1).trans (models.bounded waits polled)
    | incoming place => exact udpLooped models (by simp [place, UdpPlace.waits]) (by simp [place]) _
    | shaken place => exact udpLooped models (by simp [place, UdpPlace.waits]) (by simp [place]) _
    | closed place => exact udpLooped models (by simp [place, UdpPlace.waits]) (by simp [place]) _
    | refused place => exact udpLeft models (by simp [UdpPlace.waits]) rfl rfl rfl
    | idle place => exact udpLeft models (by simp [UdpPlace.waits]) rfl rfl rfl
    | stopped waiting => exact udpLeft models (by simp [UdpPlace.waits]) rfl rfl rfl
    | joined place isOver => exact udpLeft models (by simp [UdpPlace.waits]) rfl rfl rfl

def shaken : UdpPlace → List Connection
  | .handshaking (.ok conn) => [conn]
  | _ => []

def came (d : UdpDispatcher) : List Connection := UdpAccept.passed d ++ shaken d.place

open UdpAccept in
theorem udpCameStep {past : List UdpLabel} (before : (came d).Sublist (UdpAccept.successes (incomings past)))
    (taken : d.step l = some out) : (came out).Sublist (UdpAccept.successes (incomings (past ++ [l]))) := by
  have sent : d.crew.sent.Sublist (UdpAccept.successes (incomings past)) := by
    rw [came, UdpAccept.passed, List.append_assoc] at before
    exact (List.sublist_append_left _ _).trans before
  rw [incomingsMore]
  cases udpSource taken with
  | poll place =>
    simpa [came, UdpAccept.passed, UdpAccept.inHand, shaken, attempted, UdpDispatcher.start, Crew.bounded, Crew.init]
      using sent
  | @incoming attempt place =>
    simp only [attempted, Option.toList_some, UdpAccept.successes, List.filterMap_append] at sent ⊢
    cases attempt with
    | ok conn =>
      have shape : came { d with place := .handshaking (.ok conn) } = d.crew.sent ++ [conn] := by
        simp [came, UdpAccept.passed, UdpAccept.inHand, shaken]
      rw [shape]
      exact sent.append_right [conn]
    | error text =>
      have shape : came { d with place := .handshaking (.error text) } = d.crew.sent := by
        simp [came, UdpAccept.passed, UdpAccept.inHand, shaken]
      rw [shape]
      exact sent.trans (List.sublist_append_left _ _)
  | shaken place => simpa [came, UdpAccept.passed, UdpAccept.inHand, shaken, attempted, place] using before
  | refused place =>
    simpa [came, UdpAccept.passed, UdpAccept.inHand, shaken, attempted, UdpDispatcher.returned, Crew.drop] using sent
  | sent place room =>
    obtain ⟨_, rfl⟩ := sendSource room
    simpa [came, UdpAccept.passed, UdpAccept.inHand, shaken, attempted, place] using before
  | closed place => simpa [came, UdpAccept.passed, UdpAccept.inHand, shaken, attempted] using sent
  | idle place =>
    simpa [came, UdpAccept.passed, UdpAccept.inHand, shaken, attempted, UdpDispatcher.returned, Crew.drop] using sent
  | stopped waiting => simpa [came, UdpAccept.passed, UdpAccept.inHand, shaken, attempted, Crew.stop] using sent
  | joined place isOver =>
    simpa [came, UdpAccept.passed, UdpAccept.inHand, shaken, attempted, UdpDispatcher.returned, Crew.drop] using sent
  | worker moved => simpa [came, UdpAccept.passed, attempted, (crewKeeps moved).1] using before

theorem udpClaimed (d : UdpDispatcher) (l : UdpLabel) : (udpShown d l).bind claimOf = udpClaim l := by
  cases l with
  | send => cases place : d.place <;> simp [udpShown, place, claimOf, udpClaim]
  | worker i l => cases l <;> rfl
  | _ => rfl

theorem connectionsHandedOut {hosts : VetisHosts Host} {config : ListenerConfig} {logger : Option Logger}
    {labels : List UdpLabel}
    (ran : Runs.run UdpDispatcher.step (UdpDispatcher.new hosts config logger) labels = some d) :
    HandedOut (UdpAccept.successes (UdpAccept.incomings labels)) (labels.filterMap udpClaim) config d.crew := by
  have start : UdpModels config (UdpDispatcher.new hosts config logger) (Queue.empty (max config.workers 1)) :=
    ⟨rfl, rfl, fun _ polled => absurd rfl polled, rfl, rfl, fun i w found => by simp [UdpDispatcher.new, Crew.new] at found⟩
  obtain ⟨q, queued, models⟩ := runRefined (udpRefines config) start ran
  obtain ⟨claims, _⟩ := claimsRun queued
  rw [shownPart udpClaimed ran] at claims
  have all := Runs.historyInvariant (fun past d => (came d).Sublist
    (UdpAccept.successes (UdpAccept.incomings past))) (fun _ _ => True) (fun before _ taken => udpCameStep before taken)
    (List.Sublist.refl _) (Runs.meetsOfForall (fun _ _ _ => trivial)) ran
  rw [came, UdpAccept.passed, List.append_assoc] at all
  have handed := modelsHandOut models.crew models.size ((List.sublist_append_left _ _).trans all)
  rwa [claims] at handed

def twoConnections : List UdpLabel :=
  [.poll, .incoming (.ok ⟨0, ⟨.v4 0x7f000001, 40000⟩⟩), .handshake, .send, .worker 0 .poll,
    .worker 0 (.recv ⟨0, ⟨.v4 0x7f000001, 40000⟩⟩), .incoming (.error "timed out"), .handshake]

theorem oneHandedOut : ∃ d, Runs.run UdpDispatcher.step (UdpDispatcher.new ∅ ⟨.v4 0, 443, 1⟩ none)
    twoConnections = some d ∧ HandedOut [⟨0, ⟨.v4 0x7f000001, 40000⟩⟩] [(0, ⟨0, ⟨.v4 0x7f000001, 40000⟩⟩)]
      ⟨.v4 0, 443, 1⟩ d.crew := by
  have ran : Runs.run UdpDispatcher.step (UdpDispatcher.new ∅ ⟨.v4 0, 443, 1⟩ none) twoConnections = some _ := rfl
  exact ⟨_, ran, connectionsHandedOut ran⟩

end

end VetisTokio.ConnectionQueue
