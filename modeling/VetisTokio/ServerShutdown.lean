import VetisTokio.DispatcherShutdown
import VetisTokio.ServerParts

/-! The stop of a whole server. The call goes through the listeners in order: those behind
it are over, those ahead of it have been told nothing; and wherever it stands, all that
is running can come to its end. -/
namespace VetisTokio.ServerShutdown
open HttpData ConfigData SignalChannel WorkerModel DispatcherModel DispatcherRuns DispatcherDrain ListenerModel Rt
  ServerStart ServerModel ServerStop ServerParts CrewShutdown DispatcherShutdown Runs

section
variable {W : Type} {crates : Crates} {os : Os W} {w after : W} {v v' : Vetis} {s out : Server} {l : ServerLabel}
  {labels : List ServerLabel}

def signalOf : Listener → Option Watch
  | .tcp t => t.signal
  | .udp u => u.signal

def Ahead : Stop → Nat → Prop
  | .running, _ => True
  | .signalling k, i => k ≤ i
  | .joining k, i => k < i
  | .returned _, _ => False

/- A listener that the call leaves alone. A TCP dispatcher is in its loop then; a UDP
dispatcher also ends by itself, on a failed handshake or an endpoint that is closed. -/
structure LeftAlone (l : Listener) : Prop where
  untold : signalOf l = some channel
  tcp : ∀ d, tcpHandle l = some d → d.place.waits = true
  udp : ∀ d, udpHandle l = some d → d.place.waits = true ∨ udpOver d.place = true

structure Ordered (s : Server) : Prop where
  awaited : ∀ l ∈ s.listeners, awaits l = true
  behind : ∀ (i : Nat) l, s.listeners[i]? = some l → Past s.stop i →
    taskOver l = true ∧ signalled (signalOf l) ⟨0⟩ = true
  current : ∀ k, s.stop = .joining k → ∃ l, s.listeners[k]? = some l ∧ signalled (signalOf l) ⟨0⟩ = true
  ahead : ∀ (i : Nat) l, s.listeners[i]? = some l → Ahead s.stop i → LeftAlone l
  many : s.listeners ≠ []
  returned : ∀ result, s.stop = .returned result → result = .ok ()

theorem listeningAlone (l : Listener) : LeftAlone (listening l) := by
  cases l with
  | tcp t =>
    refine ⟨rfl, ?_, fun d here => by contradiction⟩
    intro d here
    cases Option.some.inj here
    rfl
  | udp u =>
    refine ⟨rfl, fun d here => by contradiction, ?_⟩
    intro d here
    cases Option.some.inj here
    exact .inl rfl

theorem startedOrdered (started : v.start crates os w = (.ok (), v', after)) : Ordered (Server.of v') := by
  have many : v.listeners ≠ [] := by
    intro none
    simp [Vetis.start, none] at started
  have same := (startedListeners started).1
  have made : ∀ l ∈ v'.listeners, ∃ given, l = listening given := by
    intro l member
    rw [same] at member
    obtain ⟨given, _, rfl⟩ := List.mem_map.mp member
    exact ⟨_, rfl⟩
  refine ⟨?_, by simp [Server.of, Past], fun k joining => by contradiction, ?_, ?_, fun result place => by contradiction⟩
  · intro l member
    obtain ⟨given, rfl⟩ := made l member
    exact orderlyAwaits (listeningOrderly given)
  · intro i l found _
    obtain ⟨given, rfl⟩ := made l (List.mem_of_getElem? found)
    exact listeningAlone given
  · rw [Server.of, same]
    exact fun none => many (List.map_eq_nil_iff.mp none)

structure Moves (before after : Listener) : Prop where
  signal : signalOf after = signalOf before
  awaited : awaits before = true → awaits after = true
  isOver : taskOver before = true → taskOver after = true
  alone : LeftAlone before → LeftAlone after

theorem udpLoopsOrOver {d next : UdpDispatcher} {l : UdpLabel} (before : d.place.waits = true ∨ udpOver d.place = true)
    (quiet : l ≠ .stop) (moved : d.step l = some next) : next.place.waits = true ∨ udpOver next.place = true := by
  cases udpSource moved with
  | stopped waiting => exact absurd rfl quiet
  | refused place => exact .inr rfl
  | idle place => exact .inr rfl
  | joined place => exact .inr rfl
  | worker moved => exact before
  | _ => exact .inl rfl

theorem tcpMoves {t : TcpListener} {d next : TcpDispatcher} {l : TcpLabel} (handle : t.handle = some d)
    (permitted : tcpPermits t.signal l = true) (moved : d.step crates l = some next) :
    Moves (.tcp t) (.tcp { t with handle := some next }) := by
  refine ⟨rfl, fun waits => ?_, fun isOver => ?_, fun alone => ⟨alone.untold, ?_, fun d here => by contradiction⟩⟩
  · simpa [awaits, handle] using waits
  · simp only [taskOver, handle, Option.any_some] at isOver ⊢
    exact tcpOverStays isOver moved
  · intro _ here
    cases Option.some.inj here
    refine tcpWaits (alone.tcp d handle) ?_ moved
    rintro rfl
    have untold : t.signal = some channel := alone.untold
    rw [untold] at permitted
    contradiction

theorem udpMoves {u : UdpListener} {d next : UdpDispatcher} {l : UdpLabel} (handle : u.handle = some d)
    (permitted : udpPermits u.signal l = true) (moved : d.step l = some next) :
    Moves (.udp u) (.udp { u with handle := some next }) := by
  refine ⟨rfl, fun waits => ?_, fun isOver => ?_, fun alone => ⟨alone.untold, fun d here => by contradiction, ?_⟩⟩
  · simpa [awaits, handle] using waits
  · simp only [taskOver, handle, Option.any_some] at isOver ⊢
    exact udpOverStays isOver moved
  · intro _ here
    cases Option.some.inj here
    refine udpLoopsOrOver (alone.udp d handle) ?_ moved
    rintro rfl
    have untold : u.signal = some channel := alone.untold
    rw [untold] at permitted
    contradiction

theorem tcpPermitted {i : Nat} {l : TcpLabel} {t : TcpListener} (found : s.listeners[i]? = some (.tcp t))
    (taken : s.step crates (.tcp i l) = some out) : tcpPermits t.signal l = true := by
  simp only [Server.step, found] at taken
  obtain ⟨next, task, _⟩ := Option.map_eq_some_iff.mp taken
  unfold tcpTask at task
  split at task <;> try contradiction
  assumption

theorem udpPermitted {i : Nat} {l : UdpLabel} {u : UdpListener} (found : s.listeners[i]? = some (.udp u))
    (taken : s.step crates (.udp i l) = some out) : udpPermits u.signal l = true := by
  simp only [Server.step, found] at taken
  obtain ⟨next, task, _⟩ := Option.map_eq_some_iff.mp taken
  unfold udpTask at task
  split at task <;> try contradiction
  assumption

theorem movesOrdered (ordered : Ordered s) {i : Nat} {l next : Listener} (found : s.listeners[i]? = some l)
    (moves : Moves l next) : Ordered { s with listeners := s.listeners.set i next } := by
  refine ⟨?_, ?_, ?_, ?_, ?_, ordered.returned⟩
  · intro other member
    rcases List.mem_or_eq_of_mem_set member with old | same
    · exact ordered.awaited other old
    · exact same ▸ moves.awaited (ordered.awaited l (List.mem_of_getElem? found))
  · intro j other place past
    rcases Rows.setSource found place with ⟨rfl, rfl⟩ | ⟨_, there⟩
    · obtain ⟨isOver, told⟩ := ordered.behind j l found past
      exact ⟨moves.isOver isOver, moves.signal ▸ told⟩
    · exact ordered.behind j other there past
  · intro k joining
    obtain ⟨other, there, told⟩ := ordered.current k joining
    rcases Rows.setKeeps (b := next) found there with ⟨_, rfl, here⟩ | ⟨_, here⟩
    · exact ⟨next, here, moves.signal ▸ told⟩
    · exact ⟨other, here, told⟩
  · intro j other place ahead
    rcases Rows.setSource found place with ⟨rfl, rfl⟩ | ⟨_, there⟩
    · exact moves.alone (ordered.ahead j l found ahead)
    · exact ordered.ahead j other there ahead
  · simpa using ordered.many

theorem sendTells {l : Listener} (alone : LeftAlone l) : signalled (signalOf (sendStop l)) ⟨0⟩ = true := by
  have untold := alone.untold
  cases l with
  | tcp t =>
    have same : t.signal = some channel := untold
    simp only [sendStop, signalOf, same, Option.map_some]
    rfl
  | udp u =>
    have same : u.signal = some channel := untold
    simp only [sendStop, signalOf, same, Option.map_some]
    rfl

theorem sendAwaits {l : Listener} : awaits (sendStop l) = awaits l := by
  cases l <;> simp [sendStop, awaits]

theorem tellOrdered {k : Nat} {l : Listener} (ordered : Ordered s) (place : s.stop = .signalling k)
    (found : s.listeners[k]? = some l) : Ordered ⟨s.listeners.set k (sendStop l), .joining k⟩ := by
  have alone := ordered.ahead k l found (by rw [place]; exact Nat.le_refl k)
  have inside := (List.getElem?_eq_some_iff.mp found).1
  refine ⟨?_, ?_, ?_, ?_, by simpa using ordered.many, fun result place => by contradiction⟩
  · intro other member
    rcases List.mem_or_eq_of_mem_set member with old | same
    · exact ordered.awaited other old
    · exact same ▸ sendAwaits.trans (ordered.awaited l (List.mem_of_getElem? found))
  · intro j other there past
    rcases Rows.setSource found there with ⟨rfl, rfl⟩ | ⟨_, before⟩
    · exact absurd past (Nat.lt_irrefl j)
    · exact ordered.behind j other before (by rw [place]; exact past)
  · rintro k' same
    cases same
    exact ⟨sendStop l, List.getElem?_set_self inside, sendTells alone⟩
  · intro j other there later
    rcases Rows.setSource found there with ⟨rfl, rfl⟩ | ⟨_, before⟩
    · exact absurd later (Nat.lt_irrefl j)
    · exact ordered.ahead j other before (by rw [place]; exact Nat.le_of_lt later)

theorem nextOrdered {k : Nat} {l : Listener} (ordered : Ordered s) (place : s.stop = .joining k)
    (found : s.listeners[k]? = some l) (isOver : taskOver l = true) : Ordered { s with stop := .signalling (k + 1) } := by
  refine ⟨ordered.awaited, ?_, fun k joining => by contradiction, ?_, ordered.many, fun result place => by contradiction⟩
  · intro i other there past
    rcases Nat.lt_succ_iff_lt_or_eq.mp past with earlier | rfl
    · exact ordered.behind i other there (by rw [place]; exact earlier)
    · cases Option.some.inj (found.symm.trans there)
      obtain ⟨same, here, told⟩ := ordered.current i place
      cases Option.some.inj (found.symm.trans here)
      exact ⟨isOver, told⟩
  · intro i other there later
    exact ordered.ahead i other there (by rw [place]; exact later)

theorem orderedStep (ordered : Ordered s) (taken : s.step crates l = some out) : Ordered out := by
  cases serverSource taken with
  | tcp found handle moved => exact movesOrdered ordered found (tcpMoves handle (tcpPermitted found taken) moved)
  | udp found handle moved => exact movesOrdered ordered found (udpMoves handle (udpPermitted found taken) moved)
  | refused nobody => exact absurd nobody ordered.many
  | called running =>
    refine ⟨ordered.awaited, fun i l found past => absurd past (Nat.not_lt_zero i), fun k joining => by contradiction,
      fun i l found _ => ordered.ahead i l found (by rw [running]; trivial), ordered.many,
      fun result place => by contradiction⟩
  | @signalled k l place found =>
    rw [if_pos (ordered.awaited l (List.mem_of_getElem? found))]
    exact tellOrdered ordered place found
  | @returned k place last =>
    refine ⟨ordered.awaited, ?_, fun k joining => by contradiction, fun i l found later => later.elim, ordered.many, ?_⟩
    · intro i l found _
      have beyond := List.getElem?_eq_none_iff.mp last
      refine ordered.behind i l found ?_
      rw [place]
      exact Nat.lt_of_lt_of_le (List.getElem?_eq_some_iff.mp found).1 beyond
    · rintro result same
      cases same
      rfl
  | @joined k l place found isOver => exact nextOrdered ordered place found isOver

structure Reached (s : Server) : Prop where
  ordered : Ordered s
  tcp : ∀ i d, tcpAt i s = some d → TcpGuided d
  udp : ∀ i d, udpAt i s = some d → UdpGuided d

theorem reached (started : v.start crates os w = (.ok (), v', after))
    (ran : run (Server.step crates) (Server.of v') labels = some s) : Reached s := by
  refine ⟨invariant Ordered orderedStep (startedOrdered started) ran, ?_, ?_⟩
  · intro i d here
    obtain ⟨hosts, config, logger, _, own⟩ := (tcpAlone started ran here).dispatcher
    exact invariant TcpGuided tcpGuidedStep (newTcpGuided hosts config logger) own
  · intro i d here
    obtain ⟨hosts, config, logger, _, own⟩ := (udpAlone started ran here).dispatcher
    exact invariant UdpGuided udpGuidedStep (newUdpGuided hosts config logger) own

theorem tcpThere {i : Nat} {t : TcpListener} {d : TcpDispatcher} (found : s.listeners[i]? = some (.tcp t))
    (handle : t.handle = some d) : tcpAt i s = some d := by simp [tcpAt, found, tcpHandle, handle]

theorem udpThere {i : Nat} {u : UdpListener} {d : UdpDispatcher} (found : s.listeners[i]? = some (.udp u))
    (handle : u.handle = some d) : udpAt i s = some d := by simp [udpAt, found, udpHandle, handle]

structure Closed (l : Listener) : Prop where
  tcp : ∀ d, tcpHandle l = some d → tcpOver d.place = true ∧ ∀ w ∈ d.crew.workers, Worker.over w = true
  udp : ∀ d, udpHandle l = some d → udpOver d.place = true ∧ d.crew.dropped = true

theorem closedBehind (reached : Reached s) {i : Nat} {l : Listener}
    (found : s.listeners[i]? = some l) (past : Past s.stop i) : Closed l := by
  have isOver := (reached.ordered.behind i l found past).1
  cases l with
  | tcp t =>
    refine ⟨?_, fun d here => by contradiction⟩
    intro d handle
    have ended : tcpOver d.place = true := by
      have same : t.handle = some d := handle
      simpa [taskOver, same] using isOver
    exact ⟨ended, (reached.tcp i d (tcpThere found handle)).manned.ended ended⟩
  | udp u =>
    refine ⟨fun d here => by contradiction, ?_⟩
    intro d handle
    have ended : udpOver d.place = true := by
      have same : u.handle = some d := handle
      simpa [taskOver, same] using isOver
    exact ⟨ended, (reached.udp i d (udpThere found handle)).left ended⟩

def handedOver : Listener → Nat × Nat
  | .tcp t => t.handle.elim (0, 0) (fun d => (d.crew.workers.length, d.crew.sent.length))
  | .udp u => u.handle.elim (0, 0) (fun d => (d.crew.workers.length, d.crew.sent.length))

def accepts : ServerLabel → Bool
  | .tcp _ (.accept _) => true
  | .udp _ (.incoming _) => true
  | _ => false

theorem crewHands {C : Type} [DecidableEq C] {p : Protocol C} {crew out : Crew C} {i : Nat} {l : Label C}
    (moved : crew.step p i l = some out) :
    (out.workers.length, out.sent.length) = (crew.workers.length, crew.sent.length) := by
  obtain ⟨sent, _, _, _, count⟩ := crewKeeps moved
  rw [sent, count]

theorem udpOverSource {d next : UdpDispatcher} {l : UdpLabel} (isOver : udpOver d.place = true)
    (taken : d.step l = some next) : ∃ i label crew, l = .worker i label ∧
      d.crew.step UdpWorker.protocol i label = some crew ∧ next = { d with crew := crew } := by
  cases udpSource taken with
  | worker moved => exact ⟨_, _, _, rfl, moved, rfl⟩
  | stopped waiting => cases place : d.place <;> rw [place] at waiting isOver <;> contradiction
  | poll place => rw [place] at isOver; contradiction
  | incoming place => rw [place] at isOver; contradiction
  | shaken place => rw [place] at isOver; contradiction
  | refused place => rw [place] at isOver; contradiction
  | sent place room => rw [place] at isOver; contradiction
  | closed place => rw [place] at isOver; contradiction
  | idle place => rw [place] at isOver; contradiction
  | joined place joined => rw [place] at isOver; contradiction

theorem setSame {A B : Type} (f : A → B) {row : List A} {i : Nat} {a b : A} (found : row[i]? = some a)
    (same : f b = f a) : (row.set i b).map f = row.map f := by
  rw [List.map_set, same]
  refine List.ext_getElem? fun j => ?_
  rcases eq_or_ne j i with rfl | other
  · rw [List.getElem?_set_self (by simpa using (List.getElem?_eq_some_iff.mp found).1), List.getElem?_map, found]
    rfl
  · rw [List.getElem?_set_ne other.symm]

theorem returnedStep (reached : Reached s) (returned : s.stop = .returned (.ok ()))
    (taken : s.step crates l = some out) : out.stop = .returned (.ok ()) ∧ accepts l = false ∧
      out.listeners.map handedOver = s.listeners.map handedOver := by
  have past : ∀ i, Past s.stop i := by
    intro i
    rw [returned]
    rfl
  cases serverSource taken with
  | @tcp i l t d next found handle moved =>
    have isOver := ((closedBehind reached found (past i)).tcp d handle).1
    obtain ⟨_, _, _, rfl, there, rfl⟩ := tcpOverSource isOver moved
    refine ⟨returned, rfl, setSame handedOver found ?_⟩
    simpa [handedOver, handle] using crewHands there
  | @udp i l u d next found handle moved =>
    have isOver := ((closedBehind reached found (past i)).udp d handle).1
    obtain ⟨_, _, _, rfl, there, rfl⟩ := udpOverSource isOver moved
    refine ⟨returned, rfl, setSame handedOver found ?_⟩
    simpa [handedOver, handle] using crewHands there
  | refused nobody => exact absurd nobody reached.ordered.many
  | called running => rw [returned] at running; contradiction
  | signalled place found => rw [returned] at place; contradiction
  | returned place last => rw [returned] at place; contradiction
  | joined place found isOver => rw [returned] at place; contradiction

structure InOrder (crates : Crates) (s : Server) : Prop where
  ahead : ∀ (i : Nat) l, s.listeners[i]? = some l → Ahead s.stop i → LeftAlone l
  behind : ∀ (i : Nat) l, s.listeners[i]? = some l → Past s.stop i → Closed l
  returned : ∀ result, s.stop = .returned result → result = .ok () ∧ ∀ more later,
    run (Server.step crates) s more = some later → later.stop = .returned (.ok ()) ∧
      (∀ l ∈ more, accepts l = false) ∧ later.listeners.map handedOver = s.listeners.map handedOver ∧
      ∀ l ∈ later.listeners, Closed l

theorem stopsInOrder (started : v.start crates os w = (.ok (), v', after))
    (ran : run (Server.step crates) (Server.of v') labels = some s) : InOrder crates s := by
  have here := reached started ran
  refine ⟨here.ordered.ahead, fun i l found past => closedBehind here found past, ?_⟩
  intro result returned
  cases here.ordered.returned result returned
  refine ⟨rfl, ?_⟩
  intro more later goesOn
  have kept := historyInvariant (fun past state => (∃ labels, run (Server.step crates) (Server.of v') labels = some state) ∧
    state.stop = .returned (.ok ()) ∧ (∀ l ∈ past, accepts l = false) ∧
      state.listeners.map handedOver = s.listeners.map handedOver) (fun _ _ => True) ?_
    ⟨⟨labels, ran⟩, returned, by simp, rfl⟩ (meetsOfForall fun _ _ _ => trivial) goesOn
  · obtain ⟨⟨all, whole⟩, ended, silent, same⟩ := kept
    refine ⟨ended, silent, same, ?_⟩
    intro l member
    obtain ⟨i, found⟩ := List.mem_iff_getElem?.mp member
    exact closedBehind (reached started whole) found (by rw [ended]; rfl)
  · rintro past state l next ⟨⟨all, whole⟩, ended, silent, same⟩ _ taken
    obtain ⟨stop, quiet, handed⟩ := returnedStep (reached started whole) ended taken
    refine ⟨⟨all ++ [l], runAppend.mpr ⟨state, whole, runSingle.mpr taken⟩⟩, stop, ?_, handed.trans same⟩
    intro m member
    rcases List.mem_append.mp member with old | last
    · exact silent m old
    · cases List.mem_singleton.mp last
      exact quiet

def firstTold : List ServerLabel :=
  [.udp 1 .poll, .tcp 0 .poll, .callStop, .signal, .udp 1 (.incoming (.ok ⟨0, ⟨.v4 0x7f000001, 40000⟩⟩)), .tcp 0 .stop]

theorem firstToldInOrder : ∃ v' after s, twoByTwo.start sampleCrates sampleOs 0 = (.ok (), v', after) ∧
    run (Server.step sampleCrates) (Server.of v') firstTold = some s ∧ s.stop = .joining 0 ∧ InOrder sampleCrates s := by
  have started : twoByTwo.start sampleCrates sampleOs 0 = (.ok (), _, _) := rfl
  have ran : run (Server.step sampleCrates) (Server.of (twoByTwo.start sampleCrates sampleOs 0).2.1) firstTold = some _ := rfl
  exact ⟨_, _, _, started, ran, rfl, stopsInOrder started ran⟩

def closingServer : ServerLabel → Bool
  | .tcp _ l => closingTcp l
  | .udp _ l => closingUdp l
  | .signal | .join => true
  | .callStop => false

structure Gone (l : Listener) : Prop where
  tcp : ∀ d, tcpHandle l = some d → TcpGone d
  udp : ∀ d, udpHandle l = some d → UdpGone d

def listenerLeft : Listener → Nat
  | .tcp t => t.handle.elim 0 tcpLeft
  | .udp u => u.handle.elim 0 udpLeft

def stopLeft (n : Nat) : Stop → Nat
  | .signalling k => 2 * (n - k) + 1
  | .joining k => 2 * (n - k)
  | _ => 0

def serverLeft (s : Server) : Nat := stopLeft s.listeners.length s.stop + Rows.total listenerLeft s.listeners

theorem listenerNearer (reached : Reached s) {i : Nat} {l : Listener}
    (found : s.listeners[i]? = some l) (told : signalled (signalOf l) ⟨0⟩ = true) (busy : ¬ Gone l) :
    ∃ label out, closingServer label = true ∧ s.step crates label = some out ∧ out.stop = s.stop ∧
      serverLeft out < serverLeft s := by
  cases l with
  | tcp t =>
    obtain ⟨d, handle, open'⟩ : ∃ d, t.handle = some d ∧ ¬ TcpGone d := by
      by_contra none
      exact busy ⟨fun d here => by_contra fun open' => none ⟨d, here, open'⟩, fun d here => by contradiction⟩
    obtain ⟨m, next, allowed, moved, less⟩ := @tcpNearer crates d (reached.tcp i d (tcpThere found handle)) open'
    have permitted : tcpPermits t.signal m = true := by
      unfold tcpPermits
      split
      · exact told
      · rfl
    refine ⟨.tcp i m, { s with listeners := s.listeners.set i (.tcp { t with handle := some next }) }, allowed, ?_, rfl, ?_⟩
    · simp [Server.step, found, tcpTask, permitted, handle, moved]
    · have smaller : listenerLeft (.tcp { t with handle := some next }) < listenerLeft (.tcp t) := by
        simpa [listenerLeft, handle] using less
      simpa [serverLeft] using Rows.totalSet listenerLeft found smaller
  | udp u =>
    obtain ⟨d, handle, open'⟩ : ∃ d, u.handle = some d ∧ ¬ UdpGone d := by
      by_contra none
      exact busy ⟨fun d here => by contradiction, fun d here => by_contra fun open' => none ⟨d, here, open'⟩⟩
    obtain ⟨m, next, allowed, moved, less⟩ := udpNearer (reached.udp i d (udpThere found handle)) open'
    have permitted : udpPermits u.signal m = true := by
      unfold udpPermits
      split
      · exact told
      · rfl
    refine ⟨.udp i m, { s with listeners := s.listeners.set i (.udp { u with handle := some next }) }, allowed, ?_, rfl, ?_⟩
    · simp [Server.step, found, udpTask, permitted, handle, moved]
    · have smaller : listenerLeft (.udp { u with handle := some next }) < listenerLeft (.udp u) := by
        simpa [listenerLeft, handle] using less
      simpa [serverLeft] using Rows.totalSet listenerLeft found smaller

theorem sendLeft (l : Listener) : listenerLeft (sendStop l) = listenerLeft l := by cases l <;> rfl

structure Finished (s : Server) : Prop where
  returned : s.stop = .returned (.ok ())
  gone : ∀ l ∈ s.listeners, Gone l

theorem goneOver {l : Listener} (gone : Gone l) (awaited : awaits l = true) : taskOver l = true := by
  cases l with
  | tcp t =>
    simp only [awaits, Bool.and_eq_true, Option.isSome_iff_exists] at awaited
    obtain ⟨_, d, handle⟩ := awaited
    simp [taskOver, handle, (gone.tcp d handle).isOver]
  | udp u =>
    simp only [awaits, Bool.and_eq_true, Option.isSome_iff_exists] at awaited
    obtain ⟨_, d, handle⟩ := awaited
    simp [taskOver, handle, (gone.udp d handle).isOver]

theorem serverNearer (reached : Reached s) (called : s.stop ≠ .running)
    (busy : ¬ Finished s) : ∃ label out, closingServer label = true ∧ s.step crates label = some out ∧
      out.stop ≠ .running ∧ serverLeft out < serverLeft s := by
  cases place : s.stop with
  | running => exact absurd place called
  | signalling k =>
    cases found : s.listeners[k]? with
    | none =>
      refine ⟨.signal, { s with stop := .returned (.ok ()) }, rfl, by simp only [Server.step, place, found], by simp, ?_⟩
      simp [serverLeft, stopLeft, place]
    | some l =>
      have awaited := reached.ordered.awaited l (List.mem_of_getElem? found)
      refine ⟨.signal, ⟨s.listeners.set k (sendStop l), .joining k⟩, rfl, ?_, by simp, ?_⟩
      · simp only [Server.step, place, found, awaited, if_true]
      · have same : Rows.total listenerLeft (s.listeners.set k (sendStop l)) = Rows.total listenerLeft s.listeners := by
          rw [Rows.totalMap, setSame listenerLeft found (sendLeft l), ← Rows.totalMap]
        simp [serverLeft, stopLeft, place, same]
  | joining k =>
    obtain ⟨l, found, told⟩ := reached.ordered.current k place
    by_cases isOver : taskOver l = true
    · refine ⟨.join, { s with stop := .signalling (k + 1) }, rfl, by simp only [Server.step, place, found, isOver, if_true],
        by simp, ?_⟩
      have inside := (List.getElem?_eq_some_iff.mp found).1
      simp only [serverLeft, stopLeft, place]
      omega
    · have awaited := reached.ordered.awaited l (List.mem_of_getElem? found)
      have open' : ¬ Gone l := fun gone => isOver (goneOver gone awaited)
      obtain ⟨label, out, allowed, taken, same, less⟩ := listenerNearer reached found told open'
      exact ⟨label, out, allowed, taken, by simp [same, place], less⟩
  | returned result =>
    cases reached.ordered.returned result place
    obtain ⟨l, member, open'⟩ : ∃ l ∈ s.listeners, ¬ Gone l := by
      by_contra none
      exact busy ⟨place, fun l member => by_contra fun open' => none ⟨l, member, open'⟩⟩
    obtain ⟨i, found⟩ := List.mem_iff_getElem?.mp member
    have told := (reached.ordered.behind i l found (by rw [place]; rfl)).2
    obtain ⟨label, out, allowed, taken, same, less⟩ := listenerNearer reached found told open'
    exact ⟨label, out, allowed, taken, by simp [same, place], less⟩

theorem shutsDownWholly (started : v.start crates os w = (.ok (), v', after))
    (ran : run (Server.step crates) (Server.of v') labels = some s) (called : s.stop ≠ .running) :
    ∃ more later, run (Server.step crates) s more = some later ∧ (∀ l ∈ more, closingServer l = true) ∧ Finished later := by
  have nearer : ∀ state, ((∃ labels, run (Server.step crates) (Server.of v') labels = some state) ∧
      state.stop ≠ .running) → ¬ Finished state → ∃ l next,
        only closingServer (Server.step crates) state l = some next ∧
          ((∃ labels, run (Server.step crates) (Server.of v') labels = some next) ∧ next.stop ≠ .running) ∧
            serverLeft next < serverLeft state := by
    rintro state ⟨⟨past, whole⟩, called⟩ busy
    obtain ⟨l, next, allowed, taken, still, less⟩ := serverNearer (reached started whole) called busy
    exact ⟨l, next, (if_pos allowed).trans taken,
      ⟨⟨past ++ [l], runAppend.mpr ⟨state, whole, runSingle.mpr taken⟩⟩, still⟩, less⟩
  obtain ⟨more, later, goesOn, finished⟩ := runUntil _ Finished serverLeft nearer ⟨⟨labels, ran⟩, called⟩
  obtain ⟨plain, allowed⟩ := onlyRun goesOn
  exact ⟨more, later, plain, allowed, finished⟩

theorem openedShutsDown : ∃ v' after s, (serverOn [80]).start sampleCrates sampleOs 0 = (.ok (), v', after) ∧
    run (Server.step sampleCrates) (Server.of v') (requestOpens ++ [.callStop]) = some s ∧
      ∃ more later, run (Server.step sampleCrates) s more = some later ∧ (∀ l ∈ more, closingServer l = true) ∧
        Finished later := by
  have started : (serverOn [80]).start sampleCrates sampleOs 0 = (.ok (), _, _) := rfl
  have ran : run (Server.step sampleCrates) (Server.of ((serverOn [80]).start sampleCrates sampleOs 0).2.1)
    (requestOpens ++ [.callStop]) = some _ := rfl
  exact ⟨_, _, _, started, ran, shutsDownWholly started ran (by decide)⟩

end

end VetisTokio.ServerShutdown
