import VetisTokio.DispatcherDrain
import VetisTokio.ServerStart

/-! Stopping a started server. `stop` waits for the dispatcher tasks of its
listeners, these wait for their workers, and a worker that stops waits for
nobody: what its connections have open is cut. -/
namespace VetisTokio.ServerStop
open HttpData ConfigData WorkerModel WorkerDrain DispatcherModel DispatcherDrain ListenerModel Rt ServerStart ServerModel

variable {W : Type} {crates : Crates} {os : Os W} {w after : W} {s out : Server} {l : ServerLabel}

inductive ServerStep (crates : Crates) (s : Server) : ServerLabel → Server → Prop where
  | tcp {i l t d next} (found : s.listeners[i]? = some (.tcp t)) (handle : t.handle = some d)
      (moved : d.step crates l = some next) :
      ServerStep crates s (.tcp i l) { s with listeners := s.listeners.set i (.tcp { t with handle := some next }) }
  | udp {i l u d next} (found : s.listeners[i]? = some (.udp u)) (handle : u.handle = some d)
      (moved : d.step l = some next) :
      ServerStep crates s (.udp i l) { s with listeners := s.listeners.set i (.udp { u with handle := some next }) }
  | refused (nobody : s.listeners = []) :
      ServerStep crates s .callStop { s with stop := .returned (.error (.stop "Vetis is not running")) }
  | called (running : s.stop = .running) : ServerStep crates s .callStop { s with stop := .signalling 0 }
  | signalled {k l} (place : s.stop = .signalling k) (found : s.listeners[k]? = some l) :
      ServerStep crates s .signal
        ⟨s.listeners.set k (sendStop l), if awaits l then .joining k else .signalling (k + 1)⟩
  | returned {k} (place : s.stop = .signalling k) (last : s.listeners[k]? = none) :
      ServerStep crates s .signal { s with stop := .returned (.ok ()) }
  | joined {k l} (place : s.stop = .joining k) (found : s.listeners[k]? = some l) (isOver : taskOver l = true) :
      ServerStep crates s .join { s with stop := .signalling (k + 1) }

theorem tcpTaskSource {t next : TcpListener} {l : TcpLabel} (taken : tcpTask crates t l = some next) :
    ∃ d moved, t.handle = some d ∧ d.step crates l = some moved ∧ next = { t with handle := some moved } := by
  unfold tcpTask at taken
  split at taken <;> try contradiction
  simp only [bind, Option.bind_eq_some_iff] at taken
  obtain ⟨d, handle, moved, step, last⟩ := taken
  exact ⟨d, moved, handle, step, (Option.some.inj last).symm⟩

theorem udpTaskSource {u next : UdpListener} {l : UdpLabel} (taken : udpTask u l = some next) :
    ∃ d moved, u.handle = some d ∧ d.step l = some moved ∧ next = { u with handle := some moved } := by
  unfold udpTask at taken
  split at taken <;> try contradiction
  simp only [bind, Option.bind_eq_some_iff] at taken
  obtain ⟨d, handle, moved, step, last⟩ := taken
  exact ⟨d, moved, handle, step, (Option.some.inj last).symm⟩

theorem serverSource (taken : s.step crates l = some out) : ServerStep crates s l out := by
  cases l with
  | tcp i l =>
    simp only [Server.step] at taken
    split at taken <;> try contradiction
    obtain ⟨next, task, rfl⟩ := Option.map_eq_some_iff.mp taken
    obtain ⟨d, moved, handle, step, rfl⟩ := tcpTaskSource task
    exact .tcp (by assumption) handle step
  | udp i l =>
    simp only [Server.step] at taken
    split at taken <;> try contradiction
    obtain ⟨next, task, rfl⟩ := Option.map_eq_some_iff.mp taken
    obtain ⟨d, moved, handle, step, rfl⟩ := udpTaskSource task
    exact .udp (by assumption) handle step
  | callStop =>
    simp only [Server.step] at taken
    split at taken <;> try contradiction
    split at taken
    · rename_i nobody
      cases Option.some.inj taken
      exact .refused (List.isEmpty_iff.mp nobody)
    · cases Option.some.inj taken
      exact .called (by assumption)
  | signal =>
    simp only [Server.step] at taken
    split at taken <;> try contradiction
    split at taken
    · cases Option.some.inj taken
      exact .signalled (by assumption) (by assumption)
    · cases Option.some.inj taken
      exact .returned (by assumption) (by assumption)
  | join =>
    simp only [Server.step] at taken
    split at taken <;> try contradiction
    split at taken <;> try contradiction
    split at taken <;> try contradiction
    cases Option.some.inj taken
    exact .joined (by assumption) (by assumption) (by assumption)

def ListenerOrderly : Listener → Prop
  | .tcp t => t.signal.isSome = true ∧ ∃ d, t.handle = some d ∧ TcpOrderly d
  | .udp u => u.signal.isSome = true ∧ ∃ d, u.handle = some d ∧ UdpOrderly d

theorem orderlyAwaits {l : Listener} (orderly : ListenerOrderly l) : awaits l = true := by
  cases l with
  | tcp t =>
    obtain ⟨signal, d, handle, _⟩ := orderly
    simp [awaits, signal, handle]
  | udp u =>
    obtain ⟨signal, d, handle, _⟩ := orderly
    simp [awaits, signal, handle]

structure Follows (before after : Listener) : Prop where
  orderly : ListenerOrderly after
  isOver : taskOver before = true → taskOver after = true
  kept : CrewKeeps (listenerLedgers before) (listenerLedgers after)

theorem tcpFollows {t : TcpListener} {d next : TcpDispatcher} {l : TcpLabel} (orderly : ListenerOrderly (.tcp t))
    (handle : t.handle = some d) (calm : CalmTcp d l) (moved : d.step crates l = some next) :
    Follows (.tcp t) (.tcp { t with handle := some next }) := by
  obtain ⟨signal, held, same, before⟩ := orderly
  cases Option.some.inj (handle.symm.trans same)
  refine ⟨⟨signal, next, rfl, tcpOrderlyStep before calm moved⟩, ?_, ?_⟩
  · intro isOver
    simp only [taskOver, handle, Option.any_some] at isOver ⊢
    exact tcpOverStays isOver moved
  · simp only [listenerLedgers, handle, Option.elim_some]
    exact tcpRemembers before moved

theorem udpFollows {u : UdpListener} {d next : UdpDispatcher} {l : UdpLabel} (orderly : ListenerOrderly (.udp u))
    (handle : u.handle = some d) (calm : CalmUdp d l) (moved : d.step l = some next) :
    Follows (.udp u) (.udp { u with handle := some next }) := by
  obtain ⟨signal, held, same, before⟩ := orderly
  cases Option.some.inj (handle.symm.trans same)
  refine ⟨⟨signal, next, rfl, udpOrderlyStep before calm moved⟩, ?_, ?_⟩
  · intro isOver
    simp only [taskOver, handle, Option.any_some] at isOver ⊢
    exact udpOverStays isOver moved
  · simp only [listenerLedgers, handle, Option.elim_some]
    exact udpRemembers before moved

theorem sendFollows {l : Listener} (orderly : ListenerOrderly l) : Follows l (sendStop l) := by
  cases l with
  | tcp t => exact ⟨⟨by simpa using orderly.1, orderly.2⟩, fun isOver => isOver, crewKeepsRefl _⟩
  | udp u => exact ⟨⟨by simpa using orderly.1, orderly.2⟩, fun isOver => isOver, crewKeepsRefl _⟩

theorem listeningOrderly (l : Listener) : ListenerOrderly (listening l) := by
  cases l with
  | tcp t => exact ⟨rfl, _, rfl, crewNew _ _⟩
  | udp u => exact ⟨rfl, _, rfl, crewNew _ _⟩

/- A request is cut when its task is told to go, or goes, before it is answered. -/
def Cut (e : Ledger) : Prop := e.aborted = true ∨ e.phase = .finished .closed ∨ e.phase = .finished .cancelled

theorem crewQuiet {C : Type} {crew : Crew C} {unpolled : Prop} {isOver : Bool}
    (orderly : CrewOrderly unpolled isOver crew.workers) {j t : Nat}
    {row : List Ledger} {e : Ledger} (place : (crewLedgers crew)[j]? = some row) (found : row[t]? = some e) :
    (Cut e → e.started = []) ∧ (isOver = true → e.started = []) := by
  simp only [crewLedgers, List.getElem?_map, Option.map_eq_some_iff] at place
  obtain ⟨w, at_j, rfl⟩ := place
  simp only [workerLedgers, List.getElem?_map, Option.map_eq_some_iff] at found
  obtain ⟨task, at_t, rfl⟩ := found
  have worker := List.mem_of_getElem? at_j
  have inside := List.mem_of_getElem? at_t
  have held := orderly.each w worker
  refine ⟨?_, fun ended => orderly.left ended w worker task inside⟩
  intro cut
  rcases cut with aborted | gone
  · -- only a worker that has ended aborts its tasks
    have ended : ¬ WorkerRuns.Running w := by
      intro running
      have kept := (held.intact.quiet running task inside).2
      exact absurd aborted (by simp [ledger, kept])
    obtain ⟨result, place⟩ := not_forall.mp ended
    exact held.ended result (not_not.mp place) task inside
  · rcases held.idle task inside with serving | none
    · rcases gone with closed | cancelled
      · exact absurd (serving.symm.trans closed) (by simp)
      · exact absurd (serving.symm.trans cancelled) (by simp)
    · exact none

theorem listenerQuiet {l : Listener} (orderly : ListenerOrderly l) {j t : Nat} {row : List Ledger} {e : Ledger}
    (place : (listenerLedgers l)[j]? = some row) (found : row[t]? = some e) :
    (Cut e → e.started = []) ∧ (taskOver l = true → e.started = []) := by
  cases l with
  | tcp t =>
    obtain ⟨_, d, handle, held⟩ := orderly
    simp only [listenerLedgers, handle, Option.elim_some] at place
    simp only [taskOver, handle, Option.any_some]
    exact crewQuiet held place found
  | udp u =>
    obtain ⟨_, d, handle, held⟩ := orderly
    simp only [listenerLedgers, handle, Option.elim_some] at place
    simp only [taskOver, handle, Option.any_some]
    exact crewQuiet held place found

def Past : Stop → Nat → Prop
  | .running, _ => False
  | .signalling k, i => i < k
  | .joining k, i => i < k
  | .returned result, _ => result = .ok ()

structure ServerOrderly (s : Server) : Prop where
  each : ∀ l ∈ s.listeners, ListenerOrderly l
  past : ∀ i l, s.listeners[i]? = some l → Past s.stop i → taskOver l = true

theorem startedOrderly {v v' : Vetis} (started : v.start crates os w = (.ok (), v', after)) :
    ServerOrderly (Server.of v') := by
  refine ⟨?_, by simp [Server.of, Past]⟩
  intro l member
  rw [Server.of, (startedListeners started).1] at member
  obtain ⟨given, _, rfl⟩ := List.mem_map.mp member
  exact listeningOrderly _

/- A worker, and a UDP dispatcher, ends while nothing is open on its connections. -/
def Calm (s : Server) : ServerLabel → Prop
  | .tcp i l => ∀ t d, s.listeners[i]? = some (.tcp t) → t.handle = some d → CalmTcp d l
  | .udp i l => ∀ u d, s.listeners[i]? = some (.udp u) → u.handle = some d → CalmUdp d l
  | _ => True

theorem followed {listeners : List Listener} {i : Nat} {l next : Listener} (each : ∀ l ∈ listeners, ListenerOrderly l)
    (follows : Follows l next) : ∀ other ∈ listeners.set i next, ListenerOrderly other := by
  intro other member
  rcases List.mem_or_eq_of_mem_set member with old | same
  · exact each other old
  · exact same ▸ follows.orderly

theorem followedPast {listeners : List Listener} {i : Nat} {l next : Listener} {stop : Stop}
    (past : ∀ j other, listeners[j]? = some other → Past stop j → taskOver other = true)
    (found : listeners[i]? = some l) (follows : Follows l next) :
    ∀ j other, (listeners.set i next)[j]? = some other → Past stop j → taskOver other = true := by
  intro j other place before
  rcases Rows.setSource found place with ⟨rfl, rfl⟩ | ⟨_, there⟩
  · exact follows.isOver (past j l found before)
  · exact past j other there before

theorem serverOrderlyStep (orderly : ServerOrderly s) (calm : Calm s l) (taken : s.step crates l = some out) :
    ServerOrderly out := by
  have each := orderly.each
  have past := orderly.past
  cases serverSource taken with
  | tcp found handle moved =>
    have follows := tcpFollows (each _ (List.mem_of_getElem? found)) handle (calm _ _ found handle) moved
    exact ⟨followed each follows, followedPast past found follows⟩
  | udp found handle moved =>
    have follows := udpFollows (each _ (List.mem_of_getElem? found)) handle (calm _ _ found handle) moved
    exact ⟨followed each follows, followedPast past found follows⟩
  | refused nobody => exact ⟨each, by simp [nobody]⟩
  | called running => exact ⟨each, by simp [Past]⟩
  | @signalled k l place found =>
    have member := List.mem_of_getElem? found
    have follows := sendFollows (each l member)
    rw [place] at past
    rw [if_pos (orderlyAwaits (each l member))]
    exact ⟨followed each follows, followedPast past found follows⟩
  | @returned k place last =>
    refine ⟨each, ?_⟩
    intro i l found _
    refine past i l found ?_
    have inside : i < s.listeners.length := (List.getElem?_eq_some_iff.mp found).1
    have beyond : s.listeners.length ≤ k := List.getElem?_eq_none_iff.mp last
    rw [place]
    exact Nat.lt_of_lt_of_le inside beyond
  | @joined k l place found isOver =>
    refine ⟨each, ?_⟩
    intro i other there below
    rcases Nat.lt_succ_iff_lt_or_eq.mp below with earlier | rfl
    · refine past i other there ?_
      rw [place]
      exact earlier
    · cases Option.some.inj (found.symm.trans there)
      exact isOver

def ServerKeeps (before after : Server) : Prop :=
  Rows.Grows CrewKeeps (before.listeners.map listenerLedgers) (after.listeners.map listenerLedgers)

theorem serverKeepsRefl (s : Server) : ServerKeeps s s := Rows.growsRefl crewKeepsRefl _

theorem serverKeepsTrans {first second third : Server} (early : ServerKeeps first second)
    (late : ServerKeeps second third) : ServerKeeps first third := by
  have crews : ∀ a b c, CrewKeeps a b → CrewKeeps b c → CrewKeeps a c := fun _ _ _ => crewKeepsTrans
  exact Rows.growsTrans crews early late

theorem serverKeepsSet {listeners : List Listener} {i : Nat} {l next : Listener} (found : listeners[i]? = some l)
    (follows : Follows l next) :
    Rows.Grows CrewKeeps (listeners.map listenerLedgers) ((listeners.set i next).map listenerLedgers) := by
  exact Rows.growsMapSet crewKeepsRefl listenerLedgers found follows.kept

theorem serverRemembers (orderly : ServerOrderly s) (calm : Calm s l) (taken : s.step crates l = some out) :
    ServerKeeps s out := by
  have each := orderly.each
  cases serverSource taken with
  | tcp found handle moved =>
    exact serverKeepsSet found
      (tcpFollows (each _ (List.mem_of_getElem? found)) handle (calm _ _ found handle) moved)
  | udp found handle moved =>
    exact serverKeepsSet found
      (udpFollows (each _ (List.mem_of_getElem? found)) handle (calm _ _ found handle) moved)
  | signalled place found => exact serverKeepsSet found (sendFollows (each _ (List.mem_of_getElem? found)))
  | _ => exact serverKeepsRefl s

theorem serverRun {labels : List ServerLabel} (orderly : ServerOrderly s)
    (calm : Runs.Meets (Server.step crates) Calm s labels) (ran : Runs.run (Server.step crates) s labels = some out) :
    ServerOrderly out ∧ ServerKeeps s out := by
  refine Runs.invariantUnder (fun state => ServerOrderly state ∧ ServerKeeps s state) Calm ?_
    ⟨orderly, serverKeepsRefl s⟩ calm ran
  intro state l next held here taken
  exact ⟨serverOrderlyStep held.1 here taken, serverKeepsTrans held.2 (serverRemembers held.1 here taken)⟩

theorem ledgerSource {i j t : Nat} {e : Ledger} (found : s.ledger i j t = some e) :
    ∃ l row, s.listeners[i]? = some l ∧ (listenerLedgers l)[j]? = some row ∧ row[t]? = some e := by
  simp only [Server.ledger, bind, Option.bind_eq_some_iff] at found
  obtain ⟨l, there, row, place, last⟩ := found
  exact ⟨l, row, there, place, last⟩

theorem ledgerKept {i j t : Nat} {e : Ledger} (kept : ServerKeeps s out) (found : s.ledger i j t = some e) :
    ∃ later, out.ledger i j t = some later ∧ Keeps e later := by
  obtain ⟨l, row, there, place, last⟩ := ledgerSource found
  obtain ⟨rows, listener, crew⟩ := kept i (listenerLedgers l) (by rw [List.getElem?_map, there]; rfl)
  obtain ⟨next, worker, tasks⟩ := crew j row place
  obtain ⟨later, task, keeps⟩ := tasks t e last
  rw [List.getElem?_map, Option.map_eq_some_iff] at listener
  obtain ⟨l', here, rfl⟩ := listener
  exact ⟨later, by simp [Server.ledger, here, worker, task], keeps⟩

structure Graceful (crates : Crates) (start : Server) (labels : List ServerLabel) : Prop where
  answered : ∀ before after called s, labels = before ++ .callStop :: after →
    Runs.run (Server.step crates) start before = some called → Runs.run (Server.step crates) start labels = some s →
      s.stop = .returned (.ok ()) → ∀ i j t e r, called.ledger i j t = some e → r ∈ e.started →
        ∃ later, s.ledger i j t = some later ∧ r ∈ later.answered
  uncut : ∀ before after s, labels = before ++ after → Runs.run (Server.step crates) start before = some s →
    ∀ i j t e, s.ledger i j t = some e → Cut e → e.started = []

theorem stopsGracefullyWhenCalm {v v' : Vetis} {labels : List ServerLabel}
    (started : v.start crates os w = (.ok (), v', after))
    (calm : Runs.Meets (Server.step crates) Calm (Server.of v') labels) :
    Graceful crates (Server.of v') labels := by
  have first : ServerOrderly (Server.of v') := startedOrderly started
  refine ⟨?_, ?_⟩
  · intro before after called s split early whole ended i j t e r found opened
    rw [split] at calm whole
    obtain ⟨middle, same, late⟩ := Runs.runAppend.mp whole
    cases Option.some.inj (early.symm.trans same)
    have halves := Runs.meetsAppend calm early
    have orderly := (serverRun first halves.1 early).1
    obtain ⟨last, kept⟩ := serverRun orderly halves.2 late
    obtain ⟨later, place, keeps⟩ := ledgerKept kept found
    refine ⟨later, place, ?_⟩
    obtain ⟨l, row, there, inRow, atEnd⟩ := ledgerSource place
    have isOver := last.past i l there (by rw [ended]; rfl)
    have nothing := (listenerQuiet (last.each l (List.mem_of_getElem? there)) inRow atEnd).2 isOver
    rcases keeps r (Or.inl opened) with still | done
    · rw [nothing] at still
      contradiction
    · exact done
  · intro before after s split early i j t e found cut
    rw [split] at calm
    have orderly := (serverRun first (Runs.meetsAppend calm early).1 early).1
    obtain ⟨l, row, there, inRow, last⟩ := ledgerSource found
    exact (listenerQuiet (orderly.each l (List.mem_of_getElem? there)) inRow last).1 cut

def getStream : TcpStream := ⟨0, .ok ⟨.v4 0x7f000001, 40000⟩, .ok [0x47, 0x45]⟩

def requestOpens : List ServerLabel :=
  [.tcp 0 .poll, .tcp 0 (.accept (.ok getStream)), .tcp 0 .send, .tcp 0 (.worker 0 .poll),
    .tcp 0 (.worker 0 (.recv getStream)), .tcp 0 (.worker 0 .sniff), .tcp 0 (.worker 0 .insert),
    .tcp 0 (.worker 0 (.task 0 (.request 0)))]

def requestAnswered : ServerLabel := .tcp 0 (.worker 0 (.task 0 (.response 0)))

def stopReturns : List ServerLabel :=
  [.signal, .tcp 0 .stop, .tcp 0 (.worker 0 .stop), .tcp 0 (.worker 0 (.task 0 .close)), .tcp 0 .joined,
    .join, .signal]

theorem calmWorkerAt {i j : Nat} {t : TcpListener} {d : TcpDispatcher} {w : Worker TcpStream} {l : Label TcpStream}
    (found : s.listeners[i]? = some (.tcp t)) (handle : t.handle = some d) (place : d.crew.workers[j]? = some w)
    (calm : CalmWorker TcpWorker.protocol (tcpOver d.place) w l) : Calm s (.tcp i (.worker j l)) := by
  intro t' d' found' handle' w' place'
  cases Option.some.inj (found.symm.trans found')
  cases Option.some.inj (handle.symm.trans handle')
  cases Option.some.inj (place.symm.trans place')
  exact calm

theorem answeredThenStopped : ∃ v' after, (serverOn [80]).start sampleCrates sampleOs 0 = (.ok (), v', after) ∧
    Graceful sampleCrates (Server.of v') (requestOpens ++ requestAnswered :: .callStop :: stopReturns) := by
  have started : (serverOn [80]).start sampleCrates sampleOs 0 = (.ok (), _, _) := rfl
  refine ⟨_, _, started, stopsGracefullyWhenCalm started ?_⟩
  refine Runs.meetsCons (fun _ _ _ _ => trivial) rfl ?_
  refine Runs.meetsCons (fun _ _ _ _ => trivial) rfl ?_
  refine Runs.meetsCons (fun _ _ _ _ => trivial) rfl ?_
  refine Runs.meetsCons (calmWorkerAt rfl rfl rfl False.elim) rfl ?_
  refine Runs.meetsCons (calmWorkerAt rfl rfl rfl (fun fails => Bool.noConfusion fails)) rfl ?_
  refine Runs.meetsCons (calmWorkerAt rfl rfl rfl (fun _ => List.forall_mem_nil _)) rfl ?_
  refine Runs.meetsCons (calmWorkerAt rfl rfl rfl False.elim) rfl ?_
  refine Runs.meetsCons (calmWorkerAt rfl rfl rfl ⟨rfl, by simp [WorkerRuns.Running]⟩) rfl ?_
  refine Runs.meetsCons (calmWorkerAt rfl rfl rfl False.elim) rfl ?_
  refine Runs.meetsCons trivial rfl ?_
  refine Runs.meetsCons trivial rfl ?_
  refine Runs.meetsCons (fun _ _ _ _ => trivial) rfl ?_
  refine Runs.meetsCons (calmWorkerAt rfl rfl rfl (fun _ => List.forall_mem_singleton.mpr rfl)) rfl ?_
  refine Runs.meetsCons (calmWorkerAt rfl rfl rfl False.elim) rfl ?_
  refine Runs.meetsCons (fun _ _ _ _ => trivial) rfl ?_
  refine Runs.meetsCons trivial rfl ?_
  exact Runs.meetsCons trivial rfl trivial

/- The handle of the connection is aborted and its select takes the other branch,
and nobody waits for either. -/
theorem openRequestCut : ¬ ∀ (W : Type) (crates : Crates) (os : Os W) (v v' : Vetis) (w after : W)
    (labels : List ServerLabel), v.start crates os w = (.ok (), v', after) →
      Graceful crates (Server.of v') labels := by
  intro claim
  have graceful := claim Nat sampleCrates sampleOs (serverOn [80]) _ 0 _ (requestOpens ++ .callStop :: stopReturns) rfl
  obtain ⟨later, place, answered⟩ := graceful.answered requestOpens stopReturns _ _ rfl rfl rfl rfl 0 0 0 _ 0 rfl
    List.mem_cons_self
  cases Option.some.inj place
  contradiction

end VetisTokio.ServerStop
