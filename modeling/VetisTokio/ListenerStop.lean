import VetisTokio.ServerStop

/-! listener::tcp on its own: one listener after `listen`, the task that it spawned
and one call of `stop`, which may come at any moment. -/
namespace VetisTokio.ListenerStop
open HttpData ConfigData SignalChannel WorkerModel WorkerRuns DispatcherModel DispatcherRuns DispatcherDrain ListenerModel
  ServerModel ServerStart ServerStop Runs

inductive StopCall where
  | notCalled
  | awaiting
  | returned
  deriving DecidableEq, Repr

structure Stopping where
  listener : TcpListener
  call : StopCall

inductive StopLabel where
  | task (l : TcpLabel)
  | call
  | await

def Stopping.step (crates : Crates) (s : Stopping) : StopLabel → Option Stopping
  | .task l => (tcpTask crates s.listener l).map (fun t => { s with listener := t })
  | .call =>
    if s.call = .notCalled then
      some ⟨{ s.listener with signal := s.listener.signal.map Watch.send },
        if awaits (.tcp s.listener) then .awaiting else .returned⟩
    else none
  | .await =>
    if s.call = .awaiting ∧ taskOver (.tcp s.listener) then some { s with call := .returned } else none

def StopLabel.accepts : StopLabel → Bool
  | .task (.accept _) => true
  | _ => false

def hired (s : Stopping) : List (Worker TcpStream) := s.listener.handle.elim [] (fun d => d.crew.workers)

variable {crates : Crates} {s out : Stopping} {l : StopLabel}

inductive StopStep (crates : Crates) (s : Stopping) : StopLabel → Stopping → Prop where
  | task {l d next} (handle : s.listener.handle = some d) (moved : d.step crates l = some next) :
      StopStep crates s (.task l) { s with listener := { s.listener with handle := some next } }
  | called (free : s.call = .notCalled) :
      StopStep crates s .call ⟨{ s.listener with signal := s.listener.signal.map Watch.send },
        if awaits (.tcp s.listener) then .awaiting else .returned⟩
  | awaited (waiting : s.call = .awaiting) (isOver : taskOver (.tcp s.listener) = true) :
      StopStep crates s .await { s with call := .returned }

theorem stopSource (taken : s.step crates l = some out) : StopStep crates s l out := by
  cases l with
  | task l =>
    simp only [Stopping.step] at taken
    obtain ⟨next, task, rfl⟩ := Option.map_eq_some_iff.mp taken
    obtain ⟨d, moved, handle, step, rfl⟩ := tcpTaskSource task
    exact .task handle step
  | call =>
    simp only [Stopping.step] at taken
    split at taken <;> try contradiction
    cases Option.some.inj taken
    exact .called (by assumption)
  | await =>
    simp only [Stopping.step] at taken
    split at taken <;> try contradiction
    rename_i both
    cases Option.some.inj taken
    exact .awaited both.1 both.2

theorem overStays {C : Type} {p : Protocol C} {w next : Worker C} {l : Label C} (isOver : Worker.over w = true)
    (taken : w.step p l = some next) : Worker.over next = true := by
  obtain ⟨result, place⟩ : ∃ result, w.loop = .ended result := by
    unfold Worker.over at isOver
    split at isOver <;> try contradiction
    exact ⟨_, by assumption⟩
  cases stepSource taken with
  | poll other => rw [place] at other; contradiction
  | received other known => rw [place] at other; contradiction
  | unknown other fails => rfl
  | spawned other read => rw [place] at other; contradiction
  | unreadable other fails => rfl
  | inserted other => rw [place] at other; contradiction
  | closed other => rfl
  | stopped other => rfl
  | dropped other => rfl
  | task found moved => exact isOver

/- While `run` can be cut off its workers have a signal that was not sent yet, in the
join loop they have one that was, and after it none of them is left. -/
structure Manned (d : TcpDispatcher) : Prop where
  fresh : d.place = .unpolled → d.crew.workers = []
  waiting : d.place.waits = true → d.crew.workers ≠ [] → d.crew.signal = some channel
  joining : d.place = .joining → d.crew.workers ≠ [] → signalled d.crew.signal ⟨0⟩ = true
  ended : tcpOver d.place = true → ∀ w ∈ d.crew.workers, Worker.over w = true

theorem newManned (hosts : VetisHosts HostModel.Host) (config : ListenerConfig) (logger : Option Logger) :
    Manned (TcpDispatcher.new hosts config logger) := by
  refine ⟨fun _ => rfl, fun _ many => absurd rfl many, ?_, ?_⟩
  · intro place
    contradiction
  · intro isOver
    contradiction

theorem startManned {d : TcpDispatcher} (manned : Manned d) (place : d.place = .unpolled) :
    Manned (d.start crates) := by
  unfold TcpDispatcher.start TcpDispatcher.init
  cases TlsFactory.createTlsConfig crates.rustls crates.order d.hosts with
  | ok tls =>
    refine ⟨?_, fun _ _ => rfl, ?_, ?_⟩
    · intro place
      contradiction
    · intro place
      contradiction
    · intro isOver
      contradiction
  | error e =>
    refine ⟨fun _ => manned.fresh place, fun _ many => absurd (manned.fresh place) many, ?_, ?_⟩
    · intro place
      contradiction
    · intro isOver
      contradiction

theorem moveManned {d : TcpDispatcher} {i : Nat} {l : Label TcpStream} {crew : Crew TcpStream} (manned : Manned d)
    (moved : d.crew.step TcpWorker.protocol i l = some crew) : Manned { d with crew := crew } := by
  obtain ⟨_, _, _, signal, count⟩ := crewKeeps moved
  have same : crew.workers ≠ [] → d.crew.workers ≠ [] := by
    intro many none
    rw [none] at count
    exact many (List.length_eq_zero_iff.mp count)
  refine ⟨?_, ?_, ?_, ?_⟩
  · intro place
    rw [manned.fresh place] at count
    exact List.length_eq_zero_iff.mp count
  · intro waits many
    exact signal.trans (manned.waiting waits (same many))
  · intro place many
    exact signal ▸ manned.joining place (same many)
  · intro isOver
    exact crewForall (manned.ended isOver) (fun _ before taken => overStays before taken) moved

theorem mannedStep {d out : TcpDispatcher} {l : TcpLabel} (manned : Manned d) (taken : d.step crates l = some out) :
    Manned out := by
  cases tcpMove taken with
  | poll place => exact startManned manned place
  | looped before after workers signal =>
    refine ⟨fun fresh => absurd fresh after.2, ?_, ?_, ?_⟩
    · intro _ many
      exact signal.trans (manned.waiting before.1 (workers ▸ many))
    · intro place
      cases place
      exact absurd after.1 (by decide)
    · intro isOver
      exact absurd after.1 (overPastWaiting isOver)
  | stopped waits =>
    refine ⟨by simp, by simp [TcpPlace.waits], ?_, by simp [tcpOver]⟩
    intro _ many
    -- the send is what every worker sees, also one that was not polled yet
    have signal := manned.waiting waits many
    simp only [Crew.stop, signal, Option.map_some]
    rfl
  | joined place joined =>
    exact ⟨by simp, by simp [TcpPlace.waits], by simp, fun _ => List.all_eq_true.mp joined⟩
  | worker moved => exact moveManned manned moved

theorem spawnedStay {d out : TcpDispatcher} {l : TcpLabel} (manned : Manned d) (taken : d.step crates l = some out) :
    d.crew.workers.length ≤ out.crew.workers.length := by
  cases tcpMove taken with
  | poll place => simp [manned.fresh place]
  | looped before after workers signal => exact Nat.le_of_eq (congrArg List.length workers.symm)
  | worker moved => exact Nat.le_of_eq (crewKeeps moved).2.2.2.2.symm
  | _ => exact Nat.le_refl _

theorem overQuiet {d out : TcpDispatcher} {l : TcpLabel} (isOver : tcpOver d.place = true)
    (taken : d.step crates l = some out) :
    (StopLabel.task l).accepts = false ∧ out.crew.workers.length = d.crew.workers.length := by
  obtain ⟨_, _, _, rfl, moved, rfl⟩ := tcpOverSource isOver taken
  exact ⟨rfl, (crewKeeps moved).2.2.2.2⟩

structure Guarded (s : Stopping) : Prop where
  signal : s.listener.signal.isSome = true
  task : ∃ d, s.listener.handle = some d ∧ Manned d ∧ (s.call = .returned → tcpOver d.place = true)

theorem guardedStep (guarded : Guarded s) (taken : s.step crates l = some out) : Guarded out := by
  obtain ⟨d, handle, manned, finished⟩ := guarded.task
  cases stopSource taken with
  | task same moved =>
    cases Option.some.inj (handle.symm.trans same)
    exact ⟨guarded.signal, _, rfl, mannedStep manned moved, fun call => tcpOverStays (finished call) moved⟩
  | called free =>
    refine ⟨by simp [guarded.signal], d, handle, manned, ?_⟩
    have waits : awaits (.tcp s.listener) = true := by simp [awaits, guarded.signal, handle]
    simp [waits]
  | awaited waiting isOver =>
    refine ⟨guarded.signal, d, handle, manned, fun _ => ?_⟩
    simpa [taskOver, handle] using isOver

theorem hiredGrows (guarded : Guarded s) (taken : s.step crates l = some out) :
    (hired s).length ≤ (hired out).length := by
  obtain ⟨d, handle, manned, _⟩ := guarded.task
  cases stopSource taken with
  | task same moved =>
    cases Option.some.inj (handle.symm.trans same)
    simp only [hired, handle, Option.elim_some]
    exact spawnedStay manned moved
  | called free => exact Nat.le_refl _
  | awaited waiting isOver => exact Nat.le_refl _

theorem returnedOver (guarded : Guarded s) (returned : s.call = .returned) : ∀ w ∈ hired s, Worker.over w = true := by
  obtain ⟨d, handle, manned, finished⟩ := guarded.task
  simp only [hired, handle, Option.elim_some]
  exact manned.ended (finished returned)

theorem returnedQuiet (guarded : Guarded s) (returned : s.call = .returned) (taken : s.step crates l = some out) :
    out.call = .returned ∧ l.accepts = false ∧ (hired out).length = (hired s).length := by
  obtain ⟨d, handle, manned, finished⟩ := guarded.task
  cases stopSource taken with
  | task same moved =>
    cases Option.some.inj (handle.symm.trans same)
    obtain ⟨silent, count⟩ := overQuiet (finished returned) moved
    simp only [hired, handle, Option.elim_some]
    exact ⟨returned, silent, count⟩
  | called free =>
    rw [free] at returned
    contradiction
  | awaited waiting isOver =>
    rw [waiting] at returned
    contradiction

/- At every point where the dispatcher's future waits, its workers have a signal that
stops each of them that waits too. -/
structure Signals (d : TcpDispatcher) : Prop where
  present : d.place.waits = true → d.crew.workers ≠ [] → d.crew.signal.isSome = true
  held : d.place.waits = true → ∀ (i : Nat) w, d.crew.workers[i]? = some w → w.suspended TcpWorker.protocol = true →
    (d.crew.stop.step TcpWorker.protocol i .stop).isSome = true
  seen : d.place = .joining → ∀ (i : Nat) w, d.crew.workers[i]? = some w → w.suspended TcpWorker.protocol = true →
    (d.crew.step TcpWorker.protocol i .stop).isSome = true

theorem stopPermitted {crew : Crew TcpStream} (sent : signalled crew.signal ⟨0⟩ = true) {i : Nat} {w : Worker TcpStream}
    (found : crew.workers[i]? = some w) (suspended : w.suspended TcpWorker.protocol = true) :
    (crew.step TcpWorker.protocol i .stop).isSome = true := by
  simp [Crew.step, Crew.permits, sent, stepAt, found, Worker.step, suspended]

theorem mannedSignals {d : TcpDispatcher} (manned : Manned d) : Signals d := by
  have many : ∀ {i : Nat} {w}, d.crew.workers[i]? = some w → d.crew.workers ≠ [] := by
    intro i w found none
    simp [none] at found
  refine ⟨?_, ?_, ?_⟩
  · intro waits hired
    rw [manned.waiting waits hired]
    rfl
  · intro waits i w found suspended
    have sent : signalled d.crew.stop.signal ⟨0⟩ = true := by
      simp only [Crew.stop, manned.waiting waits (many found), Option.map_some]
      rfl
    exact stopPermitted sent found suspended
  · intro place i w found suspended
    exact stopPermitted (manned.joining place (many found)) found suspended

structure ShutDown (crates : Crates) (s : Stopping) : Prop where
  terminated : ∀ w ∈ hired s, Worker.over w = true
  quiet : ∀ more later, run (Stopping.step crates) s more = some later →
    (∀ l ∈ more, l.accepts = false) ∧ (hired later).length = (hired s).length ∧
      ∀ w ∈ hired later, Worker.over w = true

theorem guardedRun {labels : List StopLabel} (guarded : Guarded s)
    (ran : run (Stopping.step crates) s labels = some out) : Guarded out :=
  invariant Guarded guardedStep guarded ran

theorem hiredRun {labels : List StopLabel} (guarded : Guarded s)
    (ran : run (Stopping.step crates) s labels = some out) : (hired s).length ≤ (hired out).length := by
  have keep : ∀ {before l next}, Guarded before ∧ (hired s).length ≤ (hired before).length →
      Stopping.step crates before l = some next → Guarded next ∧ (hired s).length ≤ (hired next).length :=
    fun both taken => ⟨guardedStep both.1 taken, Nat.le_trans both.2 (hiredGrows both.1 taken)⟩
  exact (invariant (fun state => Guarded state ∧ (hired s).length ≤ (hired state).length) keep
    ⟨guarded, Nat.le_refl _⟩ ran).2

theorem returnedShutDown (guarded : Guarded s) (returned : s.call = .returned) : ShutDown crates s := by
  refine ⟨returnedOver guarded returned, ?_⟩
  intro more later ran
  have keep : ∀ {past state l next}, (Guarded state ∧ state.call = .returned ∧ (∀ l ∈ past, l.accepts = false) ∧
      (hired state).length = (hired s).length) → True → Stopping.step crates state l = some next →
        (Guarded next ∧ next.call = .returned ∧ (∀ m ∈ past ++ [l], m.accepts = false) ∧
          (hired next).length = (hired s).length) := by
    intro past state l next ⟨holds, done, silent, count⟩ _ taken
    obtain ⟨call, accepts, same⟩ := returnedQuiet holds done taken
    refine ⟨guardedStep holds taken, call, ?_, same.trans count⟩
    intro m member
    rcases List.mem_append.mp member with old | last
    · exact silent m old
    · cases List.mem_singleton.mp last
      exact accepts
  obtain ⟨holds, done, silent, count⟩ := historyInvariant (fun past state => Guarded state ∧ state.call = .returned ∧
    (∀ l ∈ past, l.accepts = false) ∧ (hired state).length = (hired s).length) (fun _ _ => True) keep
    ⟨guarded, returned, by simp, rfl⟩ (meetsOfForall (fun _ _ _ => trivial)) ran
  exact ⟨silent, count, returnedOver holds done⟩

theorem listenGuarded {W : Type} {os : Os W} {l listener : TcpListener} {w after : W}
    (listened : TcpListener.listen os l w = (.ok (), listener, after)) : Guarded ⟨listener, .notCalled⟩ := by
  rcases tcpListens os l w with ⟨_, ok⟩ | ⟨_, e, _, fails⟩
  · rw [listened] at ok
    cases (Prod.mk.inj (Prod.mk.inj ok).2).1
    refine ⟨rfl, _, rfl, newManned _ _ _, ?_⟩
    intro call
    contradiction
  · rw [listened] at fails
    cases (Prod.mk.inj fails).1

def workerLeft (w : Worker TcpStream) : Nat :=
  match w.loop with
  | .ended _ => 0
  | .spawned _ _ => 2
  | _ => 1

def placeLeft : TcpPlace → Nat
  | .ended _ => 0
  | .joining => 1
  | _ => 2

def dispatcherLeft (d : TcpDispatcher) : Nat := placeLeft d.place + Rows.total workerLeft d.crew.workers

def Stopping.left (s : Stopping) : Nat :=
  s.listener.handle.elim 0 dispatcherLeft + if s.call = .returned then 0 else 1

theorem workerNearer {w : Worker TcpStream} (running : ¬ Worker.over w = true) :
    ∃ l next, (l = .stop ∨ l = .insert) ∧ w.step TcpWorker.protocol l = some next ∧ workerLeft next < workerLeft w := by
  cases place : w.loop with
  | ended result => simp [Worker.over, place] at running
  | spawned t clientAddr =>
    refine ⟨.insert, { w with loop := .receiving, connections := w.connections.insert clientAddr t }, .inr rfl,
      by simp only [Worker.step, place], ?_⟩
    simp [workerLeft, place]
  | _ =>
    have suspended : w.suspended TcpWorker.protocol = true := by simp [Worker.suspended, place, TcpWorker.protocol]
    refine ⟨.stop, w.stop, .inl rfl, by simp only [Worker.step, suspended, if_true], ?_⟩
    simp [workerLeft, place, Worker.stop]

theorem crewNearer {crew : Crew TcpStream} (sent : signalled crew.signal ⟨0⟩ = true) (many : ¬ crew.joined = true) :
    ∃ i l out, crew.step TcpWorker.protocol i l = some out ∧
      Rows.total workerLeft out.workers < Rows.total workerLeft crew.workers := by
  obtain ⟨w, member, running⟩ : ∃ w ∈ crew.workers, ¬ Worker.over w = true := by
    simpa [Crew.joined] using many
  obtain ⟨i, found⟩ := List.mem_iff_getElem?.mp member
  obtain ⟨l, next, which, moved, less⟩ := workerNearer running
  have permitted : crew.permits l = true := by
    rcases which with rfl | rfl
    · exact sent
    · rfl
  refine ⟨i, l, { crew with workers := crew.workers.set i next, channel := afterTake crew.channel l }, ?_,
    Rows.totalSet workerLeft found less⟩
  simp [Crew.step, permitted, stepAt, found, moved]

theorem dispatcherNearer {d : TcpDispatcher} (manned : Manned d) (running : ¬ tcpOver d.place = true) :
    ∃ l out, d.step crates l = some out ∧ dispatcherLeft out < dispatcherLeft d := by
  by_cases waits : d.place.waits = true
  · refine ⟨.stop, { d with place := .joining, crew := d.crew.stop }, by simp only [TcpDispatcher.step, waits, if_true], ?_⟩
    have two : placeLeft d.place = 2 := by
      cases place : d.place <;> simp_all [placeLeft, TcpPlace.waits]
    simp only [dispatcherLeft, two, Crew.stop]
    simp [placeLeft]
  · have place : d.place = .joining := by
      cases place : d.place <;> simp_all [tcpOver, TcpPlace.waits]
    by_cases joined : d.crew.joined = true
    · refine ⟨.joined, { d with place := .ended (.ok ()), crew := d.crew.drop },
        by simp only [TcpDispatcher.step, place, joined, and_self, if_true], ?_⟩
      simp [dispatcherLeft, place, placeLeft, Crew.drop]
    · have many : d.crew.workers ≠ [] := by
        intro none
        simp [Crew.joined, none] at joined
      obtain ⟨i, l, crew, moved, less⟩ := crewNearer (manned.joining place many) joined
      refine ⟨.worker i l, { d with crew := crew }, by simp [TcpDispatcher.step, moved], ?_⟩
      simpa [dispatcherLeft] using less

structure Called (s : Stopping) : Prop where
  guarded : Guarded s
  called : s.call ≠ .notCalled
  sent : signalled s.listener.signal ⟨0⟩ = true

theorem calledNearer (called : Called s) (waiting : ¬ s.call = .returned) :
    ∃ l next, s.step crates l = some next ∧ Called next ∧ next.left < s.left := by
  obtain ⟨d, handle, manned, finished⟩ := called.guarded.task
  have awaiting : s.call = .awaiting := by
    have free := called.called
    cases call : s.call <;> simp_all
  by_cases isOver : tcpOver d.place = true
  · have taken : s.step crates .await = some { s with call := .returned } := by
      simp [Stopping.step, awaiting, taskOver, handle, isOver]
    refine ⟨.await, _, taken, ⟨guardedStep called.guarded taken, by simp, called.sent⟩, ?_⟩
    simp [Stopping.left, awaiting]
  · obtain ⟨l, out, moved, less⟩ := @dispatcherNearer crates d manned isOver
    have permitted : tcpPermits s.listener.signal l = true := by
      unfold tcpPermits
      split
      · exact called.sent
      · rfl
    have taken : s.step crates (.task l) = some { s with listener := { s.listener with handle := some out } } := by
      simp [Stopping.step, tcpTask, permitted, handle, moved]
    refine ⟨.task l, _, taken, ⟨guardedStep called.guarded taken, called.called, called.sent⟩, ?_⟩
    simpa [Stopping.left, handle] using less

theorem signalSent (guarded : Guarded s) (sent : s.call ≠ .notCalled → Called s) (taken : s.step crates l = some out) :
    out.call ≠ .notCalled → Called out := by
  intro called
  have after := guardedStep guarded taken
  cases stopSource taken with
  | task handle moved => exact ⟨after, called, (sent called).sent⟩
  | called free =>
    refine ⟨after, called, ?_⟩
    obtain ⟨watch, same⟩ := Option.isSome_iff_exists.mp guarded.signal
    simp [same, signalled, Watch.changed, Watch.send]
  | awaited waiting isOver =>
    have earlier : s.call ≠ .notCalled := by simp [waiting]
    exact ⟨after, called, (sent earlier).sent⟩

theorem stopCanReturn {W : Type} {os : Os W} {l listener : TcpListener} {w after : W}
    (listened : TcpListener.listen os l w = (.ok (), listener, after)) (crates : Crates) {labels : List StopLabel}
    (ran : run (Stopping.step crates) ⟨listener, .notCalled⟩ labels = some s) (called : s.call ≠ .notCalled) :
    ∃ more later, run (Stopping.step crates) s more = some later ∧ later.call = .returned := by
  have keep : ∀ {before l next}, Guarded before ∧ (before.call ≠ .notCalled → Called before) →
      Stopping.step crates before l = some next → Guarded next ∧ (next.call ≠ .notCalled → Called next) :=
    fun both taken => ⟨guardedStep both.1 taken, signalSent both.1 both.2 taken⟩
  have reached := invariant (fun state => Guarded state ∧ (state.call ≠ .notCalled → Called state)) keep
    ⟨listenGuarded listened, fun free => absurd rfl free⟩ ran
  exact runUntil Called (fun state => state.call = .returned) Stopping.left (fun _ => calledNearer) (reached.2 called)

theorem stopsTcpListener {W : Type} {os : Os W} {l listener : TcpListener} {w after : W}
    (listened : TcpListener.listen os l w = (.ok (), listener, after)) (crates : Crates) {labels : List StopLabel}
    {s : Stopping} (ran : run (Stopping.step crates) ⟨listener, .notCalled⟩ labels = some s) :
    (∀ d, s.listener.handle = some d → Signals d) ∧
    (s.call = .returned → ShutDown crates s ∧ ∀ first second earlier, labels = first ++ second →
      run (Stopping.step crates) ⟨listener, .notCalled⟩ first = some earlier →
        ∀ (i : Nat) worker, (hired earlier)[i]? = some worker →
          ∃ gone, (hired s)[i]? = some gone ∧ Worker.over gone = true) := by
  have start := listenGuarded listened
  have guarded := guardedRun start ran
  refine ⟨?_, ?_⟩
  · intro d same
    obtain ⟨other, handle, manned, _⟩ := guarded.task
    cases Option.some.inj (handle.symm.trans same)
    exact mannedSignals manned
  · intro returned
    refine ⟨returnedShutDown guarded returned, ?_⟩
    intro first second earlier split early i worker found
    rw [split, runAppend] at ran
    obtain ⟨middle, here, later⟩ := ran
    cases Option.some.inj (early.symm.trans here)
    have inside : i < (hired s).length := Nat.lt_of_lt_of_le (List.getElem?_eq_some_iff.mp found).1
      (hiredRun (guardedRun start early) later)
    exact ⟨(hired s)[i], List.getElem?_eq_getElem inside, returnedOver guarded returned _ (List.getElem_mem inside)⟩

def plainTcp : TcpListener := TcpListener.new ⟨.v4 0, 8080, 1⟩

def plainListening : TcpListener := plainTcp.spawned (TcpDispatcher.new plainTcp.hosts plainTcp.config none)

def earlyStop : List StopLabel :=
  [.task .poll, .call, .task .stop, .task (.worker 0 .stop), .task .joined, .await]

theorem earlyStopped : ∃ after s, TcpListener.listen sampleOs plainTcp 0 = (.ok (), plainListening, after) ∧
    run (Stopping.step sampleCrates) ⟨plainListening, .notCalled⟩ earlyStop = some s ∧ (hired s).length = 1 ∧
      ShutDown sampleCrates s := by
  have listened : TcpListener.listen sampleOs plainTcp 0 = (.ok (), plainListening, 1) := rfl
  have ran : run (Stopping.step sampleCrates) ⟨plainListening, .notCalled⟩ earlyStop = some _ := rfl
  exact ⟨_, _, listened, ran, rfl, ((stopsTcpListener listened sampleCrates ran).2 rfl).1⟩

end VetisTokio.ListenerStop
