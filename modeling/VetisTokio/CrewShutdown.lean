import VetisTokio.ListenerStop
import VetisTokio.QueueProgress

/-! Workers that go, together with the connections they have. Once a worker is over each
of its connection tasks has been told, so nothing but a handshake that is under way
keeps a task from its end. -/
namespace VetisTokio.CrewShutdown
open HttpData ConfigData SignalChannel WorkerModel WorkerRuns DispatcherModel DispatcherRuns

def closingTask : TaskLabel → Bool
  | .handshake _ | .remove | .close => true
  | _ => false

def taskLeft {C : Type} (task : ConnTask C) : Nat := if task.finished then 0 else 1

theorem taskNearer {C : Type} {signal : Option Watch} {task : ConnTask C} (busy : task.finished = false)
    (told : signalled signal task.shutSignal = true) :
    ∃ l next, closingTask l = true ∧ task.step signal l = some next ∧ taskLeft next < taskLeft task := by
  have one : taskLeft task = 1 := by simp [taskLeft, busy]
  cases phase : task.phase with
  | handshaking => exact ⟨.handshake false, _, rfl, if_pos phase, by rw [one]; exact Nat.one_pos⟩
  | serving => exact ⟨.close, _, rfl, if_pos ⟨phase, told⟩, by rw [one]; exact Nat.one_pos⟩
  | removing => exact ⟨.remove, _, rfl, if_pos phase, by rw [one]; exact Nat.one_pos⟩
  | finished exit => simp [ConnTask.finished, phase] at busy

section
variable {C : Type} {p : Protocol C} {w next : Worker C} {l : Label C}

def closing (p : Protocol C) : Label C → Bool
  | .sniff => !p.waits
  | .insert | .stop | .dropped => true
  | .task _ l => closingTask l
  | _ => false

structure Told (w : Worker C) : Prop where
  intact : Intact w
  told : ∀ result, w.loop = .ended result → ∀ task ∈ w.tasks, signalled w.signal task.shutSignal = true

theorem newTold : Told (Worker.new : Worker C) := ⟨newIntact, fun _ _ _ member => by cases member⟩

theorem bothSenders (intact : Intact w) (running : Running w) {task : ConnTask C} (member : task ∈ w.tasks) :
    w.signal = some ⟨0, 2⟩ ∧ task.shutSignal = ⟨0⟩ := by
  by_cases place : w.loop = .unpolled
  · rw [(intact.unpolled place).2.1] at member
    cases member
  · exact ⟨intact.signal running place, (intact.quiet running task member).1⟩

theorem finishTold (intact : Intact w) (running : Running w) (taken : w.step p l = some next)
    {result : Option (VetisResult Unit)} (same : next = w.finish result) : Told next := by
  refine ⟨intactStep intact taken, ?_⟩
  subst same
  intro _ _ task member
  obtain ⟨signal, seen⟩ := bothSenders intact running member
  simp only [Worker.finish, signal, seen]
  rfl

theorem stopTold (intact : Intact w) (running : Running w) (taken : w.step p .stop = some w.stop) : Told w.stop := by
  refine ⟨intactStep intact taken, ?_⟩
  intro _ _ after member
  obtain ⟨t, place⟩ := List.mem_iff_getElem?.mp member
  obtain ⟨task, found, same, _⟩ := stoppedTasks w place
  obtain ⟨signal, seen⟩ := bothSenders intact running (List.mem_of_getElem? found)
  rw [same]
  simp only [Worker.stop, signal, seen]
  rfl

theorem suspendedRunning (suspended : w.suspended p = true) : Running w := by
  intro result place
  simp [Worker.suspended, place] at suspended

theorem toldStep (told : Told w) (taken : w.step p l = some next) : Told next := by
  have intact := intactStep told.intact taken
  cases stepSource taken with
  | poll place => exact ⟨intact, by simp⟩
  | received place known => exact ⟨intact, by simp⟩
  | unknown place fails => exact finishTold told.intact (by simp [Running, place]) taken rfl
  | spawned place read => exact ⟨intact, by simp [Worker.spawn]⟩
  | unreadable place fails => exact finishTold told.intact (by simp [Running, place]) taken rfl
  | inserted place => exact ⟨intact, by simp⟩
  | closed place => exact finishTold told.intact (by simp [Running, place]) taken rfl
  | stopped place => exact stopTold told.intact (suspendedRunning place) taken
  | dropped place => exact finishTold told.intact (suspendedRunning place) taken rfl
  | @task t l task after found moved =>
    refine ⟨intact, ?_⟩
    intro result place other member
    rcases List.mem_or_eq_of_mem_set member with old | same
    · exact told.told result place other old
    · rw [same, (taskKeeps moved).2.2.1]
      exact told.told result place task (List.mem_of_getElem? found)

structure Quiet (w : Worker C) : Prop where
  isOver : Worker.over w = true
  finished : ∀ task ∈ w.tasks, task.finished = true

def loopLeft : Loop C → Nat
  | .ended _ => 0
  | .spawned _ _ => 2
  | .sniffing _ _ => 4
  | _ => 1

def workerLeft (w : Worker C) : Nat := loopLeft w.loop + Rows.total taskLeft w.tasks

theorem stopLeft (w : Worker C) : Rows.total taskLeft w.stop.tasks = Rows.total taskLeft w.tasks := by
  rw [Rows.totalMap, Rows.totalMap taskLeft w.tasks]
  congr 1
  refine List.ext_getElem? fun t => ?_
  simp only [Worker.stop, List.getElem?_map, List.getElem?_mapIdx, Option.map_map]
  congr 1
  funext task
  simp only [Function.comp_apply]
  split <;> rfl

theorem tasksNearer (told : Told w) {result : Option (VetisResult Unit)} (place : w.loop = .ended result)
    (busy : ¬ Quiet w) : ∃ t m next, closingTask m = true ∧ w.step p (.task t m) = some next ∧
      workerLeft next < workerLeft w := by
  obtain ⟨task, member, unfinished⟩ : ∃ task ∈ w.tasks, task.finished = false := by
    by_contra none
    refine busy ⟨by simp [Worker.over, place], fun task member => ?_⟩
    by_contra open'
    exact none ⟨task, member, Bool.eq_false_iff.mpr open'⟩
  obtain ⟨t, found⟩ := List.mem_iff_getElem?.mp member
  obtain ⟨m, after, allowed, moved, less⟩ := taskNearer unfinished (told.told result place task member)
  refine ⟨t, m, _, allowed, by simp only [Worker.step, found, moved, bind, Option.bind_some]; rfl, ?_⟩
  exact Nat.add_lt_add_left (Rows.totalSet taskLeft found less) _

theorem sniffNearer {conn : C} {clientAddr : SocketAddr} (place : w.loop = .sniffing conn clientAddr) :
    ∃ next, w.step p .sniff = some next ∧ workerLeft next < workerLeft w := by
  cases read : p.handshakes conn with
  | error e =>
    refine ⟨w.finish (some (.error e)), by simp only [Worker.step, place, read], ?_⟩
    simp only [workerLeft, Worker.finish, place, loopLeft]
    omega
  | ok tls =>
    refine ⟨w.spawn conn clientAddr tls, by simp only [Worker.step, place, read], ?_⟩
    have single : ∀ task : ConnTask C, taskLeft task ≤ 1 := by
      intro task
      unfold taskLeft
      split <;> decide
    have more := single ⟨conn, clientAddr, if tls then .handshaking else .serving, (w.signal.getD channel).subscribe,
      false, [], []⟩
    simp only [workerLeft, Worker.spawn, place, loopLeft, Rows.totalMore]
    omega

theorem endNearer (suspended : w.suspended p = true) : workerLeft w.stop < workerLeft w ∧
    ∀ result, workerLeft (w.finish result) < workerLeft w := by
  have waiting : 0 < loopLeft w.loop := by
    cases place : w.loop <;> simp [Worker.suspended, place] at suspended <;> simp [loopLeft]
  refine ⟨?_, fun result => ?_⟩
  · rw [workerLeft, stopLeft]
    exact Nat.add_lt_add_right waiting _
  · exact Nat.add_lt_add_right waiting _

end

section
variable {C : Type} [DecidableEq C] {p : Protocol C} {crew : Crew C}

def Ready (crew : Crew C) : Prop := signalled crew.signal ⟨0⟩ = true ∨ crew.dropped = true

def crewLeft (crew : Crew C) : Nat := Rows.total workerLeft crew.workers

theorem endsNow {w : Worker C} (ready : Ready crew) (suspended : w.suspended p = true) :
    ∃ l next, closing p l = true ∧ crew.permits l = true ∧ w.step p l = some next ∧ workerLeft next < workerLeft w := by
  obtain ⟨stops, drops⟩ := endNearer suspended
  rcases ready with sent | dropped
  · exact ⟨.stop, w.stop, rfl, sent, if_pos suspended, stops⟩
  · exact ⟨.dropped, w.finish none, rfl, dropped, if_pos suspended, drops none⟩

theorem workerNearer {w : Worker C} (ready : Ready crew) (told : Told w) (busy : ¬ Quiet w) :
    ∃ l next, closing p l = true ∧ crew.permits l = true ∧ w.step p l = some next ∧ workerLeft next < workerLeft w := by
  cases place : w.loop with
  | unpolled => exact endsNow ready (by simp [Worker.suspended, place])
  | receiving => exact endsNow ready (by simp [Worker.suspended, place])
  | sniffing conn clientAddr =>
    by_cases waits : p.waits = true
    · exact endsNow ready (by simp [Worker.suspended, place, waits])
    · obtain ⟨next, moved, less⟩ := sniffNearer (p := p) place
      exact ⟨.sniff, next, by simp [closing, waits], rfl, moved, less⟩
  | spawned t clientAddr =>
    refine ⟨.insert, { w with loop := .receiving, connections := w.connections.insert clientAddr t }, rfl, rfl,
      by simp only [Worker.step, place], ?_⟩
    simp only [workerLeft, place, loopLeft]
    omega
  | ended result =>
    obtain ⟨t, m, next, allowed, moved, less⟩ := tasksNearer (p := p) told place busy
    exact ⟨.task t m, next, allowed, rfl, moved, less⟩

theorem crewNearer (ready : Ready crew) (told : ∀ w ∈ crew.workers, Told w) (busy : ¬ ∀ w ∈ crew.workers, Quiet w) :
    ∃ i l out, closing p l = true ∧ crew.step p i l = some out ∧ crewLeft out < crewLeft crew := by
  obtain ⟨w, member, open'⟩ : ∃ w ∈ crew.workers, ¬ Quiet w := by
    by_contra none
    exact busy fun w member => by_contra fun open' => none ⟨w, member, open'⟩
  obtain ⟨i, found⟩ := List.mem_iff_getElem?.mp member
  obtain ⟨l, next, allowed, permitted, moved, less⟩ := workerNearer (p := p) ready (told w member) open'
  exact ⟨i, l, _, allowed, QueueProgress.crewTakes found moved permitted, Rows.totalSet workerLeft found less⟩

theorem toldWorkers {out : Crew C} {i : Nat} {l : Label C} (told : ∀ w ∈ crew.workers, Told w)
    (taken : crew.step p i l = some out) : ∀ w ∈ out.workers, Told w :=
  crewForall told (fun _ before moved => toldStep before moved) taken

end

end VetisTokio.CrewShutdown
