import VetisTokio.Library.Rows
import VetisTokio.WorkerModel

/-! What one step of a worker can do, said once, and what every run of a worker
keeps as long as its loop has not ended: no task of it has been signalled or
aborted, and every entry of the table is the handle of a task of that address. -/
namespace VetisTokio.WorkerRuns
open HttpData ConfigData SignalChannel WorkerModel

variable {C : Type} {p : Protocol C} {w out : Worker C} {l : Label C}

inductive Step (p : Protocol C) (w : Worker C) : Label C → Worker C → Prop where
  | poll (place : w.loop = .unpolled) :
      Step p w .poll { w with loop := .receiving, signal := some channel.cloneSender }
  | received {conn clientAddr} (place : w.loop = .receiving) (known : p.clientAddr conn = .ok clientAddr) :
      Step p w (.recv conn) { w with loop := .sniffing conn clientAddr }
  | unknown {conn e} (place : w.loop = .receiving) (fails : p.clientAddr conn = .error e) :
      Step p w (.recv conn) (w.finish (some (.error e)))
  | spawned {conn clientAddr tls} (place : w.loop = .sniffing conn clientAddr)
      (read : p.handshakes conn = .ok tls) : Step p w .sniff (w.spawn conn clientAddr tls)
  | unreadable {conn clientAddr e} (place : w.loop = .sniffing conn clientAddr)
      (fails : p.handshakes conn = .error e) : Step p w .sniff (w.finish (some (.error e)))
  | inserted {t clientAddr} (place : w.loop = .spawned t clientAddr) :
      Step p w .insert { w with loop := .receiving, connections := w.connections.insert clientAddr t }
  | closed (place : w.loop = .receiving) : Step p w .closed (w.finish (some (.ok ())))
  | stopped (place : w.suspended p = true) : Step p w .stop w.stop
  | dropped (place : w.suspended p = true) : Step p w .dropped (w.finish none)
  | task {t l task next} (found : w.tasks[t]? = some task) (moved : task.step w.signal l = some next) :
      Step p w (.task t l) { w with
        tasks := w.tasks.set t next
        connections := if l = .remove then w.connections.erase task.clientAddr else w.connections }

theorem stepSource (taken : w.step p l = some out) : Step p w l out := by
  cases l with
  | poll =>
    simp only [Worker.step] at taken
    split at taken <;> try contradiction
    cases Option.some.inj taken
    exact .poll (by assumption)
  | recv conn =>
    simp only [Worker.step] at taken
    split at taken <;> try contradiction
    split at taken
    · cases Option.some.inj taken
      exact .unknown (by assumption) (by assumption)
    · cases Option.some.inj taken
      exact .received (by assumption) (by assumption)
  | sniff =>
    simp only [Worker.step] at taken
    split at taken <;> try contradiction
    split at taken
    · cases Option.some.inj taken
      exact .unreadable (by assumption) (by assumption)
    · cases Option.some.inj taken
      exact .spawned (by assumption) (by assumption)
  | insert =>
    simp only [Worker.step] at taken
    split at taken <;> try contradiction
    cases Option.some.inj taken
    exact .inserted (by assumption)
  | closed =>
    simp only [Worker.step] at taken
    split at taken <;> try contradiction
    cases Option.some.inj taken
    exact .closed (by assumption)
  | stop =>
    simp only [Worker.step] at taken
    split at taken <;> try contradiction
    cases Option.some.inj taken
    exact .stopped (by assumption)
  | dropped =>
    simp only [Worker.step] at taken
    split at taken <;> try contradiction
    cases Option.some.inj taken
    exact .dropped (by assumption)
  | task t l =>
    simp only [Worker.step, bind, Option.bind_eq_some_iff] at taken
    obtain ⟨task, found, next, moved, last⟩ := taken
    cases Option.some.inj last
    exact .task found moved

theorem taskKeeps {signal : Option Watch} {task next : ConnTask C} {l : TaskLabel}
    (moved : task.step signal l = some next) :
    next.conn = task.conn ∧ next.clientAddr = task.clientAddr ∧ next.shutSignal = task.shutSignal ∧
      next.aborted = task.aborted := by
  cases l <;> simp only [ConnTask.step] at moved <;> split at moved <;> try contradiction
  all_goals cases Option.some.inj moved; exact ⟨rfl, rfl, rfl, rfl⟩

theorem finishedStays {signal : Option Watch} {task next : ConnTask C} {l : TaskLabel}
    (moved : task.step signal l = some next) : task.finished = false := by
  cases done : task.finished with
  | false => rfl
  | true =>
    obtain ⟨exit, phase⟩ : ∃ exit, task.phase = .finished exit := by
      unfold ConnTask.finished at done
      split at done
      · exact ⟨_, by assumption⟩
      · contradiction
    cases l <;> simp [ConnTask.step, phase] at moved

theorem endsUndisturbed {signal : Option Watch} {task next : ConnTask C} {l : TaskLabel}
    (moved : task.step signal l = some next) (quiet : signalled signal task.shutSignal = false)
    (kept : task.aborted = false) (done : next.finished = true) :
    l = .remove ∨ l = .handshake false ∨ l = .panic := by
  cases l with
  | remove => exact Or.inl rfl
  | panic => exact Or.inr (Or.inr rfl)
  | handshake accepted =>
    cases accepted with
    | false => exact Or.inr (Or.inl rfl)
    | true =>
      simp only [ConnTask.step] at moved
      split at moved <;> try contradiction
      cases Option.some.inj moved
      simp [ConnTask.finished] at done
  | request r =>
    simp only [ConnTask.step] at moved
    split at moved <;> try contradiction
    rename_i serving
    cases Option.some.inj moved
    simp [ConnTask.finished, serving.1] at done
  | response r =>
    simp only [ConnTask.step] at moved
    split at moved <;> try contradiction
    rename_i serving
    cases Option.some.inj moved
    simp [ConnTask.finished, serving.1] at done
  | served =>
    simp only [ConnTask.step] at moved
    split at moved <;> try contradiction
    cases Option.some.inj moved
    simp [ConnTask.finished] at done
  | close => simp [ConnTask.step, quiet] at moved
  | cancel => simp [ConnTask.step, kept] at moved

theorem removeSource {signal : Option Watch} {task next : ConnTask C}
    (moved : task.step signal .remove = some next) : next = { task with phase := .finished .served } := by
  simp only [ConnTask.step] at moved
  split at moved <;> try contradiction
  exact (Option.some.inj moved).symm

theorem spawnUnfinished (w : Worker C) (conn : C) (clientAddr : SocketAddr) (tls : Bool) :
    ∃ task, (w.spawn conn clientAddr tls).tasks = w.tasks ++ [task] ∧ task.conn = conn ∧
      task.clientAddr = clientAddr ∧ task.finished = false := by
  refine ⟨_, rfl, rfl, rfl, ?_⟩
  cases tls <;> rfl

theorem stoppedTasks (w : Worker C) {t : Nat} {after : ConnTask C} (found : w.stop.tasks[t]? = some after) :
    ∃ task, w.tasks[t]? = some task ∧ after = { task with aborted := after.aborted } ∧
      (t ∈ w.handles → after.aborted = true) := by
  simp only [Worker.stop, List.getElem?_mapIdx, Option.map_eq_some_iff] at found
  obtain ⟨task, place, rfl⟩ := found
  refine ⟨task, place, ?_⟩
  split
  · exact ⟨rfl, fun _ => rfl⟩
  · exact ⟨rfl, fun handle => by contradiction⟩

def Running (w : Worker C) : Prop := ∀ result, w.loop ≠ .ended result

structure Intact (w : Worker C) : Prop where
  unpolled : w.loop = .unpolled → w.signal = none ∧ w.tasks = [] ∧ w.connections = ∅
  signal : Running w → w.loop ≠ .unpolled → w.signal = some ⟨0, 2⟩
  quiet : Running w → ∀ task ∈ w.tasks, task.shutSignal = ⟨0⟩ ∧ task.aborted = false
  entries : ∀ clientAddr t, w.connections.lookup clientAddr = some t →
    ∃ task, w.tasks[t]? = some task ∧ task.clientAddr = clientAddr
  newest : ∀ t clientAddr, w.loop = .spawned t clientAddr →
    ∃ task, w.tasks[t]? = some task ∧ task.clientAddr = clientAddr

theorem newIntact : Intact (Worker.new : Worker C) where
  unpolled _ := ⟨rfl, rfl, rfl⟩
  signal _ polled := absurd rfl polled
  quiet _ := by simp [Worker.new]
  entries := by simp [Worker.new]
  newest := by simp [Worker.new]

theorem intactSignal (intact : Intact w) (running : Running w) {task : ConnTask C} (member : task ∈ w.tasks) :
    signalled w.signal task.shutSignal = false := by
  by_cases place : w.loop = .unpolled
  · simp [(intact.unpolled place).2.1] at member
  · rw [intact.signal running place, (intact.quiet running task member).1]
    rfl

theorem entriesAppend (intact : Intact w) (more : List (ConnTask C)) {clientAddr : SocketAddr} {t : Nat}
    (found : w.connections.lookup clientAddr = some t) :
    ∃ task, (w.tasks ++ more)[t]? = some task ∧ task.clientAddr = clientAddr := by
  obtain ⟨task, place, same⟩ := intact.entries clientAddr t found
  exact ⟨task, Rows.appendKeeps place more, same⟩

theorem entryBefore {l : TaskLabel} {task : ConnTask C} {clientAddr : SocketAddr} {t : Nat}
    (entry : (if l = .remove then w.connections.erase task.clientAddr else w.connections).lookup clientAddr = some t) :
    w.connections.lookup clientAddr = some t ∧ (l = .remove → clientAddr ≠ task.clientAddr) := by
  split at entry
  · by_cases same : clientAddr = task.clientAddr
    · rw [same, AList.lookup_erase] at entry
      contradiction
    · rw [AList.lookup_erase_ne same] at entry
      exact ⟨entry, fun _ => same⟩
  · exact ⟨entry, fun removed => by contradiction⟩

theorem suspendedUnspawned (place : w.suspended p = true) (t : Nat) (clientAddr : SocketAddr) :
    w.loop ≠ .spawned t clientAddr := by
  intro spawned
  simp [Worker.suspended, spawned] at place

theorem taskAfter {t : Nat} {task next : ConnTask C} {signal : Option Watch} {l : TaskLabel}
    (found : w.tasks[t]? = some task) (moved : task.step signal l = some next) {u : Nat} {other : ConnTask C}
    (place : w.tasks[u]? = some other) :
    ∃ after, (w.tasks.set t next)[u]? = some after ∧ after.clientAddr = other.clientAddr := by
  rcases Rows.setKeeps found place with ⟨_, rfl, here⟩ | ⟨_, here⟩
  · exact ⟨next, here, (taskKeeps moved).2.1⟩
  · exact ⟨other, here, rfl⟩

theorem endedIntact (intact : Intact w) {result : Option (VetisResult Unit)} (signal : Option Watch)
    (tasks : List (ConnTask C)) (kept : ∀ (t : Nat) (task : ConnTask C), w.tasks[t]? = some task →
      ∃ after : ConnTask C, tasks[t]? = some after ∧ after.clientAddr = task.clientAddr) :
    Intact (⟨.ended result, signal, tasks, w.connections⟩ : Worker C) where
  unpolled place := by simp at place
  signal running := absurd rfl (running result)
  quiet running := absurd rfl (running result)
  entries clientAddr t found := by
    obtain ⟨task, place, same⟩ := intact.entries clientAddr t found
    obtain ⟨after, there, equal⟩ := kept t task place
    exact ⟨after, there, equal.trans same⟩
  newest t clientAddr place := by simp at place

theorem intactStep (intact : Intact w) (taken : w.step p l = some out) : Intact out := by
  cases stepSource taken with
  | poll place =>
    obtain ⟨_, tasks, connections⟩ := intact.unpolled place
    exact ⟨by simp, fun _ _ => rfl, by simp [tasks], by simp [connections], by simp⟩
  | received place known =>
    have running : Running w := by simp [Running, place]
    exact ⟨by simp, fun _ _ => intact.signal running (by simp [place]), fun _ => intact.quiet running,
      intact.entries, by simp⟩
  | unknown place fails => exact endedIntact intact _ _ (fun t task found => ⟨task, found, rfl⟩)
  | @spawned conn clientAddr tls place read =>
    have running : Running w := by simp [Running, place]
    have signal := intact.signal running (by simp [place])
    refine ⟨by simp [Worker.spawn], fun _ _ => signal, ?_, ?_, ?_⟩
    · intro _ task member
      rcases List.mem_append.mp member with old | fresh
      · exact intact.quiet running task old
      · cases List.mem_singleton.mp fresh
        simp [signal, Watch.subscribe]
    · intro other t found
      exact entriesAppend intact _ found
    · intro t other same
      simp only [Worker.spawn, Loop.spawned.injEq] at same
      obtain ⟨rfl, rfl⟩ := same
      exact ⟨_, List.getElem?_concat_length, rfl⟩
  | unreadable place fails => exact endedIntact intact _ _ (fun t task found => ⟨task, found, rfl⟩)
  | @inserted t clientAddr place =>
    have running : Running w := by simp [Running, place]
    refine ⟨by simp, fun _ _ => intact.signal running (by simp [place]), fun _ => intact.quiet running, ?_,
      by simp⟩
    intro other u found
    by_cases same : other = clientAddr
    · subst other
      rw [AList.lookup_insert] at found
      cases Option.some.inj found
      exact intact.newest t clientAddr place
    · rw [AList.lookup_insert_ne same] at found
      exact intact.entries other u found
  | closed place => exact endedIntact intact _ _ (fun t task found => ⟨task, found, rfl⟩)
  | stopped place =>
    refine endedIntact intact _ _ (fun t task found => ?_)
    rw [List.getElem?_mapIdx, found]
    refine ⟨_, rfl, ?_⟩
    split <;> rfl
  | dropped place => exact endedIntact intact _ _ (fun t task found => ⟨task, found, rfl⟩)
  | @task t l task next found moved =>
    refine ⟨?_, intact.signal, ?_, ?_, ?_⟩
    · intro place
      simp [(intact.unpolled place).2.1] at found
    · intro running other member
      rcases List.mem_or_eq_of_mem_set member with old | same
      · exact intact.quiet running other old
      · subst other
        have before := intact.quiet running task (List.mem_of_getElem? found)
        obtain ⟨_, _, signal, aborted⟩ := taskKeeps moved
        exact ⟨signal.trans before.1, aborted.trans before.2⟩
    · intro other u entry
      obtain ⟨held, place, same⟩ := intact.entries other u (entryBefore entry).1
      obtain ⟨after, there, equal⟩ := taskAfter found moved place
      exact ⟨after, there, equal.trans same⟩
    · intro u other place
      obtain ⟨held, there, same⟩ := intact.newest u other place
      obtain ⟨after, here, equal⟩ := taskAfter found moved there
      exact ⟨after, here, equal.trans same⟩

theorem intactRun {labels : List (Label C)} (ran : Runs.run (Worker.step p) Worker.new labels = some w) :
    Intact w :=
  Runs.invariant Intact intactStep newIntact ran

end VetisTokio.WorkerRuns
