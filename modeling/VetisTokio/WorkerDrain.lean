import VetisTokio.Library.Rows
import VetisTokio.ServerModel
import VetisTokio.WorkerRuns

/-! Requests of one worker. When a worker ends, its tasks are told to close or are
aborted whatever they have open, so what is open then is cut. -/
namespace VetisTokio.WorkerDrain
open HttpData ConfigData SignalChannel WorkerModel WorkerRuns ServerModel

variable {C : Type} {p : Protocol C} {w out : Worker C} {l : Label C} {isOver : Bool}

def AllAnswered (w : Worker C) : Prop := ∀ task ∈ w.tasks, task.started = []

def EndsWorker (p : Protocol C) (w : Worker C) : Label C → Prop
  | .recv conn => (p.clientAddr conn).isOk = false
  | .sniff => ∃ conn clientAddr, w.loop = .sniffing conn clientAddr ∧ (p.handshakes conn).isOk = false
  | .closed | .stop | .dropped => True
  | _ => False

/- A worker ends while nothing is open on its connections, and nothing is opened
on them after that; `isOver` says that its dispatcher has ended. -/
def CalmWorker (p : Protocol C) (isOver : Bool) (w : Worker C) : Label C → Prop
  | .task _ (.request _) => isOver = false ∧ Running w
  | .task t .served | .task t .panic => ∀ task, w.tasks[t]? = some task → task.started = []
  | l => EndsWorker p w l → AllAnswered w

structure Orderly (w : Worker C) : Prop where
  intact : Intact w
  ended : ∀ result, w.loop = .ended result → AllAnswered w
  idle : ∀ task ∈ w.tasks, task.phase = .serving ∨ task.started = []

theorem newOrderly : Orderly (Worker.new : Worker C) :=
  ⟨newIntact, by simp [Worker.new], by simp [Worker.new]⟩

theorem taskRequests {signal : Option Watch} {task next : ConnTask C} {l : TaskLabel}
    (moved : task.step signal l = some next) (idle : task.phase = .serving ∨ task.started = [])
    (left : l = .served ∨ l = .panic → task.started = [])
    (cut : (signalled signal task.shutSignal = true ∨ task.aborted = true) → task.started = []) :
    next.phase = .serving ∨ next.started = [] := by
  cases l with
  | handshake accepted =>
    simp only [ConnTask.step] at moved
    split at moved <;> try contradiction
    rename_i place
    cases Option.some.inj moved
    rcases idle with serving | none
    · rw [place] at serving
      contradiction
    · exact Or.inr none
  | request r =>
    simp only [ConnTask.step] at moved
    split at moved <;> try contradiction
    rename_i place
    cases Option.some.inj moved
    exact Or.inl place.1
  | response r =>
    simp only [ConnTask.step] at moved
    split at moved <;> try contradiction
    rename_i place
    cases Option.some.inj moved
    exact Or.inl place.1
  | served =>
    simp only [ConnTask.step] at moved
    split at moved <;> try contradiction
    cases Option.some.inj moved
    exact Or.inr (left (Or.inl rfl))
  | remove =>
    simp only [ConnTask.step] at moved
    split at moved <;> try contradiction
    rename_i place
    cases Option.some.inj moved
    rcases idle with serving | none
    · rw [place] at serving
      contradiction
    · exact Or.inr none
  | close =>
    simp only [ConnTask.step] at moved
    split at moved <;> try contradiction
    rename_i place
    cases Option.some.inj moved
    exact Or.inr (cut (Or.inl place.2))
  | cancel =>
    simp only [ConnTask.step] at moved
    split at moved <;> try contradiction
    rename_i place
    cases Option.some.inj moved
    exact Or.inr (cut (Or.inr place.1))
  | panic =>
    simp only [ConnTask.step] at moved
    split at moved <;> try contradiction
    cases Option.some.inj moved
    exact Or.inr (left (Or.inr rfl))

theorem noneOpened {signal : Option Watch} {task next : ConnTask C} {l : TaskLabel}
    (moved : task.step signal l = some next) (none : task.started = []) (quiet : ∀ r, l ≠ .request r) :
    next.started = [] := by
  cases l <;> simp only [ConnTask.step] at moved <;> split at moved <;> try contradiction
  all_goals cases Option.some.inj moved
  · exact none
  · exact absurd rfl (quiet _)
  · simp [none]
  all_goals exact none

theorem spawnAnswered {conn : C} {clientAddr : SocketAddr} {tls : Bool} {task : ConnTask C}
    (member : task ∈ (w.spawn conn clientAddr tls).tasks) : task ∈ w.tasks ∨ task.started = [] := by
  rcases List.mem_append.mp member with old | fresh
  · exact Or.inl old
  · cases List.mem_singleton.mp fresh
    exact Or.inr rfl

theorem stoppedAnswered (answered : AllAnswered w) : AllAnswered w.stop := by
  intro after member
  obtain ⟨t, place⟩ := List.mem_iff_getElem?.mp member
  obtain ⟨task, found, same, _⟩ := stoppedTasks w place
  rw [same]
  exact answered task (List.mem_of_getElem? found)

theorem answeredStays (answered : AllAnswered w) (quiet : ∀ t r, l ≠ .task t (.request r))
    (taken : w.step p l = some out) : AllAnswered out := by
  cases stepSource taken with
  | poll place => exact answered
  | received place known => exact answered
  | unknown place fails => exact answered
  | spawned place read =>
    intro task member
    rcases spawnAnswered member with old | none
    · exact answered task old
    · exact none
  | unreadable place fails => exact answered
  | inserted place => exact answered
  | closed place => exact answered
  | stopped place => exact stoppedAnswered answered
  | dropped place => exact answered
  | @task t l task next found moved =>
    intro other member
    rcases List.mem_or_eq_of_mem_set member with old | same
    · exact answered other old
    · subst other
      exact noneOpened moved (answered task (List.mem_of_getElem? found)) (fun r same => quiet t r (same ▸ rfl))

theorem orderlyStep (orderly : Orderly w) (calm : CalmWorker p isOver w l) (taken : w.step p l = some out) :
    Orderly out := by
  have intact := intactStep orderly.intact taken
  cases stepSource taken with
  | poll place => exact ⟨intact, by simp, orderly.idle⟩
  | received place known => exact ⟨intact, by simp, orderly.idle⟩
  | unknown place fails =>
    refine ⟨intact, fun _ _ => calm ?_, orderly.idle⟩
    simp [EndsWorker, fails, Except.isOk, Except.toBool]
  | spawned place read =>
    refine ⟨intact, by simp [Worker.spawn], ?_⟩
    intro task member
    rcases spawnAnswered member with old | none
    · exact orderly.idle task old
    · exact Or.inr none
  | unreadable place fails =>
    refine ⟨intact, fun _ _ => calm ⟨_, _, place, ?_⟩, orderly.idle⟩
    rw [fails]
    rfl
  | inserted place => exact ⟨intact, by simp, orderly.idle⟩
  | closed place => exact ⟨intact, fun _ _ => calm trivial, orderly.idle⟩
  | stopped place =>
    have answered : AllAnswered w.stop := stoppedAnswered (calm trivial)
    exact ⟨intact, fun _ _ => answered, fun task member => Or.inr (answered task member)⟩
  | dropped place => exact ⟨intact, fun _ _ => calm trivial, orderly.idle⟩
  | @task t l task next found moved =>
    have inside := List.mem_of_getElem? found
    refine ⟨intact, ?_, ?_⟩
    · intro result place
      refine answeredStays (orderly.ended result place) ?_ taken
      intro u r same
      cases same
      exact calm.2 result place
    · intro other member
      rcases List.mem_or_eq_of_mem_set member with old | same
      · exact orderly.idle other old
      · subst other
        refine taskRequests moved (orderly.idle task inside) ?_ ?_
        · rintro (rfl | rfl)
          · exact calm task found
          · exact calm task found
        · intro cut
          by_cases running : Running w
          · have quiet := intactSignal orderly.intact running inside
            have kept := (orderly.intact.quiet running task inside).2
            simp [quiet, kept] at cut
          · obtain ⟨result, place⟩ := not_forall.mp running
            exact orderly.ended result (not_not.mp place) task inside

def Keeps (before after : Ledger) : Prop :=
  ∀ r, r ∈ before.started ∨ r ∈ before.answered → r ∈ after.started ∨ r ∈ after.answered

theorem keepsRefl (e : Ledger) : Keeps e e := fun _ known => known

theorem keepsTrans {first second third : Ledger} (early : Keeps first second) (late : Keeps second third) :
    Keeps first third := fun r known => late r (early r known)

theorem taskRemembers {signal : Option Watch} {task next : ConnTask C} {l : TaskLabel}
    (moved : task.step signal l = some next) : Keeps (ledger task) (ledger next) := by
  intro r known
  cases l <;> simp only [ConnTask.step] at moved <;> split at moved <;> try contradiction
  all_goals cases Option.some.inj moved
  · exact known
  · rcases known with opened | done
    · exact Or.inl (List.mem_cons_of_mem _ opened)
    · exact Or.inr done
  · rename_i answered _
    rcases known with opened | done
    · rcases eq_or_ne r answered with rfl | other
      · exact Or.inr List.mem_cons_self
      · exact Or.inl ((List.mem_erase_of_ne other).mpr opened)
    · exact Or.inr (List.mem_cons_of_mem _ done)
  all_goals exact known

theorem workerRemembers (taken : w.step p l = some out) : Rows.Grows Keeps (workerLedgers w) (workerLedgers out) := by
  have same : Rows.Grows Keeps (workerLedgers w) (workerLedgers w) := Rows.growsRefl keepsRefl _
  cases stepSource taken with
  | poll place => exact same
  | received place known => exact same
  | unknown place fails => exact same
  | spawned place read =>
    rw [workerLedgers, workerLedgers, Worker.spawn, List.map_append]
    exact Rows.growsAppend keepsRefl _ _
  | unreadable place fails => exact same
  | inserted place => exact same
  | closed place => exact same
  | stopped place =>
    intro t e there
    simp only [workerLedgers, List.getElem?_map, Option.map_eq_some_iff] at there
    obtain ⟨task, found, rfl⟩ := there
    refine ⟨_, by simp [workerLedgers, Worker.stop, found]; rfl, ?_⟩
    intro r known
    split <;> exact known
  | dropped place => exact same
  | task found moved => exact Rows.growsMapSet keepsRefl ledger found (taskRemembers moved)

end VetisTokio.WorkerDrain
