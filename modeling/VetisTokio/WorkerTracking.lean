import VetisTokio.WorkerRuns

/-! Live tasks against the table of their worker. An insertion replaces what is
under the address and a removal takes what is under it, whoever put it there, so
a live task keeps its handle only while its address is nobody else's. -/
namespace VetisTokio.WorkerTracking
open HttpData ConfigData SignalChannel WorkerModel WorkerRuns

variable {C : Type} {p : Protocol C} {w out : Worker C} {l : Label C}

def Tracked (w : Worker C) : Prop :=
  w.loop = .receiving → ∀ (t : Nat) (task : ConnTask C), w.tasks[t]? = some task → task.finished = false →
    t ∈ w.handles

def AbortsLive (w : Worker C) : Prop := ∀ task ∈ w.tasks, task.finished = false → task.aborted = true

def KeepsOthers (t : Nat) (w out : Worker C) : Prop :=
  ∀ clientAddr u, u ≠ t → w.connections.lookup clientAddr = some u → out.connections.lookup clientAddr = some u

/- No other live task has the address of a task when it is spawned, and a task
that ends before its handle is inserted finds nothing under its address. -/
def AddressAlone (w : Worker C) : Label C → Prop
  | .sniff => ∀ conn clientAddr, w.loop = .sniffing conn clientAddr →
      ∀ task ∈ w.tasks, task.clientAddr = clientAddr → task.finished = true
  | .task t .remove => ∀ clientAddr, w.loop = .spawned t clientAddr → w.connections.lookup clientAddr = none
  | _ => True

structure Tracking (w : Worker C) : Prop where
  intact : Intact w
  entered : ∀ (t : Nat) (task : ConnTask C), w.tasks[t]? = some task → task.finished = false →
    (∃ clientAddr, w.loop = .spawned t clientAddr) ∨ w.connections.lookup task.clientAddr = some t
  alone : ∀ t clientAddr, w.loop = .spawned t clientAddr → ∀ (u : Nat) (task : ConnTask C),
    w.tasks[u]? = some task → u ≠ t → task.clientAddr = clientAddr → task.finished = true

theorem newTracking : Tracking (Worker.new : Worker C) :=
  ⟨newIntact, by simp [Worker.new], by simp [Worker.new]⟩

theorem enteredUnlessSpawned (tracking : Tracking w) {t : Nat} {task : ConnTask C}
    (found : w.tasks[t]? = some task) (live : task.finished = false)
    (place : ∀ clientAddr, w.loop ≠ .spawned t clientAddr) : w.connections.lookup task.clientAddr = some t := by
  rcases tracking.entered t task found live with ⟨clientAddr, spawned⟩ | entry
  · exact absurd spawned (place clientAddr)
  · exact entry

theorem trackingAt (tracking : Tracking w) (before : ∀ t clientAddr, w.loop ≠ .spawned t clientAddr)
    (intact : Intact out) (tasks : out.tasks = w.tasks) (connections : out.connections = w.connections)
    (after : ∀ t clientAddr, out.loop ≠ .spawned t clientAddr) : Tracking out := by
  refine ⟨intact, ?_, ?_⟩
  · intro t task found live
    rw [tasks] at found
    rw [connections]
    exact Or.inr (enteredUnlessSpawned tracking found live (before t))
  · intro t clientAddr place
    exact absurd place (after t clientAddr)

theorem handleOfEntry {clientAddr : SocketAddr} {t : Nat} (entry : w.connections.lookup clientAddr = some t) :
    t ∈ w.handles :=
  List.mem_map.mpr ⟨⟨clientAddr, t⟩, AList.mem_lookup_iff.mp entry, rfl⟩

/- The task that takes a step is live, so what is under its address is its own
handle, unless that handle is still on its way into the table. -/
theorem othersKept (tracking : Tracking w) {t : Nat} {l : TaskLabel} (holds : AddressAlone w (.task t l))
    (taken : w.step p (.task t l) = some out) : KeepsOthers t w out := by
  intro clientAddr u other entry
  cases stepSource taken with
  | @task _ _ task next found moved =>
    have live := finishedStays moved
    show AList.lookup clientAddr (if l = .remove then w.connections.erase task.clientAddr else w.connections) =
      some u
    split
    · rename_i removed
      subst l
      have apart : clientAddr ≠ task.clientAddr := by
        intro same
        subst same
        rcases tracking.entered t task found live with ⟨address, spawned⟩ | own
        · obtain ⟨newest, place, equal⟩ := tracking.intact.newest t address spawned
          cases Option.some.inj (found.symm.trans place)
          rw [equal, holds address spawned] at entry
          contradiction
        · exact other (Option.some.inj (entry.symm.trans own))
      rwa [AList.lookup_erase_ne apart]
    · exact entry

theorem trackingStep (tracking : Tracking w) (holds : AddressAlone w l) (taken : w.step p l = some out) :
    Tracking out := by
  have intact := intactStep tracking.intact taken
  cases stepSource taken with
  | poll place => exact trackingAt tracking (by simp [place]) intact rfl rfl (by simp)
  | received place known => exact trackingAt tracking (by simp [place]) intact rfl rfl (by simp)
  | unknown place fails => exact trackingAt tracking (by simp [place]) intact rfl rfl (by simp [Worker.finish])
  | @spawned conn clientAddr tls place read =>
    refine ⟨intact, ?_, ?_⟩
    · intro t task found live
      rcases Rows.appendSource found with ⟨rfl, _⟩ | old
      · exact Or.inl ⟨clientAddr, rfl⟩
      · exact Or.inr (enteredUnlessSpawned tracking old live (by simp [place]))
    · intro t address spawned u task found other same
      simp only [Worker.spawn, Loop.spawned.injEq] at spawned
      obtain ⟨rfl, rfl⟩ := spawned
      rcases Rows.appendSource found with ⟨own, _⟩ | old
      · exact absurd own other
      · exact holds conn clientAddr place task (List.mem_of_getElem? old) same
  | unreadable place fails => exact trackingAt tracking (by simp [place]) intact rfl rfl (by simp [Worker.finish])
  | @inserted t clientAddr place =>
    refine ⟨intact, ?_, by simp⟩
    intro u task found live
    right
    by_cases own : u = t
    · subst u
      obtain ⟨newest, there, equal⟩ := tracking.intact.newest t clientAddr place
      cases Option.some.inj (found.symm.trans there)
      rw [equal, AList.lookup_insert]
    · rcases tracking.entered u task found live with ⟨address, spawned⟩ | entry
      · exact absurd (Loop.spawned.inj (place.symm.trans spawned)).1.symm own
      · have apart : task.clientAddr ≠ clientAddr := by
          intro same
          rw [tracking.alone t clientAddr place u task found own same] at live
          contradiction
        rwa [AList.lookup_insert_ne apart]
  | closed place => exact trackingAt tracking (by simp [place]) intact rfl rfl (by simp [Worker.finish])
  | stopped place =>
    refine ⟨intact, ?_, by simp [Worker.stop]⟩
    intro t after found live
    obtain ⟨task, there, same, _⟩ := stoppedTasks w found
    have unfinished : task.finished = false := by
      rw [same] at live
      exact live
    have entry := enteredUnlessSpawned tracking there unfinished (suspendedUnspawned place t)
    right
    rw [same]
    exact entry
  | dropped place => exact trackingAt tracking (suspendedUnspawned place) intact rfl rfl (by simp [Worker.finish])
  | @task t l task next found moved =>
    have others := othersKept tracking holds taken
    refine ⟨intact, ?_, ?_⟩
    · intro u after place live
      rcases Rows.setSource found place with ⟨rfl, rfl⟩ | ⟨own, before⟩
      · rcases tracking.entered u task found (finishedStays moved) with spawned | entry
        · exact Or.inl spawned
        · right
          rw [(taskKeeps moved).2.1]
          have stays : l ≠ .remove := by
            intro removed
            subst l
            rw [removeSource moved] at live
            contradiction
          simpa only [if_neg stays] using entry
      · rcases tracking.entered u after before live with spawned | entry
        · exact Or.inl spawned
        · exact Or.inr (others after.clientAddr u own entry)
    · intro s clientAddr spawned u after place other same
      rcases Rows.setSource found place with ⟨rfl, rfl⟩ | ⟨own, before⟩
      · have done := tracking.alone s clientAddr spawned u task found other ((taskKeeps moved).2.1.symm.trans same)
        rw [finishedStays moved] at done
        contradiction
      · exact tracking.alone s clientAddr spawned u after before other same

theorem trackingRun {labels : List (Label C)}
    (meets : Runs.Meets (Worker.step p) AddressAlone Worker.new labels)
    (ran : Runs.run (Worker.step p) Worker.new labels = some w) : Tracking w :=
  Runs.invariantUnder Tracking AddressAlone trackingStep newTracking meets ran

theorem trackedWhileTracking (tracking : Tracking w) : Tracked w := by
  intro place t task found live
  exact handleOfEntry (enteredUnlessSpawned tracking found live (by simp [place]))

theorem stopAborts (tracking : Tracking w) (taken : w.step p .stop = some out) : AbortsLive out := by
  cases stepSource taken with
  | stopped place =>
    intro after member live
    obtain ⟨t, found⟩ := List.mem_iff_getElem?.mp member
    obtain ⟨task, there, same, aborts⟩ := stoppedTasks w found
    rw [same] at live
    exact aborts (handleOfEntry (enteredUnlessSpawned tracking there live (suspendedUnspawned place t)))

def StaysTracked (step : Worker C → Label C → Option (Worker C)) (labels : List (Label C)) : Prop :=
  ∀ w, Runs.run step Worker.new labels = some w →
    Tracked w ∧ (∀ out, step w .stop = some out → AbortsLive out) ∧
      ∀ t l out, step w (.task t l) = some out → KeepsOthers t w out

def StaysTrackedWhen (condition : Worker C → Label C → Prop)
    (step : Worker C → Label C → Option (Worker C)) (labels : List (Label C)) : Prop :=
  ∀ w, Runs.Meets step condition Worker.new labels → Runs.run step Worker.new labels = some w →
    Tracked w ∧ (∀ out, step w .stop = some out → AbortsLive out) ∧
      ∀ t l out, condition w (.task t l) → step w (.task t l) = some out → KeepsOthers t w out

theorem runTracked (p : Protocol C) (labels : List (Label C)) :
    StaysTrackedWhen AddressAlone (Worker.step p) labels := by
  intro w meets ran
  have tracking := trackingRun meets ran
  exact ⟨trackedWhileTracking tracking, fun _ taken => stopAborts tracking taken,
    fun _ _ _ holds taken => othersKept tracking holds taken⟩

theorem staysTrackedWhenAlone (streams : List (Label TcpStream)) (conns : List (Label Connection)) :
    StaysTrackedWhen AddressAlone TcpWorker.step streams ∧ StaysTrackedWhen AddressAlone UdpWorker.step conns :=
  ⟨runTracked TcpWorker.protocol streams, runTracked UdpWorker.protocol conns⟩

def sameClient : SocketAddr := ⟨.v4 0x7f000001, 40000⟩
def plainStream (id : Nat) : TcpStream := ⟨id, .ok sameClient, .ok [0x47, 0x45]⟩

def otherClient : SocketAddr := ⟨.v4 0x7f000001, 40001⟩

/- Two connections at a time, the second of them TLS; the first one ends and its
address comes back while the second is alive. -/
def reusedAddress : List (Label TcpStream) :=
  [.poll, .recv (plainStream 0), .sniff, .insert, .recv ⟨1, .ok otherClient, .ok [0x16, 0x03]⟩, .sniff, .insert,
    .task 1 (.handshake true), .task 0 .served, .task 0 .remove, .recv (plainStream 2), .sniff, .insert]

theorem aloneAtSniff {conn : C} {clientAddr : SocketAddr} (place : w.loop = .sniffing conn clientAddr)
    (others : ∀ task ∈ w.tasks, task.clientAddr = clientAddr → task.finished = true) : AddressAlone w .sniff := by
  intro conn' address same
  cases place.symm.trans same
  exact others

theorem aloneAtRemove {t : Nat} (place : w.loop = .receiving) : AddressAlone w (.task t .remove) := by
  intro clientAddr spawned
  rw [place] at spawned
  contradiction

theorem reusedAddressTracked : ∃ w, Runs.run TcpWorker.step Worker.new reusedAddress = some w ∧ Tracked w ∧
    (∀ out, TcpWorker.step w .stop = some out → AbortsLive out) ∧ w.totalConnections = 2 := by
  have meets : Runs.Meets TcpWorker.step AddressAlone Worker.new reusedAddress := by
    refine Runs.meetsCons trivial rfl (Runs.meetsCons trivial rfl ?_)
    refine Runs.meetsCons (aloneAtSniff rfl (by decide)) rfl ?_
    refine Runs.meetsCons trivial rfl (Runs.meetsCons trivial rfl ?_)
    refine Runs.meetsCons (aloneAtSniff rfl (by decide)) rfl ?_
    refine Runs.meetsCons trivial rfl (Runs.meetsCons trivial rfl (Runs.meetsCons trivial rfl ?_))
    refine Runs.meetsCons (aloneAtRemove rfl) rfl ?_
    refine Runs.meetsCons trivial rfl ?_
    refine Runs.meetsCons (aloneAtSniff rfl (by decide)) rfl ?_
    exact Runs.meetsCons trivial rfl trivial
  have tracked := (staysTrackedWhenAlone reusedAddress []).1 _ meets rfl
  exact ⟨_, rfl, tracked.1, tracked.2.1, rfl⟩

theorem sameAddressUntracked : (¬ ∀ labels, StaysTracked TcpWorker.step labels) ∧
    ¬ ∀ labels, StaysTracked UdpWorker.step labels := by
  refine ⟨?_, ?_⟩
  · intro claim
    have tracked := (claim [.poll, .recv (plainStream 0), .sniff, .insert, .recv (plainStream 1), .sniff, .insert]
      _ rfl).1
    exact absurd (tracked rfl 0 _ rfl rfl) (by decide)
  · intro claim
    have tracked := (claim [.poll, .recv ⟨0, sameClient⟩, .sniff, .insert, .recv ⟨1, sameClient⟩, .sniff, .insert]
      _ rfl).1
    exact absurd (tracked rfl 0 _ rfl rfl) (by decide)

end VetisTokio.WorkerTracking
