import VetisTokio.WorkerRuns

/-! The table of a worker in every run, with nothing asked of it: whose handle an
entry is, which ends of a task leave its entry behind, and what can have become
of the handle of a live task that has none. -/
namespace VetisTokio.WorkerAccount
open HttpData ConfigData SignalChannel WorkerModel WorkerRuns

variable {C : Type} {p : Protocol C} {w out : Worker C} {l : Label C} {past : List (Label C)}

/- The removal found nothing, as the loop had not come to the insertion. -/
def EndsEarly (p : Protocol C) (labels : List (Label C)) (t : Nat) : Prop :=
  ∃ before after clientAddr state, labels = before ++ .task t .remove :: after ∧
    Runs.run (Worker.step p) Worker.new before = some state ∧ state.loop = .spawned t clientAddr

def LeftBehind (p : Protocol C) (labels : List (Label C)) (t : Nat) : Prop :=
  .task t (.handshake false) ∈ labels ∨ .task t .panic ∈ labels ∨ EndsEarly p labels t

/- Another task of the address was entered later, or took the entry out at its own end. -/
def Displaced (tasks : List (ConnTask C)) (t : Nat) (clientAddr : SocketAddr) : Prop :=
  ∃ (u : Nat) (other : ConnTask C), u ≠ t ∧ tasks[u]? = some other ∧ other.clientAddr = clientAddr ∧
    (t < u ∨ other.phase = .finished .served)

def Ages (before after : ConnTask C) : Prop :=
  after.clientAddr = before.clientAddr ∧ (before.phase = .finished .served → after.phase = .finished .served)

structure Accounted (p : Protocol C) (labels : List (Label C)) (w : Worker C) : Prop where
  own : ∀ clientAddr t, w.connections.lookup clientAddr = some t →
    ∃ task, w.tasks[t]? = some task ∧ task.clientAddr = clientAddr
  newest : ∀ clientAddr t, w.connections.lookup clientAddr = some t → ∀ (u : Nat) (task : ConnTask C),
    w.tasks[u]? = some task → task.clientAddr = clientAddr → u ≤ t ∨ w.loop = .spawned u clientAddr
  stale : Running w → ∀ clientAddr t, w.connections.lookup clientAddr = some t ∨ w.loop = .spawned t clientAddr →
    ∀ task, w.tasks[t]? = some task → task.finished = true → LeftBehind p labels t
  lost : ∀ (t : Nat) (task : ConnTask C), w.tasks[t]? = some task → task.finished = false →
    (∃ clientAddr, w.loop = .spawned t clientAddr) ∨ w.connections.lookup task.clientAddr = some t ∨
      Displaced w.tasks t task.clientAddr

theorem agesRefl (task : ConnTask C) : Ages task task := ⟨rfl, id⟩

theorem stepAges {signal : Option Watch} {task next : ConnTask C} {l : TaskLabel}
    (moved : task.step signal l = some next) : Ages task next := by
  refine ⟨(taskKeeps moved).2.1, ?_⟩
  intro served
  have running := finishedStays moved
  rw [ConnTask.finished, served] at running
  contradiction

theorem displacedLater {before after : List (ConnTask C)} {t : Nat} {clientAddr : SocketAddr}
    (ages : Rows.Grows Ages before after) (displaced : Displaced before t clientAddr) : Displaced after t clientAddr := by
  obtain ⟨u, other, apart, found, same, cause⟩ := displaced
  obtain ⟨later, here, address, served⟩ := ages u other found
  exact ⟨u, later, apart, here, address.trans same, cause.imp id served⟩

theorem leftLater {t : Nat} (left : LeftBehind p past t) (l : Label C) : LeftBehind p (past ++ [l]) t := by
  rcases left with failed | panicked | ⟨before, after, clientAddr, state, rfl, ran, place⟩
  · exact .inl (List.mem_append_left _ failed)
  · exact .inr (.inl (List.mem_append_left _ panicked))
  · exact .inr (.inr ⟨before, after ++ [l], clientAddr, state, by simp, ran, place⟩)

/- What the induction carries besides: the task that waits for its entry is the last. -/
structure Account (p : Protocol C) (past : List (Label C)) (w : Worker C) : Prop where
  intact : Intact w
  ran : Runs.run (Worker.step p) Worker.new past = some w
  last : ∀ t clientAddr, w.loop = .spawned t clientAddr → w.tasks.length = t + 1
  accounted : Accounted p past w

theorem newAccount (p : Protocol C) : Account p [] (Worker.new : Worker C) :=
  ⟨newIntact, rfl, by simp [Worker.new], newIntact.entries, by simp [Worker.new], by simp [Worker.new], by simp [Worker.new]⟩

theorem accountQuiet (account : Account p past w) (intact : Intact out)
    (ran : Runs.run (Worker.step p) Worker.new (past ++ [l]) = some out)
    (before : ∀ t clientAddr, w.loop ≠ .spawned t clientAddr) (tasks : out.tasks = w.tasks)
    (connections : out.connections = w.connections) (after : ∀ t clientAddr, out.loop ≠ .spawned t clientAddr)
    (ends : Running out → Running w) : Account p (past ++ [l]) out := by
  have accounted := account.accounted
  refine ⟨intact, ran, fun t clientAddr spawned => absurd spawned (after t clientAddr), intact.entries, ?_, ?_, ?_⟩
  · intro clientAddr t entry u task found same
    rw [connections] at entry
    rw [tasks] at found
    exact (accounted.newest clientAddr t entry u task found same).imp id (fun spawned => absurd spawned (before u clientAddr))
  · intro running clientAddr t held task found done
    rw [connections] at held
    rw [tasks] at found
    have entry := held.resolve_right (after t clientAddr)
    exact leftLater (accounted.stale (ends running) clientAddr t (.inl entry) task found done) l
  · intro t task found live
    rw [tasks] at found ⊢
    rw [connections]
    rcases accounted.lost t task found live with ⟨clientAddr, spawned⟩ | known
    · exact absurd spawned (before t clientAddr)
    · exact .inr known

theorem accountEnded (account : Account p past w) (intact : Intact out)
    (ran : Runs.run (Worker.step p) Worker.new (past ++ [l]) = some out)
    (before : ∀ t clientAddr, w.loop ≠ .spawned t clientAddr) (tasks : out.tasks = w.tasks)
    (connections : out.connections = w.connections) {result : Option (VetisResult Unit)}
    (isOver : out.loop = .ended result) : Account p (past ++ [l]) out :=
  accountQuiet account intact ran before tasks connections (by simp [isOver]) (fun running => absurd isOver (running result))

theorem accountSpawned (accounted : Accounted p past w) {conn : C} {clientAddr : SocketAddr} {tls : Bool}
    (place : w.loop = .sniffing conn clientAddr) (intact : Intact (w.spawn conn clientAddr tls)) (l : Label C) :
    Accounted p (past ++ [l]) (w.spawn conn clientAddr tls) := by
  obtain ⟨fresh, tasks, _, own, unfinished⟩ := spawnUnfinished w conn clientAddr tls
  have running : Running w := by simp [Running, place]
  refine ⟨intact.entries, ?_, ?_, ?_⟩
  · intro address t entry u task found same
    rw [tasks] at found
    rcases Rows.appendSource found with ⟨rfl, rfl⟩ | old
    · right
      rw [← same, own]
      rfl
    · rcases accounted.newest address t entry u task old same with below | spawned
      · exact .inl below
      · rw [place] at spawned
        contradiction
  · intro _ address t held task found done
    rw [tasks] at found
    rcases Rows.appendSource found with ⟨rfl, rfl⟩ | old
    · rw [unfinished] at done
      contradiction
    · rcases held with entry | spawned
      · exact leftLater (accounted.stale running address t (.inl entry) task old done) l
      · cases spawned
        rw [List.getElem?_eq_none (Nat.le_refl _)] at old
        contradiction
  · intro t task found live
    rw [tasks] at found ⊢
    rcases Rows.appendSource found with ⟨rfl, _⟩ | old
    · exact .inl ⟨clientAddr, rfl⟩
    · right
      rcases accounted.lost t task old live with ⟨address, spawned⟩ | known
      · rw [place] at spawned
        contradiction
      · exact known.imp id (displacedLater (Rows.growsAppend agesRefl w.tasks [fresh]))

theorem accountInserted (account : Account p past w) {t : Nat} {clientAddr : SocketAddr}
    (place : w.loop = .spawned t clientAddr)
    (intact : Intact { w with loop := .receiving, connections := w.connections.insert clientAddr t }) (l : Label C) :
    Accounted p (past ++ [l]) { w with loop := .receiving, connections := w.connections.insert clientAddr t } := by
  have accounted := account.accounted
  have running : Running w := by simp [Running, place]
  have inside : ∀ (u : Nat) (task : ConnTask C), w.tasks[u]? = some task → u ≤ t := by
    intro u task found
    have below := (List.getElem?_eq_some_iff.mp found).1
    rw [account.last t clientAddr place] at below
    omega
  refine ⟨intact.entries, ?_, ?_, ?_⟩
  · intro address s entry u task found same
    by_cases own : address = clientAddr
    · rw [own, AList.lookup_insert] at entry
      cases Option.some.inj entry
      exact .inl (inside u task found)
    · rw [AList.lookup_insert_ne own] at entry
      rcases accounted.newest address s entry u task found same with below | spawned
      · exact .inl below
      · rw [place] at spawned
        exact absurd (Loop.spawned.inj spawned).2.symm own
  · intro _ address s held task found done
    have entry := held.resolve_right (by simp)
    by_cases own : address = clientAddr
    · rw [own, AList.lookup_insert] at entry
      cases Option.some.inj entry
      exact leftLater (accounted.stale running clientAddr t (.inr place) task found done) l
    · rw [AList.lookup_insert_ne own] at entry
      exact leftLater (accounted.stale running address s (.inl entry) task found done) l
  · intro u task found live
    right
    by_cases own : u = t
    · subst u
      obtain ⟨newest, there, equal⟩ := account.intact.newest t clientAddr place
      cases Option.some.inj (found.symm.trans there)
      exact .inl (by rw [equal, AList.lookup_insert])
    · rcases accounted.lost u task found live with ⟨address, spawned⟩ | entry | displaced
      · exact absurd (Loop.spawned.inj (place.symm.trans spawned)).1.symm own
      · by_cases same : task.clientAddr = clientAddr
        · obtain ⟨newest, there, equal⟩ := account.intact.newest t clientAddr place
          have below := inside u task found
          exact .inr ⟨t, newest, Ne.symm own, there, equal.trans same.symm, .inl (by omega)⟩
        · exact .inl (by rw [AList.lookup_insert_ne same, entry])
      · exact .inr displaced

theorem accountStopped (accounted : Accounted p past w) (place : w.suspended p = true) (intact : Intact w.stop)
    (l : Label C) :
    Accounted p (past ++ [l]) w.stop := by
  have before := suspendedUnspawned place
  refine ⟨intact.entries, ?_, ?_, ?_⟩
  · intro clientAddr t entry u after found same
    obtain ⟨task, there, equal, _⟩ := stoppedTasks w found
    rw [equal] at same
    exact (accounted.newest clientAddr t entry u task there same).imp id (fun spawned => absurd spawned (before u clientAddr))
  · intro running
    exact absurd rfl (running (some (.ok ())))
  · intro t after found live
    obtain ⟨task, there, equal, _⟩ := stoppedTasks w found
    rw [equal] at live ⊢
    have ages : Rows.Grows Ages w.tasks w.stop.tasks := by
      intro u other place
      rw [Worker.stop, List.getElem?_mapIdx, place]
      refine ⟨_, rfl, ?_⟩
      split <;> exact ⟨rfl, id⟩
    right
    rcases accounted.lost t task there live with ⟨clientAddr, spawned⟩ | known
    · exact absurd spawned (before t clientAddr)
    · exact known.imp id (displacedLater ages)

/- A removal that takes the handle of another task out displaces that task; one that comes
before its own insertion is early; the other ends keep the entry that is there. -/
theorem accountTask (account : Account p past w) {t : Nat} {l : TaskLabel} {task next : ConnTask C}
    (found : w.tasks[t]? = some task) (moved : task.step w.signal l = some next) (intact : Intact out)
    (same : out = { w with
      tasks := w.tasks.set t next
      connections := if l = .remove then w.connections.erase task.clientAddr else w.connections }) :
    Accounted p (past ++ [.task t l]) out := by
  subst same
  have accounted := account.accounted
  have address := (taskKeeps moved).2.1
  refine ⟨intact.entries, ?_, ?_, ?_⟩
  · intro clientAddr s entry u after place same
    have held := (entryBefore entry).1
    rcases Rows.setSource found place with ⟨rfl, rfl⟩ | ⟨_, before⟩
    · exact accounted.newest clientAddr s held u task found (address.symm.trans same)
    · exact accounted.newest clientAddr s held u after before same
  · intro running clientAddr s held after place done
    have running : Running w := running
    rcases Rows.setSource found place with ⟨rfl, rfl⟩ | ⟨_, before⟩
    · have member := List.mem_of_getElem? found
      rcases endsUndisturbed moved (intactSignal account.intact running member)
        (account.intact.quiet running task member).2 done with rfl | rfl | rfl
      · rcases held with entry | spawned
        · obtain ⟨there, apart⟩ := entryBefore entry
          obtain ⟨own, here, same⟩ := account.intact.entries clientAddr s there
          cases Option.some.inj (found.symm.trans here)
          exact absurd same.symm (apart rfl)
        · exact .inr (.inr ⟨past, [], clientAddr, w, rfl, account.ran, spawned⟩)
      · exact .inl (List.mem_append_right _ List.mem_cons_self)
      · exact .inr (.inl (List.mem_append_right _ List.mem_cons_self))
    · have earlier := held.imp (fun entry => (entryBefore entry).1) id
      exact leftLater (accounted.stale running clientAddr s earlier after before done) _
  · intro u after place live
    have ages : Rows.Grows Ages w.tasks (w.tasks.set t next) := Rows.growsSet agesRefl found (stepAges moved)
    rcases Rows.setSource found place with ⟨rfl, rfl⟩ | ⟨own, before⟩
    · have stays : l ≠ .remove := by
        rintro rfl
        rw [removeSource moved] at live
        contradiction
      rcases accounted.lost u task found (finishedStays moved) with spawned | entry | displaced
      · exact .inl spawned
      · exact .inr (.inl (by rw [address, if_neg stays, entry]))
      · exact .inr (.inr (by rw [address]; exact displacedLater ages displaced))
    · rcases accounted.lost u after before live with spawned | entry | displaced
      · exact .inl spawned
      · by_cases takes : l = .remove ∧ after.clientAddr = task.clientAddr
        · obtain ⟨rfl, same⟩ := takes
          have ended : next.phase = .finished .served := by rw [removeSource moved]
          have here : (w.tasks.set t next)[t]? = some next :=
            List.getElem?_set_self (List.getElem?_eq_some_iff.mp found).1
          exact .inr (.inr ⟨t, next, Ne.symm own, here, address.trans same.symm, .inr ended⟩)
        · refine .inr (.inl ?_)
          show AList.lookup after.clientAddr (if l = .remove then w.connections.erase task.clientAddr else w.connections) =
            some u
          split
          · rename_i removed
            rw [AList.lookup_erase_ne (fun same => takes ⟨removed, same⟩), entry]
          · exact entry
      · exact .inr (.inr (displacedLater ages displaced))

theorem accountStep (account : Account p past w) (taken : w.step p l = some out) : Account p (past ++ [l]) out := by
  have intact := intactStep account.intact taken
  have ran := Runs.runAppend.mpr ⟨w, account.ran, Runs.runSingle.mpr taken⟩
  cases stepSource taken with
  | poll place =>
    have running : Running w := by simp [Running, place]
    exact accountQuiet account intact ran (by simp [place]) rfl rfl (by simp) (fun _ => running)
  | received place known =>
    have running : Running w := by simp [Running, place]
    exact accountQuiet account intact ran (by simp [place]) rfl rfl (by simp) (fun _ => running)
  | unknown place fails => exact accountEnded account intact ran (by simp [place]) rfl rfl rfl
  | @spawned conn clientAddr tls place read =>
    refine ⟨intact, ran, ?_, accountSpawned account.accounted place intact _⟩
    intro t other spawned
    simp only [Worker.spawn, Loop.spawned.injEq] at spawned
    simp [Worker.spawn, spawned.1]
  | unreadable place fails => exact accountEnded account intact ran (by simp [place]) rfl rfl rfl
  | inserted place => exact ⟨intact, ran, by simp, accountInserted account place intact _⟩
  | closed place => exact accountEnded account intact ran (by simp [place]) rfl rfl rfl
  | stopped place => exact ⟨intact, ran, by simp [Worker.stop], accountStopped account.accounted place intact _⟩
  | dropped place => exact accountEnded account intact ran (suspendedUnspawned place) rfl rfl rfl
  | task found moved =>
    refine ⟨intact, ran, ?_, accountTask account found moved intact rfl⟩
    intro t clientAddr place
    rw [List.length_set]
    exact account.last t clientAddr place

theorem accountRun {labels : List (Label C)} (ran : Runs.run (Worker.step p) Worker.new labels = some w) :
    Account p labels w :=
  Runs.historyInvariant (Account p) (fun _ _ => True) (fun before _ taken => accountStep before taken) (newAccount p)
    (Runs.meetsOfForall (fun _ _ _ => trivial)) ran

theorem tableAccounted {labels : List (Label C)} (ran : Runs.run (Worker.step p) Worker.new labels = some w) :
    Accounted p labels w := (accountRun ran).accounted

def streamFrom (id : Nat) (port : UInt16) (first : UInt8) : TcpStream := ⟨id, .ok ⟨.v4 0x7f000001, port⟩, .ok [first, 0x03]⟩

/- A failed handshake, two connections of one address, an early removal and a panic. -/
def unevenTable : List (Label TcpStream) :=
  [.poll, .recv (streamFrom 0 40000 0x16), .sniff, .insert, .task 0 (.handshake false),
    .recv (streamFrom 1 40001 0x47), .sniff, .insert, .recv (streamFrom 2 40001 0x47), .sniff, .insert,
    .recv (streamFrom 3 40002 0x47), .sniff, .task 3 .served, .task 3 .remove, .insert,
    .recv (streamFrom 4 40003 0x16), .sniff, .insert, .task 4 (.handshake true), .task 4 (.request 0), .task 4 .panic]

theorem unevenAccounted : ∃ w, Runs.run TcpWorker.step Worker.new unevenTable = some w ∧
    Accounted TcpWorker.protocol unevenTable w ∧ w.totalConnections = 4 ∧
      (w.tasks.filter (fun task => !task.finished)).length = 2 := by
  have ran : Runs.run TcpWorker.step Worker.new unevenTable = some _ := rfl
  exact ⟨_, ran, tableAccounted ran, rfl, rfl⟩

end VetisTokio.WorkerAccount
