import Mathlib.Data.List.Induction
import VetisTokio.WorkerRuns

/-! What a worker makes of a sequence of received connections, some of which have
no known address or cannot be read. The loop returns at the first such one, and
with the future of `run` both senders of the shutdown signal are gone. -/
namespace VetisTokio.WorkerIsolation
open HttpData ConfigData SignalChannel WorkerModel WorkerRuns

variable {C : Type} {p : Protocol C} {w out : Worker C} {l : Label C}

def admits (p : Protocol C) (conn : C) : Bool :=
  match p.clientAddr conn, p.handshakes conn with
  | .ok _, .ok _ => true
  | _, _ => false

def receivedConn : Label C → Option C
  | .recv conn => some conn
  | _ => none

def received (labels : List (Label C)) : List C := labels.filterMap receivedConn

def Undisturbed : Label C → Prop
  | .closed | .stop | .dropped => False
  | _ => True

def served (w : Worker C) : List C := w.tasks.map ConnTask.conn

def inHand : Loop C → List C
  | .sniffing conn _ => [conn]
  | _ => []

/- Where the received connections are: each has a task, but for the one in hand
and the one at which the loop ended. -/
structure Held (p : Protocol C) (past : List (Label C)) (w : Worker C) : Prop where
  running : Running w → received past = served w ++ inHand w.loop
  known : ∀ conn clientAddr, w.loop = .sniffing conn clientAddr → p.clientAddr conn = .ok clientAddr
  ended : ∀ result, w.loop = .ended result → ∃ conn, received past = served w ++ [conn] ∧ admits p conn = false
  admitted : ∀ conn ∈ served w, admits p conn = true

theorem newHeld : Held p [] (Worker.new : Worker C) :=
  ⟨fun _ => rfl, by simp [Worker.new], by simp [Worker.new], by simp [Worker.new, served]⟩

theorem receivedMore (past : List (Label C)) (l : Label C) :
    received (past ++ [l]) = received past ++ (receivedConn l).toList :=
  Runs.observedMore receivedConn past l

theorem servedSet {t : Nat} {task next : ConnTask C} {signal : Option Watch} {l : TaskLabel}
    (found : w.tasks[t]? = some task) (moved : task.step signal l = some next) :
    (w.tasks.set t next).map ConnTask.conn = served w := by
  obtain ⟨inside, here⟩ := List.getElem?_eq_some_iff.mp found
  rw [List.map_set, (taskKeeps moved).1, ← here, served]
  apply List.ext_getElem?
  intro u
  rw [List.getElem?_set]
  split
  · rename_i same
    subst u
    simp [inside]
  · rfl

theorem heldStep {past : List (Label C)} (held : Held p past w) (calm : Undisturbed l)
    (taken : w.step p l = some out) : Held p (past ++ [l]) out := by
  cases stepSource taken with
  | poll place =>
    have all := held.running (by simp [Running, place])
    refine ⟨fun _ => ?_, by simp, by simp, held.admitted⟩
    simpa [receivedMore, receivedConn, place, inHand, served, Worker.finish] using all
  | @received conn clientAddr place known =>
    have all := held.running (by simp [Running, place])
    refine ⟨fun _ => ?_, ?_, by simp, held.admitted⟩
    · simpa [receivedMore, receivedConn, place, inHand, served, Worker.finish] using all
    · intro other address same
      obtain ⟨rfl, rfl⟩ := Loop.sniffing.inj same
      exact known
  | @unknown conn e place fails =>
    have all := held.running (by simp [Running, place])
    refine ⟨fun running => absurd rfl (running _), by simp [Worker.finish], ?_, held.admitted⟩
    intro result _
    refine ⟨conn, ?_, by simp [admits, fails]⟩
    simpa [receivedMore, receivedConn, place, inHand, served, Worker.finish] using all
  | @spawned conn clientAddr tls place read =>
    have all := held.running (by simp [Running, place])
    refine ⟨fun _ => ?_, by simp [Worker.spawn], by simp [Worker.spawn], ?_⟩
    · simpa [receivedMore, receivedConn, place, inHand, served, Worker.spawn] using all
    · intro other member
      simp only [served, Worker.spawn, List.map_append, List.map_cons, List.map_nil, List.mem_append,
        List.mem_singleton] at member
      rcases member with old | same
      · exact held.admitted other old
      · rw [same]
        simp [admits, held.known conn clientAddr place, read]
  | @unreadable conn clientAddr e place fails =>
    have all := held.running (by simp [Running, place])
    refine ⟨fun running => absurd rfl (running _), by simp [Worker.finish], ?_, held.admitted⟩
    intro result _
    refine ⟨conn, ?_, by simp [admits, held.known conn clientAddr place, fails]⟩
    simpa [receivedMore, receivedConn, place, inHand, served, Worker.finish] using all
  | @inserted t clientAddr place =>
    have all := held.running (by simp [Running, place])
    refine ⟨fun _ => ?_, by simp, by simp, held.admitted⟩
    simpa [receivedMore, receivedConn, place, inHand, served, Worker.finish] using all
  | closed place => exact absurd calm (by simp [Undisturbed])
  | stopped place => exact absurd calm (by simp [Undisturbed])
  | dropped place => exact absurd calm (by simp [Undisturbed])
  | @task t l task next found moved =>
    have kept := servedSet found moved
    have same : received (past ++ [.task t l]) = received past := by simp [receivedMore, receivedConn]
    refine ⟨?_, held.known, ?_, ?_⟩
    · intro running
      rw [same, served, kept]
      exact held.running running
    · intro result place
      rw [same, served, kept]
      exact held.ended result place
    · intro conn member
      rw [served, kept] at member
      exact held.admitted conn member

theorem heldRun {labels : List (Label C)} (calm : ∀ l ∈ labels, Undisturbed l)
    (ran : Runs.run (Worker.step p) Worker.new labels = some w) : Held p labels w :=
  Runs.historyInvariant (Held p) (fun _ l => Undisturbed l) heldStep newHeld
    (Runs.meetsOfForall (fun l member _ => calm l member)) ran

structure Waiting (labels : List (Label C)) (conns : List C) (w : Worker C) : Prop where
  calm : ∀ l ∈ labels, Undisturbed l
  all : received labels = conns
  place : w.loop = .receiving
  live : ∀ task ∈ w.tasks, task.finished = false

theorem firstPoll : ∃ w, Runs.run (Worker.step p) Worker.new [.poll] = some w ∧ Waiting [.poll] [] w :=
  ⟨_, rfl, by simp [Undisturbed], rfl, rfl, by simp [Worker.new]⟩

theorem admitsSource {conn : C} (admitted : admits p conn = true) :
    ∃ clientAddr tls, p.clientAddr conn = .ok clientAddr ∧ p.handshakes conn = .ok tls := by
  unfold admits at admitted
  split at admitted
  · exact ⟨_, _, by assumption, by assumption⟩
  · contradiction

theorem admitAll (p : Protocol C) (conns : List C) (admitted : ∀ conn ∈ conns, admits p conn = true) :
    ∃ labels w, Runs.run (Worker.step p) Worker.new labels = some w ∧ Waiting labels conns w := by
  induction conns using List.reverseRecOn with
  | nil =>
    obtain ⟨w, ran, waiting⟩ := firstPoll (p := p)
    exact ⟨[.poll], w, ran, waiting⟩
  | append_singleton before conn ih =>
    obtain ⟨labels, w, ran, waiting⟩ := ih (fun other member => admitted other (by simp [member]))
    obtain ⟨clientAddr, tls, known, read⟩ := admitsSource (admitted conn (by simp))
    obtain ⟨task, tasks, _, _, live⟩ := spawnUnfinished w conn clientAddr tls
    refine ⟨labels ++ [.recv conn, .sniff, .insert], { w.spawn conn clientAddr tls with
      loop := .receiving, connections := w.connections.insert clientAddr w.tasks.length },
      Runs.runAppend.mpr ⟨w, ran, ?_⟩, ?_, ?_, rfl, ?_⟩
    · simp [Runs.run, Worker.step, waiting.place, known, read, Worker.spawn]
    · intro l member
      rcases List.mem_append.mp member with old | fresh
      · exact waiting.calm l old
      · simp only [List.mem_cons, List.not_mem_nil, or_false] at fresh
        rcases fresh with rfl | rfl | rfl <;> trivial
    · have all := waiting.all
      simp only [received] at all
      simp [received, receivedConn, all]
    · intro other member
      simp only [tasks, List.mem_append, List.mem_singleton] at member
      rcases member with old | rfl
      · exact waiting.live other old
      · exact live

theorem refuseOne {labels : List (Label C)} {conns : List C} {conn : C} (waiting : Waiting labels conns w)
    (ran : Runs.run (Worker.step p) Worker.new labels = some w) (refused : admits p conn = false) :
    ∃ more result, Runs.run (Worker.step p) Worker.new more = some (w.finish result) ∧
      (∀ l ∈ more, Undisturbed l) ∧ received more = conns ++ [conn] := by
  have all := waiting.all
  simp only [received] at all
  cases known : p.clientAddr conn with
  | error e =>
    refine ⟨labels ++ [.recv conn], some (.error e), Runs.runAppend.mpr ⟨w, ran, ?_⟩, ?_, ?_⟩
    · simp [Runs.run, Worker.step, waiting.place, known]
    · intro l member
      rcases List.mem_append.mp member with old | fresh
      · exact waiting.calm l old
      · cases List.mem_singleton.mp fresh
        trivial
    · simp [received, receivedConn, all]
  | ok clientAddr =>
    cases read : p.handshakes conn with
    | ok tls => simp [admits, known, read] at refused
    | error e =>
      refine ⟨labels ++ [.recv conn, .sniff], some (.error e), Runs.runAppend.mpr ⟨w, ran, ?_⟩, ?_, ?_⟩
      · simp [Runs.run, Worker.step, waiting.place, known, read, Worker.finish]
      · intro l member
        rcases List.mem_append.mp member with old | fresh
        · exact waiting.calm l old
        · simp only [List.mem_cons, List.not_mem_nil, or_false] at fresh
          rcases fresh with rfl | rfl <;> trivial
      · simp [received, receivedConn, all]

theorem servedReceived {past : List (Label C)} (held : Held p past w) : ∀ conn ∈ served w, conn ∈ received past := by
  intro conn member
  have running : Running w → conn ∈ received past := by
    intro running
    rw [held.running running]
    exact List.mem_append_left _ member
  cases place : w.loop with
  | ended result =>
    obtain ⟨last, all, _⟩ := held.ended result place
    rw [all]
    exact List.mem_append_left _ member
  | unpolled => exact running (by simp [Running, place])
  | receiving => exact running (by simp [Running, place])
  | sniffing conn clientAddr => exact running (by simp [Running, place])
  | spawned t clientAddr => exact running (by simp [Running, place])

theorem finishSignals (intact : Intact w) (place : w.loop = .receiving) (result : Option (VetisResult Unit))
    (task : ConnTask C) : signalled (w.finish result).signal task.shutSignal = true := by
  have signal := intact.signal (by simp [Running, place]) (by simp [place])
  simp only [Worker.finish, signal, Option.map_some, signalled]
  exact closedIsSeen task.shutSignal rfl

def accepted (stream : TcpStream) : Bool := stream.peerAddr.isOk && stream.peek.isOk

theorem admitsAccepted (stream : TcpStream) : admits TcpWorker.protocol stream = accepted stream := by
  cases address : stream.peerAddr <;> cases seen : stream.peek <;>
    simp [admits, accepted, TcpWorker.protocol, TcpWorker.clientAddr, TcpWorker.handshakes, address, seen, Except.isOk,
      Except.toBool]

structure RunOn (streams : List TcpStream) (labels : List (Label TcpStream)) (w : Worker TcpStream) : Prop where
  ran : Runs.run TcpWorker.step Worker.new labels = some w
  calm : ∀ l ∈ labels, Undisturbed l
  offered : received labels <+: streams

def Drained (streams : List TcpStream) (labels : List (Label TcpStream)) (w : Worker TcpStream) : Prop :=
  (w.loop = .receiving ∧ received labels = streams) ∨ ∃ result, w.loop = .ended result

structure Isolated (streams : List TcpStream) : Prop where
  drains : ∃ labels w, RunOn streams labels w ∧ Drained streams labels w
  starts : ∀ labels w, RunOn streams labels w → Drained streams labels w → served w = streams.filter accepted
  keeps : ∀ before stream after, streams = before ++ stream :: after → accepted stream = false →
    ∀ labels w others v, RunOn streams labels w → Drained streams labels w →
      RunOn (before ++ after) others v → Drained (before ++ after) others v → served w = served v
  quiet : ∀ labels w, RunOn streams labels w → ∀ task ∈ w.tasks, task.finished = false →
    signalled w.signal task.shutSignal = false

variable {streams : List TcpStream} {labels : List (Label TcpStream)} {v : Worker TcpStream}

theorem firstRefused (mixed : ∃ stream ∈ streams, accepted stream = false) :
    ∃ before stream after, streams = before ++ stream :: after ∧
      (∀ other ∈ before, accepted other = true) ∧ accepted stream = false := by
  induction streams with
  | nil => simp at mixed
  | cons head tail ih =>
    cases first : accepted head with
    | false => exact ⟨[], head, tail, rfl, by simp, first⟩
    | true =>
      obtain ⟨stream, member, refused⟩ := mixed
      rcases List.mem_cons.mp member with rfl | inside
      · rw [first] at refused
        contradiction
      · obtain ⟨before, other, after, rfl, all, last⟩ := ih ⟨stream, inside, refused⟩
        refine ⟨head :: before, other, after, rfl, ?_, last⟩
        intro known place
        rcases List.mem_cons.mp place with rfl | rest
        · exact first
        · exact all known rest

theorem heldOn (on : RunOn streams labels v) : Held TcpWorker.protocol labels v := heldRun on.calm on.ran

theorem notEnded (on : RunOn streams labels v) (all : ∀ stream ∈ streams, accepted stream = true)
    (result : Option (VetisResult Unit)) : v.loop ≠ .ended result := by
  intro place
  obtain ⟨last, received, refused⟩ := (heldOn on).ended result place
  have member : last ∈ streams := on.offered.subset (by simp [received])
  rw [admitsAccepted, all last member] at refused
  contradiction

theorem nothingServed (on : RunOn streams labels v) (none : ∀ stream ∈ streams, accepted stream = false) :
    served v = [] := by
  apply List.eq_nil_iff_forall_not_mem.mpr
  intro stream member
  have kept := (heldOn on).admitted stream member
  rw [admitsAccepted, none stream (on.offered.subset (servedReceived (heldOn on) stream member))] at kept
  contradiction

theorem isolatedAll (all : ∀ stream ∈ streams, accepted stream = true) : Isolated streams := by
  refine ⟨?_, ?_, ?_, ?_⟩
  · obtain ⟨labels, w, ran, waiting⟩ := admitAll TcpWorker.protocol streams
      (fun stream member => (admitsAccepted stream).trans (all stream member))
    exact ⟨labels, w, ⟨ran, waiting.calm, waiting.all ▸ List.prefix_refl _⟩, Or.inl ⟨waiting.place, waiting.all⟩⟩
  · intro labels w on drained
    rcases drained with ⟨place, received⟩ | ⟨result, place⟩
    · have here := (heldOn on).running (by simp [Running, place])
      rw [received, place] at here
      rw [List.filter_eq_self.mpr all]
      simpa [inHand] using here.symm
    · exact absurd place (notEnded on all result)
  · intro before stream after same refused
    rw [all stream (by simp [same])] at refused
    contradiction
  · intro labels w on task member live
    exact intactSignal (intactRun on.ran) (notEnded on all) member

theorem isolatedNone (none : ∀ stream ∈ streams, accepted stream = false) : Isolated streams := by
  refine ⟨?_, ?_, ?_, ?_⟩
  · obtain ⟨w, ran, waiting⟩ := firstPoll (p := TcpWorker.protocol)
    cases streams with
    | nil => exact ⟨_, w, ⟨ran, waiting.calm, List.prefix_refl _⟩, Or.inl ⟨waiting.place, rfl⟩⟩
    | cons stream after =>
      obtain ⟨more, result, refused, calm, all⟩ := refuseOne waiting ran
        ((admitsAccepted stream).trans (none stream List.mem_cons_self))
      exact ⟨more, _, ⟨refused, calm, all ▸ ⟨after, rfl⟩⟩, Or.inr ⟨result, rfl⟩⟩
  · intro labels w on _
    rw [nothingServed on none, eq_comm, List.filter_eq_nil_iff]
    intro stream member
    simp [none stream member]
  · intro before stream after same _ labels w others v on _ other _
    rw [nothingServed on none, nothingServed other]
    intro known member
    refine none known ?_
    rcases List.mem_append.mp member with left | right
    · simp [same, left]
    · simp [same, right]
  · intro labels w on task member
    have nobody := nothingServed on none
    simp only [served, List.map_eq_nil_iff] at nobody
    simp [nobody] at member

theorem isolatedSource (isolated : Isolated streams) (refused : ∃ stream ∈ streams, accepted stream = false) :
    ∀ stream ∈ streams, accepted stream = false := by
  obtain ⟨before, stream, after, rfl, all, last⟩ := firstRefused refused
  obtain ⟨labels, w, ran, waiting⟩ := admitAll TcpWorker.protocol before
    (fun other member => (admitsAccepted other).trans (all other member))
  obtain ⟨more, result, ended, calm, given⟩ := refuseOne waiting ran ((admitsAccepted stream).trans last)
  have on : RunOn (before ++ stream :: after) more (w.finish result) :=
    ⟨ended, calm, given ▸ ⟨after, by simp⟩⟩
  have nobody : w.tasks = [] := by
    apply List.eq_nil_iff_forall_not_mem.mpr
    intro task member
    have still := isolated.quiet more _ on task member (waiting.live task member)
    rw [finishSignals (intactRun ran) waiting.place result task] at still
    contradiction
  have first : before = [] := by
    have here := (heldRun waiting.calm ran).running (by simp [Running, waiting.place])
    simpa [waiting.all, waiting.place, inHand, served, nobody] using here
  have none := isolated.starts more _ on (Or.inr ⟨result, rfl⟩)
  subst first
  have empty : (stream :: after).filter accepted = [] := by
    simpa [served, Worker.finish, nobody] using none.symm
  intro other member
  simpa using List.filter_eq_nil_iff.mp empty other member

theorem streamsIsolatedIff (streams : List TcpStream) : Isolated streams ↔
    (∀ stream ∈ streams, accepted stream = true) ∨ (∀ stream ∈ streams, accepted stream = false) := by
  refine ⟨?_, ?_⟩
  · intro isolated
    by_cases mixed : ∃ stream ∈ streams, accepted stream = false
    · exact Or.inr (isolatedSource isolated mixed)
    · left
      intro stream member
      cases known : accepted stream with
      | true => rfl
      | false => exact absurd ⟨stream, member, known⟩ mixed
  · intro same
    rcases same with all | none
    · exact isolatedAll all
    · exact isolatedNone none

def knownStream (id : Nat) : TcpStream := ⟨id, .ok ⟨.v4 0x7f000001, 40000⟩, .ok [0x47, 0x45]⟩
def unknownStream : TcpStream := ⟨1, .error "Transport endpoint is not connected", .ok [0x47, 0x45]⟩

theorem oneRefusedStream : ¬ Isolated [knownStream 0, unknownStream, knownStream 2] := by
  intro isolated
  have on : RunOn [knownStream 0, unknownStream, knownStream 2]
      [.poll, .recv (knownStream 0), .sniff, .insert, .recv unknownStream] _ :=
    ⟨rfl, by simp [Undisturbed], ⟨[knownStream 2], rfl⟩⟩
  have still := isolated.quiet _ _ on _ List.mem_cons_self rfl
  exact absurd still (by decide)

end VetisTokio.WorkerIsolation
