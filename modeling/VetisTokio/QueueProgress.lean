import VetisTokio.ConnectionQueue

/-! Whether a dispatcher with a connection in hand gets rid of it. The channel is full
as long as nobody takes from it, so it comes down to the workers: one of them has to
be able to come back to its receive, and the client whose stream it looks at to send. -/
namespace VetisTokio.QueueProgress
open HttpData ConfigData HostModel SignalChannel WorkerModel WorkerRuns WorkerIsolation DispatcherModel DispatcherRuns
  ConnectionQueue WorkQueue Refinement Runs

section
variable {C : Type} {p : Protocol C} {w next : Worker C} {l : Label C}

/- The read of a stream is the client's doing where a worker waits for it. -/
def byClient (p : Protocol C) : Label C → Bool
  | .sniff => p.waits
  | _ => false

def Receives (p : Protocol C) (w : Worker C) : Prop :=
  match w.loop with
  | .sniffing conn _ => (p.handshakes conn).isOk = true
  | .ended _ => False
  | _ => True

def AtPeek (p : Protocol C) (w : Worker C) : Prop :=
  p.waits = true ∧ ∃ conn clientAddr, w.loop = .sniffing conn clientAddr

theorem deafStays (deaf : ¬ Receives p w) (taken : w.step p l = some next) :
    ¬ Receives p next ∧ receivedConn l = none := by
  cases stepSource taken with
  | poll place => simp [Receives, place] at deaf
  | received place known => simp [Receives, place] at deaf
  | unknown place fails => simp [Receives, place] at deaf
  | spawned place read => simp [Receives, place, read, Except.isOk, Except.toBool] at deaf
  | unreadable place fails => exact ⟨fun receives => receives, rfl⟩
  | inserted place => simp [Receives, place] at deaf
  | closed place => simp [Receives, place] at deaf
  | stopped place => exact ⟨fun receives => receives, rfl⟩
  | dropped place => exact ⟨fun receives => receives, rfl⟩
  | task found moved => exact ⟨deaf, rfl⟩

theorem peekStays (peeks : AtPeek p w) (unsent : byClient p l = false) (taken : w.step p l = some next) :
    (Receives p next → AtPeek p next) ∧ receivedConn l = none := by
  obtain ⟨waits, conn, clientAddr, place⟩ := peeks
  have sent : byClient p .sniff = true := waits
  cases stepSource taken with
  | poll other => rw [place] at other; contradiction
  | received other known => rw [place] at other; contradiction
  | unknown other fails => rw [place] at other; contradiction
  | spawned other read => rw [sent] at unsent; contradiction
  | unreadable other fails => rw [sent] at unsent; contradiction
  | inserted other => rw [place] at other; contradiction
  | closed other => rw [place] at other; contradiction
  | stopped other => exact ⟨fun receives => receives.elim, rfl⟩
  | dropped other => exact ⟨fun receives => receives.elim, rfl⟩
  | task found moved => exact ⟨fun _ => ⟨waits, conn, clientAddr, place⟩, rfl⟩

theorem silentStays (silent : Receives p w → AtPeek p w) (unsent : byClient p l = false)
    (taken : w.step p l = some next) : (Receives p next → AtPeek p next) ∧ receivedConn l = none := by
  by_cases peeks : AtPeek p w
  · exact peekStays peeks unsent taken
  · obtain ⟨deaf, quiet⟩ := deafStays (fun receives => peeks (silent receives)) taken
    exact ⟨fun receives => absurd receives deaf, quiet⟩

end

section
variable {C : Type} [DecidableEq C] {p : Protocol C} {crew out : Crew C} {i : Nat} {l : Label C}

def Stuck (p : Protocol C) (crew : Crew C) : Prop :=
  crew.capacity ≤ crew.channel.length ∧ ∀ w ∈ crew.workers, ¬ Receives p w

def Silent (p : Protocol C) (crew : Crew C) : Prop :=
  crew.capacity ≤ crew.channel.length ∧ ∀ w ∈ crew.workers, Receives p w → AtPeek p w

theorem fullStays (full : crew.capacity ≤ crew.channel.length) (quiet : receivedConn l = none)
    (taken : crew.step p i l = some out) : out.capacity ≤ out.channel.length := by
  rw [channelKept quiet taken, (crewKeeps taken).2.1]
  exact full

theorem stuckStays (stuck : Stuck p crew) (taken : crew.step p i l = some out) : Stuck p out := by
  obtain ⟨w, next, found, moved, _⟩ := crewMoved taken
  have quiet := (deafStays (stuck.2 w (List.mem_of_getElem? found)) moved).2
  exact ⟨fullStays stuck.1 quiet taken, crewForall stuck.2 (fun _ deaf moved => (deafStays deaf moved).1) taken⟩

theorem crewSilent (silent : Silent p crew) (unsent : byClient p l = false) (taken : crew.step p i l = some out) :
    Silent p out := by
  obtain ⟨w, next, found, moved, _⟩ := crewMoved taken
  have quiet := (silentStays (silent.2 w (List.mem_of_getElem? found)) unsent moved).2
  exact ⟨fullStays silent.1 quiet taken,
    crewForall silent.2 (fun _ before moved => (silentStays before unsent moved).1) taken⟩

theorem crewTakes {w next : Worker C} (found : crew.workers[i]? = some w) (moved : w.step p l = some next)
    (permitted : crew.permits l = true) : crew.step p i l =
      some { crew with workers := crew.workers.set i next, channel := afterTake crew.channel l } := by
  simp [Crew.step, permitted, stepAt, found, moved]

structure Back (crew : Crew C) (i : Nat) (out : Crew C) : Prop where
  waits : ∃ w, out.workers[i]? = some w ∧ w.loop = .receiving
  channel : out.channel = crew.channel
  sent : out.sent = crew.sent
  capacity : out.capacity = crew.capacity

theorem backInserted (p : Protocol C) {w : Worker C} {t : Nat} {clientAddr : SocketAddr}
    (found : crew.workers[i]? = some w) (place : w.loop = .spawned t clientAddr) :
    ∃ out, crew.step p i .insert = some out ∧ Back crew i out := by
  have inside := (List.getElem?_eq_some_iff.mp found).1
  have moved : w.step p .insert = some { w with loop := .receiving, connections := w.connections.insert clientAddr t } := by
    simp only [Worker.step, place]
  exact ⟨_, crewTakes found moved rfl, ⟨_, List.getElem?_set_self inside, rfl⟩, rfl, rfl, rfl⟩

theorem comesBack {w : Worker C} (found : crew.workers[i]? = some w) (receives : Receives p w) :
    ∃ labels out, run (fun crew l => crew.step p i l) crew labels = some out ∧ Back crew i out ∧
      (¬ AtPeek p w → ∀ l ∈ labels, byClient p l = false) := by
  have inside := (List.getElem?_eq_some_iff.mp found).1
  cases place : w.loop with
  | unpolled =>
    have moved : w.step p .poll = some { w with loop := .receiving, signal := some channel.cloneSender } := by
      simp only [Worker.step, place]
    exact ⟨[.poll], _, runSingle.mpr (crewTakes found moved rfl), ⟨⟨_, List.getElem?_set_self inside, rfl⟩, rfl, rfl, rfl⟩,
      fun _ => List.forall_mem_singleton.mpr rfl⟩
  | receiving => exact ⟨[], crew, rfl, ⟨⟨w, found, place⟩, rfl, rfl, rfl⟩, fun _ => List.forall_mem_nil _⟩
  | sniffing conn clientAddr =>
    simp only [Receives, place] at receives
    cases read : p.handshakes conn with
    | error e =>
      rw [read] at receives
      contradiction
    | ok tls =>
      have moved : w.step p .sniff = some (w.spawn conn clientAddr tls) := by simp only [Worker.step, place, read]
      have taken := crewTakes found moved rfl
      have fresh : ({ crew with workers := crew.workers.set i (w.spawn conn clientAddr tls) } : Crew C).workers[i]? =
          some (w.spawn conn clientAddr tls) := List.getElem?_set_self inside
      obtain ⟨out, later, waits, channel, sent, capacity⟩ := backInserted p fresh rfl
      refine ⟨[.sniff, .insert], out, runCons.mpr ⟨_, taken, runSingle.mpr later⟩, ⟨waits, channel, sent, capacity⟩, ?_⟩
      intro speaks
      have ready : p.waits = false := Bool.eq_false_iff.mpr fun waits => speaks ⟨waits, conn, clientAddr, place⟩
      exact List.forall_mem_cons.mpr ⟨ready, List.forall_mem_singleton.mpr rfl⟩
  | spawned t clientAddr =>
    obtain ⟨out, taken, back⟩ := backInserted p found place
    exact ⟨[.insert], out, runSingle.mpr taken, back, fun _ => List.forall_mem_singleton.mpr rfl⟩
  | ended result => simp [Receives, place] at receives

theorem takesFirst {w : Worker C} {conn : C} {rest : List C} (found : crew.workers[i]? = some w)
    (receives : Receives p w) (first : crew.channel = conn :: rest) :
    ∃ labels out, run (fun crew l => crew.step p i l) crew labels = some out ∧ out.channel = rest ∧
      out.sent = crew.sent ∧ out.capacity = crew.capacity ∧ (¬ AtPeek p w → ∀ l ∈ labels, byClient p l = false) := by
  obtain ⟨labels, middle, ran, ⟨⟨back, there, waits⟩, channel, sent, capacity⟩, alone⟩ := comesBack found receives
  obtain ⟨next, moved⟩ : ∃ next, back.step p (.recv conn) = some next := by
    simp only [Worker.step, waits]
    cases p.clientAddr conn <;> exact ⟨_, rfl⟩
  have permitted : middle.permits (.recv conn) = true := by simp [Crew.permits, channel, first]
  refine ⟨labels ++ [.recv conn], _, runAppend.mpr ⟨middle, ran, runSingle.mpr (crewTakes there moved permitted)⟩, ?_,
    sent, capacity, fun speaks => ?_⟩
  · simp [afterTake, channel, first]
  · exact List.forall_mem_append.mpr ⟨alone speaks, List.forall_mem_singleton.mpr rfl⟩

theorem makesRoom (free : ¬ Stuck p crew) (sized : 1 ≤ crew.capacity) (fits : crew.channel.length ≤ crew.capacity) :
    ∃ i labels out, run (fun crew l => crew.step p i l) crew labels = some out ∧
      out.channel.length < out.capacity ∧ out.sent = crew.sent ∧ (¬ Silent p crew → ∀ l ∈ labels, byClient p l = false) := by
  by_cases room : crew.channel.length < crew.capacity
  · exact ⟨0, [], crew, rfl, room, rfl, fun _ => List.forall_mem_nil _⟩
  · have full := Nat.le_of_not_lt room
    obtain ⟨w, member, receives, speaks⟩ :
        ∃ w ∈ crew.workers, Receives p w ∧ (¬ Silent p crew → ¬ AtPeek p w) := by
      by_contra nobody
      by_cases silent : Silent p crew
      · exact free ⟨full, fun w member receives => nobody ⟨w, member, receives, fun speaks => absurd silent speaks⟩⟩
      · exact silent ⟨full, fun w member receives => by_contra fun away => nobody ⟨w, member, receives, fun _ => away⟩⟩
    obtain ⟨i, found⟩ := List.mem_iff_getElem?.mp member
    obtain ⟨conn, rest, first⟩ : ∃ conn rest, crew.channel = conn :: rest := by
      refine List.exists_cons_of_ne_nil fun empty => room ?_
      rw [empty]
      exact sized
    obtain ⟨labels, out, ran, channel, sent, capacity, alone⟩ := takesFirst found receives first
    refine ⟨i, labels, out, ran, ?_, sent, fun loud => alone (speaks loud)⟩
    rw [first, List.length_cons] at fits
    rw [channel, capacity]
    exact fits

omit [DecidableEq C] in
theorem roomSends (conn : C) (room : crew.channel.length < crew.capacity) :
    ∃ out, crew.send conn = some out ∧ out.sent = crew.sent ++ [conn] := ⟨_, if_pos room, rfl⟩

end

section
variable {crates : Crates} {hosts : VetisHosts Host} {config : ListenerConfig} {logger : Option Logger}
  {labels : List TcpLabel} {d out : TcpDispatcher} {stream : TcpStream}

theorem tcpModelled (ran : run (TcpDispatcher.step crates) (TcpDispatcher.new hosts config logger) labels = some d) :
    ∃ q, TcpModels config d q := by
  have start : TcpModels config (TcpDispatcher.new hosts config logger) (Queue.empty (max config.workers 1)) :=
    ⟨rfl, rfl, fun _ polled => absurd rfl polled, rfl, rfl, fun i w found => by simp [TcpDispatcher.new, Crew.new] at found⟩
  obtain ⟨q, _, models⟩ := runRefined (tcpRefines crates config) start ran
  exact ⟨q, models⟩

theorem tcpWaitsOn (inv : Crew TcpStream → Prop) (allowed : TcpLabel → Prop)
    (full : ∀ {crew}, inv crew → crew.capacity ≤ crew.channel.length)
    (keep : ∀ {crew out i l}, inv crew → allowed (.worker i l) → crew.step TcpWorker.protocol i l = some out → inv out)
    (place : d.place = .sending stream) (start : inv d.crew) {more : List TcpLabel}
    (quiet : ∀ l ∈ more, l ≠ .stop ∧ allowed l) (later : run (TcpDispatcher.step crates) d more = some out) :
    out.place = .sending stream ∧ out.crew.sent = d.crew.sent := by
  have held : out.place = .sending stream ∧ inv out.crew ∧ out.crew.sent = d.crew.sent := by
    refine invariantUnder (fun d' : TcpDispatcher => d'.place = .sending stream ∧ inv d'.crew ∧ d'.crew.sent = d.crew.sent)
      (fun _ l => l ≠ TcpLabel.stop ∧ allowed l) ?_ ⟨place, start, rfl⟩
      (meetsOfForall fun l member _ => quiet l member) later
    rintro before l next ⟨place, holds, same⟩ ⟨unstopped, permitted⟩ taken
    cases tcpSource taken with
    | poll other => rw [place] at other; contradiction
    | accepted other => rw [place] at other; contradiction
    | logged other => rw [place] at other; contradiction
    | skipped other => rw [place] at other; contradiction
    | discarded other => rw [place] at other; contradiction
    | sent other room => exact absurd (sendSource room).1 (Nat.not_lt_of_le (full holds))
    | stopped waiting => exact absurd rfl unstopped
    | joined other isOver => rw [place] at other; contradiction
    | worker moved => exact ⟨place, keep holds permitted moved, (crewKeeps moved).1.trans same⟩
  exact ⟨held.1, held.2.2⟩

theorem tcpStuck (place : d.place = .sending stream) (stuck : Stuck TcpWorker.protocol d.crew) {more : List TcpLabel}
    (quiet : TcpLabel.stop ∉ more) (later : run (TcpDispatcher.step crates) d more = some out) :
    out.place = .sending stream ∧ out.crew.sent = d.crew.sent := by
  refine tcpWaitsOn (Stuck TcpWorker.protocol) (fun _ => True) (fun stuck => stuck.1)
    (fun stuck _ moved => stuckStays stuck moved) place stuck ?_ later
  rintro l member
  exact ⟨fun same => quiet (same ▸ member), trivial⟩

theorem tcpSilent (place : d.place = .sending stream) (silent : Silent TcpWorker.protocol d.crew) {more : List TcpLabel}
    (quiet : TcpLabel.stop ∉ more) (unsent : ∀ i, TcpLabel.worker i .sniff ∉ more)
    (later : run (TcpDispatcher.step crates) d more = some out) :
    out.place = .sending stream ∧ out.crew.sent = d.crew.sent := by
  refine tcpWaitsOn (Silent TcpWorker.protocol) (fun l => ∀ i, l ≠ .worker i .sniff) (fun silent => silent.1) ?_
    place silent ?_ later
  · intro crew out i l before allowed moved
    refine crewSilent before ?_ moved
    cases l <;> first | rfl | exact absurd rfl (allowed i)
  · intro l member
    exact ⟨fun same => quiet (same ▸ member), fun i same => unsent i (same ▸ member)⟩

theorem tcpGoesOn (ran : run (TcpDispatcher.step crates) (TcpDispatcher.new hosts config logger) labels = some d)
    (place : d.place = .sending stream) (free : ¬ Stuck TcpWorker.protocol d.crew) :
    ∃ (i : Nat) (more : List (Label TcpStream)) (out : TcpDispatcher),
      run (TcpDispatcher.step crates) d (more.map (.worker i) ++ [.send]) = some out ∧ out.place = .accepting ∧
        out.crew.sent = d.crew.sent ++ [stream] ∧ (¬ Silent TcpWorker.protocol d.crew → Label.sniff ∉ more) := by
  obtain ⟨q, models⟩ := tcpModelled ran
  have bounded := models.bounded (by simp [place, TcpPlace.waits]) (by simp [place])
  have sized : 1 ≤ d.crew.capacity := by
    rw [bounded, models.size]
    exact Nat.le_max_right _ _
  have fits : d.crew.channel.length ≤ d.crew.capacity := by
    rw [bounded, models.crew.waiting]
    exact q.fits
  obtain ⟨i, more, crew, taken, room, same, alone⟩ := makesRoom free sized fits
  obtain ⟨last, sends, sent⟩ := roomSends stream room
  have worked : run (TcpDispatcher.step crates) d (more.map (.worker i)) = some { d with crew := crew } :=
    runLifted (fun crew => { d with crew := crew }) (fun _ _ => rfl) taken
  have step : ({ d with crew := crew } : TcpDispatcher).step crates .send = some { d with place := .accepting, crew := last } := by
    simp only [TcpDispatcher.step, place, sends, Option.map_some]
  refine ⟨i, more, _, runAppend.mpr ⟨_, worked, runSingle.mpr step⟩, rfl, by rw [← same]; exact sent, ?_⟩
  intro loud member
  exact absurd (alone loud _ member) (by decide)

/- What a dispatcher with a stream in hand waits for: nothing that comes, the first
bytes of some client, or a worker that is on its way. -/
structure Trichotomy (crates : Crates) (stream : TcpStream) (d : TcpDispatcher) : Prop where
  stuck : Stuck TcpWorker.protocol d.crew → ∀ more out, TcpLabel.stop ∉ more →
    run (TcpDispatcher.step crates) d more = some out → out.place = .sending stream ∧ out.crew.sent = d.crew.sent
  silent : Silent TcpWorker.protocol d.crew → ∀ more out, TcpLabel.stop ∉ more → (∀ i, TcpLabel.worker i .sniff ∉ more) →
    run (TcpDispatcher.step crates) d more = some out → out.place = .sending stream ∧ out.crew.sent = d.crew.sent
  spoken : ¬ Stuck TcpWorker.protocol d.crew → ∃ (i : Nat) (more : List (Label TcpStream)) (out : TcpDispatcher),
    run (TcpDispatcher.step crates) d (more.map (.worker i) ++ [.send]) = some out ∧
      out.place = .accepting ∧ out.crew.sent = d.crew.sent ++ [stream]
  free : ¬ Silent TcpWorker.protocol d.crew → ∃ (i : Nat) (more : List (Label TcpStream)) (out : TcpDispatcher),
    Label.sniff ∉ more ∧ run (TcpDispatcher.step crates) d (more.map (.worker i) ++ [.send]) = some out ∧
      out.place = .accepting ∧ out.crew.sent = d.crew.sent ++ [stream]

theorem tcpTrichotomy (ran : run (TcpDispatcher.step crates) (TcpDispatcher.new hosts config logger) labels = some d)
    (place : d.place = .sending stream) : Trichotomy crates stream d := by
  refine ⟨fun stuck _ _ quiet later => tcpStuck place stuck quiet later,
    fun silent _ _ quiet unsent later => tcpSilent place silent quiet unsent later, ?_, ?_⟩
  · intro free
    obtain ⟨i, more, out, later, accepting, sent, _⟩ := tcpGoesOn ran place free
    exact ⟨i, more, out, later, accepting, sent⟩
  · intro loud
    have free : ¬ Stuck TcpWorker.protocol d.crew :=
      fun stuck => loud ⟨stuck.1, fun w member receives => absurd receives (stuck.2 w member)⟩
    obtain ⟨i, more, out, later, accepting, sent, alone⟩ := tcpGoesOn ran place free
    exact ⟨i, more, out, alone loud, later, accepting, sent⟩

def fullChannel : List TcpLabel := twoStreams ++ [.accept (.ok (knownStream 2))]

theorem fullGoesOn : ∃ d, run (TcpDispatcher.step sampleCrates) (TcpDispatcher.new ∅ ⟨.v4 0, 80, 1⟩ none)
    fullChannel = some d ∧ Trichotomy sampleCrates (knownStream 2) d := by
  have ran : run (TcpDispatcher.step sampleCrates) (TcpDispatcher.new ∅ ⟨.v4 0, 80, 1⟩ none) fullChannel = some _ := rfl
  exact ⟨_, ran, tcpTrichotomy ran rfl⟩

end

section
variable {hosts : VetisHosts Host} {config : ListenerConfig} {logger : Option Logger}
  {labels : List UdpLabel} {d out : UdpDispatcher} {l : UdpLabel}

open UdpAccept in
structure Staffed (config : ListenerConfig) (d : UdpDispatcher) : Prop where
  configured : d.config = config
  alive : d.place.waits = true → Alive d.crew
  count : d.place.waits = true → d.place ≠ .unpolled → d.crew.workers.length = config.workers

open UdpAccept in
theorem staffedStep (staffed : Staffed config d) (taken : d.step l = some out) : Staffed config out := by
  have looped : ∀ place : UdpPlace, d.place.waits = true → d.place ≠ .unpolled → Staffed config { d with place := place } :=
    fun _ waits polled => ⟨staffed.configured, fun _ => staffed.alive waits, fun _ _ => staffed.count waits polled⟩
  cases udpSource taken with
  | poll place =>
    refine ⟨staffed.configured, fun _ => ⟨(staffed.alive (by simp [place, UdpPlace.waits])).kept, rfl, ?_⟩, fun _ _ => ?_⟩
    · intro w member
      rw [List.eq_of_mem_replicate member]
      simp [Running, Worker.new]
    · rw [← staffed.configured]
      exact List.length_replicate
  | incoming place => exact looped _ (by simp [place, UdpPlace.waits]) (by simp [place])
  | shaken place => exact looped _ (by simp [place, UdpPlace.waits]) (by simp [place])
  | closed place => exact looped _ (by simp [place, UdpPlace.waits]) (by simp [place])
  | sent place room =>
    obtain ⟨_, rfl⟩ := sendSource room
    have alive := staffed.alive (by simp [place, UdpPlace.waits])
    exact ⟨staffed.configured, fun _ => ⟨alive.kept, alive.quiet, alive.running⟩,
      fun _ _ => staffed.count (by simp [place, UdpPlace.waits]) (by simp [place])⟩
  | refused place => exact ⟨staffed.configured, fun waits => by contradiction, fun waits => by contradiction⟩
  | idle place => exact ⟨staffed.configured, fun waits => by contradiction, fun waits => by contradiction⟩
  | stopped waiting => exact ⟨staffed.configured, fun waits => by contradiction, fun waits => by contradiction⟩
  | joined place isOver => exact ⟨staffed.configured, fun waits => by contradiction, fun waits => by contradiction⟩
  | worker moved =>
    exact ⟨staffed.configured, fun waits => aliveStep (staffed.alive waits) moved,
      fun waits polled => (crewKeeps moved).2.2.2.2.trans (staffed.count waits polled)⟩

theorem staffedRun (ran : run UdpDispatcher.step (UdpDispatcher.new hosts config logger) labels = some d) :
    Staffed config d :=
  invariant (Staffed config) staffedStep
    ⟨rfl, fun _ => ⟨rfl, rfl, fun w member => by cases member⟩, fun _ polled => absurd rfl polled⟩ ran

theorem udpReceives {w : Worker Connection} (running : Running w) : Receives UdpWorker.protocol w := by
  unfold Receives
  split
  · rfl
  · rename_i result place
    exact running result place
  · trivial

theorem udpModelled (ran : run UdpDispatcher.step (UdpDispatcher.new hosts config logger) labels = some d) :
    ∃ q, UdpModels config d q := by
  have start : UdpModels config (UdpDispatcher.new hosts config logger) (Queue.empty (max config.workers 1)) :=
    ⟨rfl, rfl, fun _ polled => absurd rfl polled, rfl, rfl, fun i w found => by simp [UdpDispatcher.new, Crew.new] at found⟩
  obtain ⟨q, _, models⟩ := runRefined (udpRefines config) start ran
  exact ⟨q, models⟩

theorem udpStuckStays {conn : Connection} {sent : List Connection}
    (held : d.place = .sending conn ∧ Stuck UdpWorker.protocol d.crew ∧ d.crew.sent = sent) (quiet : l ≠ .stop)
    (taken : d.step l = some out) :
    out.place = .sending conn ∧ Stuck UdpWorker.protocol out.crew ∧ out.crew.sent = sent := by
  obtain ⟨place, stuck, same⟩ := held
  cases udpSource taken with
  | poll other => rw [place] at other; contradiction
  | incoming other => rw [place] at other; contradiction
  | shaken other => rw [place] at other; contradiction
  | refused other => rw [place] at other; contradiction
  | sent other room => exact absurd (sendSource room).1 (Nat.not_lt_of_le stuck.1)
  | closed other => rw [place] at other; contradiction
  | idle other => rw [place] at other; contradiction
  | stopped waiting => exact absurd rfl quiet
  | joined other isOver => rw [place] at other; contradiction
  | worker moved => exact ⟨place, stuckStays stuck moved, (crewKeeps moved).1.trans same⟩

structure UdpDichotomy (config : ListenerConfig) (conn : Connection) (d : UdpDispatcher) : Prop where
  stuck : config.workers = 0 → d.crew.channel ≠ [] → ∀ more out, UdpLabel.stop ∉ more →
    run UdpDispatcher.step d more = some out → out.place = .sending conn ∧ out.crew.sent = d.crew.sent
  free : config.workers ≠ 0 ∨ d.crew.channel = [] → ∃ (i : Nat) (more : List (Label Connection)) (out : UdpDispatcher),
    run UdpDispatcher.step d (more.map (.worker i) ++ [.send]) = some out ∧
      out.place = .accepting ∧ out.crew.sent = d.crew.sent ++ [conn]

theorem udpDichotomy (ran : run UdpDispatcher.step (UdpDispatcher.new hosts config logger) labels = some d)
    {conn : Connection} (place : d.place = .sending conn) : UdpDichotomy config conn d := by
  obtain ⟨q, models⟩ := udpModelled ran
  have staffed := staffedRun ran
  have waits : d.place.waits = true := by simp [place, UdpPlace.waits]
  have count := staffed.count waits (by simp [place])
  have bounded := models.bounded waits (by simp [place])
  rw [models.size] at bounded
  constructor
  · intro none full more out quiet later
    have calm : ∀ l ∈ more, l ≠ UdpLabel.stop := by
      rintro l member rfl
      exact quiet member
    have nobody : d.crew.workers = [] := List.eq_nil_of_length_eq_zero (count.trans none)
    have stuck : Stuck UdpWorker.protocol d.crew := by
      refine ⟨?_, by simp [nobody]⟩
      rw [bounded, none]
      exact List.length_pos_iff.mpr full
    have held := invariantUnder (fun d' : UdpDispatcher => d'.place = .sending conn ∧
      Stuck UdpWorker.protocol d'.crew ∧ d'.crew.sent = d.crew.sent) (fun _ l => l ≠ UdpLabel.stop)
      (fun held quiet taken => udpStuckStays held quiet taken) ⟨place, stuck, rfl⟩
      (meetsOfForall fun l member _ => calm l member) later
    exact ⟨held.1, held.2.2⟩
  · intro hands
    have sized : 1 ≤ d.crew.capacity := by
      rw [bounded]
      exact Nat.le_max_right _ _
    have free : ¬ Stuck UdpWorker.protocol d.crew := by
      rintro ⟨full, deaf⟩
      rcases hands with hired | empty
      · obtain ⟨w, member⟩ := List.exists_mem_of_length_pos (count.symm ▸ Nat.pos_of_ne_zero hired)
        exact deaf w member (udpReceives ((staffed.alive waits).running w member))
      · rw [empty] at full
        exact absurd (Nat.le_trans sized full) (by decide)
    have fits : d.crew.channel.length ≤ d.crew.capacity := by
      rw [bounded, models.crew.waiting, ← models.size]
      exact q.fits
    obtain ⟨i, more, crew, taken, room, same, _⟩ := makesRoom free sized fits
    obtain ⟨last, sends, sent⟩ := roomSends conn room
    have worked : run UdpDispatcher.step d (more.map (.worker i)) = some { d with crew := crew } :=
      runLifted (fun crew => { d with crew := crew }) (fun _ _ => rfl) taken
    have step : ({ d with crew := crew } : UdpDispatcher).step .send = some { d with place := .accepting, crew := last } := by
      simp only [UdpDispatcher.step, place, sends, Option.map_some]
    exact ⟨i, more, _, runAppend.mpr ⟨_, worked, runSingle.mpr step⟩, rfl, by rw [← same]; exact sent⟩

def nobodyThere : List UdpLabel :=
  [.poll, .incoming (.ok ⟨0, ⟨.v4 0x7f000001, 40000⟩⟩), .handshake, .send,
    .incoming (.ok ⟨1, ⟨.v4 0x7f000001, 40001⟩⟩), .handshake]

theorem nobodyGoesOn : ∃ d, run UdpDispatcher.step (UdpDispatcher.new ∅ ⟨.v4 0, 443, 0⟩ none) nobodyThere = some d ∧
    UdpDichotomy ⟨.v4 0, 443, 0⟩ ⟨1, ⟨.v4 0x7f000001, 40001⟩⟩ d := by
  have ran : run UdpDispatcher.step (UdpDispatcher.new ∅ ⟨.v4 0, 443, 0⟩ none) nobodyThere = some _ := rfl
  exact ⟨_, ran, udpDichotomy ran rfl⟩

end

end VetisTokio.QueueProgress
