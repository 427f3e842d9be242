import VetisTokio.Library.Components
import VetisTokio.ServerStop

/-! The parts of a started server, each seen alone. A run of the server is, for every
dispatcher and for every worker, a run of it from its own first state, so what holds
of one worker in every run holds of each worker of a server. -/
namespace VetisTokio.ServerParts
open HttpData ConfigData HostModel WorkerModel DispatcherModel DispatcherRuns ListenerModel Rt ServerStart ServerModel
  ServerStop Components

def tcpHandle : Listener → Option TcpDispatcher
  | .tcp t => t.handle
  | .udp _ => none

def udpHandle : Listener → Option UdpDispatcher
  | .tcp _ => none
  | .udp u => u.handle

def tcpAt (i : Nat) (s : Server) : Option TcpDispatcher := s.listeners[i]?.bind tcpHandle

def udpAt (i : Nat) (s : Server) : Option UdpDispatcher := s.listeners[i]?.bind udpHandle

def tcpOwn (i : Nat) : ServerLabel → Option TcpLabel
  | .tcp j l => if j = i then some l else none
  | _ => none

def udpOwn (i : Nat) : ServerLabel → Option UdpLabel
  | .udp j l => if j = i then some l else none
  | _ => none

def tcpWorkerOwn (j : Nat) : TcpLabel → Option (Label TcpStream)
  | .worker k l => if k = j then some l else none
  | _ => none

def udpWorkerOwn (j : Nat) : UdpLabel → Option (Label Connection)
  | .worker k l => if k = j then some l else none
  | _ => none

theorem crewPart {C : Type} [DecidableEq C] {p : Protocol C} {crew out : Crew C} {i j : Nat} {l : Label C}
    {w : Worker C} (found : crew.workers[j]? = some w) (taken : crew.step p i l = some out) :
    (i = j → ∃ next, w.step p l = some next ∧ out.workers[j]? = some next) ∧
      (i ≠ j → out.workers[j]? = some w) := by
  obtain ⟨mover, next, place, moved, workers⟩ := crewMoved taken
  rw [workers]
  rcases Rows.setKeeps (b := next) place found with ⟨rfl, rfl, here⟩ | ⟨other, here⟩
  · exact ⟨fun _ => ⟨next, moved, here⟩, fun apart => absurd rfl apart⟩
  · exact ⟨fun same => absurd same.symm other, fun _ => here⟩

theorem crewAbsent {C : Type} [DecidableEq C] {p : Protocol C} {crew out : Crew C} {i j : Nat} {l : Label C}
    (absent : crew.workers[j]? = none) (taken : crew.step p i l = some out) : i ≠ j ∧ out.workers[j]? = none := by
  obtain ⟨mover, next, place, moved, workers⟩ := crewMoved taken
  refine ⟨?_, ?_⟩
  · rintro rfl
    rw [absent] at place
    contradiction
  · rw [List.getElem?_eq_none_iff, (crewKeeps taken).2.2.2.2]
    exact List.getElem?_eq_none_iff.mp absent

theorem hiredAt {C : Type} (n j : Nat) : (List.replicate n (Worker.new : Worker C))[j]? = none ∨
    (List.replicate n (Worker.new : Worker C))[j]? = some Worker.new := by
  rw [List.getElem?_replicate]
  split
  · exact .inr rfl
  · exact .inl rfl

/- What a step of a dispatcher does to its workers: nothing, or it hires them as the
first thing it does, or one of them moves. -/
inductive Changes {C : Type} [DecidableEq C] (p : Protocol C) (own : Nat → Option (Label C)) (before after : Prop)
    (crew out : Crew C) : Prop where
  | hired (unpolled : before) (polled : ¬ after) (foreign : ∀ j, own j = none) (n : Nat)
      (workers : out.workers = List.replicate n Worker.new)
  | kept (polled : ¬ after) (foreign : ∀ j, own j = none) (workers : out.workers = crew.workers)
  | moved {i : Nat} {l : Label C} (still : after → before) (mine : ∀ j, own j = if i = j then some l else none)
      (taken : crew.step p i l = some out)

theorem workerPart {C D L : Type} [DecidableEq C] {p : Protocol C} {step : D → L → Option D} (crewOf : D → Crew C)
    (unpolled : D → Prop) (own : Nat → L → Option (Label C))
    (changes : ∀ {d l out}, step d l = some out →
      Changes p (fun j => own j l) (unpolled d) (unpolled out) (crewOf d) (crewOf out)) (j : Nat) :
    Part step (Worker.step p) (fun d => unpolled d → (crewOf d).workers = []) (fun d => (crewOf d).workers[j]?) (own j)
      Worker.new := by
  refine ⟨?_, ?_, ?_, ?_⟩
  · intro d l out fresh taken again
    cases changes taken with
    | hired _ polled => exact absurd again polled
    | kept polled => exact absurd again polled
    | moved still mine taken =>
      have count := (crewKeeps taken).2.2.2.2
      rw [fresh (still again)] at count
      exact List.length_eq_zero_iff.mp count
  · intro d l out w m _ taken found mine
    cases changes taken with
    | hired _ _ foreign => rw [foreign j] at mine; contradiction
    | kept _ foreign => rw [foreign j] at mine; contradiction
    | moved _ owned taken =>
      rw [owned j] at mine
      split at mine <;> try contradiction
      cases Option.some.inj mine
      exact (crewPart found taken).1 (by assumption)
  · intro d l out w fresh taken found foreign
    cases changes taken with
    | hired unpolled =>
      rw [fresh unpolled] at found
      contradiction
    | kept _ _ workers => exact workers ▸ found
    | moved _ owned taken =>
      rw [owned j] at foreign
      split at foreign <;> try contradiction
      exact (crewPart found taken).2 (by assumption)
  · intro d l out fresh taken absent
    cases changes taken with
    | hired _ _ foreign n workers => exact ⟨foreign j, workers ▸ hiredAt n j⟩
    | kept _ foreign workers => exact ⟨foreign j, .inl (workers ▸ absent)⟩
    | moved _ owned taken =>
      obtain ⟨other, still⟩ := crewAbsent absent taken
      exact ⟨(owned j).trans (if_neg other), .inl still⟩

theorem tcpChanges {crates : Crates} {d out : TcpDispatcher} {l : TcpLabel} (taken : d.step crates l = some out) :
    Changes TcpWorker.protocol (fun j => tcpWorkerOwn j l) (d.place = .unpolled) (out.place = .unpolled) d.crew out.crew := by
  cases tcpSource taken with
  | poll place =>
    unfold TcpDispatcher.start TcpDispatcher.init
    cases TlsFactory.createTlsConfig crates.rustls crates.order d.hosts with
    | ok tls => exact .hired place TcpPlace.noConfusion (fun _ => rfl) d.config.workers rfl
    | error e => exact .kept TcpPlace.noConfusion (fun _ => rfl) rfl
  | sent place room =>
    obtain ⟨_, rfl⟩ := sendSource room
    exact .kept TcpPlace.noConfusion (fun _ => rfl) rfl
  | worker moved => exact .moved id (fun _ => rfl) moved
  | _ => exact .kept TcpPlace.noConfusion (fun _ => rfl) rfl

theorem udpChanges {d out : UdpDispatcher} {l : UdpLabel} (taken : d.step l = some out) :
    Changes UdpWorker.protocol (fun j => udpWorkerOwn j l) (d.place = .unpolled) (out.place = .unpolled) d.crew out.crew := by
  cases udpSource taken with
  | poll place => exact .hired place UdpPlace.noConfusion (fun _ => rfl) d.config.workers rfl
  | sent place room =>
    obtain ⟨_, rfl⟩ := sendSource room
    exact .kept UdpPlace.noConfusion (fun _ => rfl) rfl
  | worker moved => exact .moved id (fun _ => rfl) moved
  | _ => exact .kept UdpPlace.noConfusion (fun _ => rfl) rfl

section
variable {crates : Crates} {s out : Server} {l : ServerLabel} {i : Nat}

theorem setAt {A B : Type} (f : A → Option B) {row : List A} {j : Nat} {a : A} (found : row[j]? = some a) (b : A)
    (i : Nat) : (row.set j b)[i]?.bind f = if j = i then f b else row[i]?.bind f := by
  split
  · rename_i same
    subst same
    rw [List.getElem?_set_self (List.getElem?_eq_some_iff.mp found).1]
    rfl
  · rename_i other
    rw [List.getElem?_set_ne other]

theorem sameHandle {A B : Type} {f : A → Option B} {row : List A} {j : Nat} {a b : A} (found : row[j]? = some a)
    (same : f b = f a) (i : Nat) : (row.set j b)[i]?.bind f = row[i]?.bind f := by
  rw [setAt f found]
  split
  · rename_i here
    subst here
    rw [found, same]
    rfl
  · rfl

theorem sendHandle (l : Listener) : tcpHandle (sendStop l) = tcpHandle l ∧ udpHandle (sendStop l) = udpHandle l := by
  cases l <;> exact ⟨rfl, rfl⟩

theorem tcpLeft (taken : s.step crates l = some out) (foreign : tcpOwn i l = none) : tcpAt i out = tcpAt i s := by
  cases serverSource taken with
  | @tcp j l t d next found handle moved =>
    simp only [tcpOwn] at foreign
    split at foreign <;> try contradiction
    rename_i other
    exact (setAt tcpHandle found _ i).trans (if_neg other)
  | @udp j l u d next found handle moved =>
    refine sameHandle (f := tcpHandle) found ?_ i
    rfl
  | @signalled k l place found => exact sameHandle (f := tcpHandle) found (sendHandle l).1 i
  | _ => rfl

theorem udpLeft (taken : s.step crates l = some out) (foreign : udpOwn i l = none) : udpAt i out = udpAt i s := by
  cases serverSource taken with
  | @tcp j l t d next found handle moved =>
    refine sameHandle (f := udpHandle) found ?_ i
    rfl
  | @udp j l u d next found handle moved =>
    simp only [udpOwn] at foreign
    split at foreign <;> try contradiction
    rename_i other
    exact (setAt udpHandle found _ i).trans (if_neg other)
  | @signalled k l place found => exact sameHandle (f := udpHandle) found (sendHandle l).2 i
  | _ => rfl

theorem tcpMine {m : TcpLabel} (taken : s.step crates l = some out) (mine : tcpOwn i l = some m) :
    ∃ d next, tcpAt i s = some d ∧ d.step crates m = some next ∧ tcpAt i out = some next := by
  cases serverSource taken with
  | @tcp j l t d next found handle moved =>
    simp only [tcpOwn] at mine
    split at mine <;> try contradiction
    rename_i same
    subst same
    cases Option.some.inj mine
    refine ⟨d, next, ?_, moved, (setAt tcpHandle found _ j).trans (if_pos rfl)⟩
    simp [tcpAt, found, tcpHandle, handle]
  | _ => contradiction

theorem udpMine {m : UdpLabel} (taken : s.step crates l = some out) (mine : udpOwn i l = some m) :
    ∃ d next, udpAt i s = some d ∧ d.step m = some next ∧ udpAt i out = some next := by
  cases serverSource taken with
  | @udp j l u d next found handle moved =>
    simp only [udpOwn] at mine
    split at mine <;> try contradiction
    rename_i same
    subst same
    cases Option.some.inj mine
    refine ⟨d, next, ?_, moved, (setAt udpHandle found _ j).trans (if_pos rfl)⟩
    simp [udpAt, found, udpHandle, handle]
  | _ => contradiction

theorem tcpAbsent (absent : tcpAt i s = none) (taken : s.step crates l = some out) :
    tcpOwn i l = none ∧ tcpAt i out = none := by
  cases mine : tcpOwn i l with
  | none => exact ⟨rfl, (tcpLeft taken mine).trans absent⟩
  | some m =>
    obtain ⟨held, next, place, _⟩ := tcpMine taken mine
    rw [absent] at place
    contradiction

theorem udpAbsent (absent : udpAt i s = none) (taken : s.step crates l = some out) :
    udpOwn i l = none ∧ udpAt i out = none := by
  cases mine : udpOwn i l with
  | none => exact ⟨rfl, (udpLeft taken mine).trans absent⟩
  | some m =>
    obtain ⟨held, next, place, _⟩ := udpMine taken mine
    rw [absent] at place
    contradiction

theorem tcpPart (crates : Crates) (i : Nat) (first : TcpDispatcher) : Part (Server.step crates)
    (TcpDispatcher.step crates) (fun _ => True) (tcpAt i) (tcpOwn i) first := by
  refine ⟨fun _ _ => trivial, ?_, fun _ taken here foreign => (tcpLeft taken foreign).trans here,
    fun _ taken absent => (tcpAbsent absent taken).imp id .inl⟩
  intro s l out d m _ taken here mine
  obtain ⟨held, next, place, moved, there⟩ := tcpMine taken mine
  cases Option.some.inj (here.symm.trans place)
  exact ⟨next, moved, there⟩

theorem udpPart (crates : Crates) (i : Nat) (first : UdpDispatcher) : Part (Server.step crates)
    UdpDispatcher.step (fun _ => True) (udpAt i) (udpOwn i) first := by
  refine ⟨fun _ _ => trivial, ?_, fun _ taken here foreign => (udpLeft taken foreign).trans here,
    fun _ taken absent => (udpAbsent absent taken).imp id .inl⟩
  intro s l out d m _ taken here mine
  obtain ⟨held, next, place, moved, there⟩ := udpMine taken mine
  cases Option.some.inj (here.symm.trans place)
  exact ⟨next, moved, there⟩

end

section
variable {W : Type} {crates : Crates} {os : Os W} {w after : W} {v v' : Vetis} {s : Server}
  {labels : List ServerLabel}

structure TcpAlone (crates : Crates) (start : Server) (labels : List ServerLabel) (i : Nat) (d : TcpDispatcher) :
    Prop where
  dispatcher : ∃ hosts config logger, tcpAt i start = some (TcpDispatcher.new hosts config logger) ∧
    Runs.run (TcpDispatcher.step crates) (TcpDispatcher.new hosts config logger) (labels.filterMap (tcpOwn i)) = some d
  worker : ∀ (j : Nat) worker, d.crew.workers[j]? = some worker → Runs.run TcpWorker.step Worker.new
    ((labels.filterMap (tcpOwn i)).filterMap (tcpWorkerOwn j)) = some worker

structure UdpAlone (start : Server) (labels : List ServerLabel) (i : Nat) (d : UdpDispatcher) : Prop where
  dispatcher : ∃ hosts config logger, udpAt i start = some (UdpDispatcher.new hosts config logger) ∧
    Runs.run UdpDispatcher.step (UdpDispatcher.new hosts config logger) (labels.filterMap (udpOwn i)) = some d
  worker : ∀ (j : Nat) worker, d.crew.workers[j]? = some worker → Runs.run UdpWorker.step Worker.new
    ((labels.filterMap (udpOwn i)).filterMap (udpWorkerOwn j)) = some worker

theorem startedTcp (started : v.start crates os w = (.ok (), v', after)) {i : Nat} {d : TcpDispatcher}
    (here : tcpAt i (Server.of v') = some d) : ∃ hosts config logger, d = TcpDispatcher.new hosts config logger := by
  rw [tcpAt, Server.of, (startedListeners started).1, List.getElem?_map] at here
  obtain ⟨l, place, handle⟩ := Option.bind_eq_some_iff.mp here
  obtain ⟨given, _, rfl⟩ := Option.map_eq_some_iff.mp place
  cases given with
  | tcp t => exact ⟨_, _, _, (Option.some.inj handle).symm⟩
  | udp u => contradiction

theorem startedUdp (started : v.start crates os w = (.ok (), v', after)) {i : Nat} {d : UdpDispatcher}
    (here : udpAt i (Server.of v') = some d) : ∃ hosts config logger, d = UdpDispatcher.new hosts config logger := by
  rw [udpAt, Server.of, (startedListeners started).1, List.getElem?_map] at here
  obtain ⟨l, place, handle⟩ := Option.bind_eq_some_iff.mp here
  obtain ⟨given, _, rfl⟩ := Option.map_eq_some_iff.mp place
  cases given with
  | tcp t => contradiction
  | udp u => exact ⟨_, _, _, (Option.some.inj handle).symm⟩

theorem tcpAlone (started : v.start crates os w = (.ok (), v', after))
    (ran : Runs.run (Server.step crates) (Server.of v') labels = some s) {i : Nat} {d : TcpDispatcher}
    (here : tcpAt i s = some d) : TcpAlone crates (Server.of v') labels i d := by
  obtain ⟨first, begun⟩ := presentBefore (fun absent taken => (tcpAbsent absent taken).2) ran here
  obtain ⟨hosts, config, logger, rfl⟩ := startedTcp started begun
  obtain ⟨last, there, own⟩ := partRun (tcpPart crates i (TcpDispatcher.new hosts config logger)) trivial begun ran
  cases Option.some.inj (here.symm.trans there)
  exact ⟨⟨hosts, config, logger, begun, own⟩, fun j worker found =>
    partBorn (workerPart TcpDispatcher.crew _ tcpWorkerOwn tcpChanges j) (fun _ => rfl) rfl own found⟩

theorem udpAlone (started : v.start crates os w = (.ok (), v', after))
    (ran : Runs.run (Server.step crates) (Server.of v') labels = some s) {i : Nat} {d : UdpDispatcher}
    (here : udpAt i s = some d) : UdpAlone (Server.of v') labels i d := by
  obtain ⟨first, begun⟩ := presentBefore (fun absent taken => (udpAbsent absent taken).2) ran here
  obtain ⟨hosts, config, logger, rfl⟩ := startedUdp started begun
  obtain ⟨last, there, own⟩ := partRun (udpPart crates i (UdpDispatcher.new hosts config logger)) trivial begun ran
  cases Option.some.inj (here.symm.trans there)
  exact ⟨⟨hosts, config, logger, begun, own⟩, fun j worker found =>
    partBorn (workerPart UdpDispatcher.crew _ udpWorkerOwn udpChanges j) (fun _ => rfl) rfl own found⟩

structure PartsAlone (crates : Crates) (start : Server) (labels : List ServerLabel) (s : Server) : Prop where
  tcp : ∀ i d, tcpAt i s = some d → TcpAlone crates start labels i d
  udp : ∀ i d, udpAt i s = some d → UdpAlone start labels i d

theorem partsAlone (started : v.start crates os w = (.ok (), v', after))
    (ran : Runs.run (Server.step crates) (Server.of v') labels = some s) :
    PartsAlone crates (Server.of v') labels s :=
  ⟨fun _ _ => tcpAlone started ran, fun _ _ => udpAlone started ran⟩

def twoByTwo : Vetis := ⟨⟨[], 2⟩, [.tcp (TcpListener.new ⟨.v4 0, 80, 2⟩), .udp (UdpListener.new ⟨.v4 0, 443, 2⟩)], none⟩

def bothServe : List ServerLabel :=
  [.udp 1 .poll, .tcp 0 .poll, .tcp 0 (.worker 1 .poll), .udp 1 (.worker 0 .poll), .tcp 0 (.accept (.ok getStream)),
    .udp 1 (.incoming (.ok ⟨0, ⟨.v4 0x7f000001, 40000⟩⟩)), .tcp 0 .send, .tcp 0 (.worker 1 (.recv getStream)),
    .udp 1 .handshake, .tcp 0 (.worker 0 .poll), .udp 1 .send, .udp 1 (.worker 0 (.recv ⟨0, ⟨.v4 0x7f000001, 40000⟩⟩)),
    .callStop, .tcp 0 (.worker 1 .sniff), .signal]

theorem bothAlone : ∃ v' after s, twoByTwo.start sampleCrates sampleOs 0 = (.ok (), v', after) ∧
    Runs.run (Server.step sampleCrates) (Server.of v') bothServe = some s ∧
      PartsAlone sampleCrates (Server.of v') bothServe s := by
  have started : twoByTwo.start sampleCrates sampleOs 0 = (.ok (), _, _) := rfl
  have ran : Runs.run (Server.step sampleCrates) (Server.of (twoByTwo.start sampleCrates sampleOs 0).2.1) bothServe =
    some _ := rfl
  exact ⟨_, _, _, started, ran, partsAlone started ran⟩

end

end VetisTokio.ServerParts
