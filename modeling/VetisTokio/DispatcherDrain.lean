import VetisTokio.DispatcherRuns
import VetisTokio.WorkerDrain

/-! Requests of all the workers of one dispatcher. A dispatcher whose future has
ended waits for nobody any more: its workers are over, or about to be aborted. -/
namespace VetisTokio.DispatcherDrain
open TlsFactory WorkerModel WorkerRuns WorkerDrain DispatcherModel DispatcherRuns ServerModel

section
variable {C : Type} [DecidableEq C] {p : Protocol C} {crew out : Crew C} {i : Nat} {l : Label C}
variable {unpolled : Prop} {isOver : Bool}

def NothingOpen (workers : List (Worker C)) : Prop := ∀ w ∈ workers, AllAnswered w

structure CrewOrderly (unpolled : Prop) (isOver : Bool) (workers : List (Worker C)) : Prop where
  fresh : unpolled → workers = []
  each : ∀ w ∈ workers, Orderly w
  left : isOver = true → NothingOpen workers

omit [DecidableEq C] in
theorem crewHired (n : Nat) : ∀ w ∈ List.replicate n (Worker.new : Worker C), Orderly w := by
  intro w member
  rw [(List.mem_replicate.mp member).2]
  exact newOrderly

omit [DecidableEq C] in
theorem crewNew (unpolled : Prop) (isOver : Bool) : CrewOrderly unpolled isOver ([] : List (Worker C)) :=
  ⟨fun _ => rfl, by simp, fun _ => by simp [NothingOpen]⟩

omit [DecidableEq C] in
theorem joinedOpensNothing (each : ∀ w ∈ crew.workers, Orderly w) (joined : crew.joined = true) :
    NothingOpen crew.workers := by
  intro w member
  have ended : Worker.over w = true := List.all_eq_true.mp joined w member
  unfold Worker.over at ended
  split at ended <;> try contradiction
  exact (each w member).ended _ (by assumption)

theorem crewOrderlyStep (orderly : CrewOrderly unpolled isOver crew.workers)
    (calm : ∀ w, crew.workers[i]? = some w → CalmWorker p isOver w l) (taken : crew.step p i l = some out) :
    CrewOrderly unpolled isOver out.workers := by
  refine ⟨?_, ?_, ?_⟩
  · intro place
    have nobody := (crewKeeps taken).2.2.2.2
    rw [orderly.fresh place] at nobody
    exact List.length_eq_zero_iff.mp nobody
  · exact crewForall orderly.each (fun found before moved => orderlyStep before (calm _ found) moved) taken
  · intro ended
    refine crewForall (orderly.left ended) ?_ taken
    intro w next found answered moved
    refine answeredStays answered ?_ moved
    -- no request starts under a dispatcher that has ended
    intro t r same
    subst l
    have running := (calm w found).1
    rw [ended] at running
    contradiction

def CrewKeeps : List (List Ledger) → List (List Ledger) → Prop := Rows.Grows (Rows.Grows Keeps)

theorem crewKeepsRefl (ledgers : List (List Ledger)) : CrewKeeps ledgers ledgers :=
  Rows.growsRefl (Rows.growsRefl keepsRefl) ledgers

theorem crewKeepsTrans {first second third : List (List Ledger)} (early : CrewKeeps first second)
    (late : CrewKeeps second third) : CrewKeeps first third := by
  have tasks : ∀ a b c, Keeps a b → Keeps b c → Keeps a c := fun _ _ _ => keepsTrans
  have rows : ∀ a b c, Rows.Grows Keeps a b → Rows.Grows Keeps b c → Rows.Grows Keeps a c :=
    fun _ _ _ => Rows.growsTrans tasks
  exact Rows.growsTrans rows early late

theorem crewRemembers (taken : crew.step p i l = some out) : CrewKeeps (crewLedgers crew) (crewLedgers out) := by
  obtain ⟨w, next, found, moved, workers⟩ := crewMoved taken
  rw [crewLedgers, crewLedgers, workers]
  exact Rows.growsMapSet (Rows.growsRefl keepsRefl) workerLedgers found (workerRemembers moved)

end

section
variable {crates : Crates} {d out : TcpDispatcher} {l : TcpLabel}

def TcpOrderly (d : TcpDispatcher) : Prop :=
  CrewOrderly (d.place = .unpolled) (tcpOver d.place) d.crew.workers

def CalmTcp (d : TcpDispatcher) : TcpLabel → Prop
  | .worker i l => ∀ w, d.crew.workers[i]? = some w → CalmWorker TcpWorker.protocol (tcpOver d.place) w l
  | _ => True

theorem tcpStartWorkers (place : d.place = .unpolled) (orderly : TcpOrderly d) :
    (d.start crates).place = .accepting ∧ ∃ n, (d.start crates).crew.workers = List.replicate n Worker.new := by
  unfold TcpDispatcher.start TcpDispatcher.init
  cases createTlsConfig crates.rustls crates.order d.hosts with
  | ok tls => exact ⟨rfl, d.config.workers, rfl⟩
  | error e => exact ⟨rfl, 0, orderly.fresh place⟩

theorem overPastWaiting {place : TcpPlace} (isOver : tcpOver place = true) : ¬ place.waits = true := by
  cases place <;> simp_all [tcpOver, TcpPlace.waits]

theorem tcpOrderlyStep (orderly : TcpOrderly d) (calm : CalmTcp d l) (taken : d.step crates l = some out) :
    TcpOrderly out := by
  cases tcpMove taken with
  | poll place =>
    obtain ⟨accepting, n, hired⟩ := @tcpStartWorkers crates d place orderly
    rw [TcpOrderly, accepting, hired]
    exact ⟨by simp, crewHired n, by simp [tcpOver]⟩
  | looped before after workers signal =>
    rw [TcpOrderly, workers]
    refine ⟨fun fresh => absurd fresh after.2, orderly.each, ?_⟩
    intro isOver
    exact absurd after.1 (overPastWaiting isOver)
  | stopped waiting => exact ⟨by simp, orderly.each, by simp [tcpOver]⟩
  | joined place joined => exact ⟨by simp, orderly.each, fun _ => joinedOpensNothing orderly.each joined⟩
  | worker moved => exact crewOrderlyStep orderly calm moved

theorem tcpOverSource (isOver : tcpOver d.place = true) (taken : d.step crates l = some out) :
    ∃ i label crew, l = .worker i label ∧ d.crew.step TcpWorker.protocol i label = some crew ∧
      out = { d with crew := crew } := by
  cases tcpMove taken with
  | poll place =>
    rw [place] at isOver
    contradiction
  | looped before after workers signal => exact absurd before.1 (overPastWaiting isOver)
  | stopped waiting => exact absurd waiting (overPastWaiting isOver)
  | joined place joined =>
    rw [place] at isOver
    contradiction
  | worker moved => exact ⟨_, _, _, rfl, moved, rfl⟩

theorem tcpOverStays (isOver : tcpOver d.place = true) (taken : d.step crates l = some out) :
    tcpOver out.place = true := by
  obtain ⟨_, _, _, _, _, rfl⟩ := tcpOverSource isOver taken
  exact isOver

theorem tcpRemembers (orderly : TcpOrderly d) (taken : d.step crates l = some out) :
    CrewKeeps (crewLedgers d.crew) (crewLedgers out.crew) := by
  cases tcpMove taken with
  | poll place =>
    rw [crewLedgers, orderly.fresh place]
    exact Rows.growsEmpty _
  | looped before after workers signal =>
    rw [crewLedgers, crewLedgers, workers]
    exact crewKeepsRefl _
  | worker moved => exact crewRemembers moved
  | _ => exact crewKeepsRefl _

end

section
variable {d out : UdpDispatcher} {l : UdpLabel}

def UdpOrderly (d : UdpDispatcher) : Prop :=
  CrewOrderly (d.place = .unpolled) (udpOver d.place) d.crew.workers

/- The dispatcher returns by itself on a failed handshake and on a closed
endpoint, and aborts its workers. -/
def CalmUdp (d : UdpDispatcher) : UdpLabel → Prop
  | .worker i l => ∀ w, d.crew.workers[i]? = some w → CalmWorker UdpWorker.protocol (udpOver d.place) w l
  | .handshake => (∃ text, d.place = .handshaking (.error text)) → NothingOpen d.crew.workers
  | .idle => NothingOpen d.crew.workers
  | _ => True

theorem udpOrderlyStep (orderly : UdpOrderly d) (calm : CalmUdp d l) (taken : d.step l = some out) :
    UdpOrderly out := by
  cases udpSource taken with
  | poll place => exact ⟨by simp [UdpDispatcher.start], crewHired d.config.workers, by simp [UdpDispatcher.start, udpOver]⟩
  | incoming place => exact ⟨by simp, orderly.each, by simp [udpOver]⟩
  | shaken place => exact ⟨by simp, orderly.each, by simp [udpOver]⟩
  | refused place => exact ⟨by simp [UdpDispatcher.returned], orderly.each, fun _ => calm ⟨_, place⟩⟩
  | sent place room =>
    obtain ⟨_, rfl⟩ := sendSource room
    exact ⟨by simp, orderly.each, by simp [udpOver]⟩
  | closed place => exact ⟨by simp, orderly.each, by simp [udpOver]⟩
  | idle place => exact ⟨by simp [UdpDispatcher.returned], orderly.each, fun _ => calm⟩
  | stopped waiting => exact ⟨by simp, orderly.each, by simp [udpOver]⟩
  | joined place joined =>
    exact ⟨by simp [UdpDispatcher.returned], orderly.each, fun _ => joinedOpensNothing orderly.each joined⟩
  | worker moved => exact crewOrderlyStep orderly calm moved

theorem udpOverStays (isOver : udpOver d.place = true) (taken : d.step l = some out) :
    udpOver out.place = true := by
  cases udpSource taken with
  | poll place => rw [place] at isOver; contradiction
  | incoming place => rw [place] at isOver; contradiction
  | shaken place => rw [place] at isOver; contradiction
  | refused place => rfl
  | sent place room => rw [place] at isOver; contradiction
  | closed place => rw [place] at isOver; contradiction
  | idle place => rfl
  | stopped waiting => cases place : d.place <;> rw [place] at waiting isOver <;> contradiction
  | joined place joined => rfl
  | worker moved => exact isOver

theorem udpRemembers (orderly : UdpOrderly d) (taken : d.step l = some out) :
    CrewKeeps (crewLedgers d.crew) (crewLedgers out.crew) := by
  cases udpSource taken with
  | poll place =>
    rw [crewLedgers, orderly.fresh place]
    exact Rows.growsEmpty _
  | sent place room =>
    obtain ⟨_, rfl⟩ := sendSource room
    exact crewKeepsRefl _
  | worker moved => exact crewRemembers moved
  | _ => exact crewKeepsRefl _

end

end VetisTokio.DispatcherDrain
