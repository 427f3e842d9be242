import VetisTokio.AlpnOrder
import VetisTokio.QueueProgress

/-! The workers of a TCP dispatcher against the TLS hosts of its table. All workers or
none are there: one host that cannot be loaded leaves the listener with a channel that
nobody takes from, whoever the other hosts are. -/
namespace VetisTokio.TlsStaffing
open HttpData ConfigData HostModel TlsFactory SniTable AlpnOrder WorkerModel WorkerIsolation DispatcherModel DispatcherRuns ConnectionQueue
  QueueProgress Runs

variable {crates : Crates} {hosts : VetisHosts Host} {config : ListenerConfig} {logger : Option Logger} {d out : TcpDispatcher}
  {labels past : List TcpLabel} {l : TcpLabel}

structure Deserted (crew : Crew TcpStream) : Prop where
  nobody : crew.workers = []
  untaken : crew.channel = crew.sent

structure Hires (crates : Crates) (hosts : VetisHosts Host) (config : ListenerConfig) (past : List TcpLabel)
    (d : TcpDispatcher) : Prop where
  sameHosts : d.hosts = hosts
  sameConfig : d.config = config
  loaded : Loads crates.rustls hosts → .poll ∈ past → d.crew.workers.length = config.workers
  refused : ¬ Loads crates.rustls hosts → Deserted d.crew

theorem polledBefore (other : l ≠ .poll) (polled : .poll ∈ past ++ [l]) : .poll ∈ past := by
  rcases List.mem_append.mp polled with old | last
  · exact old
  · exact absurd (List.mem_singleton.mp last).symm other

theorem hiresKept (hires : Hires crates hosts config past d) (other : l ≠ .poll) {place : TcpPlace} {crew : Crew TcpStream}
    (workers : crew.workers = d.crew.workers) (channel : crew.channel = d.crew.channel) (sent : crew.sent = d.crew.sent) :
    Hires crates hosts config (past ++ [l]) { d with place := place, crew := crew } := by
  refine ⟨hires.sameHosts, hires.sameConfig, ?_, ?_⟩
  · intro loads polled
    rw [workers]
    exact hires.loaded loads (polledBefore other polled)
  · intro unusable
    obtain ⟨nobody, untaken⟩ := hires.refused unusable
    exact ⟨workers.trans nobody, by rw [channel, sent, untaken]⟩

theorem startHires (iterates : Iterates crates.order) (hires : Hires crates hosts config past d) :
    Hires crates hosts config (past ++ [.poll]) (d.start crates) := by
  unfold TcpDispatcher.start TcpDispatcher.init
  cases made : createTlsConfig crates.rustls crates.order d.hosts with
  | ok tls =>
    have loads : Loads crates.rustls hosts := by
      rw [hires.sameHosts] at made
      exact (createdIff iterates).mp ⟨tls, made⟩
    refine ⟨hires.sameHosts, hires.sameConfig, fun _ _ => ?_, fun unusable => absurd loads unusable⟩
    rw [← hires.sameConfig]
    exact List.length_replicate
  | error e =>
    have unusable : ¬ Loads crates.rustls hosts := by
      intro loads
      obtain ⟨tls, same⟩ := (createdIff iterates).mpr loads
      rw [hires.sameHosts, same] at made
      contradiction
    refine ⟨hires.sameHosts, hires.sameConfig, fun loads => absurd loads unusable, fun _ => ?_⟩
    obtain ⟨nobody, untaken⟩ := hires.refused unusable
    exact ⟨nobody, untaken⟩

theorem hiresStep (iterates : Iterates crates.order) (hires : Hires crates hosts config past d)
    (taken : d.step crates l = some out) : Hires crates hosts config (past ++ [l]) out := by
  cases tcpSource taken with
  | poll place => exact startHires iterates hires
  | accepted place => exact hiresKept hires (by simp) rfl rfl rfl
  | logged place evaluated => exact hiresKept hires (by simp) rfl rfl rfl
  | skipped place ignored => exact hiresKept hires (by simp) rfl rfl rfl
  | discarded place => exact hiresKept hires (by simp) rfl rfl rfl
  | sent place room =>
    obtain ⟨_, rfl⟩ := sendSource room
    refine ⟨hires.sameHosts, hires.sameConfig, fun loads polled => hires.loaded loads (polledBefore (by simp) polled), ?_⟩
    intro unusable
    obtain ⟨nobody, untaken⟩ := hires.refused unusable
    exact ⟨nobody, by rw [untaken]⟩
  | stopped waiting => exact hiresKept hires (by simp) rfl rfl rfl
  | joined place isOver => exact hiresKept hires (by simp) rfl rfl rfl
  | worker moved =>
    refine ⟨hires.sameHosts, hires.sameConfig, fun loads polled => ?_, fun unusable => ?_⟩
    · exact (crewKeeps moved).2.2.2.2.trans (hires.loaded loads (polledBefore (by simp) polled))
    · obtain ⟨w, _, found, _⟩ := crewMoved moved
      rw [(hires.refused unusable).nobody] at found
      contradiction

/- Without workers the dispatcher stays in its loop: it takes what comes until the channel
is full, and holds the next stream for good. -/
structure Unstaffed (crates : Crates) (config : ListenerConfig) (labels : List TcpLabel) (d : TcpDispatcher) : Prop where
  nobody : d.crew.workers = []
  untaken : d.crew.channel = d.crew.sent
  bounded : d.crew.sent.length ≤ max config.workers 1
  loops : .stop ∉ labels → d.place.waits = true
  accepts : d.place = .accepting → ∀ stream, ∃ held, d.step crates (.accept (.ok stream)) = some held ∧
    held.place = .sending stream
  sends : ∀ stream, d.place = .sending stream → d.crew.sent.length < max config.workers 1 →
    ∃ out, d.step crates .send = some out ∧ out.place = .accepting ∧ out.crew.sent = d.crew.sent ++ [stream]
  holds : ∀ stream, d.place = .sending stream → d.crew.sent.length = max config.workers 1 → ∀ more out,
    .stop ∉ more → run (TcpDispatcher.step crates) d more = some out → out.place = .sending stream ∧
      out.crew.sent = d.crew.sent

structure Staffing (crates : Crates) (hosts : VetisHosts Host) (config : ListenerConfig) (labels : List TcpLabel)
    (d : TcpDispatcher) : Prop where
  usable : Loads crates.rustls hosts → .poll ∈ labels → d.crew.workers.length = config.workers
  unusable : ¬ Loads crates.rustls hosts → Unstaffed crates config labels d

theorem desertedUnstaffed (ran : run (TcpDispatcher.step crates) (TcpDispatcher.new hosts config logger) labels = some d)
    (deserted : Deserted d.crew) : Unstaffed crates config labels d := by
  obtain ⟨q, models⟩ := tcpModelled ran
  have same : d.crew.sent.length = d.crew.channel.length := by rw [deserted.untaken]
  have capacity : ∀ stream, d.place = .sending stream → d.crew.capacity = max config.workers 1 := by
    intro stream place
    rw [models.bounded (by simp [place, TcpPlace.waits]) (by simp [place]), models.size]
  refine ⟨deserted.nobody, deserted.untaken, ?_, ?_, ?_, ?_, ?_⟩
  · rw [same, models.crew.waiting, ← models.size]
    exact q.fits
  · intro unstopped
    refine invariantUnder (fun d : TcpDispatcher => d.place.waits = true) (fun _ l => l ≠ TcpLabel.stop) tcpWaits rfl
      (meetsOfForall ?_) ran
    rintro l member _ rfl
    exact unstopped member
  · intro place stream
    exact ⟨{ d with place := .sending stream }, by simp only [TcpDispatcher.step, place], rfl⟩
  · intro stream place fewer
    obtain ⟨crew, sends, sent⟩ := roomSends stream (by rw [← same, capacity stream place]; exact fewer)
    exact ⟨{ d with place := .accepting, crew := crew }, by simp only [TcpDispatcher.step, place, sends, Option.map_some],
      rfl, sent⟩
  · intro stream place full more out unstopped later
    refine tcpStuck place ⟨?_, ?_⟩ unstopped later
    · rw [capacity stream place, ← full, same]
    · rw [deserted.nobody]
      exact List.forall_mem_nil _

theorem allOrNobody (iterates : Iterates crates.order)
    (ran : run (TcpDispatcher.step crates) (TcpDispatcher.new hosts config logger) labels = some d) :
    Staffing crates hosts config labels d := by
  have hires := historyInvariant (Hires crates hosts config) (fun _ _ => True)
    (fun before _ taken => hiresStep iterates before taken)
    ⟨rfl, rfl, fun _ polled => by contradiction, fun _ => ⟨rfl, rfl⟩⟩ (meetsOfForall fun _ _ _ => trivial) ran
  exact ⟨hires.loaded, fun unusable => desertedUnstaffed ran (hires.refused unusable)⟩

def brokenTable : VetisHosts Host :=
  AList.insert "plain" (tlsHost "plain" none) (AList.insert "broken" (tlsHost "broken" (some ⟨[1], [], none, []⟩)) ∅)

theorem brokenDeserted : ∃ d, run (TcpDispatcher.step { sampleCrates with order := forwards })
    (TcpDispatcher.new brokenTable ⟨.v4 0, 80, 4⟩ none) [.poll, .accept (.ok (knownStream 0)), .send] = some d ∧
      Staffing { sampleCrates with order := forwards } brokenTable ⟨.v4 0, 80, 4⟩
        [.poll, .accept (.ok (knownStream 0)), .send] d ∧ d.crew.workers = [] := by
  have ran : run (TcpDispatcher.step { sampleCrates with order := forwards })
    (TcpDispatcher.new brokenTable ⟨.v4 0, 80, 4⟩ none) [.poll, .accept (.ok (knownStream 0)), .send] = some _ := rfl
  exact ⟨_, ran, allOrNobody forwardsIterates ran, rfl⟩

end VetisTokio.TlsStaffing
