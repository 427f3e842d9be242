import VetisTokio.DispatcherModel
import VetisTokio.WorkerRuns

/-! What one step of a dispatcher can do, said once for each kind, and what every
step leaves of the workers it has spawned. -/
namespace VetisTokio.DispatcherRuns
open HttpData ConfigData HostModel SignalChannel TlsFactory WorkerModel WorkerRuns DispatcherModel

section
variable {C : Type} [DecidableEq C] {p : Protocol C} {crew out : Crew C} {i : Nat} {l : Label C}

structure CrewStep (p : Protocol C) (crew : Crew C) (i : Nat) (l : Label C) (out : Crew C) : Prop where
  permitted : crew.permits l = true
  row : ∃ workers, Runs.stepAt (Worker.step p) crew.workers i l = some workers ∧
    out = { crew with workers := workers, channel := afterTake crew.channel l }

theorem crewSource (taken : crew.step p i l = some out) : CrewStep p crew i l out := by
  unfold Crew.step at taken
  split at taken <;> try contradiction
  simp only [bind, Option.bind_eq_some_iff] at taken
  obtain ⟨workers, row, last⟩ := taken
  exact ⟨by assumption, workers, row, (Option.some.inj last).symm⟩

theorem crewMoved (taken : crew.step p i l = some out) :
    ∃ w next, crew.workers[i]? = some w ∧ w.step p l = some next ∧ out.workers = crew.workers.set i next := by
  obtain ⟨workers, row, rfl⟩ := (crewSource taken).row
  exact Runs.stepAtSource row

theorem crewKeeps (taken : crew.step p i l = some out) :
    out.sent = crew.sent ∧ out.capacity = crew.capacity ∧ out.dropped = crew.dropped ∧
      out.signal = crew.signal ∧ out.workers.length = crew.workers.length := by
  obtain ⟨workers, row, rfl⟩ := (crewSource taken).row
  exact ⟨rfl, rfl, rfl, rfl, Runs.stepAtLength row⟩

omit [DecidableEq C] in
theorem sendSource {conn : C} (h : crew.send conn = some out) :
    crew.channel.length < crew.capacity ∧
      out = { crew with channel := crew.channel ++ [conn], sent := crew.sent ++ [conn] } := by
  unfold Crew.send at h
  split at h <;> try contradiction
  exact ⟨by assumption, (Option.some.inj h).symm⟩

theorem crewForall {q : Worker C → Prop} (all : ∀ w ∈ crew.workers, q w)
    (keep : ∀ {w next}, crew.workers[i]? = some w → q w → w.step p l = some next → q next)
    (taken : crew.step p i l = some out) : ∀ w ∈ out.workers, q w := by
  obtain ⟨workers, row, rfl⟩ := (crewSource taken).row
  exact Runs.stepAtForall all row keep

end

section
variable {crates : Crates} {d out : TcpDispatcher} {l : TcpLabel}

inductive TcpStep (crates : Crates) (d : TcpDispatcher) : TcpLabel → TcpDispatcher → Prop where
  | poll (place : d.place = .unpolled) : TcpStep crates d .poll (d.start crates)
  | accepted {stream} (place : d.place = .accepting) :
      TcpStep crates d (.accept (.ok stream)) { d with place := .sending stream }
  | logged {text} (place : d.place = .accepting) (evaluated : crates.vetis.debugEvaluates d.logger = true) :
      TcpStep crates d (.accept (.error text)) { d with place := .logging }
  | skipped {text} (place : d.place = .accepting) (ignored : crates.vetis.debugEvaluates d.logger = false) :
      TcpStep crates d (.accept (.error text)) { d with place := .accepting }
  | discarded {result} (place : d.place = .logging) :
      TcpStep crates d (.accept result) { d with place := .accepting }
  | sent {stream crew} (place : d.place = .sending stream) (room : d.crew.send stream = some crew) :
      TcpStep crates d .send { d with place := .accepting, crew := crew }
  | stopped (waiting : d.place.waits = true) :
      TcpStep crates d .stop { d with place := .joining, crew := d.crew.stop }
  | joined (place : d.place = .joining) (isOver : d.crew.joined = true) :
      TcpStep crates d .joined { d with place := .ended (.ok ()), crew := d.crew.drop }
  | worker {i l crew} (moved : d.crew.step TcpWorker.protocol i l = some crew) :
      TcpStep crates d (.worker i l) { d with crew := crew }

theorem tcpSource (taken : d.step crates l = some out) : TcpStep crates d l out := by
  cases l with
  | poll =>
    simp only [TcpDispatcher.step] at taken
    split at taken <;> try contradiction
    cases Option.some.inj taken
    exact .poll (by assumption)
  | accept result =>
    simp only [TcpDispatcher.step] at taken
    split at taken <;> try contradiction
    · cases Option.some.inj taken
      exact .accepted (by assumption)
    · cases Option.some.inj taken
      split
      · exact .logged (by assumption) (by assumption)
      · rename_i ignored
        exact .skipped (by assumption) (Bool.eq_false_iff.mpr ignored)
    · cases Option.some.inj taken
      exact .discarded (by assumption)
  | send =>
    simp only [TcpDispatcher.step] at taken
    split at taken <;> try contradiction
    obtain ⟨crew, room, rfl⟩ := Option.map_eq_some_iff.mp taken
    exact .sent (by assumption) room
  | stop =>
    simp only [TcpDispatcher.step] at taken
    split at taken <;> try contradiction
    cases Option.some.inj taken
    exact .stopped (by assumption)
  | joined =>
    simp only [TcpDispatcher.step] at taken
    split at taken <;> try contradiction
    rename_i both
    cases Option.some.inj taken
    exact .joined both.1 both.2
  | worker i l =>
    simp only [TcpDispatcher.step] at taken
    obtain ⟨crew, moved, rfl⟩ := Option.map_eq_some_iff.mp taken
    exact .worker moved

/- The same steps for whoever looks at the workers and their signal only: the ways
round the loop leave both alone. -/
inductive TcpMove (crates : Crates) (d : TcpDispatcher) : TcpLabel → TcpDispatcher → Prop where
  | poll (place : d.place = .unpolled) : TcpMove crates d .poll (d.start crates)
  | looped {l place crew} (before : d.place.waits = true ∧ d.place ≠ .unpolled)
      (after : place.waits = true ∧ place ≠ .unpolled) (workers : crew.workers = d.crew.workers)
      (signal : crew.signal = d.crew.signal) : TcpMove crates d l { d with place := place, crew := crew }
  | stopped (waiting : d.place.waits = true) :
      TcpMove crates d .stop { d with place := .joining, crew := d.crew.stop }
  | joined (place : d.place = .joining) (isOver : d.crew.joined = true) :
      TcpMove crates d .joined { d with place := .ended (.ok ()), crew := d.crew.drop }
  | worker {i l crew} (moved : d.crew.step TcpWorker.protocol i l = some crew) :
      TcpMove crates d (.worker i l) { d with crew := crew }

theorem tcpMove (taken : d.step crates l = some out) : TcpMove crates d l out := by
  cases tcpSource taken with
  | poll place => exact .poll place
  | accepted place => exact .looped (by simp [place, TcpPlace.waits]) (by simp [TcpPlace.waits]) rfl rfl
  | logged place evaluated => exact .looped (by simp [place, TcpPlace.waits]) (by simp [TcpPlace.waits]) rfl rfl
  | skipped place ignored => exact .looped (by simp [place, TcpPlace.waits]) (by simp [TcpPlace.waits]) rfl rfl
  | discarded place => exact .looped (by simp [place, TcpPlace.waits]) (by simp [TcpPlace.waits]) rfl rfl
  | sent place room =>
    obtain ⟨_, rfl⟩ := sendSource room
    exact .looped (by simp [place, TcpPlace.waits]) (by simp [TcpPlace.waits]) rfl rfl
  | stopped waiting => exact .stopped waiting
  | joined place isOver => exact .joined place isOver
  | worker moved => exact .worker moved

theorem tcpWaits (waits : d.place.waits = true) (quiet : l ≠ .stop) (taken : d.step crates l = some out) :
    out.place.waits = true := by
  cases tcpMove taken with
  | poll place =>
    unfold TcpDispatcher.start
    cases d.init crates <;> rfl
  | looped before after => exact after.1
  | stopped waiting => exact absurd rfl quiet
  | joined place =>
    rw [place] at waits
    contradiction
  | worker moved => exact waits

end

section
variable {d out : UdpDispatcher} {l : UdpLabel}

inductive UdpStep (d : UdpDispatcher) : UdpLabel → UdpDispatcher → Prop where
  | poll (place : d.place = .unpolled) : UdpStep d .poll d.start
  | incoming {attempt} (place : d.place = .accepting) :
      UdpStep d (.incoming attempt) { d with place := .handshaking attempt }
  | shaken {conn} (place : d.place = .handshaking (.ok conn)) :
      UdpStep d .handshake { d with place := .sending conn }
  | refused {text} (place : d.place = .handshaking (.error text)) :
      UdpStep d .handshake (d.returned (.error (.worker text)))
  | sent {conn crew} (place : d.place = .sending conn) (room : d.crew.send conn = some crew) :
      UdpStep d .send { d with place := .accepting, crew := crew }
  | closed (place : d.place = .accepting) : UdpStep d .closed { d with place := .idle }
  | idle (place : d.place = .idle) : UdpStep d .idle (d.returned (.ok ()))
  | stopped (waiting : d.place.waits = true) : UdpStep d .stop { d with place := .joining, crew := d.crew.stop }
  | joined (place : d.place = .joining) (isOver : d.crew.joined = true) : UdpStep d .joined (d.returned (.ok ()))
  | worker {i l crew} (moved : d.crew.step UdpWorker.protocol i l = some crew) :
      UdpStep d (.worker i l) { d with crew := crew }

theorem udpSource (taken : d.step l = some out) : UdpStep d l out := by
  cases l with
  | poll =>
    simp only [UdpDispatcher.step] at taken
    split at taken <;> try contradiction
    cases Option.some.inj taken
    exact .poll (by assumption)
  | incoming attempt =>
    simp only [UdpDispatcher.step] at taken
    split at taken <;> try contradiction
    cases Option.some.inj taken
    exact .incoming (by assumption)
  | handshake =>
    simp only [UdpDispatcher.step] at taken
    split at taken <;> try contradiction
    · cases Option.some.inj taken
      exact .shaken (by assumption)
    · cases Option.some.inj taken
      exact .refused (by assumption)
  | send =>
    simp only [UdpDispatcher.step] at taken
    split at taken <;> try contradiction
    obtain ⟨crew, room, rfl⟩ := Option.map_eq_some_iff.mp taken
    exact .sent (by assumption) room
  | closed =>
    simp only [UdpDispatcher.step] at taken
    split at taken <;> try contradiction
    cases Option.some.inj taken
    exact .closed (by assumption)
  | idle =>
    simp only [UdpDispatcher.step] at taken
    split at taken <;> try contradiction
    cases Option.some.inj taken
    exact .idle (by assumption)
  | stop =>
    simp only [UdpDispatcher.step] at taken
    split at taken <;> try contradiction
    cases Option.some.inj taken
    exact .stopped (by assumption)
  | joined =>
    simp only [UdpDispatcher.step] at taken
    split at taken <;> try contradiction
    rename_i both
    cases Option.some.inj taken
    exact .joined both.1 both.2
  | worker i l =>
    simp only [UdpDispatcher.step] at taken
    obtain ⟨crew, moved, rfl⟩ := Option.map_eq_some_iff.mp taken
    exact .worker moved

end

end VetisTokio.DispatcherRuns
