import VetisTokio.Rt

/-! A started server: the dispatcher tasks of its listeners, and the call of
`stop`, which goes from listener to listener, signals each and waits for its
task. Any task may take its next step between any two of these. -/
namespace VetisTokio.ServerModel
open HttpData ConfigData SignalChannel WorkerModel DispatcherModel ListenerModel Rt

inductive Stop where
  | running
  | signalling (k : Nat)
  | joining (k : Nat)
  | returned (result : VetisResult Unit)
  deriving DecidableEq

structure Server where
  listeners : List Listener
  stop : Stop

def Server.of (v : Vetis) : Server := ⟨v.listeners, .running⟩

inductive ServerLabel where
  | tcp (i : Nat) (l : TcpLabel)
  | udp (i : Nat) (l : UdpLabel)
  | callStop
  | signal
  | join

def tcpPermits (signal : Option Watch) : TcpLabel → Bool
  | .stop => signalled signal ⟨0⟩
  | _ => true

def udpPermits (signal : Option Watch) : UdpLabel → Bool
  | .stop => signalled signal ⟨0⟩
  | _ => true

def tcpTask (crates : Crates) (t : TcpListener) (l : TcpLabel) : Option TcpListener :=
  if tcpPermits t.signal l then do
    let d ← t.handle
    let next ← d.step crates l
    some { t with handle := some next }
  else none

def udpTask (u : UdpListener) (l : UdpLabel) : Option UdpListener :=
  if udpPermits u.signal l then do
    let d ← u.handle
    let next ← d.step l
    some { u with handle := some next }
  else none

def tcpOver : TcpPlace → Bool
  | .ended _ => true
  | _ => false

def udpOver : UdpPlace → Bool
  | .ended _ => true
  | _ => false

/- The first half of a listener's `stop`, up to the await of its handle. -/
def sendStop : Listener → Listener
  | .tcp t => .tcp { t with signal := t.signal.map Watch.send }
  | .udp u => .udp { u with signal := u.signal.map Watch.send }

def awaits : Listener → Bool
  | .tcp t => t.signal.isSome && t.handle.isSome
  | .udp u => u.signal.isSome && u.handle.isSome

def taskOver : Listener → Bool
  | .tcp t => t.handle.any (fun d => tcpOver d.place)
  | .udp u => u.handle.any (fun d => udpOver d.place)

def Server.step (crates : Crates) (s : Server) : ServerLabel → Option Server
  | .tcp i l =>
    match s.listeners[i]? with
    | some (.tcp t) => (tcpTask crates t l).map (fun t => { s with listeners := s.listeners.set i (.tcp t) })
    | _ => none
  | .udp i l =>
    match s.listeners[i]? with
    | some (.udp u) => (udpTask u l).map (fun u => { s with listeners := s.listeners.set i (.udp u) })
    | _ => none
  | .callStop =>
    if s.stop = .running then
      if s.listeners.isEmpty then some { s with stop := .returned (.error (.stop "Vetis is not running")) }
      else some { s with stop := .signalling 0 }
    else none
  | .signal =>
    match s.stop with
    | .signalling k =>
      match s.listeners[k]? with
      | some l => some ⟨s.listeners.set k (sendStop l), if awaits l then .joining k else .signalling (k + 1)⟩
      | none => some { s with stop := .returned (.ok ()) }
    | _ => none
  | .join =>
    match s.stop with
    | .joining k =>
      match s.listeners[k]? with
      | some l => if taskOver l then some { s with stop := .signalling (k + 1) } else none
      | none => none
    | _ => none

structure Ledger where
  phase : Phase
  aborted : Bool
  started : List Nat
  answered : List Nat
  deriving DecidableEq, Repr

def ledger {C : Type} (task : ConnTask C) : Ledger := ⟨task.phase, task.aborted, task.started, task.answered⟩
def workerLedgers {C : Type} (w : Worker C) : List Ledger := w.tasks.map ledger
def crewLedgers {C : Type} (crew : Crew C) : List (List Ledger) := crew.workers.map workerLedgers

def listenerLedgers : Listener → List (List Ledger)
  | .tcp t => t.handle.elim [] (fun d => crewLedgers d.crew)
  | .udp u => u.handle.elim [] (fun d => crewLedgers d.crew)

def Server.ledger (s : Server) (i j t : Nat) : Option Ledger := do
  let l ← s.listeners[i]?
  let w ← (listenerLedgers l)[j]?
  w[t]?

end VetisTokio.ServerModel
