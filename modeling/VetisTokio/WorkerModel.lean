import VetisTokio.Library.Runs
import VetisTokio.Library.SignalChannel
import VetisTokio.ServiceHttp

/-! worker::tcp and worker::udp. A worker is the loop of its `run`, the table of
join handles and the connection tasks it has spawned. Every step is one stretch
between two points where another task can run; the spawned task runs as soon as
it is spawned, before its handle is in the table. -/
namespace VetisTokio.WorkerModel
open HttpData ConfigData SignalChannel ServiceHttp

inductive Exit where
  | handshakeFailed
  | served
  | closed
  | cancelled
  | panicked
  deriving DecidableEq, Repr

/- `removing` is the part of the select branch between the end of the serving
future and the removal of the entry; nothing there waits, so nothing cuts it. -/
inductive Phase where
  | handshaking
  | serving
  | removing
  | finished (exit : Exit)
  deriving DecidableEq, Repr

structure ConnTask (C : Type) where
  conn : C
  clientAddr : SocketAddr
  phase : Phase
  shutSignal : Receiver
  aborted : Bool
  started : List Nat
  answered : List Nat
  deriving DecidableEq, Repr

def ConnTask.finished {C : Type} (task : ConnTask C) : Bool :=
  match task.phase with
  | .finished _ => true
  | _ => false

inductive TaskLabel where
  | handshake (accepted : Bool)
  | request (r : Nat)
  | response (r : Nat)
  | served
  | remove
  | close
  | cancel
  | panic
  deriving DecidableEq, Repr

def signalled (signal : Option Watch) (receiver : Receiver) : Bool :=
  match signal with
  | some watch => watch.changed receiver
  | none => false

/- The serving future belongs to hyper, or to the accept loop over h3. It starts
handlers, each request under a name of its own, and hands over their responses.
When it resolves is the connection's own affair: a peer that goes away ends it
with requests still open. -/
def ConnTask.step {C : Type} (signal : Option Watch) (task : ConnTask C) : TaskLabel → Option (ConnTask C)
  | .handshake accepted =>
    if task.phase = .handshaking then
      some { task with phase := if accepted then .serving else .finished .handshakeFailed }
    else none
  | .request r =>
    if task.phase = .serving ∧ r ∉ task.started ∧ r ∉ task.answered then
      some { task with started := r :: task.started }
    else none
  | .response r =>
    if task.phase = .serving ∧ r ∈ task.started then
      some { task with started := task.started.erase r, answered := r :: task.answered }
    else none
  | .served => if task.phase = .serving then some { task with phase := .removing } else none
  | .remove => if task.phase = .removing then some { task with phase := .finished .served } else none
  | .close =>
    if task.phase = .serving ∧ signalled signal task.shutSignal then
      some { task with phase := .finished .closed }
    else none
  | .cancel =>
    if task.aborted ∧ (task.phase = .handshaking ∨ task.phase = .serving) then
      some { task with phase := .finished .cancelled }
    else none
  -- a panic of a handler unwinds the whole task, past the removal of the entry
  | .panic =>
    if task.phase = .handshaking ∨ task.phase = .serving then
      some { task with phase := .finished .panicked }
    else none

/- Where `run` stands. `sniffing` is the wait for the first bytes of a stream,
`spawned` the stretch between the spawn and the insertion of the handle. -/
inductive Loop (C : Type) where
  | unpolled
  | receiving
  | sniffing (conn : C) (clientAddr : SocketAddr)
  | spawned (task : Nat) (clientAddr : SocketAddr)
  | ended (result : Option (VetisResult Unit))

structure Worker (C : Type) where
  loop : Loop C
  signal : Option Watch
  tasks : List (ConnTask C)
  connections : AList (fun _ : SocketAddr => Nat)

def Worker.new {C : Type} : Worker C := ⟨.unpolled, none, [], ∅⟩

def Worker.totalConnections {C : Type} (w : Worker C) : Nat := w.connections.entries.length

/- What the two workers do differently with a received connection: how its
address is found, whether `run` waits before it spawns, and whether the task
starts with a TLS handshake. -/
structure Protocol (C : Type) where
  clientAddr : C → VetisResult SocketAddr
  waits : Bool
  handshakes : C → VetisResult Bool

inductive Label (C : Type) where
  | poll
  | recv (conn : C)
  | sniff
  | insert
  | closed
  | stop
  | dropped
  | task (t : Nat) (l : TaskLabel)

/- `run` holds one sender of the signal and the worker the other. -/
def Worker.finish {C : Type} (w : Worker C) (result : Option (VetisResult Unit)) : Worker C :=
  { w with loop := .ended result, signal := w.signal.map (fun s => s.dropSender.dropSender) }

def Worker.spawn {C : Type} (w : Worker C) (conn : C) (clientAddr : SocketAddr) (tls : Bool) : Worker C :=
  { w with
    loop := .spawned w.tasks.length clientAddr
    tasks := w.tasks ++ [⟨conn, clientAddr, if tls then .handshaking else .serving,
      (w.signal.getD channel).subscribe, false, [], []⟩] }

def Worker.handles {C : Type} (w : Worker C) : List Nat := w.connections.entries.map (fun e => e.2)

/- The future of `run` is gone when `stop` is called, and with it one sender. -/
def Worker.stop {C : Type} (w : Worker C) : Worker C :=
  { w with
    loop := .ended (some (.ok ()))
    signal := w.signal.map (fun s => s.dropSender.send.dropSender)
    tasks := w.tasks.mapIdx (fun t task => if t ∈ w.handles then { task with aborted := true } else task) }

def Worker.suspended {C : Type} (p : Protocol C) (w : Worker C) : Bool :=
  match w.loop with
  | .unpolled => true
  | .receiving => true
  | .sniffing _ _ => p.waits
  | .spawned _ _ => false
  | .ended _ => false

def Worker.step {C : Type} (p : Protocol C) (w : Worker C) : Label C → Option (Worker C)
  | .poll =>
    match w.loop with
    | .unpolled => some { w with loop := .receiving, signal := some channel.cloneSender }
    | _ => none
  | .recv conn =>
    match w.loop with
    | .receiving =>
      match p.clientAddr conn with
      | .error e => some (w.finish (some (.error e)))
      | .ok clientAddr => some { w with loop := .sniffing conn clientAddr }
    | _ => none
  | .sniff =>
    match w.loop with
    | .sniffing conn clientAddr =>
      match p.handshakes conn with
      | .error e => some (w.finish (some (.error e)))
      | .ok tls => some (w.spawn conn clientAddr tls)
    | _ => none
  | .insert =>
    match w.loop with
    | .spawned t clientAddr =>
      some { w with loop := .receiving, connections := w.connections.insert clientAddr t }
    | _ => none
  | .closed =>
    match w.loop with
    | .receiving => some (w.finish (some (.ok ())))
    | _ => none
  | .stop => if w.suspended p then some w.stop else none
  | .dropped => if w.suspended p then some (w.finish none) else none
  | .task t l => do
    let task ← w.tasks[t]?
    let next ← task.step w.signal l
    some { w with
      tasks := w.tasks.set t next
      connections := if l = .remove then w.connections.erase task.clientAddr else w.connections }

/- What `peek` comes to once the client has sent something. Until then there is no
`sniff`: that step is the client's, however long it takes. -/
structure TcpStream where
  id : Nat
  peerAddr : Except String SocketAddr
  peek : Except String Bytes
  deriving DecidableEq, Repr

def peekBuffer (seen : Bytes) : Bytes := (seen ++ [0, 0]).take 2

def isTls (buffer : Bytes) : Bool := [0x16, 0x03].isPrefixOf buffer

def TcpWorker.clientAddr (stream : TcpStream) : VetisResult SocketAddr :=
  match stream.peerAddr with
  | .ok clientAddr => .ok clientAddr
  | .error _ => .error (.worker "Unkown client address")

def TcpWorker.handshakes (stream : TcpStream) : VetisResult Bool :=
  match stream.peek with
  | .ok seen => .ok (isTls (peekBuffer seen))
  | .error text => .error (.worker text)

def TcpWorker.protocol : Protocol TcpStream := ⟨TcpWorker.clientAddr, true, TcpWorker.handshakes⟩
def TcpWorker.step : Worker TcpStream → Label TcpStream → Option (Worker TcpStream) :=
  Worker.step TcpWorker.protocol

def TcpWorker.service {H : Type} (hosts : VetisHosts H) (logger : Option Logger) (stream : TcpStream) :
    VetisResult (Bool × HttpService H) := do
  let clientAddr ← TcpWorker.clientAddr stream
  let tls ← TcpWorker.handshakes stream
  .ok (tls, ⟨hosts, clientAddr, logger⟩)

structure Connection where
  id : Nat
  remoteAddress : SocketAddr
  deriving DecidableEq, Repr

def UdpWorker.protocol : Protocol Connection := ⟨fun conn => .ok conn.remoteAddress, false, fun _ => .ok false⟩
def UdpWorker.step : Worker Connection → Label Connection → Option (Worker Connection) :=
  Worker.step UdpWorker.protocol

end VetisTokio.WorkerModel
