import VetisTokio.TlsFactory
import VetisTokio.WorkerModel

/-! The connection dispatchers of listener::tcp and listener::udp, each the task
that `listen` spawns. Both own the same things once `init` has run: the workers
in their join set, the signal those wait on and the channel they take connections
from. The places below are where the dispatcher's future waits. -/
namespace VetisTokio.DispatcherModel
open HttpData ConfigData HostModel SignalChannel TlsFactory WorkerModel

structure Crates where
  vetis : VetisCrate
  rustls : RustlsCrate
  order : HashOrder

def sampleCrates : Crates where
  vetis := ⟨fun _ => none, fun cert key => ⟨cert, key, none, []⟩, Option.isSome⟩
  rustls := ⟨fun der => if der = [] then none else some ⟨der⟩, fun chain key => .ok ⟨chain, key⟩,
    fun name _ => .ok (ServiceHttp.toLowercase name), .ok ()⟩
  order := ⟨fun hosts => hosts.entries.map (fun entry => (entry.1, entry.2)), id⟩

/- `sent` is what went into the channel so far; the code does not keep it. -/
structure Crew (C : Type) where
  signal : Option Watch
  workers : List (Worker C)
  channel : List C
  capacity : Nat
  sent : List C
  dropped : Bool

def Crew.new {C : Type} : Crew C := ⟨none, [], [], 0, [], false⟩

/- A bounded channel of size zero is one of size one. -/
def Crew.bounded {C : Type} (crew : Crew C) (workers : Nat) : Crew C := { crew with capacity := max workers 1 }

def Crew.init {C : Type} (crew : Crew C) (workers : Nat) : Crew C :=
  { crew with signal := some SignalChannel.channel, workers := List.replicate workers Worker.new }

def Crew.send {C : Type} (crew : Crew C) (conn : C) : Option (Crew C) :=
  if crew.channel.length < crew.capacity then
    some { crew with channel := crew.channel ++ [conn], sent := crew.sent ++ [conn] }
  else none

def Crew.stop {C : Type} (crew : Crew C) : Crew C :=
  { crew with signal := crew.signal.map (fun s => s.send.dropSender) }

def Worker.over {C : Type} (w : Worker C) : Bool :=
  match w.loop with
  | .ended _ => true
  | _ => false

def Crew.joined {C : Type} (crew : Crew C) : Bool := crew.workers.all Worker.over

/- Dropping the dispatcher drops the join set, which aborts its workers, and the
senders of the signal and of the channel. -/
def Crew.drop {C : Type} (crew : Crew C) : Crew C :=
  { crew with signal := crew.signal.map Watch.dropSender, dropped := true }

def Crew.permits {C : Type} [DecidableEq C] (crew : Crew C) : Label C → Bool
  | .recv conn => crew.channel.head? == some conn
  | .closed => crew.channel.isEmpty && crew.dropped
  | .stop => signalled crew.signal ⟨0⟩
  | .dropped => crew.dropped
  | _ => true

def afterTake {C : Type} (waiting : List C) : Label C → List C
  | .recv _ => waiting.tail
  | _ => waiting

def Crew.step {C : Type} [DecidableEq C] (p : Protocol C) (crew : Crew C) (i : Nat) (l : Label C) :
    Option (Crew C) :=
  if crew.permits l then do
    let workers ← Runs.stepAt (Worker.step p) crew.workers i l
    some { crew with workers := workers, channel := afterTake crew.channel l }
  else none

/- `logging` is the accept inside the arguments of `debug!`. -/
inductive TcpPlace where
  | unpolled
  | accepting
  | logging
  | sending (stream : TcpStream)
  | joining
  | ended (result : VetisResult Unit)
  deriving DecidableEq

structure TcpDispatcher where
  place : TcpPlace
  hosts : VetisHosts Host
  config : ListenerConfig
  logger : Option Logger
  crew : Crew TcpStream

inductive TcpLabel where
  | poll
  | accept (result : Except String TcpStream)
  | send
  | stop
  | joined
  | worker (i : Nat) (l : Label TcpStream)

def TcpDispatcher.new (hosts : VetisHosts Host) (config : ListenerConfig) (logger : Option Logger) : TcpDispatcher :=
  ⟨.unpolled, hosts, config, logger, .new⟩

def TcpDispatcher.init (crates : Crates) (d : TcpDispatcher) : VetisResult (Crew TcpStream) :=
  match createTlsConfig crates.rustls crates.order d.hosts with
  | .ok _ => .ok (d.crew.init d.config.workers)
  | .error e => .error e

def TcpPlace.waits : TcpPlace → Bool
  | .unpolled | .accepting | .logging | .sending _ => true
  | .joining | .ended _ => false

def TcpDispatcher.start (crates : Crates) (d : TcpDispatcher) : TcpDispatcher :=
  match d.init crates with
  | .ok crew => { d with place := .accepting, crew := crew.bounded d.config.workers }
  -- the failure is logged, and the loop below runs all the same
  | .error _ => { d with place := .accepting, crew := d.crew.bounded d.config.workers }

def TcpDispatcher.step (crates : Crates) (d : TcpDispatcher) : TcpLabel → Option TcpDispatcher
  | .poll => if d.place = .unpolled then some (d.start crates) else none
  | .accept result =>
    match d.place, result with
    | .accepting, .ok stream => some { d with place := .sending stream }
    | .accepting, .error _ =>
      some { d with place := if crates.vetis.debugEvaluates d.logger then .logging else .accepting }
    | .logging, _ => some { d with place := .accepting }
    | _, _ => none
  | .send =>
    match d.place with
    | .sending stream => (d.crew.send stream).map (fun crew => { d with place := .accepting, crew := crew })
    | _ => none
  | .stop => if d.place.waits then some { d with place := .joining, crew := d.crew.stop } else none
  | .joined =>
    if d.place = .joining ∧ d.crew.joined then some { d with place := .ended (.ok ()), crew := d.crew.drop } else none
  | .worker i l => (d.crew.step TcpWorker.protocol i l).map (fun crew => { d with crew := crew })

abbrev Attempt := Except String Connection

inductive UdpPlace where
  | unpolled
  | accepting
  | handshaking (attempt : Attempt)
  | sending (conn : Connection)
  | idle
  | joining
  | ended (result : VetisResult Unit)
  deriving DecidableEq

structure UdpDispatcher where
  place : UdpPlace
  hosts : VetisHosts Host
  config : ListenerConfig
  logger : Option Logger
  crew : Crew Connection

inductive UdpLabel where
  | poll
  | incoming (attempt : Attempt)
  | handshake
  | send
  | closed
  | idle
  | stop
  | joined
  | worker (i : Nat) (l : Label Connection)

def UdpDispatcher.new (hosts : VetisHosts Host) (config : ListenerConfig) (logger : Option Logger) : UdpDispatcher :=
  ⟨.unpolled, hosts, config, logger, .new⟩

def UdpPlace.waits : UdpPlace → Bool
  | .unpolled | .accepting | .handshaking _ | .sending _ | .idle => true
  | .joining | .ended _ => false

def UdpDispatcher.start (d : UdpDispatcher) : UdpDispatcher :=
  { d with place := .accepting, crew := (d.crew.init d.config.workers).bounded d.config.workers }

/- `run` has returned, and the dispatcher goes with the block around it. -/
def UdpDispatcher.returned (d : UdpDispatcher) (result : VetisResult Unit) : UdpDispatcher :=
  { d with place := .ended result, crew := d.crew.drop }

def UdpDispatcher.step (d : UdpDispatcher) : UdpLabel → Option UdpDispatcher
  | .poll => if d.place = .unpolled then some d.start else none
  | .incoming attempt => if d.place = .accepting then some { d with place := .handshaking attempt } else none
  | .handshake =>
    match d.place with
    | .handshaking (.ok conn) => some { d with place := .sending conn }
    | .handshaking (.error text) => some (d.returned (.error (.worker text)))
    | _ => none
  | .send =>
    match d.place with
    | .sending conn => (d.crew.send conn).map (fun crew => { d with place := .accepting, crew := crew })
    | _ => none
  | .closed => if d.place = .accepting then some { d with place := .idle } else none
  | .idle => if d.place = .idle then some (d.returned (.ok ())) else none
  | .stop => if d.place.waits then some { d with place := .joining, crew := d.crew.stop } else none
  | .joined => if d.place = .joining ∧ d.crew.joined then some (d.returned (.ok ())) else none
  | .worker i l => (d.crew.step UdpWorker.protocol i l).map (fun crew => { d with crew := crew })

end VetisTokio.DispatcherModel
