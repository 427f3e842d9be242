import VetisTokio.ListenerModel

/-! rt. A server is made by adding hosts one after the other to a vector of
listeners, and started by calling `listen` on each of them. -/
namespace VetisTokio.Rt
open HttpData ConfigData HostModel TlsFactory DispatcherModel ListenerModel

variable {W : Type}

def hasTcpListener (config : HostConfig) : Bool :=
  config.protos.contains .http11 || config.protos.contains .http2

def hasUdpListener (config : HostConfig) : Bool := config.protos.contains .http3

def changeAt (listeners : List Listener) (i : Nat) (change : Listener → VetisResult Listener) :
    VetisResult (List Listener) :=
  match listeners[i]? with
  | some l => do
    let changed ← change l
    .ok (listeners.set i changed)
  | none => .ok listeners

/- The host goes to the listener that equals the given one, else to the given
one, which is then pushed. -/
def mergeHost (host : Host) (listener : Listener) (listeners : List Listener) : VetisResult (List Listener) :=
  match listeners.findIdx? (fun l => l.eq listener) with
  | some index => changeAt listeners index (Listener.addHost host)
  | none => do
    let listener ← listener.addHost host
    .ok (listeners ++ [listener])

def addTcpHost (os : Os W) (config : ListenerConfig) (host : Host) (listeners : List Listener) :
    StateT W VetisResult (List Listener × UInt16) :=
  if hasTcpListener host.config then do
    let fresh := Listener.tcp (TcpListener.new config)
    let listener ← if fresh.config.port = 0 then fresh.reservePort os else pure fresh
    let port := if fresh.config.port = 0 then listener.config.port else 0
    let listeners ← StateT.lift (mergeHost host listener listeners)
    return (listeners, port)
  else return (listeners, 0)

def addUdpHost (os : Os W) (config : ListenerConfig) (port : UInt16) (host : Host) (listeners : List Listener) :
    StateT W VetisResult (List Listener) :=
  if hasUdpListener host.config then do
    let fresh := Listener.udp (UdpListener.new config)
    let listener ← if port = 0 ∧ fresh.config.port = 0 then fresh.reservePort os
      else if port > 0 then pure (fresh.reassignPort port) else pure fresh
    StateT.lift (mergeHost host listener listeners)
  else return listeners

/- `http3` is the crate feature: without it there is no UDP listener. -/
def addHostToAddress (crates : Crates) (os : Os W) (http3 : Bool) (workers : Nat) (host : Host)
    (listeners : List Listener) (bindAddress : IpAddr × UInt16) : StateT W VetisResult (List Listener) := do
  let config ← StateT.lift (ListenerConfig.build crates.vetis bindAddress.1 bindAddress.2 workers)
  let (listeners, port) ← addTcpHost os config host listeners
  if http3 then addUdpHost os config port host listeners else return listeners

def addHostToListeners (crates : Crates) (os : Os W) (http3 : Bool) (workers : Nat) (host : Host)
    (listeners : List Listener) : StateT W VetisResult (List Listener) :=
  host.config.bindAddresses.foldlM (addHostToAddress crates os http3 workers host) listeners

structure VetisBuilder where
  config : ServerConfig
  listeners : List Listener

structure Vetis where
  config : ServerConfig
  listeners : List Listener
  logger : Option Logger

def Vetis.builder (default : ServerConfig) : VetisBuilder := ⟨default, []⟩

def VetisBuilder.setConfig (b : VetisBuilder) (config : ServerConfig) : VetisBuilder := { b with config := config }

def VetisBuilder.addHost (crates : Crates) (os : Os W) (http3 : Bool) (b : VetisBuilder) (host : Host) :
    StateT W VetisResult VetisBuilder := do
  let listeners ← addHostToListeners crates os http3 b.config.workers host b.listeners
  return { b with listeners := listeners }

def VetisBuilder.build (b : VetisBuilder) : Vetis := ⟨b.config, b.listeners, none⟩

def addHostConfig (crates : Crates) (os : Os W) (fs : FileSystem) (http3 : Bool) (workers : Nat)
    (listeners : List Listener) (config : HostConfig) : StateT W VetisResult (List Listener) := do
  let host ← StateT.lift (Host.new crates.vetis fs config)
  addHostToListeners crates os http3 workers host listeners

def Vetis.fromConfig (crates : Crates) (os : Os W) (fs : FileSystem) (http3 : Bool) (config : ServerConfig) :
    StateT W VetisResult Vetis := do
  let listeners ← config.hosts.foldlM (addHostConfig crates os fs http3 config.workers) []
  return ⟨config, listeners, none⟩

def startListeners (crates : Crates) (os : Os W) (logSender : Logger) :
    List Listener → W → VetisResult Unit × List Listener × W
  | [], w => (.ok (), [], w)
  | l :: rest, w =>
    match (l.setLogger logSender).listen crates os w with
    | (.error e, l, w) => (.error e, l :: rest, w)
    | (.ok _, l, w) =>
      match startListeners crates os logSender rest w with
      | (result, rest, w) => (result, l :: rest, w)

def Vetis.startLogger (v : Vetis) : Logger × Vetis := (⟨⟩, { v with logger := some ⟨⟩ })

def Vetis.start (crates : Crates) (os : Os W) (v : Vetis) (w : W) : VetisResult Unit × Vetis × W :=
  if v.listeners.isEmpty then (.error (.listener .noListeners), v, w)
  else
    match v.startLogger with
    | (logSender, v) =>
      match startListeners crates os logSender v.listeners w with
      | (result, listeners, w) => (result, { v with listeners := listeners }, w)

end VetisTokio.Rt
