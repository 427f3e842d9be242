import VetisTokio.DispatcherModel

/-! listener: the TCP and the UDP listener and the enum over both. What differs
between them is the ports whose hosts go without a port in their key, how they
bind, and at which moment the TLS configuration is made. -/
namespace VetisTokio.ListenerModel
open HttpData ConfigData HostModel SignalChannel TlsFactory DispatcherModel

structure Socket where
  id : Nat
  addr : SocketAddr
  deriving DecidableEq, Repr

/- The operating system, tokio and quinn, over a state of their own. -/
structure Os (W : Type) where
  bindTcp : SocketAddr → W → Except String Socket × W
  bindUdp : SocketAddr → W → Except String Socket × W
  localAddr : Socket → W → Except String SocketAddr
  intoStd : Socket → W → Except String Socket × W
  quicServerConfig : TlsServerConfig → Except String Unit
  defaultRuntime : W → Bool
  endpoint : Socket → W → Except String Unit × W

def sampleOs : Os Nat where
  bindTcp addr w := (.ok ⟨w, ⟨addr.ip, if addr.port = 0 then 49152 + w.toUInt16 else addr.port⟩⟩, w + 1)
  bindUdp addr w := (.ok ⟨w, ⟨addr.ip, if addr.port = 0 then 49152 + w.toUInt16 else addr.port⟩⟩, w + 1)
  localAddr socket _ := .ok socket.addr
  intoStd socket w := (.ok socket, w)
  quicServerConfig _ := .ok ()
  defaultRuntime _ := true
  endpoint _ w := (.ok (), w)

structure PortListener (D : Type) where
  config : ListenerConfig
  hosts : VetisHosts Host
  signal : Option Watch
  inner : Option Socket
  logger : Option Logger
  handle : Option D

variable {D W : Type}

def PortListener.new (config : ListenerConfig) : PortListener D := ⟨config, ∅, none, none, none, none⟩

def hostKey (bare : List UInt16) (port : UInt16) (hostname : String) : String :=
  if port ∈ bare then hostname else hostname ++ ":" ++ toString port

def PortListener.insertHost (bare : List UInt16) (l : PortListener D) (host : Host) : PortListener D :=
  { l with hosts := l.hosts.insert (hostKey bare l.config.port host.hostname) host }

def PortListener.removeHost (l : PortListener D) (hostname : String) : PortListener D :=
  { l with hosts := l.hosts.erase hostname }

def PortListener.totalHosts (l : PortListener D) : Nat := l.hosts.entries.length

def PortListener.setLogger (l : PortListener D) (logger : Logger) : PortListener D := { l with logger := some logger }

def PortListener.reassignPort (l : PortListener D) (port : UInt16) : PortListener D :=
  { l with config := l.config.reassignPort port }

def PortListener.eq (l other : PortListener D) : Bool :=
  l.config.port == other.config.port && l.config.interface == other.config.interface

inductive HasherInput where
  | u16 (n : UInt16)
  | u32 (bits : BitVec 32)
  | u128 (bits : BitVec 128)
  | isize (n : Int)
  deriving DecidableEq, Repr

def hashInterface : IpAddr → List HasherInput
  | .v4 octets => [.isize 0, .u32 octets]
  | .v6 octets => [.isize 1, .u128 octets]

def PortListener.hash (l : PortListener D) : List HasherInput :=
  .u16 l.config.port :: hashInterface l.config.interface

def PortListener.addr (l : PortListener D) : SocketAddr := ⟨l.config.interface, l.config.port⟩

def PortListener.reserve (bind : SocketAddr → W → Except String Socket × W)
    (localAddr : Socket → W → Except String SocketAddr) (l : PortListener D) : StateT W VetisResult (PortListener D) :=
  fun w =>
    if l.config.port = 0 then
      match bind l.addr w with
      | (.error text, _) => .error (.listener (.bind text))
      | (.ok socket, w) =>
        match localAddr socket w with
        | .error text => .error (.listener (.bind text))
        | .ok addr => .ok ({ l with config := l.config.reassignPort addr.port, inner := some socket }, w)
    else .ok (l, w)

def PortListener.spawned (l : PortListener D) (dispatcher : D) : PortListener D :=
  { l with inner := none, signal := some channel, handle := some dispatcher }

abbrev TcpListener := PortListener TcpDispatcher

def TcpListener.bare : List UInt16 := [80, 443]
def TcpListener.new (config : ListenerConfig) : TcpListener := PortListener.new config
def TcpListener.addHost (l : TcpListener) (host : Host) : VetisResult TcpListener :=
  .ok (l.insertHost TcpListener.bare host)
def TcpListener.reservePort (os : Os W) (l : TcpListener) : StateT W VetisResult TcpListener :=
  l.reserve os.bindTcp os.localAddr

def TcpListener.ne (l other : TcpListener) : Bool :=
  l.config.port != other.config.port || l.config.interface != other.config.interface

def TcpListener.listen (os : Os W) (l : TcpListener) (w : W) : VetisResult Unit × TcpListener × W :=
  let dispatcher := TcpDispatcher.new l.hosts l.config l.logger
  match l.inner with
  | some _ => (.ok (), l.spawned dispatcher, w)
  | none =>
    match os.bindTcp l.addr w with
    | (.error text, w) => (.error (.bind text), l, w)
    | (.ok _, w) => (.ok (), l.spawned dispatcher, w)

abbrev UdpListener := PortListener UdpDispatcher

def UdpListener.bare : List UInt16 := [443]
def UdpListener.new (config : ListenerConfig) : UdpListener := PortListener.new config
def UdpListener.addHost (l : UdpListener) (host : Host) : VetisResult UdpListener :=
  .ok (l.insertHost UdpListener.bare host)
def UdpListener.reservePort (os : Os W) (l : UdpListener) : StateT W VetisResult UdpListener :=
  l.reserve os.bindUdp os.localAddr

def UdpListener.ne (l other : UdpListener) : Bool :=
  l.config.port != other.config.port && l.config.interface != other.config.interface

def UdpListener.socket (os : Os W) (l : UdpListener) (w : W) : VetisResult Socket × W :=
  let taken : Except String Socket × W := match l.inner with
    | some socket => (.ok socket, w)
    | none => os.bindUdp l.addr w
  match taken with
  | (.error text, w) => (.error (.bind text), w)
  | (.ok socket, w) =>
    match os.intoStd socket w with
    | (.error text, w) => (.error (.bind text), w)
    | (.ok socket, w) => (.ok socket, w)

def quicConfig (crates : Crates) (os : Os W) (hosts : VetisHosts Host) : VetisResult Unit := do
  let tls ← createTlsConfig crates.rustls crates.order hosts
  match os.quicServerConfig tls with
  | .error text => .error (.start (.tls text))
  | .ok _ => .ok ()

def quicEndpoint (crates : Crates) (os : Os W) (hosts : VetisHosts Host) (socket : Socket) (w : W) :
    VetisResult Unit × W :=
  match quicConfig crates os hosts with
  | .error e => (.error e, w)
  | .ok _ =>
    if os.defaultRuntime w then
      match os.endpoint socket w with
      | (.error text, w) => (.error (.bind text), w)
      | (.ok _, w) => (.ok (), w)
    else (.error (.bind "no async runtime found"), w)

/- The reserved socket is taken first, and is gone whatever fails after that. -/
def UdpListener.listen (crates : Crates) (os : Os W) (l : UdpListener) (w : W) :
    VetisResult Unit × UdpListener × W :=
  let taken := { l with inner := none }
  match l.socket os w with
  | (.error e, w) => (.error e, taken, w)
  | (.ok socket, w) =>
    match quicEndpoint crates os l.hosts socket w with
    | (.error e, w) => (.error e, taken, w)
    | (.ok _, w) => (.ok (), l.spawned (UdpDispatcher.new l.hosts l.config l.logger), w)

inductive Listener where
  | tcp (l : TcpListener)
  | udp (l : UdpListener)

def Listener.config : Listener → ListenerConfig
  | .tcp l => l.config
  | .udp l => l.config

def Listener.hosts : Listener → VetisHosts Host
  | .tcp l => l.hosts
  | .udp l => l.hosts

def Listener.inner : Listener → Option Socket
  | .tcp l => l.inner
  | .udp l => l.inner

def Listener.addHost (host : Host) : Listener → VetisResult Listener
  | .tcp l => (TcpListener.addHost l host).map .tcp
  | .udp l => (UdpListener.addHost l host).map .udp

def Listener.removeHost (hostname : String) : Listener → Listener
  | .tcp l => .tcp (l.removeHost hostname)
  | .udp l => .udp (l.removeHost hostname)

def Listener.totalHosts : Listener → Nat
  | .tcp l => l.totalHosts
  | .udp l => l.totalHosts

def Listener.setLogger (logger : Logger) : Listener → Listener
  | .tcp l => .tcp (l.setLogger logger)
  | .udp l => .udp (l.setLogger logger)

def Listener.reassignPort (port : UInt16) : Listener → Listener
  | .tcp l => .tcp (l.reassignPort port)
  | .udp l => .udp (l.reassignPort port)

def Listener.eq : Listener → Listener → Bool
  | .tcp l, .tcp other => l.eq other
  | .udp l, .udp other => l.eq other
  | _, _ => false

def Listener.ne : Listener → Listener → Bool
  | .tcp l, .tcp other => TcpListener.ne l other
  | .udp l, .udp other => UdpListener.ne l other
  | _, _ => true

def Listener.hash : Listener → List HasherInput
  | .tcp l => l.hash
  | .udp l => l.hash

def Listener.reservePort (os : Os W) : Listener → StateT W VetisResult Listener
  | .tcp l => return .tcp (← TcpListener.reservePort os l)
  | .udp l => return .udp (← UdpListener.reservePort os l)

def Listener.listen (crates : Crates) (os : Os W) (l : Listener) (w : W) : VetisResult Unit × Listener × W :=
  match l with
  | .tcp l =>
    match TcpListener.listen os l w with
    | (result, l, w) => (result, .tcp l, w)
  | .udp l =>
    match UdpListener.listen crates os l w with
    | (result, l, w) => (result, .udp l, w)

end VetisTokio.ListenerModel
