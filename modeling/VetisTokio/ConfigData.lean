import Mathlib.Data.List.AList
import VetisTokio.HttpData

/-! Configuration data of the vetis crate and the addresses it is about. -/
namespace VetisTokio.ConfigData
open HttpData

inductive IpAddr where
  | v4 (octets : BitVec 32)
  | v6 (octets : BitVec 128)
  deriving DecidableEq, Repr

structure SocketAddr where
  ip : IpAddr
  port : UInt16
  deriving DecidableEq, Repr

structure ListenerConfig where
  interface : IpAddr
  port : UInt16
  workers : Nat
  deriving DecidableEq, Repr

def ListenerConfig.reassignPort (config : ListenerConfig) (port : UInt16) : ListenerConfig :=
  { config with port := port }

structure TlsConfig where
  certFile : String
  keyFile : String
  deriving DecidableEq, Repr

structure Logger where
  deriving DecidableEq, Repr

structure HostContext where
  uri : String
  logger : Option Logger
  rootDirectory : Option String
  deriving DecidableEq, Repr

structure Path where
  uri : String
  handle : Request → HostContext → VetisResult Response

/- The paths of a configuration are already the boxed ones that `boxed_sync`
makes of them. -/
structure HostConfig where
  hostname : String
  bindAddresses : List (IpAddr × UInt16)
  protos : List Version
  tls : Option TlsConfig := none
  rootDirectory : Option String := none
  allowUnsafeConnections : Bool := false
  enableHsts : Bool := false
  defaultHeaders : Option (List (String × String)) := none
  statusPages : Option (AList (fun _ : UInt16 => String)) := none
  paths : List Path := []

structure ServerConfig where
  hosts : List HostConfig
  workers : Nat

abbrev VetisHosts (H : Type) := AList (fun _ : String => H)
abbrev VetisPathRouter := AList (fun _ : String => Path)

structure Tls where
  cert : Bytes
  key : Bytes
  ca : Option Bytes
  supportedAlpns : List Bytes
  deriving DecidableEq, Repr

/- What the code takes from the vetis crate without this repository saying how
it works: the check a listener configuration has to pass, the reading of a
certificate pair, and whether `debug!` evaluates its arguments. -/
structure VetisCrate where
  rejects : ListenerConfig → Option VetisError
  tlsFromCertAndKey : Bytes → Bytes → Tls
  debugEvaluates : Option Logger → Bool

def ListenerConfig.build (crate : VetisCrate) (interface : IpAddr) (port : UInt16) (workers : Nat) :
    VetisResult ListenerConfig :=
  match crate.rejects ⟨interface, port, workers⟩ with
  | some error => .error error
  | none => .ok ⟨interface, port, workers⟩

theorem builtConfig {crate : VetisCrate} {interface : IpAddr} {port : UInt16} {workers : Nat}
    {config : ListenerConfig} (ok : ListenerConfig.build crate interface port workers = .ok config) :
    config = ⟨interface, port, workers⟩ := by
  unfold ListenerConfig.build at ok
  split at ok
  · contradiction
  · exact (Except.ok.inj ok).symm

end VetisTokio.ConfigData
