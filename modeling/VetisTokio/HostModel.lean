import VetisTokio.ConfigData

/-! Host construction: the certificate files of a configuration are read here,
and the paths are put into the router under their own URIs. -/
namespace VetisTokio.HostModel
open HttpData ConfigData

structure FileSystem where
  exists? : String → Bool
  read : String → Except String Bytes

structure Host where
  config : HostConfig
  paths : VetisPathRouter
  tls : Option Tls

def Host.hostname (host : Host) : String := host.config.hostname

def isRelative (file : String) : Bool := !file.startsWith "/"

def joined (root file : String) : String :=
  if root.endsWith "/" || root.isEmpty then root ++ file else root ++ "/" ++ file

def resolved (root : Option String) (file : String) : String :=
  match root with
  | some dir => if isRelative file then joined dir file else file
  | none => file

def loadFile (fs : FileSystem) (file missing unreadable : String) : VetisResult Bytes :=
  if fs.exists? file then
    match fs.read file with
    | .ok bytes => .ok bytes
    | .error text => .error (.config (.tls (unreadable ++ text)))
  else .error (.config (.tls missing))

def loadCertificate (fs : FileSystem) (root : Option String) (tls : TlsConfig) : VetisResult Bytes :=
  loadFile fs (resolved root tls.certFile) "Certificate not found!" "Could not load certificate: "

def loadKey (fs : FileSystem) (root : Option String) (tls : TlsConfig) : VetisResult Bytes :=
  loadFile fs (resolved root tls.keyFile) "Key not found!" "Could not load key: "

def addPath (paths : VetisPathRouter) (path : Path) : VetisPathRouter := paths.insert path.uri path

def Host.new (crate : VetisCrate) (fs : FileSystem) (config : HostConfig) : VetisResult Host := do
  let tls ← match config.tls with
    | some security => do
      let cert ← loadCertificate fs config.rootDirectory security
      let key ← loadKey fs config.rootDirectory security
      .ok (some (crate.tlsFromCertAndKey cert key))
    | none => .ok none
  .ok ⟨config, config.paths.foldl addPath ∅, tls⟩

def Host.addPath (host : Host) (path : Path) : Host :=
  { host with paths := HostModel.addPath host.paths path }

def Host.addTls (host : Host) (tls : Tls) : Host := { host with tls := some tls }

theorem newSource {crate : VetisCrate} {fs : FileSystem} {config : HostConfig} {host : Host}
    (ok : Host.new crate fs config = .ok host) :
    ∃ tls, host = ⟨config, config.paths.foldl HostModel.addPath ∅, tls⟩ := by
  unfold Host.new at ok
  cases found : config.tls with
  | none =>
    rw [found] at ok
    cases Except.ok.inj ok
    exact ⟨none, rfl⟩
  | some security =>
    rw [found] at ok
    obtain ⟨cert, _, ok⟩ := bindOkIff.mp ok
    obtain ⟨key, _, ok⟩ := bindOkIff.mp ok
    cases Except.ok.inj ok
    exact ⟨_, rfl⟩

theorem newConfig {crate : VetisCrate} {fs : FileSystem} {config : HostConfig} {host : Host}
    (ok : Host.new crate fs config = .ok host) : host.config = config := by
  obtain ⟨tls, rfl⟩ := newSource ok
  rfl

end VetisTokio.HostModel
