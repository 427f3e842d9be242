import VetisTokio.HostModel

/-! tls. One server configuration is made for all the hosts of a listener: a
resolver from server names to certified keys, and the union of their protocols. -/
namespace VetisTokio.TlsFactory
open HttpData ConfigData HostModel

structure PrivateKeyDer where
  der : Bytes
  deriving DecidableEq, Repr

structure CertifiedKey where
  chain : List Bytes
  key : PrivateKeyDer
  deriving DecidableEq, Repr

/- What rustls does with the bytes of one host: the key has to parse, the pair has
to fit, and the name has to be a DNS name that the certificate is for. The name
that comes back is the one the resolver stores the pair under. -/
structure RustlsCrate where
  privateKeyDer : Bytes → Option PrivateKeyDer
  certifiedKey : List Bytes → PrivateKeyDer → Except String CertifiedKey
  serverName : String → CertifiedKey → Except String String
  protocolVersions : Except String Unit

/- The orders in which a table and a set of protocols are gone through. -/
structure HashOrder where
  hosts : VetisHosts Host → List (String × Host)
  alpns : List Bytes → List Bytes

abbrev Resolver := AList (fun _ : String => CertifiedKey)

structure TlsServerConfig where
  resolver : Resolver
  maxEarlyDataSize : Nat
  alpnProtocols : List Bytes

def rsplitOnce (separator : Char) : List Char → Option (List Char × List Char)
  | [] => none
  | c :: rest =>
    match rsplitOnce separator rest with
    | some (before, after) => some (c :: before, after)
    | none => if c = separator then some ([], rest) else none

def sniHostname (hostname : String) : String :=
  match rsplitOnce ':' hostname.toList with
  | some (name, _) => String.ofList name
  | none => hostname

def chain (tls : Tls) : List Bytes :=
  match tls.ca with
  | some ca => [tls.cert, ca]
  | none => [tls.cert]

def certifiedKey (rustls : RustlsCrate) (tls : Tls) : VetisResult CertifiedKey :=
  match rustls.privateKeyDer tls.key with
  | none => .error (.tls "Failed to parse private key")
  | some key =>
    match rustls.certifiedKey (chain tls) key with
    | .ok certified => .ok certified
    | .error text => .error (.tls ("Failed to create certified key: " ++ text))

def addHost (rustls : RustlsCrate) (made : Resolver × List Bytes) (entry : String × Host) :
    VetisResult (Resolver × List Bytes) :=
  match entry.2.tls with
  | none => .ok made
  | some tls => do
    let certified ← certifiedKey rustls tls
    match rustls.serverName (sniHostname entry.1) certified with
    | .ok name => .ok (made.1.insert name certified, made.2 ∪ tls.supportedAlpns)
    | .error text => .error (.tls text)

def createTlsConfig (rustls : RustlsCrate) (order : HashOrder) (hosts : VetisHosts Host) :
    VetisResult TlsServerConfig := do
  let made ← (order.hosts hosts).foldlM (addHost rustls) (∅, [])
  match rustls.protocolVersions with
  | .ok _ => .ok ⟨made.1, 0xffffffff, order.alpns made.2⟩
  | .error text => .error (.start (.tls text))

def Accepts (rustls : RustlsCrate) (entry : String × Host) : Prop :=
  ∀ tls, entry.2.tls = some tls → ∃ certified, certifiedKey rustls tls = .ok certified ∧
    ∃ name, rustls.serverName (sniHostname entry.1) certified = .ok name

def LoadsEach (rustls : RustlsCrate) (entries : List (String × Host)) : Prop :=
  rustls.protocolVersions = .ok () ∧ ∀ entry ∈ entries, Accepts rustls entry

section
variable {rustls : RustlsCrate} {made : Resolver × List Bytes} {entry : String × Host} {entries : List (String × Host)}

theorem acceptedIff : (∃ out, addHost rustls made entry = .ok out) ↔ Accepts rustls entry := by
  unfold addHost Accepts
  cases entry.2.tls with
  | none => simp
  | some tls =>
    constructor
    · rintro ⟨out, added⟩ own given
      cases Option.some.inj given
      obtain ⟨certified, built, added⟩ := bindOkIff.mp added
      split at added <;> try contradiction
      rename_i name stored
      exact ⟨certified, built, name, stored⟩
    · intro accepts
      obtain ⟨certified, built, name, stored⟩ := accepts tls rfl
      refine ⟨(made.1.insert name certified, made.2 ∪ tls.supportedAlpns), bindOkIff.mpr ⟨certified, built, ?_⟩⟩
      rw [stored]

theorem foldAccepted (made : Resolver × List Bytes) : (∃ out, entries.foldlM (addHost rustls) made = .ok out) ↔
    ∀ entry ∈ entries, Accepts rustls entry := by
  induction entries generalizing made with
  | nil => simp [pure, Except.pure]
  | cons entry rest ih =>
    simp only [List.foldlM_cons, bindOkIff, List.forall_mem_cons]
    constructor
    · rintro ⟨out, next, added, later⟩
      exact ⟨acceptedIff.mp ⟨next, added⟩, (ih next).mp ⟨out, later⟩⟩
    · rintro ⟨first, others⟩
      obtain ⟨next, added⟩ := acceptedIff.mpr first
      obtain ⟨out, later⟩ := (ih next).mpr others
      exact ⟨out, next, added, later⟩

end

theorem createdEach {rustls : RustlsCrate} {order : HashOrder} {hosts : VetisHosts Host} :
    (∃ tls, createTlsConfig rustls order hosts = .ok tls) ↔ LoadsEach rustls (order.hosts hosts) := by
  rw [LoadsEach, ← foldAccepted (∅, [])]
  simp only [createTlsConfig, bindOkIff]
  constructor
  · rintro ⟨tls, out, folded, made⟩
    split at made <;> try contradiction
    rename_i versions
    exact ⟨versions, out, folded⟩
  · rintro ⟨versions, out, folded⟩
    exact ⟨_, out, folded, by rw [versions]⟩

end VetisTokio.TlsFactory
