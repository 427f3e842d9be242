import VetisTokio.AddHost

/-! The ports that a host ends up on. For each of its addresses there is one port, on
the TCP side and on the UDP side alike, and it is never 0. -/
namespace VetisTokio.PortPairs
open HttpData ConfigData HostModel TlsFactory DispatcherModel ListenerModel Rt KeyedCells Assembly AddHost

/- A socket that was bound to port 0 has some other port. -/
structure RealPorts {W : Type} (os : Os W) : Prop where
  tcp : ∀ port, Reserved os.bindTcp os.localAddr port → port ≠ 0
  udp : ∀ port, Reserved os.bindUdp os.localAddr port → port ≠ 0

def RegisteredAt (host : Host) (listeners : List Listener) (key : Key) : Prop :=
  Has listenerKey (fun l => l.hosts.lookup (tableKey (listenerKey l) host) = some host) listeners key

def Paired (host : Host) (bindAddress : IpAddr × UInt16) (earlier later : List Listener) : Prop :=
  ∃ port, port ≠ 0 ∧ (bindAddress.2 ≠ 0 → port = bindAddress.2) ∧
    ∀ key, RegisteredAt host later key ↔
      RegisteredAt host earlier key ∨ key ∈ keysAt true host.config (bindAddress.1, port)

section
variable {W : Type} {crates : Crates} {os : Os W} {workers : Nat} {host : Host} {listeners earlier later out : List Listener}
  {bindAddress : IpAddr × UInt16} {w after : W}

theorem placedRegisters {key : Key} {wanted : Bool} (placed : Placed host key wanted earlier later) (other : Key) :
    RegisteredAt host later other ↔ RegisteredAt host earlier other ∨ wanted = true ∧ other = key := by
  cases placed with
  | skipped => simp
  | put base _ keyed =>
    have made : ∀ l, (withHost host l).hosts.lookup (tableKey (listenerKey (withHost host l)) host) = some host := by
      intro l
      rw [withHostKey, withHostLookup, Function.update_self]
    rw [RegisteredAt, upsertHas (withHostKey host) keyed made, RegisteredAt]
    simp

theorem addressPort {tcp udp : UInt16} (real : RealPorts os)
    (given : bindAddress.2 ≠ 0 → tcp = bindAddress.2 ∧ udp = bindAddress.2)
    (chosen : bindAddress.2 = 0 → (hasTcpListener host.config = true → Reserved os.bindTcp os.localAddr tcp) ∧
      (true = true → hasUdpListener host.config = true →
        if hasTcpListener host.config = true ∧ tcp ≠ 0 then udp = tcp else Reserved os.bindUdp os.localAddr udp)) :
    ∃ port, port ≠ 0 ∧ (bindAddress.2 ≠ 0 → port = bindAddress.2) ∧ (hasTcpListener host.config = true → tcp = port) ∧
      (hasUdpListener host.config = true → udp = port) := by
  by_cases zero : bindAddress.2 = 0
  · obtain ⟨first, second⟩ := chosen zero
    cases wanted : hasTcpListener host.config with
    | true =>
      have some := real.tcp tcp (first wanted)
      refine ⟨tcp, some, fun set => absurd zero set, fun _ => rfl, ?_⟩
      intro also
      have same := second rfl also
      rwa [if_pos ⟨wanted, some⟩] at same
    | false =>
      cases also : hasUdpListener host.config with
      | true =>
        have alone := second rfl also
        rw [if_neg (by simp [wanted])] at alone
        exact ⟨udp, real.udp udp alone, fun set => absurd zero set, fun no => by contradiction, fun _ => rfl⟩
      | false =>
        exact ⟨1, by decide, fun set => absurd zero set, fun no => by contradiction, fun no => by contradiction⟩
  · obtain ⟨first, second⟩ := given zero
    exact ⟨bindAddress.2, zero, fun _ => rfl, fun _ => first, fun _ => second⟩

theorem addressPaired (real : RealPorts os)
    (added : addHostToAddress crates os true workers host earlier bindAddress w = .ok (later, after)) :
    Paired host bindAddress earlier later := by
  obtain ⟨tcp, udp, middle, tcpPut, udpPut, given, chosen⟩ := addressPlaced added
  obtain ⟨port, some, own, tcpPort, udpPort⟩ := addressPort real given chosen
  refine ⟨port, some, own, ?_⟩
  intro key
  rw [placedRegisters udpPut, placedRegisters tcpPut, or_assoc]
  refine or_congr_right ?_
  cases wanted : hasTcpListener host.config <;> cases also : hasUdpListener host.config
  · simp [keysAt, wanted, also]
  · simp [keysAt, wanted, also, udpPort also]
  · simp [keysAt, wanted, also, tcpPort wanted]
  · simp [keysAt, wanted, also, tcpPort wanted, udpPort also]

theorem addressesKeep {rest : List (IpAddr × UInt16)} (real : RealPorts os)
    (added : rest.foldlM (addHostToAddress crates os true workers host) listeners w = .ok (out, after)) {key : Key}
    (there : RegisteredAt host listeners key) : RegisteredAt host out key := by
  refine foldKeeps (P := fun listeners => RegisteredAt host listeners key) ?_ added there
  intro bindAddress _ listeners w out after one before
  obtain ⟨port, _, _, registers⟩ := addressPaired real one
  exact (registers key).mpr (.inl before)

end

theorem portsPaired {W : Type} {crates : Crates} {os : Os W} {workers : Nat} {host : Host}
    {listeners out : List Listener} {w after : W} (real : RealPorts os)
    (added : addHostToListeners crates os true workers host listeners w = .ok (out, after)) :
    ∀ before bindAddress rest, host.config.bindAddresses = before ++ bindAddress :: rest →
      ∃ earlier middle later last,
        before.foldlM (addHostToAddress crates os true workers host) listeners w = .ok (earlier, middle) ∧
        addHostToAddress crates os true workers host earlier bindAddress middle = .ok (later, last) ∧
        Paired host bindAddress earlier later ∧ ∀ key, RegisteredAt host later key → RegisteredAt host out key := by
  intro before bindAddress rest split
  rw [addHostToListeners, split, List.foldlM_append] at added
  obtain ⟨earlier, middle, first, added⟩ := bindSource added
  rw [List.foldlM_cons] at added
  obtain ⟨later, last, second, added⟩ := bindSource added
  exact ⟨earlier, middle, later, last, first, second, addressPaired real second,
    fun key there => addressesKeep real added there⟩

def pairedBind (addr : SocketAddr) (w : Nat) : Except String Socket × Nat :=
  (.ok ⟨w, ⟨addr.ip, if addr.port = 0 then 49152 else addr.port⟩⟩, w + 1)

def pairedOs : Os Nat := { sampleOs with bindTcp := pairedBind, bindUdp := pairedBind }

def pairedHost : Host :=
  ⟨{ hostname := "localhost", bindAddresses := [(.v4 0, 8443), (.v4 0, 0)], protos := [.http2, .http3] }, ∅, none⟩

theorem pairedReserved {port : UInt16} (reserved : Reserved pairedBind sampleOs.localAddr port) : port ≠ 0 := by
  obtain ⟨addr, w, socket, after, found, zero, bound, named, rfl⟩ := reserved
  simp only [pairedBind, zero, if_true, Prod.mk.injEq, Except.ok.injEq] at bound
  cases Except.ok.inj named
  rw [← bound.1]
  exact (by decide : (49152 : UInt16) ≠ 0)

theorem pairedPorts : RealPorts pairedOs := ⟨fun _ => pairedReserved, fun _ => pairedReserved⟩

theorem secondAddressPaired : ∃ out after earlier later,
    addHostToListeners sampleCrates pairedOs true 1 pairedHost [] 0 = .ok (out, after) ∧
      Paired pairedHost (.v4 0, 0) earlier later ∧
      ∀ key, RegisteredAt pairedHost later key → RegisteredAt pairedHost out key := by
  have added : addHostToListeners sampleCrates pairedOs true 1 pairedHost [] 0 = .ok (_, _) := rfl
  obtain ⟨earlier, _, later, _, _, _, paired, kept⟩ := portsPaired pairedPorts added [(.v4 0, 8443)] (.v4 0, 0) [] rfl
  exact ⟨_, _, earlier, later, added, paired, kept⟩

end VetisTokio.PortPairs
