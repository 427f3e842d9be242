import VetisTokio.Assembly

/-! The operators `==` and `!=` on listeners and their hash, each written out for the
two kinds and once more for the enum over both. Equality and hash look at the key of
a listener only; the two inequalities join their halves differently. -/
namespace VetisTokio.ListenerEquality
open HttpData ConfigData DispatcherModel ListenerModel Assembly

structure Coherent (a b c : Listener) : Prop where
  opposite : a.ne b = true ↔ ¬ a.eq b = true
  refl : a.eq a = true
  symm : a.eq b = true → b.eq a = true
  trans : a.eq b = true → b.eq c = true → a.eq c = true
  hashes : a.eq b = true → a.hash = b.hash

def PartTogether (a b : Listener) : Prop :=
  (listenerKey a).kind = .udp → (listenerKey b).kind = .udp →
    (a.config.port = b.config.port ↔ a.config.interface = b.config.interface)

section
variable {D : Type}

theorem portEq {l other : PortListener D} : l.eq other = true ↔
    l.config.port = other.config.port ∧ l.config.interface = other.config.interface := by
  simp [PortListener.eq]

theorem tcpOpposite (l other : TcpListener) : TcpListener.ne l other = true ↔ ¬ l.eq other = true := by
  rw [portEq, not_and_or]
  simp [TcpListener.ne]

/- Inequality of the UDP kind asks for both halves to differ. -/
theorem udpOpposite (l other : UdpListener) : (UdpListener.ne l other = true ↔ ¬ l.eq other = true) ↔
    (l.config.port = other.config.port ↔ l.config.interface = other.config.interface) := by
  have both : UdpListener.ne l other = true ↔
      l.config.port ≠ other.config.port ∧ l.config.interface ≠ other.config.interface := by
    simp [UdpListener.ne]
  rw [both, portEq]
  by_cases ports : l.config.port = other.config.port <;>
  by_cases interfaces : l.config.interface = other.config.interface <;> simp [ports, interfaces]

theorem oppositeIff (a b : Listener) : (a.ne b = true ↔ ¬ a.eq b = true) ↔ PartTogether a b := by
  cases a with
  | tcp l =>
    have free : PartTogether (.tcp l) b := fun no => by contradiction
    refine iff_of_true ?_ free
    cases b with
    | tcp other => exact tcpOpposite l other
    | udp other => simp [Listener.ne, Listener.eq]
  | udp l =>
    cases b with
    | tcp other =>
      have free : PartTogether (.udp l) (.tcp other) := fun _ no => by contradiction
      exact iff_of_true (by simp [Listener.ne, Listener.eq]) free
    | udp other =>
      refine (udpOpposite l other).trans ⟨fun together _ _ => together, fun together => together rfl rfl⟩

theorem eqIff {a b : Listener} : a.eq b = true ↔ listenerKey a = listenerKey b := by
  rw [eqKey, beq_iff_eq]

theorem hashOfKey (l : Listener) :
    l.hash = .u16 (listenerKey l).port :: hashInterface (listenerKey l).interface := by
  cases l <;> rfl

end

theorem coherentIff (a b c : Listener) : Coherent a b c ↔ PartTogether a b := by
  constructor
  · intro coherent
    exact (oppositeIff a b).mp coherent.opposite
  · intro together
    refine ⟨(oppositeIff a b).mpr together, eqIff.mpr rfl, ?_, ?_, ?_⟩
    · intro same
      exact eqIff.mpr (eqIff.mp same).symm
    · intro first second
      exact eqIff.mpr ((eqIff.mp first).trans (eqIff.mp second))
    · intro same
      rw [hashOfKey, hashOfKey, eqIff.mp same]

def udpOn (port : UInt16) : Listener := .udp (UdpListener.new ⟨.v4 0, port, 1⟩)

theorem neighboursIncoherent : ¬ ∀ a b c : Listener, Coherent a b c := by
  intro claim
  have coherent := claim (udpOn 8080) (udpOn 8081) (udpOn 8080)
  have unequal : (udpOn 8080).ne (udpOn 8081) = true := coherent.opposite.mpr (by decide)
  contradiction

end VetisTokio.ListenerEquality
