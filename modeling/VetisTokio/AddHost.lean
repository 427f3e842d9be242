import VetisTokio.Assembly

/-! One call of `add_host_to_listeners` with any ports. An address with a port of its
own names its listeners; one without gets the port that a socket was bound to. -/
namespace VetisTokio.AddHost
open HttpData ConfigData HostModel TlsFactory DispatcherModel ListenerModel Rt KeyedCells Assembly

inductive Placed (host : Host) (key : Key) : Bool → List Listener → List Listener → Prop where
  | skipped (listeners) : Placed host key false listeners listeners
  | put (base listeners) : listenerKey base = key →
      Placed host key true listeners (upsert listenerKey key base (withHost host) listeners)

def Reserved {W : Type} (bind : SocketAddr → W → Except String Socket × W)
    (localAddr : Socket → W → Except String SocketAddr) (port : UInt16) : Prop :=
  ∃ addr w socket after found, addr.port = 0 ∧ bind addr w = (.ok socket, after) ∧
    localAddr socket after = .ok found ∧ found.port = port

structure MadeFor (kind : Kind) (config : ListenerConfig) (own : UInt16) (l : Listener) : Prop where
  key : listenerKey l = ⟨kind, config.interface, own⟩
  workers : l.config.workers = config.workers
  empty : l.hosts = ∅

theorem MadeFor.port {kind : Kind} {config : ListenerConfig} {own : UInt16} {l : Listener}
    (made : MadeFor kind config own l) : l.config.port = own := by
  have same := congrArg Key.port made.key
  cases l <;> exact same

section
variable {W D : Type} {os : Os W} {host : Host} {w after : W} {config : ListenerConfig}
  {listeners out : List Listener}

theorem reserveSource {bind : SocketAddr → W → Except String Socket × W}
    {localAddr : Socket → W → Except String SocketAddr} {l reserved : PortListener D} (zero : l.config.port = 0)
    (ok : l.reserve bind localAddr w = .ok (reserved, after)) :
    ∃ port, reserved.config = l.config.reassignPort port ∧ reserved.hosts = l.hosts ∧ Reserved bind localAddr port := by
  unfold PortListener.reserve at ok
  rw [if_pos zero] at ok
  split at ok <;> try contradiction
  rename_i bound
  split at ok <;> try contradiction
  rename_i found
  cases Except.ok.inj ok
  exact ⟨_, rfl, rfl, _, _, _, _, _, zero, bound, found, rfl⟩

theorem mergePlaced {listener : Listener} (merged : mergeHost host listener listeners = .ok out) :
    Placed host (listenerKey listener) true listeners out := by
  rw [mergeUpsert] at merged
  cases Except.ok.inj merged
  exact .put listener listeners rfl

theorem tcpReserved {l : Listener} (zero : config.port = 0)
    (ok : (Listener.tcp (TcpListener.new config)).reservePort os w = .ok (l, after)) :
    ∃ own, MadeFor .tcp config own l ∧ Reserved os.bindTcp os.localAddr own := by
  obtain ⟨reserved, last, call, same⟩ := bindSource ok
  cases Except.ok.inj same
  obtain ⟨own, named, empty, real⟩ := reserveSource zero call
  refine ⟨own, ⟨?_, ?_, empty⟩, real⟩
  · simp only [listenerKey, named]
    rfl
  · simp only [Listener.config, named]
    rfl

theorem udpReserved {l : Listener} (zero : config.port = 0)
    (ok : (Listener.udp (UdpListener.new config)).reservePort os w = .ok (l, after)) :
    ∃ own, MadeFor .udp config own l ∧ Reserved os.bindUdp os.localAddr own := by
  obtain ⟨reserved, last, call, same⟩ := bindSource ok
  cases Except.ok.inj same
  obtain ⟨own, named, empty, real⟩ := reserveSource zero call
  refine ⟨own, ⟨?_, ?_, empty⟩, real⟩
  · simp only [listenerKey, named]
    rfl
  · simp only [Listener.config, named]
    rfl

theorem tcpMerged {port : UInt16} (added : addTcpHost os config host listeners w = .ok ((out, port), after)) :
    (hasTcpListener host.config = false ∧ out = listeners ∧ port = 0 ∧ after = w) ∨
      (hasTcpListener host.config = true ∧ ∃ own l, MadeFor .tcp config own l ∧ mergeHost host l listeners = .ok out ∧
        (config.port ≠ 0 → own = config.port ∧ port = 0) ∧
        (config.port = 0 → port = own ∧ Reserved os.bindTcp os.localAddr own)) := by
  unfold addTcpHost at added
  cases wanted : hasTcpListener host.config with
  | false =>
    simp only [wanted, Bool.false_eq_true, if_false] at added
    cases Except.ok.inj added
    exact .inl ⟨rfl, rfl, rfl, rfl⟩
  | true =>
    simp only [wanted, if_true] at added
    refine .inr ⟨rfl, ?_⟩
    by_cases zero : config.port = 0
    · have fresh : (Listener.tcp (TcpListener.new config)).config.port = 0 := zero
      simp only [if_pos fresh] at added
      obtain ⟨l, middle, chosen, added⟩ := bindSource added
      obtain ⟨merged, later, lifted, done⟩ := bindSource added
      cases Except.ok.inj done
      obtain ⟨own, made, real⟩ := tcpReserved zero chosen
      have port : l.config.port = own := made.port
      exact ⟨own, l, made, (liftSource lifted).1, fun given => absurd zero given, fun _ => ⟨port, real⟩⟩
    · have fresh : ¬ (Listener.tcp (TcpListener.new config)).config.port = 0 := zero
      simp only [if_neg fresh] at added
      obtain ⟨listener, middle, chosen, added⟩ := bindSource added
      cases Except.ok.inj chosen
      obtain ⟨merged, later, lifted, done⟩ := bindSource added
      cases Except.ok.inj done
      exact ⟨config.port, _, ⟨rfl, rfl, rfl⟩, (liftSource lifted).1, fun _ => ⟨rfl, rfl⟩, fun none => absurd none zero⟩

theorem udpMerged {port : UInt16} (added : addUdpHost os config port host listeners w = .ok (out, after)) :
    (hasUdpListener host.config = false ∧ out = listeners ∧ after = w) ∨
      (hasUdpListener host.config = true ∧ ∃ own l, MadeFor .udp config own l ∧ mergeHost host l listeners = .ok out ∧
        (port ≠ 0 → own = port) ∧ (port = 0 → config.port ≠ 0 → own = config.port) ∧
        (port = 0 → config.port = 0 → Reserved os.bindUdp os.localAddr own)) := by
  unfold addUdpHost at added
  cases wanted : hasUdpListener host.config with
  | false =>
    simp only [wanted, Bool.false_eq_true, if_false] at added
    cases Except.ok.inj added
    exact .inl ⟨rfl, rfl, rfl⟩
  | true =>
    simp only [wanted, if_true] at added
    refine .inr ⟨rfl, ?_⟩
    by_cases unset : port = 0 ∧ (Listener.udp (UdpListener.new config)).config.port = 0
    · have zero : config.port = 0 := unset.2
      simp only [if_pos unset] at added
      obtain ⟨l, middle, chosen, added⟩ := bindSource added
      obtain ⟨own, made, real⟩ := udpReserved zero chosen
      exact ⟨own, l, made, (liftSource added).1, fun given => absurd unset.1 given, fun _ given => absurd zero given,
        fun _ _ => real⟩
    · by_cases handed : port > 0
      · simp only [if_neg unset, if_pos handed] at added
        obtain ⟨listener, middle, chosen, added⟩ := bindSource added
        cases Except.ok.inj chosen
        have some : port ≠ 0 := UInt16.pos_iff_ne_zero.mp handed
        exact ⟨port, _, ⟨rfl, rfl, rfl⟩, (liftSource added).1, fun _ => rfl, fun none => absurd none some,
          fun none => absurd none some⟩
      · simp only [if_neg unset, if_neg handed] at added
        obtain ⟨listener, middle, chosen, added⟩ := bindSource added
        cases Except.ok.inj chosen
        have none : port = 0 := by
          by_contra some
          exact handed (UInt16.pos_iff_ne_zero.mpr some)
        exact ⟨config.port, _, ⟨rfl, rfl, rfl⟩, (liftSource added).1, fun given => absurd none given, fun _ _ => rfl,
          fun _ zero => absurd ⟨none, zero⟩ unset⟩

theorem addressSource {crates : Crates} {http3 : Bool} {workers : Nat} {bindAddress : IpAddr × UInt16}
    (added : addHostToAddress crates os http3 workers host listeners bindAddress w = .ok (out, after)) :
    ∃ first port middle,
      addTcpHost os ⟨bindAddress.1, bindAddress.2, workers⟩ host listeners w = .ok ((first, port), middle) ∧
      ((http3 = false ∧ out = first ∧ after = middle) ∨ (http3 = true ∧
        addUdpHost os ⟨bindAddress.1, bindAddress.2, workers⟩ port host first middle = .ok (out, after))) := by
  unfold addHostToAddress at added
  obtain ⟨config, start, built, added⟩ := bindSource added
  obtain ⟨made, rfl⟩ := liftSource built
  cases builtConfig made
  obtain ⟨⟨first, port⟩, middle, tcp, udp⟩ := bindSource added
  refine ⟨first, port, middle, tcp, ?_⟩
  cases http3 with
  | false =>
    cases Except.ok.inj udp
    exact .inl ⟨rfl, rfl, rfl⟩
  | true => exact .inr ⟨rfl, udp⟩

theorem tcpPlaced {port : UInt16} (added : addTcpHost os config host listeners w = .ok ((out, port), after)) :
    ∃ own, Placed host ⟨.tcp, config.interface, own⟩ (hasTcpListener host.config) listeners out ∧
      (config.port ≠ 0 → own = config.port ∧ port = 0) ∧
      (config.port = 0 → if hasTcpListener host.config then port = own ∧ Reserved os.bindTcp os.localAddr own
        else port = 0) := by
  rcases tcpMerged added with ⟨unwanted, rfl, rfl, _⟩ | ⟨wanted, own, l, made, merged, given, chosen⟩
  · rw [unwanted]
    exact ⟨config.port, .skipped _, fun _ => ⟨rfl, rfl⟩, fun _ => rfl⟩
  · rw [wanted]
    exact ⟨own, made.key ▸ mergePlaced merged, given, chosen⟩

theorem udpPlaced {port : UInt16} (added : addUdpHost os config port host listeners w = .ok (out, after)) :
    ∃ own, Placed host ⟨.udp, config.interface, own⟩ (hasUdpListener host.config) listeners out ∧
      (port ≠ 0 → own = port) ∧ (port = 0 → config.port ≠ 0 → own = config.port) ∧
      (port = 0 → config.port = 0 → hasUdpListener host.config = true → Reserved os.bindUdp os.localAddr own) := by
  rcases udpMerged added with ⟨unwanted, rfl, _⟩ | ⟨wanted, own, l, made, merged, handed, given, chosen⟩
  · rw [unwanted]
    refine ⟨if port = 0 then config.port else port, .skipped _, ?_, ?_, fun _ _ no => by contradiction⟩
    · intro given
      rw [if_neg given]
    · intro none _
      rw [if_pos none]
  · rw [wanted]
    exact ⟨own, made.key ▸ mergePlaced merged, handed, given, fun none zero _ => chosen none zero⟩

end

theorem addressPlaced {W : Type} {crates : Crates} {os : Os W} {http3 : Bool} {workers : Nat} {host : Host}
    {listeners out : List Listener} {bindAddress : IpAddr × UInt16} {w after : W}
    (added : addHostToAddress crates os http3 workers host listeners bindAddress w = .ok (out, after)) :
    ∃ tcp udp middle, Placed host ⟨.tcp, bindAddress.1, tcp⟩ (hasTcpListener host.config) listeners middle ∧
      Placed host ⟨.udp, bindAddress.1, udp⟩ (http3 && hasUdpListener host.config) middle out ∧
      (bindAddress.2 ≠ 0 → tcp = bindAddress.2 ∧ udp = bindAddress.2) ∧
      (bindAddress.2 = 0 → (hasTcpListener host.config = true → Reserved os.bindTcp os.localAddr tcp) ∧
        (http3 = true → hasUdpListener host.config = true →
          if hasTcpListener host.config = true ∧ tcp ≠ 0 then udp = tcp else Reserved os.bindUdp os.localAddr udp)) := by
  obtain ⟨first, port, middle, tcpAdded, rest⟩ := addressSource added
  obtain ⟨tcp, tcpPut, given, reserved⟩ := tcpPlaced tcpAdded
  rcases rest with ⟨rfl, rfl, _⟩ | ⟨rfl, udpAdded⟩
  · refine ⟨tcp, bindAddress.2, _, tcpPut, .skipped _, fun set => ⟨(given set).1, rfl⟩, ?_⟩
    intro zero
    refine ⟨?_, fun no => by contradiction⟩
    intro wanted
    have kept := reserved zero
    rw [if_pos wanted] at kept
    exact kept.2
  · obtain ⟨udp, udpPut, handed, own, alone⟩ := udpPlaced udpAdded
    refine ⟨tcp, udp, first, tcpPut, udpPut, ?_, ?_⟩
    · intro set
      exact ⟨(given set).1, own (given set).2 set⟩
    · intro zero
      have kept := reserved zero
      cases wanted : hasTcpListener host.config with
      | false =>
        rw [if_neg (by simp [wanted])] at kept
        refine ⟨fun no => by contradiction, fun _ also => ?_⟩
        rw [if_neg (by simp)]
        exact alone kept zero also
      | true =>
        rw [if_pos wanted] at kept
        refine ⟨fun _ => kept.2, fun _ also => ?_⟩
        split
        · rename_i paired
          exact (handed (kept.1 ▸ paired.2)).trans kept.1
        · rename_i lost
          have none : port = 0 := by
            by_contra some
            exact lost ⟨rfl, kept.1 ▸ some⟩
          exact alone none zero also

end VetisTokio.AddHost
