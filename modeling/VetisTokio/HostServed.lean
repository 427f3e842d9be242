import VetisTokio.BuilderConfig

/-! Whether a host that is accepted can be reached: for each of its addresses there is
a listener whose table has it. Where no listener speaks any of its protocols, the call
returns all the same. -/
namespace VetisTokio.HostServed
open HttpData ConfigData HostModel TlsFactory DispatcherModel ListenerModel Rt KeyedCells Assembly AddHost BuilderConfig

variable {W : Type}

def Speaks (http3 : Bool) (config : HostConfig) : Prop :=
  hasTcpListener config = true ∨ http3 = true ∧ hasUdpListener config = true

/- A listener of the address: on its port, or on one that a socket was given where it names none. -/
structure KeyFor (os : Os W) (bindAddress : IpAddr × UInt16) (key : Key) : Prop where
  interface : key.interface = bindAddress.1
  given : bindAddress.2 ≠ 0 → key.port = bindAddress.2
  chosen : bindAddress.2 = 0 → Reserved os.bindTcp os.localAddr key.port ∨ Reserved os.bindUdp os.localAddr key.port

/- The table has the host under its name, or has one of the others of that name in its place. -/
def Holds (host : Host) (others : List HostConfig) (l : Listener) : Prop :=
  ∃ found, l.hosts.lookup (tableKey (listenerKey l) host) = some found ∧
    (found = host ∨ found.config ∈ others ∧ found.hostname = host.hostname)

def HeldAt (os : Os W) (host : Host) (others : List HostConfig) (bindAddress : IpAddr × UInt16)
    (listeners : List Listener) : Prop :=
  ∃ key, KeyFor os bindAddress key ∧ Has listenerKey (Holds host others) listeners key

def Served (os : Os W) (host : Host) (others : List HostConfig) (listeners : List Listener) : Prop :=
  ∀ bindAddress ∈ host.config.bindAddresses, HeldAt os host others bindAddress listeners

inductive Reached (crates : Crates) (os : Os W) (http3 : Bool) : VetisBuilder → Prop where
  | builder (default : ServerConfig) : Reached crates os http3 (Vetis.builder default)
  | config (b : VetisBuilder) (config : ServerConfig) : Reached crates os http3 b →
      Reached crates os http3 (b.setConfig config)
  | addHost (b made : VetisBuilder) (host : Host) (w after : W) : Reached crates os http3 b →
      b.addHost crates os http3 host w = .ok (made, after) → Reached crates os http3 made

section
variable {crates : Crates} {os : Os W} {fs : FileSystem} {http3 : Bool} {workers : Nat} {host other : Host}
  {others : List HostConfig} {listeners earlier later out : List Listener} {bindAddress : IpAddr × UInt16} {w after : W}

def Tabled (wanted : Host → Prop) (l : Listener) : Prop := ∀ name host, l.hosts.lookup name = some host → wanted host

def AllSpeak (http3 : Bool) (listeners : List Listener) : Prop :=
  ∀ l ∈ listeners, Tabled (fun host => Speaks http3 host.config) l

theorem withHostTabled {wanted : Host → Prop} (own : wanted host) {l : Listener} (tabled : Tabled wanted l) :
    Tabled wanted (withHost host l) := by
  intro name found there
  rw [withHostLookup] at there
  by_cases same : name = tableKey (listenerKey l) host
  · rw [same, Function.update_self] at there
    exact Option.some.inj there ▸ own
  · rw [Function.update_of_ne same] at there
    exact tabled name found there

theorem mergeSpeaks {kind : Kind} {config : ListenerConfig} {port : UInt16} {l : Listener}
    (made : MadeFor kind config port l) (merged : mergeHost host l listeners = .ok out)
    (own : Speaks http3 host.config) (all : AllSpeak http3 listeners) : AllSpeak http3 out := by
  rw [mergeUpsert] at merged
  cases Except.ok.inj merged
  refine upsertForall (fun l => withHostTabled own) ?_ all
  intro name found there
  simp [made.empty] at there

theorem addressSpeaks (added : addHostToAddress crates os http3 workers host listeners bindAddress w = .ok (out, after))
    (all : AllSpeak http3 listeners) : AllSpeak http3 out := by
  obtain ⟨first, port, middle, tcp, rest⟩ := addressSource added
  have half : AllSpeak http3 first := by
    rcases tcpMerged tcp with ⟨_, rfl, _, _⟩ | ⟨wanted, own, l, made, merged, _, _⟩
    · exact all
    · exact mergeSpeaks made merged (.inl wanted) all
  rcases rest with ⟨_, rfl, _⟩ | ⟨given, udp⟩
  · exact half
  · rcases udpMerged udp with ⟨_, rfl, _⟩ | ⟨wanted, own, l, made, merged, _, _, _⟩
    · exact half
    · exact mergeSpeaks made merged (.inr ⟨given, wanted⟩) half

theorem hostSpeaks (added : addHostToListeners crates os http3 workers host listeners w = .ok (out, after))
    (all : AllSpeak http3 listeners) : AllSpeak http3 out := by
  refine foldKeeps ?_ added all
  exact fun bindAddress _ listeners w out after => addressSpeaks

theorem configsSpeak {configs : List HostConfig}
    (added : configs.foldlM (addHostConfig crates os fs http3 workers) listeners w = .ok (out, after))
    (all : AllSpeak http3 listeners) : AllSpeak http3 out := by
  refine foldKeeps ?_ added all
  intro config _ listeners w out after call
  obtain ⟨host, middle, _, added⟩ := bindSource call
  exact hostSpeaks added

theorem reachedSpeaks {b : VetisBuilder} (reached : Reached crates os http3 b) : AllSpeak http3 b.listeners := by
  induction reached with
  | builder default => simp [AllSpeak, Vetis.builder]
  | config b config _ ih => exact ih
  | addHost b made host w after _ call ih =>
    obtain ⟨listeners, later, added, done⟩ := bindSource call
    cases Except.ok.inj done
    exact hostSpeaks added ih

theorem speaksOfServed (all : AllSpeak http3 listeners) (addressed : host.config.bindAddresses ≠ [])
    (served : Served os host [] listeners) : Speaks http3 host.config := by
  obtain ⟨bindAddress, member⟩ := List.exists_mem_of_ne_nil _ addressed
  obtain ⟨key, _, l, inside, _, found, there, rfl | ⟨nobody, _⟩⟩ := served bindAddress member
  · exact all l inside _ found there
  · contradiction

theorem sameHostname {key : Key} (same : tableKey key host = tableKey key other) : host.hostname = other.hostname := by
  unfold tableKey at same
  split at same
  · exact same
  · have chars := congrArg String.toList same
    simp only [String.toList_append, List.append_assoc] at chars
    exact String.toList_inj.mp (List.append_cancel_right chars)

theorem withHostHolds (l : Listener) : Holds host others (withHost host l) := by
  refine ⟨host, ?_, .inl rfl⟩
  rw [withHostKey, withHostLookup, Function.update_self]

theorem withOtherHolds (known : other = host ∨ other.config ∈ others) {l : Listener} (holds : Holds host others l) :
    Holds host others (withHost other l) := by
  obtain ⟨found, there, own⟩ := holds
  rw [Holds, withHostKey]
  simp only [withHostLookup]
  by_cases same : tableKey (listenerKey l) host = tableKey (listenerKey l) other
  · refine ⟨other, by rw [same, Function.update_self], ?_⟩
    exact known.imp_right fun member => ⟨member, (sameHostname same).symm⟩
  · exact ⟨found, by rw [Function.update_of_ne same, there], own⟩

theorem placedHolds {key own : Key} {wanted : Bool} (placed : Placed other own wanted earlier later)
    (known : other = host ∨ other.config ∈ others) (has : Has listenerKey (Holds host others) earlier key) :
    Has listenerKey (Holds host others) later key := by
  cases placed with
  | skipped => exact has
  | put base _ keyed =>
    have stays : ∀ l, Holds host others l → Holds host others (withHost other l) := fun l => withOtherHolds known
    exact upsertKeepsHas (withHostKey other) stays has

theorem placedMakes {key : Key} (placed : Placed host key true earlier later) :
    Has listenerKey (Holds host others) later key := by
  cases placed with
  | put base _ keyed => exact (upsertHas (withHostKey host) keyed withHostHolds key).mpr (.inr rfl)

theorem addressHolds (known : other = host ∨ other.config ∈ others)
    (added : addHostToAddress crates os http3 workers other earlier bindAddress w = .ok (later, after)) {key : Key}
    (has : Has listenerKey (Holds host others) earlier key) : Has listenerKey (Holds host others) later key := by
  obtain ⟨_, _, middle, tcpPut, udpPut, _⟩ := addressPlaced added
  exact placedHolds udpPut known (placedHolds tcpPut known has)

theorem addressMakes (speaks : Speaks http3 host.config)
    (added : addHostToAddress crates os http3 workers host earlier bindAddress w = .ok (later, after)) :
    HeldAt os host others bindAddress later := by
  obtain ⟨tcp, udp, middle, tcpPut, udpPut, given, chosen⟩ := addressPlaced added
  cases wanted : hasTcpListener host.config with
  | true =>
    rw [wanted] at tcpPut
    refine ⟨⟨.tcp, bindAddress.1, tcp⟩, ⟨rfl, fun set => (given set).1, ?_⟩, ?_⟩
    · exact fun zero => .inl ((chosen zero).1 wanted)
    · exact placedHolds udpPut (.inl rfl) (placedMakes tcpPut)
  | false =>
    obtain ⟨also, spoken⟩ := speaks.resolve_left (by simp [wanted])
    rw [also, spoken] at udpPut
    refine ⟨⟨.udp, bindAddress.1, udp⟩, ⟨rfl, fun set => (given set).2, ?_⟩, placedMakes udpPut⟩
    intro zero
    refine .inr ?_
    have alone := (chosen zero).2 also spoken
    rwa [if_neg (by simp [wanted])] at alone

theorem heldKept {more : List (IpAddr × UInt16)} (known : other = host ∨ other.config ∈ others)
    (added : more.foldlM (addHostToAddress crates os http3 workers other) listeners w = .ok (out, after))
    (held : HeldAt os host others bindAddress listeners) : HeldAt os host others bindAddress out := by
  obtain ⟨key, keyed, has⟩ := held
  refine ⟨key, keyed, foldKeeps (P := fun listeners => Has listenerKey (Holds host others) listeners key) ?_ added has⟩
  exact fun bindAddress _ listeners w out after call => addressHolds known call

theorem addressesMake {addresses : List (IpAddr × UInt16)} (speaks : Speaks http3 host.config)
    (added : addresses.foldlM (addHostToAddress crates os http3 workers host) listeners w = .ok (out, after)) :
    ∀ bindAddress ∈ addresses, HeldAt os host others bindAddress out := by
  induction addresses generalizing listeners w with
  | nil => simp
  | cons bindAddress rest ih =>
    rw [List.foldlM_cons] at added
    obtain ⟨middle, last, first, added⟩ := bindSource added
    rw [List.forall_mem_cons]
    exact ⟨heldKept (.inl rfl) added (addressMakes speaks first), ih added⟩

theorem servedOfSpeaks (speaks : Speaks http3 host.config)
    (added : addHostToListeners crates os http3 workers host listeners w = .ok (out, after)) :
    Served os host others out := addressesMake speaks added

theorem servedKept {behind : List HostConfig}
    (added : behind.foldlM (addHostConfig crates os fs http3 workers) listeners w = .ok (out, after))
    (served : Served os host behind listeners) : Served os host behind out := by
  refine foldKeeps (P := Served os host behind) ?_ added served
  intro config member listeners w out after call before bindAddress address
  obtain ⟨other, middle, made, added⟩ := bindSource call
  have known : other.config ∈ behind := newConfig (liftSource made).1 ▸ member
  exact heldKept (.inr known) added (before bindAddress address)

theorem servedAlone (named : ∀ config ∈ others, config.hostname ≠ host.hostname)
    (served : Served os host others listeners) : Served os host [] listeners := by
  intro bindAddress member
  obtain ⟨key, keyed, l, inside, own, found, there, same⟩ := served bindAddress member
  refine ⟨key, keyed, l, inside, own, found, there, .inl ?_⟩
  rcases same with same | ⟨config, name⟩
  · exact same
  · exact absurd name (named _ config)

end

theorem servedIff (crates : Crates) (os : Os W) (fs : FileSystem) (http3 : Bool) :
    (∀ b, Reached crates os http3 b → ∀ host w made after, host.config.bindAddresses ≠ [] →
      b.addHost crates os http3 host w = .ok (made, after) →
        (Served os host [] made.listeners ↔ Speaks http3 host.config)) ∧
    ∀ config w vetis after, Vetis.fromConfig crates os fs http3 config w = .ok (vetis, after) →
      ∀ before own behind, config.hosts = before ++ own :: behind → own.bindAddresses ≠ [] →
        ∃ host, Host.new crates.vetis fs own = .ok host ∧
          (Served os host [] vetis.listeners → Speaks http3 own) ∧
          (Speaks http3 own → Served os host behind vetis.listeners) ∧
          ((∀ other ∈ behind, other.hostname ≠ own.hostname) →
            (Served os host [] vetis.listeners ↔ Speaks http3 own)) := by
  constructor
  · intro b reached host w made after addressed call
    have all := reachedSpeaks (.addHost b made host w after reached call)
    obtain ⟨listeners, later, added, done⟩ := bindSource call
    cases Except.ok.inj done
    exact ⟨speaksOfServed all addressed, fun speaks => servedOfSpeaks speaks added⟩
  · intro config w vetis after call before own behind split addressed
    obtain ⟨listeners, last, added, done⟩ := bindSource call
    cases Except.ok.inj done
    have all : AllSpeak http3 listeners := configsSpeak added (by simp [AllSpeak])
    rw [split, List.foldlM_append] at added
    obtain ⟨earlier, first, _, added⟩ := bindSource added
    rw [List.foldlM_cons] at added
    obtain ⟨later, second, here, added⟩ := bindSource added
    obtain ⟨host, middle, made, call⟩ := bindSource here
    have loaded := (liftSource made).1
    have same : host.config = own := newConfig loaded
    have speaks : Served os host [] listeners → Speaks http3 own := by
      intro served
      exact same ▸ speaksOfServed all (same ▸ addressed) served
    have served : Speaks http3 own → Served os host behind listeners := by
      intro speaks
      exact servedKept added (servedOfSpeaks (same ▸ speaks) call)
    refine ⟨host, loaded, speaks, served, ?_⟩
    intro named
    refine ⟨speaks, fun own => servedAlone ?_ (served own)⟩
    intro config member
    rw [Host.hostname, same]
    exact named config member

theorem plainServed : ∃ made after vetis last host,
    (Vetis.builder ⟨[], 1⟩).addHost sampleCrates sampleOs false (plainHost "localhost") 0 = .ok (made, after) ∧
      Served sampleOs (plainHost "localhost") [] made.listeners ∧
      Vetis.fromConfig sampleCrates sampleOs bareFiles false plainConfig 0 = .ok (vetis, last) ∧
      Host.new sampleCrates.vetis bareFiles (plainHost "localhost").config = .ok host ∧
      Served sampleOs host [] vetis.listeners := by
  have added : (Vetis.builder ⟨[], 1⟩).addHost sampleCrates sampleOs false (plainHost "localhost") 0 = .ok (_, _) := rfl
  have built : Vetis.fromConfig sampleCrates sampleOs bareFiles false plainConfig 0 = .ok (_, _) := rfl
  have speaks : Speaks false (plainHost "localhost").config := .inl (by decide)
  obtain ⟨first, second⟩ := servedIff sampleCrates sampleOs bareFiles false
  obtain ⟨host, loaded, _, _, alone⟩ := second _ _ _ _ built [] _ [] rfl (by decide)
  refine ⟨_, _, _, _, host, added, ?_, built, loaded, (alone (by simp)).mpr speaks⟩
  exact (first _ (.builder ⟨[], 1⟩) _ _ _ _ (by decide) added).mpr speaks

def http3Host : Host := { plainHost "localhost" with config := { (plainHost "localhost").config with protos := [.http3] } }

theorem http3HostDropped : ¬ ∀ (http3 : Bool) (host : Host) (made : VetisBuilder) (after : Nat),
    host.config.bindAddresses ≠ [] → host.config.protos ≠ [] →
      (Vetis.builder ⟨[], 1⟩).addHost sampleCrates sampleOs http3 host 0 = .ok (made, after) →
        Served sampleOs host [] made.listeners := by
  intro claim
  have added : (Vetis.builder ⟨[], 1⟩).addHost sampleCrates sampleOs false http3Host 0 = .ok (⟨⟨[], 1⟩, []⟩, 0) := rfl
  obtain ⟨key, _, l, nobody, _⟩ := claim false http3Host _ _ (by decide) (by decide) added _ List.mem_cons_self
  contradiction

end VetisTokio.HostServed
