import VetisTokio.HostKeys

/-! The resolver of server names against the table of hosts it is made from. What is
relied on of rustls and of the iteration over a table is stated first. -/
namespace VetisTokio.SniTable
open HttpData ConfigData HostModel ServiceHttp TlsFactory DispatcherModel ListenerModel HostKeys

/- `from_der` keeps the chain and the key, `add` stores under the lower-cased name or fails. -/
structure RustlsAdds (rustls : RustlsCrate) : Prop where
  certified : ∀ chain key certified, rustls.certifiedKey chain key = .ok certified → certified = ⟨chain, key⟩
  name : ∀ hostname certified name, rustls.serverName hostname certified = .ok name → name = toLowercase hostname

def GoesThrough (order : HashOrder) : Prop :=
  ∀ table : VetisHosts Host, (order.hosts table).Perm (table.entries.map (fun entry => (entry.1, entry.2)))

def Certified (rustls : RustlsCrate) (host : Host) (certified : CertifiedKey) : Prop :=
  ∃ tls key, host.tls = some tls ∧ rustls.privateKeyDer tls.key = some key ∧
    certified = ⟨tls.cert :: tls.ca.toList, key⟩

structure Agrees (rustls : RustlsCrate) (hosts : List Host) (table : VetisHosts Host) (resolver : Resolver) : Prop where
  maps : ∀ name certified, resolver.lookup name = some certified ↔
    ∃ host ∈ hosts, toLowercase host.hostname = name ∧ Certified rustls host certified
  secured : ∀ host ∈ hosts, host.tls.isSome = true → toLowercase host.hostname ∈ resolver
  recovered : ∀ key host, table.lookup key = some host → sniHostname key = host.hostname

section
variable {rustls : RustlsCrate}

def storedName (entry : String × Host) : String := toLowercase (sniHostname entry.1)

theorem certifiedUnique {host : Host} {one other : CertifiedKey} (first : Certified rustls host one)
    (second : Certified rustls host other) : one = other := by
  obtain ⟨tls, key, has, parsed, rfl⟩ := first
  obtain ⟨again, more, same, reparsed, rfl⟩ := second
  cases Option.some.inj (has.symm.trans same)
  cases Option.some.inj (parsed.symm.trans reparsed)
  rfl

theorem chainOf (tls : Tls) : chain tls = tls.cert :: tls.ca.toList := by
  unfold chain
  cases tls.ca <;> rfl

theorem certifiedKeySource (adds : RustlsAdds rustls) {host : Host} {tls : Tls} {certified : CertifiedKey}
    (has : host.tls = some tls) (made : certifiedKey rustls tls = .ok certified) : Certified rustls host certified := by
  unfold certifiedKey at made
  split at made <;> try contradiction
  rename_i key parsed
  split at made <;> try contradiction
  rename_i built
  cases Except.ok.inj made
  exact ⟨tls, key, has, parsed, chainOf tls ▸ adds.certified _ _ _ built⟩

theorem addHostSource (adds : RustlsAdds rustls) {made out : Resolver × List Bytes} {entry : String × Host}
    (added : TlsFactory.addHost rustls made entry = .ok out) : (entry.2.tls = none ∧ out.1 = made.1) ∨
      ∃ certified, Certified rustls entry.2 certified ∧ out.1 = made.1.insert (storedName entry) certified := by
  unfold TlsFactory.addHost at added
  split at added
  · rename_i without
    cases Except.ok.inj added
    exact .inl ⟨without, rfl⟩
  · rename_i tls has
    obtain ⟨certified, built, added⟩ := bindOkIff.mp added
    split at added <;> try contradiction
    rename_i name stored
    cases Except.ok.inj added
    exact .inr ⟨certified, certifiedKeySource adds has built, by rw [adds.name _ _ _ stored, storedName]⟩

theorem foldSound (adds : RustlsAdds rustls) {entries : List (String × Host)} {made out : Resolver × List Bytes}
    (folded : entries.foldlM (TlsFactory.addHost rustls) made = .ok out) {name : String} {certified : CertifiedKey}
    (found : out.1.lookup name = some certified) : made.1.lookup name = some certified ∨
      ∃ entry ∈ entries, storedName entry = name ∧ Certified rustls entry.2 certified := by
  induction entries generalizing made with
  | nil =>
    cases Except.ok.inj folded
    exact .inl found
  | cons entry rest ih =>
    rw [List.foldlM_cons] at folded
    obtain ⟨next, added, later⟩ := bindOkIff.mp folded
    rcases ih later with before | ⟨other, member, given⟩
    · rcases addHostSource adds added with ⟨_, same⟩ | ⟨own, certifies, same⟩
      · exact .inl (same ▸ before)
      · rw [same] at before
        rcases eq_or_ne name (storedName entry) with rfl | different
        · rw [AList.lookup_insert] at before
          exact .inr ⟨entry, List.mem_cons_self, rfl, Option.some.inj before ▸ certifies⟩
        · rw [AList.lookup_insert_ne different] at before
          exact .inl before
    · exact .inr ⟨other, List.mem_cons_of_mem _ member, given⟩

theorem foldComplete (adds : RustlsAdds rustls) {entries : List (String × Host)} {made out : Resolver × List Bytes}
    (folded : entries.foldlM (TlsFactory.addHost rustls) made = .ok out) :
    (∀ name ∈ made.1, name ∈ out.1) ∧ ∀ entry ∈ entries, entry.2.tls.isSome = true → storedName entry ∈ out.1 := by
  induction entries generalizing made with
  | nil =>
    cases Except.ok.inj folded
    exact ⟨fun _ member => member, by simp⟩
  | cons entry rest ih =>
    rw [List.foldlM_cons] at folded
    obtain ⟨next, added, later⟩ := bindOkIff.mp folded
    obtain ⟨kept, stored⟩ := ih later
    have step := addHostSource adds added
    refine ⟨?_, ?_⟩
    · intro name member
      refine kept name ?_
      rcases step with ⟨_, same⟩ | ⟨own, _, same⟩
      · exact same ▸ member
      · rw [same, AList.mem_insert]
        exact .inr member
    · intro other member has
      rcases List.mem_cons.mp member with rfl | inside
      · rcases step with ⟨without, _⟩ | ⟨own, _, same⟩
        · simp [without] at has
        · refine kept _ ?_
          rw [same, AList.mem_insert]
          exact .inl rfl
      · exact stored other inside has

theorem createSource {order : HashOrder} {table : VetisHosts Host} {config : TlsServerConfig}
    (made : createTlsConfig rustls order table = .ok config) :
    ∃ out, (order.hosts table).foldlM (TlsFactory.addHost rustls) (∅, []) = .ok out ∧ config.resolver = out.1 ∧
      config.alpnProtocols = order.alpns out.2 := by
  obtain ⟨out, folded, made⟩ := bindOkIff.mp made
  split at made <;> try contradiction
  cases Except.ok.inj made
  exact ⟨out, folded, rfl, rfl⟩

end

section
variable {D : Type} {bare : List UInt16} {config : ListenerConfig} {hosts : List Host}

def NamesApart (hosts : List Host) : Prop :=
  hosts.Pairwise (fun host other => toLowercase host.hostname ≠ toLowercase other.hostname)

theorem sameHost (apart : NamesApart hosts) {host other : Host} (member : host ∈ hosts) (inside : other ∈ hosts)
    (same : toLowercase host.hostname = toLowercase other.hostname) : host = other := by
  have symmetric : Std.Symm (fun host other : Host => toLowercase host.hostname ≠ toLowercase other.hostname) :=
    ⟨fun _ _ different => different.symm⟩
  by_contra different
  exact apart.forall member inside different same

theorem filledRecovered (dns : ∀ host ∈ hosts, DnsName host.hostname) {key : String} {host : Host}
    (found : (filled bare config hosts : PortListener D).hosts.lookup key = some host) :
    host ∈ hosts ∧ sniHostname key = host.hostname := by
  obtain ⟨member, rfl⟩ := filledSource found
  exact ⟨member, sniOfKey bare config.port (dnsNoColon (dns host member))⟩

theorem filledMember (dns : ∀ host ∈ hosts, DnsName host.hostname) (apart : NamesApart hosts) {host : Host}
    (member : host ∈ hosts) : (filled bare config hosts : PortListener D).hosts.lookup
      (hostKey bare config.port host.hostname) = some host := by
  have own := sniOfKey bare config.port (dnsNoColon (dns host member))
  cases found : (filled bare config hosts : PortListener D).hosts.lookup (hostKey bare config.port host.hostname) with
  | none =>
    rw [filledLookup, List.find?_eq_none] at found
    exact absurd (beq_self_eq_true _) (found host (List.mem_reverse.mpr member))
  | some other =>
    obtain ⟨inside, recovered⟩ := filledRecovered dns found
    rw [sameHost apart member inside (congrArg toLowercase (own.symm.trans recovered))]

theorem entryIff {order : HashOrder} (through : GoesThrough order) {table : VetisHosts Host} {entry : String × Host} :
    entry ∈ order.hosts table ↔ table.lookup entry.1 = some entry.2 := by
  rw [(through table).mem_iff, List.mem_map, ← Option.mem_def, AList.mem_lookup_iff]
  constructor
  · rintro ⟨pair, member, rfl⟩
    exact member
  · intro member
    exact ⟨_, member, rfl⟩

theorem filledAgrees {rustls : RustlsCrate} {order : HashOrder} (adds : RustlsAdds rustls) (through : GoesThrough order)
    (dns : ∀ host ∈ hosts, DnsName host.hostname) (apart : NamesApart hosts) {tls : TlsServerConfig}
    (made : createTlsConfig rustls order (filled bare config hosts : PortListener D).hosts = .ok tls) :
    Agrees rustls hosts (filled bare config hosts : PortListener D).hosts tls.resolver := by
  obtain ⟨out, folded, same, _⟩ := createSource made
  rw [same]
  have entries : ∀ host ∈ hosts, ∃ entry ∈ order.hosts (filled bare config hosts : PortListener D).hosts,
      entry.2 = host ∧ storedName entry = toLowercase host.hostname := by
    intro host member
    refine ⟨(hostKey bare config.port host.hostname, host), ?_, rfl, ?_⟩
    · exact (entryIff through).mpr (filledMember dns apart member)
    · rw [storedName, sniOfKey bare config.port (dnsNoColon (dns host member))]
  have secured : ∀ host ∈ hosts, host.tls.isSome = true → toLowercase host.hostname ∈ out.1 := by
    intro host member has
    obtain ⟨entry, inside, rfl, stored⟩ := entries host member
    exact stored ▸ (foldComplete adds folded).2 entry inside has
  have sound : ∀ name certified, out.1.lookup name = some certified →
      ∃ host ∈ hosts, toLowercase host.hostname = name ∧ Certified rustls host certified := by
    intro name certified found
    rcases foldSound adds folded found with before | ⟨entry, inside, stored, certifies⟩
    · simp at before
    · obtain ⟨member, recovered⟩ := filledRecovered dns ((entryIff through).mp inside)
      exact ⟨entry.2, member, by rw [← stored, storedName, recovered], certifies⟩
  refine ⟨?_, secured, fun key host found => (filledRecovered dns found).2⟩
  intro name certified
  refine ⟨sound name certified, ?_⟩
  rintro ⟨host, member, rfl, certifies⟩
  have has : host.tls.isSome = true := by
    obtain ⟨own, _, same, _⟩ := certifies
    simp [same]
  obtain ⟨other, found⟩ := Option.isSome_iff_exists.mp (AList.lookup_isSome.mpr (secured host member has))
  obtain ⟨another, inside, lowered, proves⟩ := sound _ _ found
  cases sameHost apart inside member lowered
  rw [found, certifiedUnique proves certifies]

end

theorem sniAgrees {rustls : RustlsCrate} {order : HashOrder} (adds : RustlsAdds rustls) (through : GoesThrough order)
    {hosts : List Host} (dns : ∀ host ∈ hosts, DnsName host.hostname) (apart : NamesApart hosts)
    (config : ListenerConfig) :
    (∀ l tls, hosts.foldlM TcpListener.addHost (TcpListener.new config) = .ok l →
      createTlsConfig rustls order l.hosts = .ok tls → Agrees rustls hosts l.hosts tls.resolver) ∧
    (∀ l tls, hosts.foldlM UdpListener.addHost (UdpListener.new config) = .ok l →
      createTlsConfig rustls order l.hosts = .ok tls → Agrees rustls hosts l.hosts tls.resolver) := by
  refine ⟨?_, ?_⟩
  · intro l tls added made
    rw [tcpFilled added] at made ⊢
    exact filledAgrees adds through dns apart made
  · intro l tls added made
    rw [udpFilled added] at made ⊢
    exact filledAgrees adds through dns apart made

theorem sampleAdds : RustlsAdds sampleCrates.rustls := by
  refine ⟨?_, ?_⟩
  · intro chain key certified built
    exact (Except.ok.inj built).symm
  · intro hostname certified name stored
    exact (Except.ok.inj stored).symm

theorem sampleThrough : GoesThrough sampleCrates.order := fun _ => List.Perm.refl _

def tlsHost (hostname : String) (tls : Option Tls) : Host :=
  ⟨{ hostname := hostname, bindAddresses := [(.v4 0, 8443)], protos := [.http2] }, ∅, tls⟩

def twoTlsHosts : List Host := [tlsHost "WWW.example" (some ⟨[1], [2], some [3], []⟩), tlsHost "example" none]

theorem twoHostsAgree : ∃ tls, createTlsConfig sampleCrates.rustls sampleCrates.order
    (filled TcpListener.bare ⟨.v4 0, 8443, 1⟩ twoTlsHosts : TcpListener).hosts = .ok tls ∧
      Agrees sampleCrates.rustls twoTlsHosts (filled TcpListener.bare ⟨.v4 0, 8443, 1⟩ twoTlsHosts : TcpListener).hosts
        tls.resolver := by
  have dns : ∀ host ∈ twoTlsHosts, DnsName host.hostname := by
    intro host member
    simp only [twoTlsHosts, List.mem_cons, List.not_mem_nil, or_false] at member
    rcases member with rfl | rfl
    · decide
    · decide
  have apart : NamesApart twoTlsHosts := by
    simp only [NamesApart, twoTlsHosts, List.pairwise_pair]
    decide
  exact ⟨_, rfl, (sniAgrees sampleAdds sampleThrough dns apart ⟨.v4 0, 8443, 1⟩).1 _ _ rfl rfl⟩

end VetisTokio.SniTable
