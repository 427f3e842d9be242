import Mathlib.Data.List.Dedup
import VetisTokio.SniTable

/-! The list of ALPN protocols over two starts. A set of protocols is gone through in
an order of its own, and the order of the list that comes of it is what TLS prefers. -/
namespace VetisTokio.AlpnOrder
open HttpData ConfigData HostModel TlsFactory SniTable DispatcherModel

structure Iterates (order : HashOrder) : Prop where
  hosts : GoesThrough order
  alpns : ∀ set, (order.alpns set).Perm set.dedup

def selected (offer own : List Bytes) : Option Bytes := own.find? (fun protocol => offer.contains protocol)

def protocolsOf (made : VetisResult TlsServerConfig) : Option (List Bytes) :=
  made.toOption.map TlsServerConfig.alpnProtocols

structure Reproduced (rustls : RustlsCrate) (table : VetisHosts Host) (one other : HashOrder) : Prop where
  listed : protocolsOf (createTlsConfig rustls one table) = protocolsOf (createTlsConfig rustls other table)
  selects : ∀ offer, (protocolsOf (createTlsConfig rustls one table)).map (selected offer) =
    (protocolsOf (createTlsConfig rustls other table)).map (selected offer)

def Loads (rustls : RustlsCrate) (table : VetisHosts Host) : Prop :=
  rustls.protocolVersions = .ok () ∧ ∀ key host, table.lookup key = some host → Accepts rustls (key, host)

def Supports (host : Host) (protocol : Bytes) : Prop := ∃ tls, host.tls = some tls ∧ protocol ∈ tls.supportedAlpns

def OneProtocol (table : VetisHosts Host) : Prop :=
  ∀ key host protocol, table.lookup key = some host → Supports host protocol →
    ∀ another other second, table.lookup another = some other → Supports other second → protocol = second

section
variable {rustls : RustlsCrate} {order : HashOrder} {table : VetisHosts Host}
  {entries : List (String × Host)} {made out : Resolver × List Bytes} {entry : String × Host}

theorem addHostAlpns (added : TlsFactory.addHost rustls made entry = .ok out) (protocol : Bytes) :
    protocol ∈ out.2 ↔ protocol ∈ made.2 ∨ Supports entry.2 protocol := by
  unfold TlsFactory.addHost at added
  split at added
  · rename_i without
    cases Except.ok.inj added
    simp [Supports, without]
  · rename_i tls has
    obtain ⟨certified, _, added⟩ := bindOkIff.mp added
    split at added <;> try contradiction
    cases Except.ok.inj added
    simp [Supports, has]

theorem foldAlpns (folded : entries.foldlM (TlsFactory.addHost rustls) made = .ok out) (protocol : Bytes) :
    protocol ∈ out.2 ↔ protocol ∈ made.2 ∨ ∃ entry ∈ entries, Supports entry.2 protocol := by
  induction entries generalizing made with
  | nil =>
    cases Except.ok.inj folded
    simp
  | cons entry rest ih =>
    rw [List.foldlM_cons] at folded
    obtain ⟨next, added, later⟩ := bindOkIff.mp folded
    rw [ih later, addHostAlpns added, or_assoc, List.exists_mem_cons_iff]

theorem createdIff (iterates : Iterates order) :
    (∃ tls, createTlsConfig rustls order table = .ok tls) ↔ Loads rustls table := by
  have entered : (∀ entry ∈ order.hosts table, Accepts rustls entry) ↔
      ∀ key host, table.lookup key = some host → Accepts rustls (key, host) := by
    simp only [entryIff iterates.hosts, Prod.forall]
  rw [createdEach, LoadsEach, entered, Loads]

theorem createdAlpns (iterates : Iterates order) {tls : TlsServerConfig}
    (made : createTlsConfig rustls order table = .ok tls) : tls.alpnProtocols.Nodup ∧
      ∀ protocol, protocol ∈ tls.alpnProtocols ↔ ∃ key host, table.lookup key = some host ∧ Supports host protocol := by
  obtain ⟨out, folded, _, same⟩ := createSource made
  have listed := iterates.alpns out.2
  rw [same]
  refine ⟨listed.nodup_iff.mpr (List.nodup_dedup _), ?_⟩
  intro protocol
  rw [listed.mem_iff, List.mem_dedup, foldAlpns folded]
  simp only [List.not_mem_nil, false_or, Prod.exists, entryIff iterates.hosts]

theorem noneCreated (iterates : Iterates order) (failed : ¬ Loads rustls table) :
    protocolsOf (createTlsConfig rustls order table) = none := by
  cases result : createTlsConfig rustls order table with
  | error e => rfl
  | ok tls => exact absurd ((createdIff iterates).mp ⟨tls, result⟩) failed

end

section
variable {α : Type} {l other : List α}

theorem oneListed (nodup : l.Nodup) (one : ∀ p ∈ l, ∀ q ∈ l, p = q) : l = [] ∨ ∃ p, l = [p] := by
  cases l with
  | nil => exact .inl rfl
  | cons p rest =>
    cases rest with
    | nil => exact .inr ⟨p, rfl⟩
    | cons q rest =>
      have same := one p (by simp) q (by simp)
      simp [same] at nodup

theorem permOne (nodup : l.Nodup) (one : ∀ p ∈ l, ∀ q ∈ l, p = q) (perm : other.Perm l) : other = l := by
  rcases oneListed nodup one with rfl | ⟨p, rfl⟩
  · exact List.perm_nil.mp perm
  · exact List.perm_singleton.mp perm

theorem reverseOne (nodup : l.Nodup) (same : l.reverse = l) : ∀ p ∈ l, ∀ q ∈ l, p = q := by
  rcases List.eq_nil_or_concat l with rfl | ⟨before, last, rfl⟩
  · simp
  · cases before with
    | nil => simp
    | cons first rest =>
      simp only [List.concat_eq_append, List.reverse_append, List.reverse_cons, List.reverse_nil, List.nil_append,
        List.cons_append, List.cons.injEq] at same
      simp [same.1] at nodup

end

def forwards : HashOrder := ⟨fun hosts => hosts.entries.map (fun entry => (entry.1, entry.2)), fun set => set.dedup⟩

def backwards : HashOrder := { forwards with alpns := fun set => set.dedup.reverse }

theorem forwardsIterates : Iterates forwards := ⟨fun _ => List.Perm.refl _, fun _ => List.Perm.refl _⟩

theorem backwardsIterates : Iterates backwards := ⟨fun _ => List.Perm.refl _, fun _ => List.reverse_perm _⟩

theorem reproducedOf {rustls : RustlsCrate} {table : VetisHosts Host} {one other : HashOrder}
    (same : protocolsOf (createTlsConfig rustls one table) = protocolsOf (createTlsConfig rustls other table)) :
    Reproduced rustls table one other := by
  refine ⟨same, ?_⟩
  intro offer
  rw [same]

theorem reproducedIff (rustls : RustlsCrate) (table : VetisHosts Host) :
    (∀ one other, Iterates one → Iterates other → Reproduced rustls table one other) ↔
      (Loads rustls table → OneProtocol table) := by
  constructor
  · intro reproduced loads key host protocol found supports another other second place also
    obtain ⟨tls, made⟩ := (createdIff forwardsIterates).mpr loads
    obtain ⟨turned, remade⟩ := (createdIff backwardsIterates).mpr loads
    have same := (reproduced forwards backwards forwardsIterates backwardsIterates).listed
    rw [made, remade] at same
    obtain ⟨out, folded, _, listed⟩ := createSource made
    obtain ⟨again, refolded, _, relisted⟩ := createSource remade
    cases Except.ok.inj (folded.symm.trans refolded)
    have turns : out.2.dedup.reverse = out.2.dedup := by
      have lists : tls.alpnProtocols = turned.alpnProtocols := Option.some.inj same
      rw [listed, relisted] at lists
      exact lists.symm
    have inside := (createdAlpns forwardsIterates made).2
    rw [listed] at inside
    exact reverseOne (List.nodup_dedup out.2) turns protocol ((inside protocol).mpr ⟨key, host, found, supports⟩)
      second ((inside second).mpr ⟨another, other, place, also⟩)
  · intro alike one other first second
    refine reproducedOf ?_
    by_cases loads : Loads rustls table
    · obtain ⟨tls, made⟩ := (createdIff first).mpr loads
      obtain ⟨turned, remade⟩ := (createdIff second).mpr loads
      obtain ⟨nodup, members⟩ := createdAlpns first made
      obtain ⟨apart, others⟩ := createdAlpns second remade
      have perm := (List.perm_ext_iff_of_nodup nodup apart).mpr (fun p => (members p).trans (others p).symm)
      have single : ∀ p ∈ turned.alpnProtocols, ∀ q ∈ turned.alpnProtocols, p = q := by
        intro p here q there
        obtain ⟨key, host, found, supports⟩ := (others p).mp here
        obtain ⟨another, other, place, also⟩ := (others q).mp there
        exact alike loads key host p found supports another other q place also
      rw [made, remade]
      exact congrArg some (permOne apart single perm)
    · rw [noneCreated first loads, noneCreated second loads]

/- No line of this repository gives a certificate pair its protocols, and the fields of
`Tls` are the crate's own: every value comes from the constructor. -/
structure LeavesProtocols (crate : VetisCrate) (table : VetisHosts Host) : Prop where
  empty : ∀ cert key, (crate.tlsFromCertAndKey cert key).supportedAlpns = []
  constructed : ∀ name host tls, table.lookup name = some host → host.tls = some tls →
    ∃ cert key, tls = crate.tlsFromCertAndKey cert key

theorem preferenceReproduced {crate : VetisCrate} {rustls : RustlsCrate} {table : VetisHosts Host} {one other : HashOrder}
    (leaves : LeavesProtocols crate table) (first : Iterates one) (second : Iterates other) :
    Reproduced rustls table one other := by
  refine (reproducedIff rustls table).mpr ?_ one other first second
  intro _ name host protocol found supports
  obtain ⟨tls, own, listed⟩ := supports
  obtain ⟨cert, key, rfl⟩ := leaves.constructed name host tls found own
  rw [leaves.empty] at listed
  contradiction

def turned : HashOrder := ⟨fun hosts => (forwards.hosts hosts).reverse, fun set => set.dedup.reverse⟩

theorem turnedIterates : Iterates turned := ⟨fun _ => List.reverse_perm _, fun _ => List.reverse_perm _⟩

def pairHost (name : String) : Host := tlsHost name (some (sampleCrates.vetis.tlsFromCertAndKey [1] [2]))

def exampleTable : VetisHosts Host :=
  AList.insert "example:8443" (pairHost "example") (AList.insert "other:8443" (pairHost "other") ∅)

theorem exampleHosts {name : String} {host : Host} (found : exampleTable.lookup name = some host) :
    host.tls = some (sampleCrates.vetis.tlsFromCertAndKey [1] [2]) := by
  have member := AList.mem_lookup_iff.mp found
  rcases List.mem_pair.mp member with same | same <;> cases same <;> rfl

theorem exampleReproduced : Reproduced sampleCrates.rustls exampleTable forwards turned ∧
    Loads sampleCrates.rustls exampleTable := by
  have leaves : LeavesProtocols sampleCrates.vetis exampleTable := by
    refine ⟨fun _ _ => rfl, ?_⟩
    intro name host tls found own
    rw [exampleHosts found] at own
    exact ⟨[1], [2], (Option.some.inj own).symm⟩
  refine ⟨preferenceReproduced leaves forwardsIterates turnedIterates, rfl, ?_⟩
  intro name host found tls own
  rw [exampleHosts found] at own
  cases Option.some.inj own
  exact ⟨_, rfl, _, rfl⟩

end VetisTokio.AlpnOrder
