import Mathlib.Data.List.Induction
import VetisTokio.Library.KeyedCells
import VetisTokio.Rt

/-! The vector of listeners as a finite map from kind, interface and port to host
tables. `tables` says what the map is for a list of hosts, without reference to
the order in which listeners were pushed; adding hosts refines it. -/
namespace VetisTokio.Assembly
open HttpData ConfigData HostModel TlsFactory DispatcherModel ListenerModel Rt KeyedCells

inductive Kind where
  | tcp
  | udp
  deriving DecidableEq, Repr

structure Key where
  kind : Kind
  interface : IpAddr
  port : UInt16
  deriving DecidableEq, Repr

abbrev HostMap := Key → Option (String → Option Host)

def serves (http3 : Bool) (kind : Kind) (config : HostConfig) : Bool :=
  match kind with
  | .tcp => config.protos.contains .http11 || config.protos.contains .http2
  | .udp => http3 && config.protos.contains .http3

def registers (http3 : Bool) (key : Key) (host : Host) : Bool :=
  host.config.bindAddresses.contains (key.interface, key.port) && serves http3 key.kind host.config

def bareKey (key : Key) : Bool :=
  match key.kind with
  | .tcp => key.port == 80 || key.port == 443
  | .udp => key.port == 443

def tableKey (key : Key) (host : Host) : String :=
  if bareKey key then host.hostname else host.hostname ++ ":" ++ toString key.port

/- Under a name of a table stands the last of the hosts that have it there. -/
def tables (http3 : Bool) (hosts : List Host) : HostMap := fun key =>
  if hosts.any (registers http3 key) then
    some (fun name => hosts.reverse.find? (fun host => registers http3 key host && tableKey key host == name))
  else none

def listenerKey : Listener → Key
  | .tcp l => ⟨.tcp, l.config.interface, l.config.port⟩
  | .udp l => ⟨.udp, l.config.interface, l.config.port⟩

def represents (listeners : List Listener) : HostMap := fun key =>
  (view listenerKey listeners key).map (fun l name => l.hosts.lookup name)

def withHost (host : Host) : Listener → Listener
  | .tcp l => .tcp (l.insertHost TcpListener.bare host)
  | .udp l => .udp (l.insertHost UdpListener.bare host)

def freshListener (workers : Nat) (key : Key) : Listener :=
  match key.kind with
  | .tcp => .tcp (TcpListener.new ⟨key.interface, key.port, workers⟩)
  | .udp => .udp (UdpListener.new ⟨key.interface, key.port, workers⟩)

def keysAt (http3 : Bool) (config : HostConfig) (bindAddress : IpAddr × UInt16) : List Key :=
  (if hasTcpListener config then [⟨.tcp, bindAddress.1, bindAddress.2⟩] else []) ++
    (if http3 && hasUdpListener config then [⟨.udp, bindAddress.1, bindAddress.2⟩] else [])

def keysOf (http3 : Bool) (config : HostConfig) : List Key := config.bindAddresses.flatMap (keysAt http3 config)

theorem withHostKey (host : Host) (l : Listener) : listenerKey (withHost host l) = listenerKey l := by
  cases l <;> rfl

theorem freshKey (workers : Nat) (key : Key) : listenerKey (freshListener workers key) = key := by
  unfold freshListener
  rcases key with ⟨kind, interface, port⟩
  cases kind <;> rfl

theorem withHostAgain (host : Host) (l : Listener) : withHost host (withHost host l) = withHost host l := by
  cases l <;> simp [withHost, PortListener.insertHost, AList.insert_insert]

theorem hostTableKey {bare : List UInt16} {key : Key} (same : key.port ∈ bare ↔ bareKey key = true) (host : Host) :
    hostKey bare key.port host.hostname = tableKey key host := by
  unfold hostKey tableKey
  simp only [same]

theorem withHostHosts (host : Host) (l : Listener) :
    (withHost host l).hosts = l.hosts.insert (tableKey (listenerKey l) host) host := by
  cases l with
  | tcp l =>
    have same := @hostTableKey TcpListener.bare (listenerKey (.tcp l)) (by simp [bareKey, TcpListener.bare, listenerKey])
    exact congrArg (fun name => l.hosts.insert name host) (same host)
  | udp l =>
    have same := @hostTableKey UdpListener.bare (listenerKey (.udp l)) (by simp [bareKey, UdpListener.bare, listenerKey])
    exact congrArg (fun name => l.hosts.insert name host) (same host)

theorem withHostLookup (host : Host) (l : Listener) (name : String) : (withHost host l).hosts.lookup name =
    Function.update (fun name => l.hosts.lookup name) (tableKey (listenerKey l) host) (some host) name := by
  rw [withHostHosts]
  rcases eq_or_ne name (tableKey (listenerKey l) host) with rfl | other
  · rw [AList.lookup_insert, Function.update_self]
  · rw [AList.lookup_insert_ne other, Function.update_of_ne other]

theorem registersIff {http3 : Bool} {key : Key} {host : Host} :
    registers http3 key host = true ↔ key ∈ keysOf http3 host.config := by
  rcases key with ⟨kind, interface, port⟩
  cases kind <;> simp [registers, serves, keysOf, keysAt, hasTcpListener, hasUdpListener, List.mem_flatMap]

theorem eqKey (l other : Listener) : l.eq other = (listenerKey l == listenerKey other) := by
  rw [Bool.eq_iff_iff]
  cases l <;> cases other <;> simp [Listener.eq, PortListener.eq, listenerKey, and_comm]

theorem addHostWith (host : Host) (l : Listener) : l.addHost host = .ok (withHost host l) := by
  cases l <;> rfl

theorem mergeUpsert (host : Host) (listener : Listener) (listeners : List Listener) :
    mergeHost host listener listeners =
      .ok (upsert listenerKey (listenerKey listener) listener (withHost host) listeners) := by
  unfold mergeHost upsert
  simp only [eqKey]
  cases found : listeners.findIdx? (fun l => listenerKey l == listenerKey listener) with
  | none => simp [addHostWith, bind, Except.bind]
  | some index =>
    obtain ⟨inside, _⟩ := List.findIdx?_eq_some_iff_getElem.mp found
    simp [changeAt, List.getElem?_eq_getElem inside, addHostWith, bind, Except.bind, List.modify_eq_set_getElem?]

def PortsGiven (config : HostConfig) : Prop := ∀ bindAddress ∈ config.bindAddresses, bindAddress.2 ≠ 0

section
variable {W : Type} {crates : Crates} {os : Os W} {http3 : Bool} {workers : Nat} {host : Host}

theorem bindSource {α β : Type} {x : StateT W VetisResult α} {f : α → StateT W VetisResult β} {w : W} {out : β × W}
    (h : (x >>= f) w = .ok out) : ∃ a middle, x w = .ok (a, middle) ∧ f a middle = .ok out := by
  obtain ⟨⟨a, middle⟩, first, rest⟩ := bindOkIff.mp h
  exact ⟨a, middle, first, rest⟩

theorem liftSource {α : Type} {x : VetisResult α} {a : α} {w after : W}
    (h : (StateT.lift x : StateT W VetisResult α) w = .ok (a, after)) : x = .ok a ∧ after = w := by
  obtain ⟨b, given, same⟩ := bindOkIff.mp h
  cases Except.ok.inj same
  exact ⟨given, rfl⟩

theorem foldSource {S A : Type} {step : S → A → StateT W VetisResult S} {R : S × W → S × W → Prop}
    (stays : ∀ p, R p p) (joins : ∀ p q r, R p q → R q r → R p r) {calls : List A}
    (one : ∀ a ∈ calls, ∀ s w t v, step s a w = .ok (t, v) → R (s, w) (t, v)) {s t : S} {w v : W}
    (folded : calls.foldlM step s w = .ok (t, v)) : R (s, w) (t, v) := by
  induction calls generalizing s w with
  | nil =>
    cases Except.ok.inj folded
    exact stays _
  | cons a rest ih =>
    rw [List.foldlM_cons] at folded
    obtain ⟨next, middle, first, folded⟩ := bindSource folded
    have before := one a List.mem_cons_self s w next middle first
    exact joins _ _ _ before (ih (fun b member => one b (List.mem_cons_of_mem a member)) folded)

theorem foldKeeps {S A : Type} {step : S → A → StateT W VetisResult S} {P : S → Prop} {calls : List A}
    (one : ∀ a ∈ calls, ∀ s w t v, step s a w = .ok (t, v) → P s → P t) {s t : S} {w v : W}
    (folded : calls.foldlM step s w = .ok (t, v)) (before : P s) : P t := by
  refine foldSource (R := fun p q => P p.1 → P q.1) ?_ ?_ one folded before
  · exact fun p => id
  · exact fun p q r first second => second ∘ first

theorem foldSame {S A : Type} {step : S → A → StateT W VetisResult S} {calls : List A}
    (one : ∀ a ∈ calls, ∀ s w t v, step s a w = .ok (t, v) → t = s ∧ v = w) {s t : S} {w v : W}
    (folded : calls.foldlM step s w = .ok (t, v)) : t = s ∧ v = w := by
  refine foldSource (R := fun p q => q.1 = p.1 ∧ q.2 = p.2) ?_ ?_ one folded
  · exact fun p => ⟨rfl, rfl⟩
  · exact fun p q r first second => ⟨second.1.trans first.1, second.2.trans first.2⟩

theorem foldAll {S A : Type} {step : S → A → StateT W VetisResult S} {E : S → Prop} {P : A → Prop} {calls : List A}
    (one : ∀ a ∈ calls, ∀ s w t v, step s a w = .ok (t, v) → (E t ↔ E s ∧ P a)) {s t : S} {w v : W}
    (folded : calls.foldlM step s w = .ok (t, v)) : E t ↔ E s ∧ ∀ a ∈ calls, P a := by
  induction calls generalizing s w with
  | nil =>
    cases Except.ok.inj folded
    simp
  | cons a rest ih =>
    rw [List.foldlM_cons] at folded
    obtain ⟨next, middle, first, folded⟩ := bindSource folded
    rw [ih (fun b member => one b (List.mem_cons_of_mem a member)) folded,
      one a List.mem_cons_self s w next middle first, List.forall_mem_cons, and_assoc]

theorem tcpAdded {config : ListenerConfig} (given : config.port ≠ 0) (listeners : List Listener) (w : W) :
    addTcpHost os config host listeners w = .ok ((if hasTcpListener host.config then
      upsert listenerKey ⟨.tcp, config.interface, config.port⟩ (.tcp (TcpListener.new config)) (withHost host) listeners
      else listeners, 0), w) := by
  unfold addTcpHost
  split
  · have plain : ¬ (Listener.tcp (TcpListener.new config)).config.port = 0 := given
    simp only [if_neg plain, mergeUpsert]
    rfl
  · rfl

theorem udpAdded {config : ListenerConfig} (given : config.port ≠ 0) (listeners : List Listener) (w : W) :
    addUdpHost os config 0 host listeners w = .ok (if hasUdpListener host.config then
      upsert listenerKey ⟨.udp, config.interface, config.port⟩ (.udp (UdpListener.new config)) (withHost host) listeners
      else listeners, w) := by
  unfold addUdpHost
  split
  · have plain : ¬ ((0 : UInt16) = 0 ∧ (Listener.udp (UdpListener.new config)).config.port = 0) := fun both => given both.2
    have unassigned : ¬ ((0 : UInt16) > 0) := by decide
    rw [if_neg plain, if_neg unassigned]
    simp only [mergeUpsert]
    rfl
  · rfl

theorem addressAdded {listeners out : List Listener} {bindAddress : IpAddr × UInt16} {w after : W}
    (given : bindAddress.2 ≠ 0)
    (added : addHostToAddress crates os http3 workers host listeners bindAddress w = .ok (out, after)) :
    out = upsertAll listenerKey (freshListener workers) (withHost host) listeners
      (keysAt http3 host.config bindAddress) := by
  unfold addHostToAddress at added
  obtain ⟨config, middle, built, added⟩ := bindSource added
  cases builtConfig (liftSource built).1
  obtain ⟨⟨first, port⟩, later, tcp, added⟩ := bindSource added
  rw [tcpAdded given] at tcp
  cases Except.ok.inj tcp
  cases http3 with
  | false =>
    cases Except.ok.inj added
    cases has : hasTcpListener host.config <;> simp [keysAt, has, upsertAll, freshListener]
  | true =>
    simp only [if_true] at added
    rw [udpAdded given] at added
    cases Except.ok.inj added
    cases has : hasTcpListener host.config <;> cases also : hasUdpListener host.config <;>
      simp [keysAt, has, also, upsertAll, freshListener]

theorem addressesAdded {bindAddresses : List (IpAddr × UInt16)} {listeners out : List Listener} {w after : W}
    (given : ∀ bindAddress ∈ bindAddresses, bindAddress.2 ≠ 0)
    (added : bindAddresses.foldlM (addHostToAddress crates os http3 workers host) listeners w = .ok (out, after)) :
    out = upsertAll listenerKey (freshListener workers) (withHost host) listeners
      (bindAddresses.flatMap (keysAt http3 host.config)) := by
  induction bindAddresses generalizing listeners w with
  | nil =>
    cases Except.ok.inj added
    rfl
  | cons head rest ih =>
    rw [List.foldlM_cons] at added
    obtain ⟨middle, later, first, added⟩ := bindSource added
    have here := addressAdded (given head List.mem_cons_self) first
    rw [ih (fun other member => given other (List.mem_cons_of_mem _ member)) added, here, upsertAll, upsertAll,
      upsertAll, List.flatMap_cons, List.foldl_append]

theorem hostAdded {listeners out : List Listener} {w after : W} (given : PortsGiven host.config)
    (added : addHostToListeners crates os http3 workers host listeners w = .ok (out, after)) :
    out = upsertAll listenerKey (freshListener workers) (withHost host) listeners (keysOf http3 host.config) :=
  addressesAdded given added

end

section
variable {http3 : Bool} {workers : Nat} {host : Host} {listeners : List Listener}

theorem representsAdded (host : Host) (listeners : List Listener) (key : Key) :
    represents (upsertAll listenerKey (freshListener workers) (withHost host) listeners (keysOf http3 host.config)) key =
      if registers http3 key host then
        some (Function.update ((represents listeners key).getD (fun _ => none)) (tableKey key host) (some host))
      else represents listeners key := by
  unfold represents
  rw [viewUpsertAll (withHostKey host) (freshKey workers) (withHostAgain host)]
  by_cases member : key ∈ keysOf http3 host.config
  · rw [if_pos member, if_pos (registersIff.mpr member), Option.map_some]
    congr 1
    funext name
    rw [withHostLookup]
    cases found : view listenerKey listeners key with
    | none =>
      rw [Option.getD_none, freshKey]
      have empty : (fun name => (freshListener workers key).hosts.lookup name) = fun _ => none := by
        funext name
        rcases key with ⟨kind, interface, port⟩
        cases kind <;> rfl
      rw [empty]
      rfl
    | some l =>
      rw [Option.getD_some, (viewSource found).2]
      rfl
  · rw [if_neg member, if_neg (fun yes => member (registersIff.mp yes))]

theorem tablesMore (hosts : List Host) (host : Host) (key : Key) : tables http3 (hosts ++ [host]) key =
    if registers http3 key host then
      some (Function.update ((tables http3 hosts key).getD (fun _ => none)) (tableKey key host) (some host))
    else tables http3 hosts key := by
  unfold tables
  cases here : registers http3 key host with
  | false => simp [here]
  | true =>
    simp only [List.any_append, List.any_cons, here, Bool.true_or, Bool.or_true, if_true, List.reverse_append,
      List.reverse_cons, List.reverse_nil, List.nil_append, List.singleton_append]
    congr 1
    funext name
    rcases eq_or_ne name (tableKey key host) with rfl | other
    · simp [here]
    · have passed : (tableKey key host == name) = false := by simpa using other.symm
      rw [List.find?_cons_of_neg (by simp [passed]), Function.update_of_ne other]
      split
      · rfl
      · rename_i nobody
        rw [Option.getD_none, List.find?_eq_none]
        intro earlier member
        have known := List.any_eq_false.mp (Bool.not_eq_true _ ▸ nobody) earlier (List.mem_reverse.mp member)
        simp [known]

end

section
variable {W : Type} {crates : Crates} {os : Os W} {http3 : Bool} {workers : Nat} {hosts : List Host}
  {listeners out : List Listener} {w after : W}

def addHosts (crates : Crates) (os : Os W) (http3 : Bool) (workers : Nat) (hosts : List Host)
    (listeners : List Listener) : StateT W VetisResult (List Listener) :=
  hosts.foldlM (fun listeners host => addHostToListeners crates os http3 workers host listeners) listeners

theorem addHostsSnoc {host : Host} (added : addHosts crates os http3 workers (hosts ++ [host]) listeners w = .ok (out, after)) :
    ∃ middle later, addHosts crates os http3 workers hosts listeners w = .ok (middle, later) ∧
      addHostToListeners crates os http3 workers host middle later = .ok (out, after) := by
  rw [addHosts, List.foldlM_append] at added
  obtain ⟨middle, later, first, last⟩ := bindSource added
  rw [List.foldlM_cons] at last
  obtain ⟨same, stays, taken, done⟩ := bindSource last
  cases Except.ok.inj done
  exact ⟨middle, later, first, taken⟩

theorem addedMap (given : ∀ host ∈ hosts, PortsGiven host.config)
    (added : addHosts crates os http3 workers hosts [] w = .ok (out, after)) :
    Distinct listenerKey out ∧ represents out = tables http3 hosts := by
  induction hosts using List.reverseRecOn generalizing out after with
  | nil =>
    cases Except.ok.inj added
    exact ⟨List.nodup_nil, rfl⟩
  | append_singleton before host ih =>
    obtain ⟨middle, later, first, last⟩ := addHostsSnoc added
    obtain ⟨distinct, same⟩ := ih (fun other member => given other (List.mem_append_left _ member)) first
    rw [hostAdded (given host (by simp)) last]
    refine ⟨upsertAllDistinct (withHostKey host) (freshKey workers) _ distinct, ?_⟩
    funext key
    rw [representsAdded, tablesMore, same]

structure Extends (http3 : Bool) (host : Host) (earlier later : List Listener) : Prop where
  stays : earlier.map listenerKey <+: later.map listenerKey
  kept : ∀ (i : Nat) (l : Listener), earlier[i]? = some l → ∃ l', later[i]? = some l' ∧
    listenerKey l' = listenerKey l ∧ ∀ name, ¬ (registers http3 (listenerKey l) host = true ∧
      tableKey (listenerKey l) host = name) → l'.hosts.lookup name = l.hosts.lookup name

theorem viewPlace {cells : List Listener} (distinct : Distinct listenerKey cells) {i : Nat} {l : Listener}
    (place : cells[i]? = some l) : view listenerKey cells (listenerKey l) = some l :=
  viewOfMem distinct (List.mem_of_getElem? place)

theorem addedExtends {host : Host} {later : List Listener} (distinct : Distinct listenerKey listeners)
    (same : later = upsertAll listenerKey (freshListener workers) (withHost host) listeners (keysOf http3 host.config)) :
    Extends http3 host listeners later := by
  have stays : listeners.map listenerKey <+: later.map listenerKey :=
    same ▸ upsertAllPrefix (withHostKey host) (freshKey workers) _ listeners
  refine ⟨stays, ?_⟩
  intro i l place
  have keyed : (later.map listenerKey)[i]? = some (listenerKey l) := by
    obtain ⟨more, whole⟩ := stays
    have inside : i < (listeners.map listenerKey).length := by
      rw [List.length_map]
      exact (List.getElem?_eq_some_iff.mp place).1
    rw [← whole, List.getElem?_append_left inside, List.getElem?_map, place, Option.map_some]
  rw [List.getElem?_map, Option.map_eq_some_iff] at keyed
  obtain ⟨l', here, key⟩ := keyed
  refine ⟨l', here, key, ?_⟩
  intro name foreign
  have more : Distinct listenerKey later := same ▸ upsertAllDistinct (withHostKey host) (freshKey workers) _ distinct
  have table := congrFun (congrArg represents same) (listenerKey l)
  rw [representsAdded] at table
  simp only [represents, viewPlace distinct place] at table
  rw [← key, viewPlace more here, key] at table
  cases own : registers http3 (listenerKey l) host with
  | false =>
    simp only [own, Option.map_some, Bool.false_eq_true, if_false, Option.some.injEq] at table
    exact congrFun table name
  | true =>
    simp only [own, Option.map_some, if_true, Option.getD_some, Option.some.injEq] at table
    have other : name ≠ tableKey (listenerKey l) host := fun same => foreign ⟨own, same.symm⟩
    have entry := congrFun table name
    rwa [Function.update_of_ne other] at entry

def KeysApart (http3 : Bool) (host other : Host) : Prop :=
  ∀ key, registers http3 key host = true → registers http3 key other = true → tableKey key host ≠ tableKey key other

theorem findReordered {p : Host → Bool} {xs ys : List Host} (perm : xs.Perm ys)
    (alone : ∀ a ∈ xs, ∀ b ∈ xs, p a = true → p b = true → a = b) : xs.find? p = ys.find? p := by
  cases found : xs.find? p with
  | none =>
    rw [eq_comm, List.find?_eq_none]
    intro other member
    exact List.find?_eq_none.mp found other (perm.mem_iff.mpr member)
  | some a =>
    have member := List.mem_of_find?_eq_some found
    have hit := List.find?_some found
    cases other : ys.find? p with
    | none => exact absurd hit (List.find?_eq_none.mp other a (perm.mem_iff.mp member))
    | some b =>
      have inside := perm.mem_iff.mpr (List.mem_of_find?_eq_some other)
      rw [alone a member b inside hit (List.find?_some other)]

theorem tablesReordered {others : List Host} (perm : others.Perm hosts) (apart : hosts.Pairwise (KeysApart http3)) :
    tables http3 others = tables http3 hosts := by
  funext key
  unfold tables
  rw [perm.any_eq]
  split
  · congr 1
    funext name
    have both := (List.reverse_perm others).trans (perm.trans (List.reverse_perm hosts).symm)
    refine findReordered both ?_
    intro a first b second hit same
    have symmetric : Std.Symm (KeysApart http3) := ⟨fun _ _ h key left right equal => h key right left equal.symm⟩
    rw [Bool.and_eq_true, beq_iff_eq] at hit same
    by_contra different
    have pair := apart.forall (perm.mem_iff.mp (List.mem_reverse.mp first))
      (perm.mem_iff.mp (List.mem_reverse.mp second)) different
    exact pair key hit.1 same.1 (hit.2.trans same.2.symm)
  · rfl

theorem distinctUnequal (distinct : Distinct listenerKey listeners) :
    listeners.Pairwise (fun l other => l.eq other = false ∧ other.eq l = false) := by
  refine (List.pairwise_map.mp distinct).imp ?_
  intro l other different
  rw [eqKey, eqKey]
  exact ⟨beq_false_of_ne different, beq_false_of_ne different.symm⟩

structure Assembled (crates : Crates) (os : Os W) (http3 : Bool) (workers : Nat) (hosts : List Host)
    (listeners : List Listener) : Prop where
  map : represents listeners = tables http3 hosts
  unequal : listeners.Pairwise (fun l other => l.eq other = false ∧ other.eq l = false)
  extended : ∀ before host rest, hosts = before ++ host :: rest → ∀ w earlier middle later after,
    addHosts crates os http3 workers before [] w = .ok (earlier, middle) →
      addHostToListeners crates os http3 workers host earlier middle = .ok (later, after) →
        Extends http3 host earlier later
  reordered : ∀ others w same after, others.Perm hosts → hosts.Pairwise (KeysApart http3) →
    addHosts crates os http3 workers others [] w = .ok (same, after) → represents same = represents listeners

theorem assembled (given : ∀ host ∈ hosts, PortsGiven host.config)
    (added : addHosts crates os http3 workers hosts [] w = .ok (out, after)) :
    Assembled crates os http3 workers hosts out := by
  obtain ⟨distinct, map⟩ := addedMap given added
  refine ⟨map, distinctUnequal distinct, ?_, ?_⟩
  · intro before host rest same w earlier middle later after first last
    have known : ∀ other ∈ before, PortsGiven other.config := fun other member => given other (by simp [same, member])
    exact addedExtends (addedMap known first).1 (hostAdded (given host (by simp [same])) last)
  · intro others w same after perm apart again
    have known : ∀ other ∈ others, PortsGiven other.config := fun other member => given other (perm.mem_iff.mp member)
    rw [(addedMap known again).2, map, tablesReordered perm apart]

theorem bindOf {α β : Type} {x : StateT W VetisResult α} {f : α → StateT W VetisResult β} {w middle : W} {a : α}
    {out : β × W} (first : x w = .ok (a, middle)) (rest : f a middle = .ok out) : (x >>= f) w = .ok out := by
  simp only [bind, StateT.bind, Except.bind, first]
  exact rest

theorem builderAdds {b made : VetisBuilder}
    (added : hosts.foldlM (VetisBuilder.addHost crates os http3) b w = .ok (made, after)) :
    addHosts crates os http3 b.config.workers hosts b.listeners w = .ok (made.listeners, after) := by
  induction hosts generalizing b w with
  | nil =>
    cases Except.ok.inj added
    rfl
  | cons host rest ih =>
    rw [List.foldlM_cons] at added
    obtain ⟨next, middle, first, added⟩ := bindSource added
    obtain ⟨listeners, later, call, done⟩ := bindSource first
    cases Except.ok.inj done
    rw [addHosts, List.foldlM_cons]
    exact bindOf call (ih added)

theorem configAdds {fs : FileSystem} {configs : List HostConfig}
    (added : configs.foldlM (addHostConfig crates os fs http3 workers) listeners w = .ok (out, after)) :
    ∃ hosts, List.Forall₂ (fun config host => Host.new crates.vetis fs config = .ok host) configs hosts ∧
      addHosts crates os http3 workers hosts listeners w = .ok (out, after) := by
  induction configs generalizing listeners w with
  | nil => exact ⟨[], .nil, added⟩
  | cons config rest ih =>
    rw [List.foldlM_cons] at added
    obtain ⟨next, middle, first, added⟩ := bindSource added
    obtain ⟨host, later, made, call⟩ := bindSource first
    obtain ⟨known, same⟩ := liftSource made
    rw [same] at call
    obtain ⟨hosts, all, others⟩ := ih added
    refine ⟨host :: hosts, .cons known all, ?_⟩
    rw [addHosts, List.foldlM_cons]
    exact bindOf call others

theorem hostsGiven {fs : FileSystem} {configs : List HostConfig}
    (all : List.Forall₂ (fun config host => Host.new crates.vetis fs config = .ok host) configs hosts)
    (given : ∀ config ∈ configs, PortsGiven config) : ∀ host ∈ hosts, PortsGiven host.config := by
  induction all with
  | nil => simp
  | @cons config host configs hosts made _ ih =>
    intro other member
    rcases List.mem_cons.mp member with rfl | inside
    · rw [newConfig made]
      exact given config List.mem_cons_self
    · exact ih (fun more known => given more (List.mem_cons_of_mem _ known)) other inside

end

theorem listenersAreMap {W : Type} (crates : Crates) (os : Os W) (fs : FileSystem) (http3 : Bool) :
    (∀ b hosts w made after, b.listeners = [] → (∀ host ∈ hosts, PortsGiven host.config) →
      hosts.foldlM (VetisBuilder.addHost crates os http3) b w = .ok (made, after) →
        Assembled crates os http3 b.config.workers hosts made.listeners) ∧
    (∀ config w vetis after, (∀ host ∈ config.hosts, PortsGiven host) →
      Vetis.fromConfig crates os fs http3 config w = .ok (vetis, after) →
        ∃ hosts, List.Forall₂ (fun config host => Host.new crates.vetis fs config = .ok host) config.hosts hosts ∧
          Assembled crates os http3 config.workers hosts vetis.listeners) := by
  refine ⟨?_, ?_⟩
  · intro b hosts w made after empty given added
    have calls := builderAdds added
    rw [empty] at calls
    exact assembled given calls
  · intro config w vetis after given made
    obtain ⟨listeners, later, added, done⟩ := bindSource made
    cases Except.ok.inj done
    obtain ⟨hosts, all, calls⟩ := configAdds added
    exact ⟨hosts, all, assembled (hostsGiven all given) calls⟩

def plainHost (hostname : String) : Host :=
  ⟨{ hostname := hostname, bindAddresses := [(.v4 0, 8080)], protos := [.http11] }, ∅, none⟩

theorem twoHostsAreMap : ∃ made after, [plainHost "a", plainHost "b"].foldlM (VetisBuilder.addHost sampleCrates sampleOs
    false) (Vetis.builder ⟨[], 1⟩) 0 = .ok (made, after) ∧
      Assembled sampleCrates sampleOs false 1 [plainHost "a", plainHost "b"] made.listeners := by
  refine ⟨_, _, rfl, (listenersAreMap sampleCrates sampleOs ⟨fun _ => false, fun _ => .error ""⟩ false).1
    (Vetis.builder ⟨[], 1⟩) [plainHost "a", plainHost "b"] 0 _ _ rfl ?_ rfl⟩
  intro host member bindAddress inside
  simp only [List.mem_cons, List.not_mem_nil, or_false] at member
  rcases member with rfl | rfl <;> cases List.mem_singleton.mp inside <;> decide

end VetisTokio.Assembly
