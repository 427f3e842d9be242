import VetisTokio.BuilderConfig

/-! The calls of a builder in another order: the one call of `config` somewhere among
those of `add_host`. A listener keeps the worker count of the call that made it. -/
namespace VetisTokio.BuilderOrder
open HttpData ConfigData HostModel TlsFactory DispatcherModel ListenerModel Rt KeyedCells Assembly AddHost BuilderConfig

variable {W : Type}

def builtAt (crates : Crates) (os : Os W) (http3 : Bool) (default config : ServerConfig) (hosts : List Host) (k : Nat) :
    StateT W VetisResult Vetis := do
  let b ← (hosts.take k).foldlM (VetisBuilder.addHost crates os http3) (Vetis.builder default)
  let b ← (hosts.drop k).foldlM (VetisBuilder.addHost crates os http3) (b.setConfig config)
  return b.build

def workersOf (l : Listener) : Nat := l.config.workers

def Staffed (vetis : Vetis) : Prop := ∀ l ∈ vetis.listeners, workersOf l = vetis.config.workers

def Grown (workers : Nat) (earlier later : List Listener) : Prop :=
  ∃ more, (∀ count ∈ more, count = workers) ∧ later.map workersOf = earlier.map workersOf ++ more

section
variable {crates : Crates} {os : Os W} {http3 : Bool} {default config : ServerConfig} {workers : Nat} {host : Host}
  {hosts : List Host} {listeners earlier middle later out : List Listener} {w after : W}

theorem grownRefl (listeners : List Listener) : Grown workers listeners listeners :=
  ⟨[], by simp, (List.append_nil _).symm⟩

theorem grownTrans (first : Grown workers earlier middle) (second : Grown workers middle later) :
    Grown workers earlier later := by
  obtain ⟨some, fine, same⟩ := first
  obtain ⟨more, good, whole⟩ := second
  refine ⟨some ++ more, ?_, by rw [whole, same, List.append_assoc]⟩
  intro count member
  exact (List.mem_append.mp member).elim (fine count) (good count)

theorem withHostWorkers (host : Host) (l : Listener) : workersOf (withHost host l) = workersOf l := by
  cases l <;> rfl

theorem mergeGrown {listener : Listener} (own : workersOf listener = workers)
    (merged : mergeHost host listener listeners = .ok out) : Grown workers listeners out := by
  rw [mergeUpsert] at merged
  cases Except.ok.inj merged
  rcases upsertCases listenerKey (listenerKey listener) listener (withHost host) listeners with
      ⟨before, l, behind, rfl, _, _, out⟩ | ⟨_, out⟩
  · rw [out]
    exact ⟨[], by simp, by simp [withHostWorkers]⟩
  · rw [out]
    exact ⟨[workers], by simp, by simp [withHostWorkers, own]⟩

theorem tcpGrown {config : ListenerConfig} {port : UInt16}
    (added : addTcpHost os config host listeners w = .ok ((out, port), after)) :
    Grown config.workers listeners out := by
  rcases tcpMerged added with ⟨_, rfl, _, _⟩ | ⟨_, own, l, made, merged, _, _⟩
  · exact grownRefl _
  · exact mergeGrown made.workers merged

theorem udpGrown {config : ListenerConfig} {port : UInt16}
    (added : addUdpHost os config port host listeners w = .ok (out, after)) : Grown config.workers listeners out := by
  rcases udpMerged added with ⟨_, rfl, _⟩ | ⟨_, own, l, made, merged, _, _, _⟩
  · exact grownRefl _
  · exact mergeGrown made.workers merged

theorem addressGrown {bindAddress : IpAddr × UInt16}
    (added : addHostToAddress crates os http3 workers host listeners bindAddress w = .ok (out, after)) :
    Grown workers listeners out := by
  obtain ⟨first, port, middle, tcp, rest⟩ := addressSource added
  rcases rest with ⟨_, rfl, _⟩ | ⟨_, udp⟩
  · exact tcpGrown tcp
  · exact grownTrans (tcpGrown tcp) (udpGrown udp)

theorem foldGrown {A : Type} {step : List Listener → A → StateT W VetisResult (List Listener)} {calls : List A}
    (one : ∀ a ∈ calls, ∀ listeners w out after, step listeners a w = .ok (out, after) → Grown workers listeners out)
    (folded : calls.foldlM step listeners w = .ok (out, after)) : Grown workers listeners out := by
  refine foldSource (R := fun p q => Grown workers p.1 q.1) ?_ ?_ one folded
  · exact fun p => grownRefl p.1
  · exact fun p q r => grownTrans

theorem addressesGrown {addresses : List (IpAddr × UInt16)}
    (added : addresses.foldlM (addHostToAddress crates os http3 workers host) listeners w = .ok (out, after)) :
    Grown workers listeners out := by
  refine foldGrown ?_ added
  exact fun bindAddress _ listeners w out after => addressGrown

theorem hostsGrown (added : addHosts crates os http3 workers hosts listeners w = .ok (out, after)) :
    Grown workers listeners out := by
  refine foldGrown ?_ added
  exact fun host _ listeners w out after => addressesGrown

theorem hostsEmpty (added : addHosts crates os http3 workers hosts listeners w = .ok (out, after)) :
    out = [] ↔ listeners = [] ∧ ∀ host ∈ hosts, Unserved http3 host.config := by
  refine foldAll (E := fun listeners => listeners = []) (P := fun host => Unserved http3 host.config) ?_ added
  exact fun host _ earlier w later after => hostEmpty

theorem addressKept {bindAddress : IpAddr × UInt16} (tcp : hasTcpListener host.config = false)
    (udp : (http3 && hasUdpListener host.config) = false)
    (added : addHostToAddress crates os http3 workers host listeners bindAddress w = .ok (out, after)) :
    out = listeners ∧ after = w := by
  obtain ⟨first, port, middle, half, rest⟩ := addressSource added
  have start : first = listeners ∧ middle = w := by
    rcases tcpMerged half with ⟨_, same, _, stays⟩ | ⟨wanted, _⟩
    · exact ⟨same, stays⟩
    · simp [tcp] at wanted
  obtain ⟨rfl, rfl⟩ := start
  rcases rest with ⟨_, same, stays⟩ | ⟨rfl, other⟩
  · exact ⟨same, stays⟩
  · rcases udpMerged other with ⟨_, same, stays⟩ | ⟨wanted, _⟩
    · exact ⟨same, stays⟩
    · simp [wanted] at udp

theorem addressesKept {addresses : List (IpAddr × UInt16)} (tcp : hasTcpListener host.config = false)
    (udp : (http3 && hasUdpListener host.config) = false)
    (added : addresses.foldlM (addHostToAddress crates os http3 workers host) listeners w = .ok (out, after)) :
    out = listeners ∧ after = w := by
  refine foldSame ?_ added
  exact fun bindAddress _ listeners w out after => addressKept tcp udp

theorem unservedKept (unserved : Unserved http3 host.config)
    (added : addHostToListeners crates os http3 workers host listeners w = .ok (out, after)) :
    out = listeners ∧ after = w := by
  unfold addHostToListeners at added
  rcases unserved with none | ⟨tcp, udp⟩
  · rw [none] at added
    cases Except.ok.inj added
    exact ⟨rfl, rfl⟩
  · exact addressesKept tcp udp added

theorem unservedHosts (unserved : ∀ host ∈ hosts, Unserved http3 host.config)
    (added : addHosts crates os http3 workers hosts listeners w = .ok (out, after)) : out = listeners ∧ after = w := by
  refine foldSame ?_ added
  exact fun host member listeners w out after => unservedKept (unserved host member)

theorem addHostsAppend {more : List Host} : addHosts crates os http3 workers (hosts ++ more) listeners w = .ok (out, after) ↔
    ∃ middle later, addHosts crates os http3 workers hosts listeners w = .ok (middle, later) ∧
      addHosts crates os http3 workers more middle later = .ok (out, after) := by
  rw [addHosts, List.foldlM_append]
  constructor
  · intro added
    exact bindSource added
  · rintro ⟨middle, later, first, rest⟩
    exact bindOf first rest

theorem builderConfig {b made : VetisBuilder}
    (added : hosts.foldlM (VetisBuilder.addHost crates os http3) b w = .ok (made, after)) : made.config = b.config := by
  refine foldSource (R := fun p q => q.1.config = p.1.config) ?_ ?_ ?_ added
  · exact fun p => rfl
  · exact fun p q r first second => second.trans first
  · intro host _ b w made after call
    obtain ⟨listeners, later, _, done⟩ := bindSource call
    cases Except.ok.inj done
    rfl

variable {vetis one other : Vetis} {k j : Nat} {last : W}

theorem builtSource (built : builtAt crates os http3 default config hosts k w = .ok (vetis, after)) :
    vetis.config = config ∧ ∃ middle later,
      addHosts crates os http3 default.workers (hosts.take k) [] w = .ok (middle, later) ∧
        addHosts crates os http3 config.workers (hosts.drop k) middle later = .ok (vetis.listeners, after) := by
  obtain ⟨b, first, front, built⟩ := bindSource built
  obtain ⟨made, second, behind, done⟩ := bindSource built
  cases Except.ok.inj done
  exact ⟨builderConfig behind, b.listeners, first, builderAdds front, builderAdds behind⟩

theorem staffedIff (built : builtAt crates os http3 default config hosts k w = .ok (vetis, after)) :
    Staffed vetis ↔ default.workers = config.workers ∨ ∀ host ∈ hosts.take k, Unserved http3 host.config := by
  obtain ⟨own, middle, later, front, behind⟩ := builtSource built
  obtain ⟨early, fine, first⟩ := hostsGrown front
  obtain ⟨late, good, whole⟩ := hostsGrown behind
  rw [List.map_nil, List.nil_append] at first
  rw [first] at whole
  have empty := hostsEmpty front
  have counts : Staffed vetis ↔ ∀ count ∈ early ++ late, count = config.workers := by
    rw [← whole, List.forall_mem_map, Staffed, own]
  rw [counts, List.forall_mem_append]
  constructor
  · rintro ⟨before, _⟩
    cases middle with
    | nil => exact .inr (empty.mp rfl).2
    | cons l rest =>
      have member : workersOf l ∈ early := by
        rw [← first]
        exact List.mem_cons_self
      exact .inl ((fine _ member).symm.trans (before _ member))
  · rintro (same | unserved)
    · exact ⟨fun count member => (fine count member).trans same, good⟩
    · have none := empty.mpr ⟨rfl, unserved⟩
      rw [none, List.map_nil] at first
      rw [← first]
      exact ⟨by simp, good⟩

theorem builtAnywhere (same : default.workers = config.workers)
    (built : builtAt crates os http3 default config hosts k w = .ok (vetis, after)) :
    addHosts crates os http3 config.workers hosts [] w = .ok (vetis.listeners, after) := by
  obtain ⟨_, middle, later, front, behind⟩ := builtSource built
  rw [same] at front
  rw [← List.take_append_drop k hosts]
  exact addHostsAppend.mpr ⟨middle, later, front, behind⟩

theorem builtBehind (le : k ≤ j) (unserved : ∀ host ∈ hosts.take j, Unserved http3 host.config)
    (built : builtAt crates os http3 default config hosts k w = .ok (vetis, after)) :
    addHosts crates os http3 config.workers (hosts.drop j) [] w = .ok (vetis.listeners, after) := by
  obtain ⟨_, middle, later, front, behind⟩ := builtSource built
  have before : ∀ host ∈ hosts.take k, Unserved http3 host.config :=
    fun host member => unserved host (List.take_subset_take_left hosts le member)
  obtain ⟨none, start⟩ := unservedHosts before front
  have split : hosts.drop k = (hosts.drop k).take (j - k) ++ hosts.drop j := by
    have rest : hosts.drop j = (hosts.drop k).drop (j - k) := by rw [List.drop_drop, Nat.add_sub_cancel' le]
    rw [rest, List.take_append_drop]
  rw [none, start, split] at behind
  obtain ⟨between, there, passed, rest⟩ := addHostsAppend.mp behind
  have skipped : ∀ host ∈ (hosts.drop k).take (j - k), Unserved http3 host.config := by
    intro host member
    rw [← List.drop_take] at member
    exact unserved host (List.mem_of_mem_drop member)
  obtain ⟨same, stays⟩ := unservedHosts skipped passed
  rw [same, stays] at rest
  exact rest

structure Commute (one other : Vetis) : Prop where
  same : one.listeners = other.listeners
  first : Staffed one
  second : Staffed other

theorem commuteIff (first : builtAt crates os http3 default config hosts k w = .ok (one, after))
    (second : builtAt crates os http3 default config hosts j w = .ok (other, last)) :
    Commute one other ↔ default.workers = config.workers ∨
      ∀ host ∈ hosts.take (max k j), Unserved http3 host.config := by
  constructor
  · intro commute
    rcases Nat.le_total k j with le | le
    · rw [Nat.max_eq_right le]
      exact (staffedIff second).mp commute.second
    · rw [Nat.max_eq_left le]
      exact (staffedIff first).mp commute.first
  · intro alike
    refine ⟨?_, (staffedIff first).mpr (alike.imp_right ?_), (staffedIff second).mpr (alike.imp_right ?_)⟩
    · rcases alike with same | unserved
      · have both := (builtAnywhere same first).symm.trans (builtAnywhere same second)
        exact (Prod.mk.inj (Except.ok.inj both)).1
      · have both := (builtBehind (Nat.le_max_left k j) unserved first).symm.trans
          (builtBehind (Nat.le_max_right k j) unserved second)
        exact (Prod.mk.inj (Except.ok.inj both)).1
    · exact fun unserved host member => unserved host (List.take_subset_take_left hosts (Nat.le_max_left k j) member)
    · exact fun unserved host member => unserved host (List.take_subset_take_left hosts (Nat.le_max_right k j) member)

end

theorem sameWorkersCommute : ∃ one after other last,
    builtAt sampleCrates sampleOs false ⟨[], 1⟩ ⟨[], 1⟩ [plainHost "a"] 0 0 = .ok (one, after) ∧
      builtAt sampleCrates sampleOs false ⟨[], 1⟩ ⟨[], 1⟩ [plainHost "a"] 1 0 = .ok (other, last) ∧ Commute one other := by
  have first : builtAt sampleCrates sampleOs false ⟨[], 1⟩ ⟨[], 1⟩ [plainHost "a"] 0 0 = .ok (_, _) := rfl
  have second : builtAt sampleCrates sampleOs false ⟨[], 1⟩ ⟨[], 1⟩ [plainHost "a"] 1 0 = .ok (_, _) := rfl
  exact ⟨_, _, _, _, first, second, (commuteIff first second).mpr (.inl rfl)⟩

theorem lateWorkersLost : ¬ ∀ config one after other last,
    builtAt sampleCrates sampleOs false ⟨[], 1⟩ config [plainHost "a"] 0 0 = .ok (one, after) →
      builtAt sampleCrates sampleOs false ⟨[], 1⟩ config [plainHost "a"] 1 0 = .ok (other, last) → Commute one other := by
  intro claim
  have commute := claim ⟨[], 4⟩ _ _ _ _ rfl rfl
  have workers := commute.second _ List.mem_cons_self
  contradiction

end VetisTokio.BuilderOrder
