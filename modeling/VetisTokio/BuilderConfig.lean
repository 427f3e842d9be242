import VetisTokio.AddHost

/-! A server built from a configuration that `VetisBuilder::config` was given, next to
the server that `Vetis::from_config` makes of it. -/
namespace VetisTokio.BuilderConfig
open HttpData ConfigData HostModel TlsFactory DispatcherModel ListenerModel Rt KeyedCells Assembly AddHost

def nameKey (key : Key) (hostname : String) : String :=
  if bareKey key then hostname else hostname ++ ":" ++ toString key.port

def KeyedBy (l : Listener) (names : Set String) : Prop :=
  ∀ key, key ∈ l.hosts ↔ ∃ name ∈ names, key = nameKey (listenerKey l) name

def Ephemeral (config : ServerConfig) (l : Listener) : Prop :=
  ∃ host ∈ config.hosts, (l.config.interface, 0) ∈ host.bindAddresses

structure Alike (config : ServerConfig) (l other : Listener) : Prop where
  kind : (listenerKey l).kind = (listenerKey other).kind
  interface : l.config.interface = other.config.interface
  port : l.config.port = other.config.port ∨ Ephemeral config l ∧ Ephemeral config other
  workers : l.config.workers = other.config.workers
  hostKeys : ∃ names, KeyedBy l names ∧ KeyedBy other names

def SameListeners (config : ServerConfig) (listeners others : List Listener) : Prop :=
  ∃ listed : List Listener, listed.Perm others ∧ List.Forall₂ (Alike config) listeners listed

def Unserved (http3 : Bool) (config : HostConfig) : Prop :=
  config.bindAddresses = [] ∨ hasTcpListener config = false ∧ (http3 && hasUdpListener config) = false

section
variable {W : Type} {crates : Crates} {os : Os W} {fs : FileSystem} {http3 : Bool} {workers : Nat} {host : Host}
  {listeners earlier later out : List Listener} {w after : W}

theorem placedEmpty {key : Key} {wanted : Bool} (placed : Placed host key wanted earlier later) :
    later = [] ↔ earlier = [] ∧ wanted = false := by
  cases placed with
  | skipped => simp
  | put base _ keyed => simp [upsertNonempty]

theorem addressEmpty {bindAddress : IpAddr × UInt16}
    (added : addHostToAddress crates os http3 workers host earlier bindAddress w = .ok (later, after)) :
    later = [] ↔ earlier = [] ∧ hasTcpListener host.config = false ∧ (http3 && hasUdpListener host.config) = false := by
  obtain ⟨_, _, middle, tcpPut, udpPut, _⟩ := addressPlaced added
  rw [placedEmpty udpPut, placedEmpty tcpPut, and_assoc]

theorem addressesEmpty {addresses : List (IpAddr × UInt16)}
    (added : addresses.foldlM (addHostToAddress crates os http3 workers host) listeners w = .ok (out, after)) :
    out = [] ↔ listeners = [] ∧ (addresses = [] ∨
      hasTcpListener host.config = false ∧ (http3 && hasUdpListener host.config) = false) := by
  have every := foldAll (fun bindAddress _ earlier w later after => addressEmpty) added
  rw [every]
  cases addresses with
  | nil => simp
  | cons head rest =>
    refine and_congr_right fun _ => ?_
    rw [or_iff_right (List.cons_ne_nil head rest)]
    exact ⟨fun all => all head List.mem_cons_self, fun own bindAddress _ => own⟩

theorem hostEmpty (added : addHostToListeners crates os http3 workers host earlier w = .ok (later, after)) :
    later = [] ↔ earlier = [] ∧ Unserved http3 host.config := addressesEmpty added

theorem configsEmpty {configs : List HostConfig}
    (added : configs.foldlM (addHostConfig crates os fs http3 workers) listeners w = .ok (out, after)) :
    out = [] ↔ listeners = [] ∧ ∀ config ∈ configs, Unserved http3 config := by
  refine foldAll (E := fun listeners => listeners = []) (P := Unserved http3) ?_ added
  intro config _ earlier w later after first
  obtain ⟨host, middle, made, call⟩ := bindSource first
  rw [hostEmpty call, newConfig (liftSource made).1]

end

theorem sameAsNone {config : ServerConfig} {others : List Listener} : SameListeners config [] others ↔ others = [] := by
  constructor
  · rintro ⟨listed, perm, all⟩
    cases all
    exact List.nil_perm.mp perm
  · rintro rfl
    exact ⟨[], List.Perm.refl _, .nil⟩

theorem builderAgreesIff {W : Type} {crates : Crates} {os : Os W} {fs : FileSystem} {http3 : Bool}
    {config : ServerConfig} {w after : W} {vetis : Vetis}
    (made : Vetis.fromConfig crates os fs http3 config w = .ok (vetis, after)) (default : ServerConfig) :
    SameListeners config (((Vetis.builder default).setConfig config).build).listeners vetis.listeners ↔
      ∀ host ∈ config.hosts, Unserved http3 host := by
  obtain ⟨listeners, later, added, done⟩ := bindSource made
  cases Except.ok.inj done
  have empty : (((Vetis.builder default).setConfig config).build).listeners = [] := rfl
  rw [empty, sameAsNone, configsEmpty added]
  simp

def plainConfig : ServerConfig := ⟨[(plainHost "localhost").config], 1⟩

def unservedConfig : ServerConfig := ⟨[{ (plainHost "localhost").config with protos := [.http3] }], 1⟩

def bareFiles : FileSystem := ⟨fun _ => false, fun _ => .error "not found"⟩

theorem unservedAgrees : ∃ vetis after,
    Vetis.fromConfig sampleCrates sampleOs bareFiles false unservedConfig 0 = .ok (vetis, after) ∧
      SameListeners unservedConfig (((Vetis.builder ⟨[], 1⟩).setConfig unservedConfig).build).listeners vetis.listeners := by
  have made : Vetis.fromConfig sampleCrates sampleOs bareFiles false unservedConfig 0 = .ok (_, _) := rfl
  refine ⟨_, _, made, (builderAgreesIff made ⟨[], 1⟩).mpr ?_⟩
  intro host member
  cases List.mem_singleton.mp member
  exact .inr ⟨by decide, by decide⟩

theorem configuredHostLost : ¬ ∀ vetis after,
    Vetis.fromConfig sampleCrates sampleOs bareFiles false plainConfig 0 = .ok (vetis, after) →
      SameListeners plainConfig (((Vetis.builder ⟨[], 1⟩).setConfig plainConfig).build).listeners vetis.listeners := by
  intro claim
  have made : Vetis.fromConfig sampleCrates sampleOs bareFiles false plainConfig 0 = .ok (_, _) := rfl
  have none := sameAsNone.mp (claim _ _ made)
  contradiction

end VetisTokio.BuilderConfig
