import VetisTokio.Assembly

/-! `remove_host` after `add_host`. The one makes the name in the table from the host
and the port, the other takes the name it is given for the one in the table. -/
namespace VetisTokio.HostRemoval
open HttpData ConfigData HostModel TlsFactory DispatcherModel ListenerModel Rt Assembly

structure Restored (name : String) (before after : Listener) : Prop where
  unserved : after.hosts.lookup name = none
  total : after.totalHosts = before.totalHosts
  others : ∀ other, other ≠ name → after.hosts.lookup other = before.hosts.lookup other

section
variable {l out : Listener} {host : Host}

theorem removedHosts (l : Listener) (hostname : String) : (l.removeHost hostname).hosts = l.hosts.erase hostname := by
  cases l <;> rfl

theorem totalEntries (l : Listener) : l.totalHosts = l.hosts.entries.length := by
  cases l <;> rfl

theorem keyBareIff (key : Key) (host : Host) : tableKey key host = host.hostname ↔ bareKey key = true := by
  unfold tableKey
  split
  · rename_i bare
    exact ⟨fun _ => bare, fun _ => rfl⟩
  · rename_i ported
    constructor
    · intro same
      have lengths := congrArg String.length same
      simp only [String.length_append] at lengths
      have colon : (":" : String).length = 1 := rfl
      omega
    · intro bare
      exact absurd bare ported

theorem undoneIff (fresh : tableKey (listenerKey l) host ∉ l.hosts) (added : l.addHost host = .ok out) :
    Restored (tableKey (listenerKey l) host) l (out.removeHost host.hostname) ↔ bareKey (listenerKey l) = true := by
  rw [addHostWith] at added
  cases Except.ok.inj added
  constructor
  · intro restored
    by_contra ported
    have other := mt (keyBareIff (listenerKey l) host).mp ported
    have gone := restored.unserved
    rw [removedHosts, AList.lookup_erase_ne other, withHostHosts, AList.lookup_insert] at gone
    contradiction
  · intro bare
    have same := (keyBareIff (listenerKey l) host).mpr bare
    have back : ((withHost host l).removeHost host.hostname).hosts = l.hosts := by
      rw [removedHosts, withHostHosts, ← same, AList.insert_of_notMem fresh]
      exact AList.ext (List.kerase_cons_eq rfl)
    refine ⟨?_, ?_, fun other _ => by rw [back]⟩
    · rw [back]
      exact AList.lookup_eq_none.mpr fresh
    · rw [totalEntries, totalEntries, back]

end

def tcpOn (port : UInt16) : Listener := .tcp (TcpListener.new ⟨.v4 0, port, 1⟩)

def withOther : Listener := withHost (plainHost "b") (tcpOn 443)

theorem bareUndone : Restored "a" withOther ((withHost (plainHost "a") withOther).removeHost "a") ∧
    withOther.hosts.lookup "b" = some (plainHost "b") := by
  have fresh : tableKey (listenerKey withOther) (plainHost "a") ∉ withOther.hosts := by decide
  exact ⟨(undoneIff fresh (addHostWith _ _)).mpr rfl, rfl⟩

theorem portedKept : ¬ ∀ out, (tcpOn 8080).addHost (plainHost "a") = .ok out →
    Restored "a:8080" (tcpOn 8080) (out.removeHost "a") := by
  intro claim
  have total := (claim _ rfl).total
  contradiction

end VetisTokio.HostRemoval
