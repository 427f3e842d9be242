import Mathlib.Data.List.Induction
import VetisTokio.ListenerModel

/-! The names under which `add_host` puts hosts into the table of a listener, and
the reading of such a name by splitting it at its last colon. -/
namespace VetisTokio.HostKeys
open HttpData ConfigData HostModel ServiceHttp TlsFactory DispatcherModel ListenerModel

/- Letters, digits, hyphens, underscores and the dots between the labels. -/
structure DnsName (name : String) : Prop where
  labels : name.toList ≠ []
  letters : ∀ c ∈ name.toList, c.isAlphanum = true ∨ c = '-' ∨ c = '_' ∨ c = '.'

instance (name : String) : Decidable (DnsName name) :=
  have : Decidable (∀ c ∈ name.toList, c.isAlphanum = true ∨ c = '-' ∨ c = '_' ∨ c = '.') :=
    List.decidableBAll _ _
  decidable_of_iff (name.toList ≠ [] ∧ ∀ c ∈ name.toList, c.isAlphanum = true ∨ c = '-' ∨ c = '_' ∨ c = '.')
    ⟨fun ⟨labels, letters⟩ => ⟨labels, letters⟩, fun ⟨labels, letters⟩ => ⟨labels, letters⟩⟩

theorem dnsNoColon {name : String} (dns : DnsName name) : ':' ∉ name.toList := by
  intro inside
  rcases dns.letters ':' inside with letter | same | same | same <;> contradiction

theorem lowerColon {c : Char} (lowered : c.toLower = ':') : c = ':' := by
  unfold Char.toLower at lowered
  split at lowered
  · rename_i upper
    have value : (c.val + 32).toNat = 58 := congrArg (fun c => c.val.toNat) lowered
    have low : 65 ≤ c.val.toNat := UInt32.le_iff_toNat_le.mp upper.1
    have high : c.val.toNat ≤ 90 := UInt32.le_iff_toNat_le.mp upper.2
    simp only [UInt32.toNat_add, UInt32.reduceToNat] at value
    omega
  · exact lowered

theorem spelledNoColon {name other : String} (dns : DnsName name) (same : toLowercase other = toLowercase name) :
    ':' ∉ other.toList := by
  intro inside
  have lowered : ':' ∈ (toLowercase other).toList := by
    rw [toLowercase, String.toList_ofList]
    exact List.mem_map.mpr ⟨':', inside, by decide⟩
  rw [same, toLowercase, String.toList_ofList] at lowered
  obtain ⟨c, member, colon⟩ := List.mem_map.mp lowered
  exact dnsNoColon dns (lowerColon colon ▸ member)

theorem portNoColon (port : UInt16) : ':' ∉ (toString port).toList := by
  intro inside
  have digits : (toString port).toList = Nat.toDigits 10 port.toNat := Nat.toList_repr
  rw [digits] at inside
  have digit := Nat.isDigit_of_mem_toDigits (by decide) (by decide) inside
  contradiction

theorem rsplitNone {separator : Char} {text : List Char} (absent : separator ∉ text) :
    rsplitOnce separator text = none := by
  induction text with
  | nil => rfl
  | cons c rest ih =>
    rw [List.mem_cons, not_or] at absent
    simp [rsplitOnce, ih absent.2, Ne.symm absent.1]

theorem rsplitLast {separator : Char} {after : List Char} (absent : separator ∉ after) (before : List Char) :
    rsplitOnce separator (before ++ separator :: after) = some (before, after) := by
  induction before with
  | nil => simp [rsplitOnce, rsplitNone absent]
  | cons c rest ih => simp [rsplitOnce, ih]

theorem sniOfKey (bare : List UInt16) (port : UInt16) {hostname : String} (plain : ':' ∉ hostname.toList) :
    sniHostname (hostKey bare port hostname) = hostname := by
  unfold sniHostname hostKey
  split_ifs
  · rw [rsplitNone plain]
  · have text : (hostname ++ ":" ++ toString port).toList = hostname.toList ++ ':' :: (toString port).toList := by
      rw [String.toList_append, String.toList_append, List.append_assoc]
      rfl
    rw [text, rsplitLast (portNoColon port)]
    exact String.ofList_toList

section
variable {D : Type} {bare : List UInt16} {config : ListenerConfig}

def filled (bare : List UInt16) (config : ListenerConfig) (hosts : List Host) : PortListener D :=
  hosts.foldl (PortListener.insertHost bare) (PortListener.new config)

theorem filledMore (hosts : List Host) (host : Host) : (filled bare config (hosts ++ [host]) : PortListener D) =
    (filled bare config hosts).insertHost bare host := by
  rw [filled, List.foldl_append]
  rfl

theorem filledConfig (hosts : List Host) : (filled bare config hosts : PortListener D).config = config := by
  induction hosts using List.reverseRecOn with
  | nil => rfl
  | append_singleton before host ih => rw [filledMore, PortListener.insertHost, ih]

theorem filledLookup (hosts : List Host) (name : String) : (filled bare config hosts : PortListener D).hosts.lookup name =
    hosts.reverse.find? (fun host => hostKey bare config.port host.hostname == name) := by
  induction hosts using List.reverseRecOn with
  | nil => simp [filled, PortListener.new]
  | append_singleton before host ih =>
    rw [filledMore, PortListener.insertHost, filledConfig, List.reverse_append, List.reverse_singleton,
      List.singleton_append]
    by_cases same : hostKey bare config.port host.hostname = name
    · rw [List.find?_cons_of_pos (by simpa using same), ← same, AList.lookup_insert]
    · rw [List.find?_cons_of_neg (by simpa using same), AList.lookup_insert_ne (Ne.symm same), ih]

theorem filledSource {hosts : List Host} {name : String} {host : Host}
    (found : (filled bare config hosts : PortListener D).hosts.lookup name = some host) :
    host ∈ hosts ∧ hostKey bare config.port host.hostname = name := by
  rw [filledLookup] at found
  exact ⟨List.mem_reverse.mp (List.mem_of_find?_eq_some found), by simpa using List.find?_some found⟩

theorem tcpFilled {hosts : List Host} {l : TcpListener}
    (added : hosts.foldlM TcpListener.addHost (TcpListener.new config) = .ok l) :
    l = filled TcpListener.bare config hosts := by
  have all : hosts.foldlM TcpListener.addHost (TcpListener.new config) =
      .ok (filled TcpListener.bare config hosts) := List.foldlM_pure
  exact (Except.ok.inj (added.symm.trans all))

theorem udpFilled {hosts : List Host} {l : UdpListener}
    (added : hosts.foldlM UdpListener.addHost (UdpListener.new config) = .ok l) :
    l = filled UdpListener.bare config hosts := by
  have all : hosts.foldlM UdpListener.addHost (UdpListener.new config) =
      .ok (filled UdpListener.bare config hosts) := List.foldlM_pure
  exact (Except.ok.inj (added.symm.trans all))

end

end VetisTokio.HostKeys
