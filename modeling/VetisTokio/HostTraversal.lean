import VetisTokio.Library.PercentCoding
import VetisTokio.HostRouting

/-! Paths that go up. The guard of `route` reads the path as it stands, a handler that
serves files reads it with its escapes resolved, and reads what is left of it behind
the URI. -/
namespace VetisTokio.HostTraversal
open HttpData ConfigData HostModel HostRoute HostRouting Prefixes PercentCoding

def Traverses (text : String) : Prop := [0x2e, 0x2e] ∈ segments 0x2f (decode (utf8 text.toList))

instance (text : String) : Decidable (Traverses text) := inferInstanceAs (Decidable (_ ∈ _))

structure Guarded (req : Request) (routed : Routed) : Prop where
  handled : ∀ call ∈ routed.calls, ¬ Traverses call.request.uri.path ∧ ¬ Traverses call.context.uri
  refused : Traverses req.uri.path → routed.calls = [] ∧ HasStatus routed.response 403

structure Harmless (paths : List Path) (text : String) : Prop where
  path : ¬ Traverses text
  behind : ∀ uri rest : String, Longest (Uris paths) text.toList uri.toList → text.toList = uri.toList ++ rest.toList →
    ¬ Traverses rest

section
variable {crate : VetisCrate} {fs : FileSystem} {crates : RouteCrates} {files : HostFiles} {host : Host}
  {paths : List Path} {logger : Option Logger} {req : Request}

theorem behindLongest {text uri : String} {path : Path} (longest : Longest (Uris paths) text.toList path.uri.toList)
    {rest : String} (other : Longest (Uris paths) text.toList uri.toList)
    (whole : text.toList = uri.toList ++ rest.toList) : rest = targetPath path text := by
  have same := longestUnique other longest
  rw [same, targetOfStart longest.starts] at whole
  exact String.toList_inj.mp (List.append_cancel_left whole).symm

theorem foundGuardedIff (finds : FindsLongest crates.longestCommonPrefix)
    (registered : Registered crate fs host paths) (plain : containsDots req.uri.path = false) {path : Path}
    (found : findPath crates host.paths req.uri.path = some path) :
    Guarded req (route crates files logger host req) ↔ Harmless paths req.uri.path := by
  obtain ⟨_, longest⟩ := foundSource finds registered found
  rw [foundHandled plain found]
  constructor
  · intro guarded
    obtain ⟨whole, target⟩ := guarded.handled _ (List.mem_singleton.mpr rfl)
    refine ⟨whole, ?_⟩
    intro uri rest other same
    rw [behindLongest longest other same]
    exact target
  · intro harmless
    refine ⟨?_, fun traverses => absurd traverses harmless.path⟩
    intro call member
    cases List.mem_singleton.mp member
    exact ⟨harmless.path, harmless.behind path.uri _ longest (targetOfStart longest.starts)⟩

theorem missingGuardedIff (finds : FindsLongest crates.longestCommonPrefix)
    (registered : Registered crate fs host paths) (plain : containsDots req.uri.path = false)
    (missing : findPath crates host.paths req.uri.path = none) :
    Guarded req (route crates files logger host req) ↔ Harmless paths req.uri.path := by
  obtain ⟨quiet, response, same, status⟩ := @missingRefused crates files logger host req plain missing
  constructor
  · intro guarded
    refine ⟨?_, ?_⟩
    · intro traverses
      obtain ⟨other, again, forbidden⟩ := (guarded.refused traverses).2
      cases Except.ok.inj (same.symm.trans again)
      rw [status] at forbidden
      contradiction
    · intro uri rest longest _
      obtain ⟨path, member, key⟩ := longest.among
      exact absurd longest.starts (key ▸ missingSource finds registered missing path member)
  · intro harmless
    exact ⟨by simp [quiet], fun traverses => absurd traverses harmless.path⟩

theorem guardedIff (finds : FindsLongest crates.longestCommonPrefix) (registered : Registered crate fs host paths) :
    Guarded req (route crates files logger host req) ↔
      ['.', '.'] <:+: req.uri.path.toList ∨ Harmless paths req.uri.path := by
  cases dots : containsDots req.uri.path with
  | true =>
    have refused := @dotsRefused crates files logger host req dots
    have guarded : Guarded req (route crates files logger host req) := ⟨by simp [refused.1], fun _ => refused⟩
    exact ⟨fun _ => .inl (of_decide_eq_true dots), fun _ => guarded⟩
  | false =>
    have plain : ¬ ['.', '.'] <:+: req.uri.path.toList := of_decide_eq_false dots
    rw [or_iff_right plain]
    cases found : findPath crates host.paths req.uri.path with
    | none => exact missingGuardedIff finds registered dots found
    | some path => exact foundGuardedIff finds registered dots found

end

theorem unescapedTraverses {text : String} (unescaped : '%' ∉ text.toList) (traverses : Traverses text) :
    ['.', '.'] <:+: text.toList := by
  have plain : (0x25 : UInt8) ∉ utf8 text.toList := by
    intro inside
    have sign : ['%'].map byte <:+: utf8 text.toList := (List.singleton_infix_iff _ _).mpr inside
    exact unescaped ((List.singleton_infix_iff _ _).mp (utf8Infix (by decide) sign))
  rw [Traverses, decodeUnescaped plain] at traverses
  exact utf8Infix (by decide) (segmentInfix traverses)

theorem unescapedHarmless {paths : List Path} {text : String} (unescaped : '%' ∉ text.toList)
    (plain : ¬ ['.', '.'] <:+: text.toList) : Harmless paths text := by
  refine ⟨fun traverses => plain (unescapedTraverses unescaped traverses), ?_⟩
  intro uri rest longest whole traverses
  have behind : rest.toList <:+ text.toList := ⟨uri.toList, whole.symm⟩
  have clean : '%' ∉ rest.toList := fun inside => unescaped (behind.mem inside)
  exact plain ((unescapedTraverses clean traverses).trans behind.isInfix)

theorem traversalRefused : Guarded (getPath "/../hello")
    (route sampleRoutes noFiles none (echoHost ["/"]) (getPath "/../hello")) :=
  (guardedIff searchLongestFinds (echoRegistered ["/"])).mpr (.inl (by decide))

theorem escapedDotsHandled : ¬ ∀ req : Request,
    Guarded req (route sampleRoutes noFiles none (echoHost ["/"]) req) := by
  intro claim
  have guarded := claim (getPath "/%2e%2e/hello")
  have called : (route sampleRoutes noFiles none (echoHost ["/"]) (getPath "/%2e%2e/hello")).calls.length = 1 := by
    decide
  rw [(guarded.refused (by decide)).1] at called
  contradiction

end VetisTokio.HostTraversal
