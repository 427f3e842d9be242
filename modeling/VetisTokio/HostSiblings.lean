import VetisTokio.HostRouting

/-! Paths that share their first characters with a URI and are not under it. The
search for the longest prefix goes by characters and knows nothing of segments. -/
namespace VetisTokio.HostSiblings
open HttpData ConfigData HostModel HostRoute HostRouting Prefixes

def Sibling (uri path : String) : Prop := uri.toList <+: path.toList ∧ ¬ Above uri path

/- Only a URI above the path gets the request, and one of them does unless it was
refused before the search. -/
structure SegmentRouted (paths : List Path) (req : Request) (routed : Routed) : Prop where
  within : ∀ call ∈ routed.calls, Above call.path.uri req.uri.path
  ancestor : containsDots req.uri.path = false → ∀ path ∈ paths, Above path.uri req.uri.path →
    ∃ call ∈ routed.calls, path.uri.toList.length ≤ call.path.uri.toList.length

/- Some URI above the path is longer than each one it is a sibling of. -/
def SiblingsCovered (paths : List Path) (path : String) : Prop :=
  ∀ beside ∈ paths, Sibling beside.uri path →
    ∃ other ∈ paths, Above other.uri path ∧ beside.uri.toList.length < other.uri.toList.length

section
variable {crate : VetisCrate} {fs : FileSystem} {crates : RouteCrates} {files : HostFiles} {host : Host}
  {paths : List Path} {logger : Option Logger} {req : Request} {path : Path}

theorem aboveOfLength {uri other text : String} (above : Above uri text) (starts : other.toList <+: text.toList)
    (same : uri.toList.length = other.toList.length) : Above other text := by
  have equal : uri.toList = other.toList :=
    (List.prefix_of_prefix_length_le (aboveStarts above) starts (Nat.le_of_eq same)).eq_of_length same
  rw [Above, ← equal]
  exact above

theorem coveredFound (finds : FindsLongest crates.longestCommonPrefix) (registered : Registered crate fs host paths)
    (found : findPath crates host.paths req.uri.path = some path) :
    Above path.uri req.uri.path ↔ SiblingsCovered paths req.uri.path := by
  obtain ⟨last, longest⟩ := foundSource finds registered found
  have member := (lastUnderSource last).1
  constructor
  · intro above beside inside sibling
    have shorter := longest.longest _ ⟨beside, inside, rfl⟩ sibling.1
    have distinct : path.uri.toList.length ≠ beside.uri.toList.length :=
      fun same => sibling.2 (aboveOfLength above sibling.1 same)
    exact ⟨path, member, above, Nat.lt_of_le_of_ne shorter (Ne.symm distinct)⟩
  · intro covered
    by_contra outside
    obtain ⟨other, inside, above, longer⟩ := covered path member ⟨longest.starts, outside⟩
    have shorter := longest.longest _ ⟨other, inside, rfl⟩ (aboveStarts above)
    omega

theorem segmentIff (finds : FindsLongest crates.longestCommonPrefix) (registered : Registered crate fs host paths) :
    SegmentRouted paths req (route crates files logger host req) ↔
      containsDots req.uri.path = true ∨ SiblingsCovered paths req.uri.path := by
  cases dots : containsDots req.uri.path with
  | true =>
    have quiet := (@dotsRefused crates files logger host req dots).1
    exact ⟨fun _ => .inl rfl, fun _ => ⟨by simp [quiet], fun plain => by simp [dots] at plain⟩⟩
  | false =>
    cases found : findPath crates host.paths req.uri.path with
    | none =>
      have nowhere := missingSource finds registered found
      have quiet := (@missingRefused crates files logger host req dots found).1
      constructor
      · intro _
        exact .inr fun beside inside sibling => absurd sibling.1 (nowhere beside inside)
      · intro _
        refine ⟨by simp [quiet], ?_⟩
        intro _ other inside above
        exact absurd (aboveStarts above) (nowhere other inside)
    | some path =>
      have longest := (foundSource finds registered found).2
      rw [foundHandled dots found, ← coveredFound finds registered found]
      constructor
      · intro routed
        exact .inr (routed.within _ (List.mem_singleton.mpr rfl))
      · intro covered
        have above := covered.resolve_left Bool.false_ne_true
        constructor
        · intro call member
          cases List.mem_singleton.mp member
          exact above
        · intro _ other inside reaches
          exact ⟨_, List.mem_singleton.mpr rfl, longest.longest _ ⟨other, inside, rfl⟩ (aboveStarts reaches)⟩

end

theorem childWithin : SegmentRouted (echoConfig ["/", "/hello"]).paths (getPath "/hello/child")
    (route sampleRoutes noFiles none (echoHost ["/", "/hello"]) (getPath "/hello/child")) := by
  refine (segmentIff searchLongestFinds (echoRegistered ["/", "/hello"])).mpr (.inr ?_)
  intro beside inside sibling
  have above : ∀ path ∈ (echoConfig ["/", "/hello"]).paths, Above path.uri "/hello/child" := by
    intro path member
    rcases List.mem_cons.mp member with rfl | member
    · exact ⟨"hello/child".toList, rfl, .inr (.inr rfl)⟩
    · cases List.mem_singleton.mp member
      exact ⟨"/child".toList, rfl, .inr (.inl rfl)⟩
  exact absurd (above beside inside) sibling.2

theorem siblingRouted : ¬ ∀ paths host req, Registered sampleVetis noFiles.toFileSystem host paths →
    SegmentRouted paths req (route sampleRoutes noFiles none host req) := by
  intro claim
  have routed := claim _ _ (getPath "/helloworld") (echoRegistered ["/", "/hello"])
  obtain ⟨rest, whole, ends⟩ := routed.within _ (List.mem_singleton.mpr rfl)
  have more : rest = "world".toList := List.append_cancel_left whole.symm
  subst more
  revert ends
  decide

end VetisTokio.HostSiblings
