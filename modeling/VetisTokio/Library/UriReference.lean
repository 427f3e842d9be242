import Mathlib.Data.List.TakeWhile

/-! The five components of a URI reference: reading them off a text, and putting
them together again. Each component ends at the first of its delimiters. -/
namespace VetisTokio.UriReference

def Clean (stops text : List Char) : Prop := ∀ c ∈ text, c ∉ stops

instance (stops text : List Char) : Decidable (Clean stops text) := List.decidableBAll (fun c => c ∉ stops) text

def cut (stops text : List Char) : List Char × List Char :=
  (text.takeWhile (fun c => decide (c ∉ stops)), text.dropWhile (fun c => decide (c ∉ stops)))

theorem cutWhole (stops text : List Char) : (cut stops text).1 ++ (cut stops text).2 = text :=
  List.takeWhile_append_dropWhile

theorem cutRest {stops text rest : List Char} {c : Char} (after : (cut stops text).2 = c :: rest) : c ∈ stops := by
  have head := List.head?_dropWhile_not (fun c => decide (c ∉ stops)) text
  rw [show text.dropWhile _ = c :: rest from after] at head
  simpa using head

theorem cutFront {stops text : List Char} {c : Char} (member : c ∈ (cut stops text).1) : c ∉ stops := by
  have passed := @List.mem_takeWhile_imp _ (fun c => decide (c ∉ stops)) text c member
  exact of_decide_eq_true passed

theorem cutOf {stops front rest : List Char} (clean : Clean stops front) (ends : ∀ c ∈ rest.head?, c ∈ stops) :
    cut stops (front ++ rest) = (front, rest) := by
  have passes : ∀ c ∈ front, decide (c ∉ stops) = true := fun c member => decide_eq_true (clean c member)
  have stays : rest.takeWhile (fun c => decide (c ∉ stops)) = [] ∧
      rest.dropWhile (fun c => decide (c ∉ stops)) = rest := by
    cases rest with
    | nil => exact ⟨rfl, rfl⟩
    | cons c rest =>
      have stop := ends c rfl
      simp [stop]
  rw [cut, List.takeWhile_append_of_pos passes, List.dropWhile_append_of_pos passes, stays.1, stays.2, List.append_nil]

structure Parts where
  scheme : Option (List Char)
  authority : Option (List Char)
  path : List Char
  query : Option (List Char)
  fragment : Option (List Char)
  deriving DecidableEq, Repr

def schemeStops : List Char := [':', '/', '?', '#']
def authorityStops : List Char := ['/', '?', '#']
def pathStops : List Char := ['?', '#']
def queryStops : List Char := ['#']

def takeScheme (text : List Char) : Option (List Char) × List Char :=
  match cut schemeStops text with
  | (c :: name, ':' :: rest) => (some (c :: name), rest)
  | _ => (none, text)

def takeAuthority : List Char → Option (List Char) × List Char
  | '/' :: '/' :: text => (some (cut authorityStops text).1, (cut authorityStops text).2)
  | text => (none, text)

def takeQuery : List Char → Option (List Char) × List Char
  | '?' :: text => (some (cut queryStops text).1, (cut queryStops text).2)
  | text => (none, text)

def takeFragment : List Char → Option (List Char)
  | '#' :: text => some text
  | _ => none

def parse (text : List Char) : Parts :=
  let scheme := takeScheme text
  let authority := takeAuthority scheme.2
  let path := cut pathStops authority.2
  let query := takeQuery path.2
  ⟨scheme.1, authority.1, path.1, query.1, takeFragment query.2⟩

def putScheme : Option (List Char) → List Char
  | some name => name ++ [':']
  | none => []

def putAuthority : Option (List Char) → List Char
  | some authority => '/' :: '/' :: authority
  | none => []

def putQuery : Option (List Char) → List Char
  | some query => '?' :: query
  | none => []

def putFragment : Option (List Char) → List Char
  | some fragment => '#' :: fragment
  | none => []

def compose (parts : Parts) : List Char :=
  putScheme parts.scheme ++ (putAuthority parts.authority ++
    (parts.path ++ (putQuery parts.query ++ putFragment parts.fragment)))

theorem schemeWhole (text : List Char) : putScheme (takeScheme text).1 ++ (takeScheme text).2 = text := by
  unfold takeScheme
  split
  · rename_i c name rest found
    have whole := cutWhole schemeStops text
    rw [found] at whole
    simpa [putScheme] using whole
  · rfl

theorem authorityWhole (text : List Char) : putAuthority (takeAuthority text).1 ++ (takeAuthority text).2 = text := by
  unfold takeAuthority
  split
  · simp [putAuthority, cutWhole]
  · rfl

theorem queryWhole (text : List Char) : putQuery (takeQuery text).1 ++ (takeQuery text).2 = text := by
  unfold takeQuery
  split
  · simp [putQuery, cutWhole]
  · rfl

theorem queryRest {text : List Char} (starts : ∀ c ∈ text.head?, c ∈ pathStops) :
    ∀ c ∈ (takeQuery text).2.head?, c ∈ queryStops := by
  intro c found
  unfold takeQuery at found
  split at found
  · obtain ⟨rest, same⟩ := List.head?_eq_some_iff.mp found
    exact cutRest same
  · rename_i text other
    have stop := starts c found
    obtain ⟨rest, rfl⟩ := List.head?_eq_some_iff.mp found
    simp only [pathStops, List.mem_cons, List.not_mem_nil, or_false] at stop
    rcases stop with rfl | rfl
    · exact absurd rfl (other rest)
    · exact List.mem_singleton.mpr rfl

theorem fragmentWhole {text : List Char} (starts : ∀ c ∈ text.head?, c ∈ queryStops) :
    putFragment (takeFragment text) = text := by
  cases text with
  | nil => rfl
  | cons c rest =>
    have stop := List.mem_singleton.mp (starts c rfl)
    subst stop
    rfl

theorem composeParse (text : List Char) : compose (parse text) = text := by
  have starts : ∀ c ∈ (cut pathStops (takeAuthority (takeScheme text).2).2).2.head?, c ∈ pathStops := by
    intro c found
    obtain ⟨rest, same⟩ := List.head?_eq_some_iff.mp found
    exact cutRest same
  simp only [compose, parse]
  rw [fragmentWhole (queryRest starts), queryWhole, cutWhole, authorityWhole, schemeWhole]

theorem authorityRest {text authority : List Char} (given : (takeAuthority text).1 = some authority) :
    ∀ c ∈ (takeAuthority text).2.head?, c ∈ authorityStops := by
  intro c found
  unfold takeAuthority at given found
  split at given <;> try contradiction
  obtain ⟨rest, same⟩ := List.head?_eq_some_iff.mp found
  exact cutRest same

theorem parseRooted {text authority rest : List Char} {c : Char} (given : (parse text).authority = some authority)
    (path : (parse text).path = c :: rest) : c = '/' := by
  have whole := cutWhole pathStops (takeAuthority (takeScheme text).2).2
  rw [show (cut pathStops _).1 = c :: rest from path] at whole
  have stop : c ∈ authorityStops := authorityRest given c (by rw [← whole]; rfl)
  have passed : c ∉ pathStops := cutFront (path ▸ List.mem_cons_self)
  simp only [authorityStops, pathStops, List.mem_cons, List.not_mem_nil, or_false, not_or] at stop passed
  rcases stop with root | query | fragment
  · exact root
  · exact absurd query passed.1
  · exact absurd fragment passed.2

theorem schemeOf {name : List Char} (given : name ≠ []) (clean : Clean schemeStops name) (rest : List Char) :
    takeScheme (name ++ ':' :: rest) = (some name, rest) := by
  obtain ⟨c, more, rfl⟩ := List.exists_cons_of_ne_nil given
  have found : cut schemeStops ((c :: more) ++ ':' :: rest) = (c :: more, ':' :: rest) :=
    cutOf clean fun d head => by
      cases Option.some.inj head
      decide
  rw [takeScheme, found]
  rfl

theorem parseScheme {name : List Char} (given : name ≠ []) (clean : Clean schemeStops name) (rest : List Char) :
    (parse (name ++ ':' :: rest)).scheme = some name := by
  rw [parse, schemeOf given clean]

theorem authorityOf {authority rest : List Char} (clean : Clean authorityStops authority)
    (ends : ∀ c ∈ rest.head?, c ∈ authorityStops) :
    takeAuthority (putAuthority (some authority) ++ rest) = (some authority, rest) := by
  have found := cutOf clean ends
  simp only [putAuthority, List.cons_append, takeAuthority, found]

theorem queryOf {query : Option (List Char)} {rest : List Char} (clean : ∀ text ∈ query, Clean queryStops text)
    (ends : ∀ c ∈ rest.head?, c ∈ queryStops) : takeQuery (putQuery query ++ rest) = (query, rest) := by
  cases query with
  | some text =>
    have found := cutOf (clean text rfl) ends
    simp only [putQuery, List.cons_append, takeQuery, found]
  | none =>
    cases rest with
    | nil => rfl
    | cons c rest =>
      have stop := List.mem_singleton.mp (ends c rfl)
      subst stop
      rfl

structure Hierarchical (parts : Parts) (name authority : List Char) : Prop where
  scheme : parts.scheme = some name ∧ name ≠ [] ∧ Clean schemeStops name
  authority : parts.authority = some authority ∧ Clean authorityStops authority
  rooted : ∀ c ∈ parts.path.head?, c = '/'
  path : Clean pathStops parts.path
  query : ∀ query ∈ parts.query, Clean queryStops query

theorem fragmentHead (fragment : Option (List Char)) : ∀ c ∈ (putFragment fragment).head?, c = '#' := by
  cases fragment <;> simp [putFragment]

theorem queryHead (query fragment : Option (List Char)) :
    ∀ c ∈ (putQuery query ++ putFragment fragment).head?, c = '?' ∨ c = '#' := by
  cases query with
  | some text => simp [putQuery]
  | none => exact fun c found => .inr (fragmentHead fragment c found)

theorem parseCompose {parts : Parts} {name authority : List Char} (formed : Hierarchical parts name authority) :
    parse (compose parts) = parts := by
  have fragment : ∀ c ∈ (putFragment parts.fragment).head?, c ∈ queryStops :=
    fun c found => List.mem_singleton.mpr (fragmentHead _ c found)
  have query : ∀ c ∈ (putQuery parts.query ++ putFragment parts.fragment).head?, c ∈ pathStops := by
    intro c found
    rcases queryHead _ _ c found with rfl | rfl <;> decide
  have path : ∀ c ∈ (parts.path ++ (putQuery parts.query ++ putFragment parts.fragment)).head?, c ∈ authorityStops := by
    intro c found
    cases segments : parts.path with
    | nil =>
      rw [segments, List.nil_append] at found
      rcases queryHead _ _ c found with rfl | rfl <;> decide
    | cons d rest =>
      rw [segments] at found
      cases Option.some.inj found
      have root := formed.rooted c (by rw [segments]; rfl)
      subst root
      decide
  have whole : compose parts = name ++ ':' :: (putAuthority (some authority) ++
      (parts.path ++ (putQuery parts.query ++ putFragment parts.fragment))) := by
    simp [compose, formed.scheme.1, formed.authority.1, putScheme]
  rw [whole, parse, schemeOf formed.scheme.2.1 formed.scheme.2.2, authorityOf formed.authority.2 path,
    cutOf formed.path query, queryOf formed.query fragment, ← formed.scheme.1, ← formed.authority.1]
  congr 1
  cases parts.fragment <;> rfl

end VetisTokio.UriReference
