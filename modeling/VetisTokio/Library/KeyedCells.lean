import Mathlib.Data.List.Basic
import Mathlib.Logic.Function.Basic

/-! A vector of cells addressed by a key that each cell carries, with one
operation: change the cell of a key in place, or push a new one. The vector is
a finite map as long as no two cells have the same key, and the operation is an
update of that map at one point. -/
namespace VetisTokio.KeyedCells

variable {C K : Type} [DecidableEq K]

def view (key : C → K) (cells : List C) (k : K) : Option C := cells.find? (fun c => key c == k)

def upsert (key : C → K) (k : K) (base : C) (change : C → C) (cells : List C) : List C :=
  match cells.findIdx? (fun c => key c == k) with
  | some i => cells.modify i change
  | none => cells ++ [change base]

def Distinct (key : C → K) (cells : List C) : Prop := (cells.map key).Nodup

variable {key : C → K} {k : K} {base : C} {change : C → C} {cells : List C}

theorem viewSource {c : C} (h : view key cells k = some c) : c ∈ cells ∧ key c = k :=
  ⟨List.mem_of_find?_eq_some h, by simpa using List.find?_some h⟩

theorem viewNone : view key cells k = none ↔ ∀ c ∈ cells, key c ≠ k := by
  simp [view, List.find?_eq_none]

theorem viewOfMem (distinct : Distinct key cells) {c : C} (member : c ∈ cells) :
    view key cells (key c) = some c := by
  induction cells with
  | nil => simp at member
  | cons head tail ih =>
    obtain ⟨fresh, rest⟩ := List.nodup_cons.mp (by simpa [Distinct] using distinct :
      (key head :: tail.map key).Nodup)
    rcases List.mem_cons.mp member with rfl | inside
    · simp [view]
    · have different : key head ≠ key c := fun same => fresh (same ▸ List.mem_map_of_mem inside)
      simpa [view, List.find?_cons, different] using ih rest inside

theorem upsertCases (key : C → K) (k : K) (base : C) (change : C → C) (cells : List C) :
    (∃ before c after, cells = before ++ c :: after ∧ key c = k ∧ (∀ d ∈ before, key d ≠ k) ∧
      upsert key k base change cells = before ++ change c :: after) ∨
    ((∀ c ∈ cells, key c ≠ k) ∧ upsert key k base change cells = cells ++ [change base]) := by
  cases found : cells.findIdx? (fun c => key c == k) with
  | none =>
    right
    refine ⟨?_, by simp [upsert, found]⟩
    simpa using List.findIdx?_eq_none_iff.mp found
  | some i =>
    left
    obtain ⟨inside, hit, first⟩ := List.findIdx?_eq_some_iff_getElem.mp found
    refine ⟨cells.take i, cells[i], cells.drop (i + 1), ?_, by simpa using hit, ?_, ?_⟩
    · simp
    · intro d member
      obtain ⟨j, below, rfl⟩ := List.mem_take_iff_getElem.mp member
      simpa using first j (by omega)
    · simp [upsert, found, List.modify_eq_take_cons_drop inside]

theorem upsertKeys {change : C → C} (cells : List C) (keeps : ∀ c, key (change c) = key c) (fresh : key base = k) :
    (upsert key k base change cells).map key = cells.map key ∧ k ∈ cells.map key ∨
    (upsert key k base change cells).map key = cells.map key ++ [k] ∧ k ∉ cells.map key := by
  rcases upsertCases key k base change cells with
      ⟨before, c, after, rfl, hit, _, out⟩ | ⟨absent, out⟩
  · left
    rw [out]
    simp [keeps, hit]
  · right
    rw [out]
    refine ⟨by simp [keeps, fresh], ?_⟩
    intro member
    obtain ⟨c, inside, same⟩ := List.mem_map.mp member
    exact absent c inside same

theorem upsertDistinct (keeps : ∀ c, key (change c) = key c) (fresh : key base = k)
    (distinct : Distinct key cells) : Distinct key (upsert key k base change cells) := by
  rcases upsertKeys cells keeps fresh with ⟨same, _⟩ | ⟨more, absent⟩
  · simpa only [Distinct, same] using distinct
  · rw [Distinct, more]
    exact List.nodup_append.mpr ⟨distinct, by simp, by
      intro a inside b last
      cases List.mem_singleton.mp last
      exact fun same => absent (same ▸ inside)⟩

theorem viewUpsert {change : C → C} (cells : List C) (keeps : ∀ c, key (change c) = key c) (fresh : key base = k) :
    view key (upsert key k base change cells) =
      Function.update (view key cells) k (some (change ((view key cells k).getD base))) := by
  funext other
  rcases upsertCases key k base change cells with
      ⟨before, c, after, rfl, hit, absent, out⟩ | ⟨absent, out⟩
  · have skipped : before.find? (fun d => key d == k) = none := by
      simpa [List.find?_eq_none] using absent
    by_cases same : other = k
    · subst other
      simp [out, view, List.find?_append, skipped, keeps, hit]
    · have passed : ¬ key c = other := fun h => same (h.symm.trans hit)
      simp [out, view, List.find?_append, keeps, passed, Function.update_of_ne same]
  · have missing := viewNone.mpr absent
    by_cases same : other = k
    · subst other
      rw [Function.update_self, missing, Option.getD_none, out]
      have skipped : cells.find? (fun d => key d == key base) = none := fresh ▸ missing
      simp [view, List.find?_append, keeps, ← fresh, skipped]
    · have passed : ¬ k = other := fun h => same h.symm
      simp [out, view, List.find?_append, keeps, fresh, passed, Function.update_of_ne same]

theorem upsertNonempty : upsert key k base change cells ≠ [] := by
  rcases upsertCases key k base change cells with ⟨before, c, after, _, _, _, out⟩ | ⟨_, out⟩
  · simp [out]
  · simp [out]

def Has (key : C → K) (wanted : C → Prop) (cells : List C) (k : K) : Prop := ∃ c ∈ cells, key c = k ∧ wanted c

theorem upsertHas {wanted : C → Prop} (keeps : ∀ c, key (change c) = key c) (fresh : key base = k)
    (made : ∀ c, wanted (change c)) (other : K) :
    Has key wanted (upsert key k base change cells) other ↔ Has key wanted cells other ∨ other = k := by
  rcases upsertCases key k base change cells with
      ⟨before, c, after, rfl, hit, _, out⟩ | ⟨_, out⟩
  · rw [out]
    simp only [Has, List.mem_append, List.mem_cons]
    constructor
    · rintro ⟨d, left | rfl | right, keyed, holds⟩
      · exact .inl ⟨d, .inl left, keyed, holds⟩
      · exact .inr (keyed.symm.trans ((keeps c).trans hit))
      · exact .inl ⟨d, .inr (.inr right), keyed, holds⟩
    · rintro (⟨d, left | rfl | right, keyed, holds⟩ | rfl)
      · exact ⟨d, .inl left, keyed, holds⟩
      · exact ⟨change d, .inr (.inl rfl), (keeps d).trans keyed, made d⟩
      · exact ⟨d, .inr (.inr right), keyed, holds⟩
      · exact ⟨change c, .inr (.inl rfl), (keeps c).trans hit, made c⟩
  · rw [out]
    simp only [Has, List.mem_append, List.mem_singleton]
    constructor
    · rintro ⟨d, old | rfl, keyed, holds⟩
      · exact .inl ⟨d, old, keyed, holds⟩
      · exact .inr (keyed.symm.trans ((keeps base).trans fresh))
    · rintro (⟨d, old, keyed, holds⟩ | rfl)
      · exact ⟨d, .inl old, keyed, holds⟩
      · exact ⟨change base, .inr rfl, (keeps base).trans fresh, made base⟩

theorem upsertKeepsHas {wanted : C → Prop} (keeps : ∀ c, key (change c) = key c)
    (stays : ∀ c, wanted c → wanted (change c)) {other : K} (has : Has key wanted cells other) :
    Has key wanted (upsert key k base change cells) other := by
  obtain ⟨d, member, keyed, holds⟩ := has
  rcases upsertCases key k base change cells with ⟨before, c, after, rfl, _, _, out⟩ | ⟨_, out⟩
  · rw [out]
    rcases List.mem_append.mp member with left | inside
    · exact ⟨d, List.mem_append_left _ left, keyed, holds⟩
    · rcases List.mem_cons.mp inside with rfl | right
      · exact ⟨change d, by simp, (keeps d).trans keyed, stays d holds⟩
      · exact ⟨d, by simp [right], keyed, holds⟩
  · rw [out]
    exact ⟨d, List.mem_append_left _ member, keyed, holds⟩

theorem upsertForallAt {wanted : C → Prop} (stays : ∀ c, key c = k → wanted c → wanted (change c))
    (fresh : wanted (change base)) (all : ∀ c ∈ cells, wanted c) : ∀ c ∈ upsert key k base change cells, wanted c := by
  rcases upsertCases key k base change cells with ⟨before, c, after, rfl, hit, _, out⟩ | ⟨_, out⟩
  · rw [out]
    simp only [List.forall_mem_append, List.forall_mem_cons] at all ⊢
    exact ⟨all.1, stays c hit all.2.1, all.2.2⟩
  · rw [out]
    simp only [List.forall_mem_append, List.forall_mem_cons]
    exact ⟨all, fresh, by simp⟩

theorem upsertForall {wanted : C → Prop} (stays : ∀ c, wanted c → wanted (change c)) (fresh : wanted base)
    (all : ∀ c ∈ cells, wanted c) : ∀ c ∈ upsert key k base change cells, wanted c :=
  upsertForallAt (fun c _ => stays c) (stays base fresh) all

variable {fresh : K → C}

def upsertAll (key : C → K) (fresh : K → C) (change : C → C) (cells : List C) (keys : List K) : List C :=
  keys.foldl (fun cells k => upsert key k (fresh k) change cells) cells

/- A key that comes twice is changed twice, so the change has to be one that
makes no difference the second time. -/
theorem viewUpsertAll (keeps : ∀ c, key (change c) = key c) (keyed : ∀ k, key (fresh k) = k)
    (again : ∀ c, change (change c) = change c) (keys : List K) (cells : List C) (k : K) :
    view key (upsertAll key fresh change cells keys) k =
      if k ∈ keys then some (change ((view key cells k).getD (fresh k))) else view key cells k := by
  induction keys generalizing cells with
  | nil => simp [upsertAll]
  | cons head rest ih =>
    have step := viewUpsert cells keeps (keyed head)
    have later := ih (upsert key head (fresh head) change cells)
    rw [step] at later
    refine later.trans ?_
    rcases eq_or_ne k head with rfl | other
    · rw [Function.update_self, Option.getD_some, again]
      simp
    · rw [Function.update_of_ne other]
      simp [other]

theorem upsertAllDistinct (keeps : ∀ c, key (change c) = key c) (keyed : ∀ k, key (fresh k) = k) (keys : List K)
    {cells : List C} (distinct : Distinct key cells) : Distinct key (upsertAll key fresh change cells keys) := by
  induction keys generalizing cells with
  | nil => exact distinct
  | cons head rest ih => exact ih (upsertDistinct keeps (keyed head) distinct)

theorem upsertAllPrefix (keeps : ∀ c, key (change c) = key c) (keyed : ∀ k, key (fresh k) = k) (keys : List K)
    (cells : List C) : cells.map key <+: (upsertAll key fresh change cells keys).map key := by
  induction keys generalizing cells with
  | nil => exact List.prefix_refl _
  | cons head rest ih =>
    refine List.IsPrefix.trans ?_ (ih (upsert key head (fresh head) change cells))
    rcases upsertKeys cells keeps (keyed head) with ⟨same, _⟩ | ⟨more, _⟩
    · exact same ▸ List.prefix_refl _
    · rw [more]
      exact List.prefix_append _ _

end VetisTokio.KeyedCells
