import Mathlib.Data.List.Basic

/-! A map with several values to a key, as the list of its rows. The values of a key
keep their order; replacing puts one value in the place of them all. -/
namespace VetisTokio.MultiMap

variable {K V : Type} [DecidableEq K]

def values (rows : List (K × V)) (k : K) : List V := (rows.filter (fun row => row.1 == k)).map Prod.snd

def replace (rows : List (K × V)) (k : K) (v : V) : List (K × V) := rows.filter (fun row => row.1 != k) ++ [(k, v)]

def replaceAll (rows more : List (K × V)) : List (K × V) := more.foldl (fun rows row => replace rows row.1 row.2) rows

variable {rows more : List (K × V)} {k : K} {v : V}

theorem valuesReplaced : values (replace rows k v) k = [v] := by
  have gone : (rows.filter (fun row => row.1 != k)).filter (fun row => row.1 == k) = [] := by
    simp [List.filter_eq_nil_iff]
  simp [values, replace, List.filter_append, gone]

theorem valuesKept {other : K} (different : other ≠ k) : values (replace rows k v) other = values rows other := by
  have passed : (rows.filter (fun row => row.1 != k)).filter (fun row => row.1 == other) =
      rows.filter (fun row => row.1 == other) := by
    rw [List.filter_filter]
    refine List.filter_congr fun row _ => ?_
    by_cases same : row.1 = other
    · simp [same, different]
    · simp [same]
  simp [values, replace, List.filter_append, passed, different.symm]

theorem valuesAllKept (absent : ∀ row ∈ more, k ≠ row.1) : values (replaceAll rows more) k = values rows k := by
  induction more generalizing rows with
  | nil => rfl
  | cons row rest ih =>
    obtain ⟨different, others⟩ := List.forall_mem_cons.mp absent
    exact (ih others).trans (valuesKept different)

theorem valuesAllReplaced (apart : more.Pairwise (fun row other => row.1 ≠ other.1)) {row : K × V} (member : row ∈ more) :
    values (replaceAll rows more) row.1 = [row.2] := by
  induction more generalizing rows with
  | nil => contradiction
  | cons head rest ih =>
    obtain ⟨different, others⟩ := List.pairwise_cons.mp apart
    rcases List.mem_cons.mp member with rfl | inside
    · exact (valuesAllKept different).trans valuesReplaced
    · exact ih others inside

end VetisTokio.MultiMap
