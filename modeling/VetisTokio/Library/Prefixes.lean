import Mathlib.Data.List.MinMax
import Mathlib.Data.List.Infix

/-! The longest of some keys that a text starts with. -/
namespace VetisTokio.Prefixes

variable {A : Type}

structure Longest (keys : List A → Prop) (text key : List A) : Prop where
  among : keys key
  starts : key <+: text
  longest : ∀ other, keys other → other <+: text → other.length ≤ key.length

theorem longestUnique {keys : List A → Prop} {text one other : List A} (first : Longest keys text one)
    (second : Longest keys text other) : one = other := by
  have shorter := second.longest one first.among first.starts
  have longer := first.longest other second.among second.starts
  exact (List.prefix_of_prefix_length_le first.starts second.starts shorter).eq_of_length
    (Nat.le_antisymm shorter longer)

theorem longestWhole {keys : List A → Prop} {text : List A} (key : keys text) : Longest keys text text :=
  ⟨key, List.prefix_refl text, fun _ _ starts => starts.length_le⟩

def longestOf [DecidableEq A] (keys : List (List A)) (text : List A) : Option (List A) :=
  (keys.filter (fun key => decide (key <+: text))).argmax List.length

theorem longestOfSource [DecidableEq A] {keys : List (List A)} {text key : List A}
    (found : longestOf keys text = some key) : Longest (fun other => other ∈ keys) text key := by
  have member := List.argmax_mem (Option.mem_def.mpr found)
  rw [List.mem_filter, decide_eq_true_eq] at member
  refine ⟨member.1, member.2, ?_⟩
  intro other inside starts
  exact List.le_of_mem_argmax (List.mem_filter.mpr ⟨inside, decide_eq_true starts⟩) found

theorem longestOfNone [DecidableEq A] {keys : List (List A)} {text : List A} (missing : longestOf keys text = none) :
    ∀ key ∈ keys, ¬ key <+: text := by
  rw [longestOf, List.argmax_eq_none, List.filter_eq_nil_iff] at missing
  intro key member starts
  exact missing key member (decide_eq_true starts)

end VetisTokio.Prefixes
