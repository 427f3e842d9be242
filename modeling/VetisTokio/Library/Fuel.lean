import Mathlib.Data.List.Basic

/-! Loops that are given fuel: a run is what has been done when the fuel is spent, and
once it is over more fuel changes nothing. -/
namespace VetisTokio.Fuel

variable {A : Type}

structure Settled (done : A → Prop) (run : Nat → A) : Prop where
  step : ∀ fuel, done (run fuel) → run (fuel + 1) = run fuel

def Ends (done : A → Prop) (run : Nat → A) : Prop := ∃ fuel, done (run fuel)

section
variable {done : A → Prop} {run : Nat → A}

theorem settledMore (settled : Settled done run) {fuel : Nat} (ended : done (run fuel)) (more : Nat) :
    run (fuel + more) = run fuel := by
  induction more with
  | zero => rfl
  | succ more ih => rw [← Nat.add_assoc, settled.step _ (ih ▸ ended), ih]

theorem settledLater (settled : Settled done run) {fuel later : Nat} (ended : done (run fuel)) (le : fuel ≤ later) :
    run later = run fuel := by
  obtain ⟨more, rfl⟩ := Nat.exists_eq_add_of_le le
  exact settledMore settled ended more

theorem commonFuel {runs : List (Nat → A)} (settled : ∀ run ∈ runs, Settled done run)
    (ends : ∀ run ∈ runs, Ends done run) : ∃ fuel, ∀ later, fuel ≤ later → ∀ run ∈ runs, done (run later) := by
  induction runs with
  | nil => exact ⟨0, by simp⟩
  | cons run rest ih =>
    obtain ⟨first, ended⟩ := ends run List.mem_cons_self
    obtain ⟨others, all⟩ := ih (fun run member => settled run (List.mem_cons_of_mem _ member))
      (fun run member => ends run (List.mem_cons_of_mem _ member))
    refine ⟨max first others, ?_⟩
    intro later enough other member
    rcases List.mem_cons.mp member with rfl | inside
    · rw [settledLater (settled _ List.mem_cons_self) ended (Nat.le_trans (Nat.le_max_left _ _) enough)]
      exact ended
    · exact all later (Nat.le_trans (Nat.le_max_right _ _) enough) other inside

end

end VetisTokio.Fuel
