import VetisTokio.Library.Rows
import VetisTokio.Library.Runs

/-! A system and its parts. What a run of the system does to one part is a run of that
part alone, on the labels that are its own. -/
namespace VetisTokio.Components
open Runs

variable {S L C M : Type} {step : S → L → Option S} {inner : C → M → Option C}

/- Where a part is looked up, if it is there, and which labels are its own. A part may
come into being on the way, and is then in its first state. -/
structure Part (step : S → L → Option S) (inner : C → M → Option C) (inv : S → Prop) (look : S → Option C)
    (own : L → Option M) (first : C) : Prop where
  keep : ∀ {s l next}, inv s → step s l = some next → inv next
  moved : ∀ {s l next c m}, inv s → step s l = some next → look s = some c → own l = some m →
    ∃ d, inner c m = some d ∧ look next = some d
  left : ∀ {s l next c}, inv s → step s l = some next → look s = some c → own l = none → look next = some c
  born : ∀ {s l next}, inv s → step s l = some next → look s = none →
    own l = none ∧ (look next = none ∨ look next = some first)

section
variable {inv : S → Prop} {look : S → Option C} {own : L → Option M} {first : C}

theorem partRun (part : Part step inner inv look own first) {s out : S} {c : C} {labels : List L} (start : inv s)
    (here : look s = some c) (ran : run step s labels = some out) :
    ∃ d, look out = some d ∧ run inner c (labels.filterMap own) = some d := by
  induction labels generalizing s c with
  | nil =>
    cases Option.some.inj ran
    exact ⟨c, here, rfl⟩
  | cons l rest ih =>
    obtain ⟨next, taken, later⟩ := runCons.mp ran
    cases mine : own l with
    | none =>
      rw [List.filterMap_cons_none mine]
      exact ih (part.keep start taken) (part.left start taken here mine) later
    | some m =>
      obtain ⟨d, moved, there⟩ := part.moved start taken here mine
      obtain ⟨last, place, ran⟩ := ih (part.keep start taken) there later
      rw [List.filterMap_cons_some mine]
      exact ⟨last, place, runCons.mpr ⟨d, moved, ran⟩⟩

theorem presentBefore {look : S → Option C} (absent : ∀ {s l next}, look s = none → step s l = some next → look next = none)
    {s out : S} {d : C} {labels : List L} (ran : run step s labels = some out) (here : look out = some d) :
    ∃ first, look s = some first := by
  cases begun : look s with
  | some first => exact ⟨first, rfl⟩
  | none =>
    have missing := invariant (fun s => look s = none) absent begun ran
    rw [missing] at here
    contradiction

theorem partBorn (part : Part step inner inv look own first) {s out : S} {d : C} {labels : List L} (start : inv s)
    (absent : look s = none) (ran : run step s labels = some out) (there : look out = some d) :
    run inner first (labels.filterMap own) = some d := by
  induction labels generalizing s with
  | nil =>
    cases Option.some.inj ran
    rw [absent] at there
    contradiction
  | cons l rest ih =>
    obtain ⟨next, taken, later⟩ := runCons.mp ran
    obtain ⟨foreign, look⟩ := part.born start taken absent
    rw [List.filterMap_cons_none foreign]
    rcases look with still | begun
    · exact ih (part.keep start taken) still later
    · obtain ⟨last, place, ran⟩ := partRun part (part.keep start taken) begun later
      cases Option.some.inj (there.symm.trans place)
      exact ran

end

end VetisTokio.Components
