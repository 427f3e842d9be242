import VetisTokio.Library.Runs

/-! A machine beside the specification of it. A step of the machine shows as one step
of the specification or as none, and then a run of the machine shows as a run of
the specification. -/
namespace VetisTokio.Refinement
open Runs

variable {S L A M : Type} {step : S → L → Option S} {spec : A → M → Option A} {shown : S → L → Option M}

def shownBy (step : S → L → Option S) (shown : S → L → Option M) : S → List L → List M
  | _, [] => []
  | s, l :: rest => (shown s l).toList ++ (step s l).elim [] (fun next => shownBy step shown next rest)

structure Refines (step : S → L → Option S) (spec : A → M → Option A) (shown : S → L → Option M)
    (models : S → A → Prop) : Prop where
  seen : ∀ {s l next a m}, models s a → step s l = some next → shown s l = some m →
    ∃ b, spec a m = some b ∧ models next b
  unseen : ∀ {s l next a}, models s a → step s l = some next → shown s l = none → models next a

theorem runRefined {models : S → A → Prop} (refines : Refines step spec shown models) {s out : S} {a : A}
    {labels : List L} (start : models s a) (ran : run step s labels = some out) :
    ∃ b, run spec a (shownBy step shown s labels) = some b ∧ models out b := by
  induction labels generalizing s a with
  | nil =>
    cases Option.some.inj ran
    exact ⟨a, rfl, start⟩
  | cons l rest ih =>
    obtain ⟨next, taken, later⟩ := runCons.mp ran
    simp only [shownBy, taken, Option.elim_some]
    cases look : shown s l with
    | none => exact ih (refines.unseen start taken look) later
    | some m =>
      obtain ⟨b, moved, models⟩ := refines.seen start taken look
      obtain ⟨c, same, last⟩ := ih models later
      exact ⟨c, runCons.mpr ⟨b, moved, same⟩, last⟩

theorem shownPart {B : Type} {f : M → Option B} {g : L → Option B} (part : ∀ s l, (shown s l).bind f = g l)
    {s out : S} {labels : List L} (ran : run step s labels = some out) :
    (shownBy step shown s labels).filterMap f = labels.filterMap g := by
  induction labels generalizing s with
  | nil => rfl
  | cons l rest ih =>
    obtain ⟨next, taken, later⟩ := runCons.mp ran
    simp only [shownBy, taken, Option.elim_some, List.filterMap_append, ih later, List.filterMap_cons, ← part s l]
    cases shown s l with
    | none => rfl
    | some m => cases seen : f m <;> simp [seen]

end VetisTokio.Refinement
