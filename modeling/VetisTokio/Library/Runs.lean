import Mathlib.Data.List.Basic

/-! Runs of a partial step function. A run is the list of its labels, so every
statement about a run names the order of its steps; nothing here assumes a
scheduler. A state that is reached is one that some run of labels produces. -/
namespace VetisTokio.Runs

variable {S L : Type}

def run (step : S → L → Option S) : S → List L → Option S
  | s, [] => some s
  | s, l :: rest => (step s l).bind (fun next => run step next rest)

variable {step : S → L → Option S}

@[simp] theorem runNil (s : S) : run step s [] = some s := rfl

theorem runCons {s : S} {l : L} {rest : List L} {out : S} :
    run step s (l :: rest) = some out ↔ ∃ next, step s l = some next ∧ run step next rest = some out := by
  simp only [run, Option.bind_eq_some_iff]

theorem runAppend {s : S} {first second : List L} {out : S} :
    run step s (first ++ second) = some out ↔
      ∃ middle, run step s first = some middle ∧ run step middle second = some out := by
  induction first generalizing s with
  | nil => simp
  | cons l rest ih =>
    rw [List.cons_append, runCons]
    refine ⟨?_, ?_⟩
    · intro ⟨next, taken, later⟩
      obtain ⟨middle, before, after⟩ := ih.mp later
      exact ⟨middle, runCons.mpr ⟨next, taken, before⟩, after⟩
    · intro ⟨middle, before, after⟩
      obtain ⟨next, taken, later⟩ := runCons.mp before
      exact ⟨next, taken, ih.mpr ⟨middle, later, after⟩⟩

theorem runSingle {s : S} {l : L} {out : S} : run step s [l] = some out ↔ step s l = some out := by
  rw [runCons]
  refine ⟨?_, fun taken => ⟨out, taken, rfl⟩⟩
  intro ⟨next, taken, last⟩
  cases Option.some.inj last
  exact taken

theorem runLifted {T M : Type} {outer : T → M → Option T} (lift : S → T) {label : L → M}
    (same : ∀ s l, outer (lift s) (label l) = (step s l).map lift) {s out : S} {labels : List L}
    (ran : run step s labels = some out) : run outer (lift s) (labels.map label) = some (lift out) := by
  induction labels generalizing s with
  | nil =>
    cases Option.some.inj ran
    rfl
  | cons l rest ih =>
    obtain ⟨next, taken, later⟩ := runCons.mp ran
    exact runCons.mpr ⟨lift next, by rw [same, taken, Option.map_some], ih later⟩

theorem observedMore {A : Type} (f : L → Option A) (past : List L) (l : L) :
    (past ++ [l]).filterMap f = past.filterMap f ++ (f l).toList := by
  cases seen : f l <;> simp [seen]

/- Every step of the run meets a condition on the state it is taken from and on
its label. The run decides which states these are, so the condition never
speaks about what the step produces. -/
def Meets (step : S → L → Option S) (condition : S → L → Prop) : S → List L → Prop
  | _, [] => True
  | s, l :: rest => condition s l ∧ ∀ next, step s l = some next → Meets step condition next rest

variable {condition : S → L → Prop}

theorem meetsCons {s next : S} {l : L} {rest : List L} (here : condition s l) (taken : step s l = some next)
    (later : Meets step condition next rest) : Meets step condition s (l :: rest) := by
  refine ⟨here, ?_⟩
  intro other same
  cases Option.some.inj (taken.symm.trans same)
  exact later

theorem meetsAppend {s middle : S} {first second : List L}
    (meets : Meets step condition s (first ++ second)) (ran : run step s first = some middle) :
    Meets step condition s first ∧ Meets step condition middle second := by
  induction first generalizing s with
  | nil =>
    cases Option.some.inj ran
    exact ⟨trivial, meets⟩
  | cons l rest ih =>
    obtain ⟨next, taken, later⟩ := runCons.mp ran
    have tail := ih (meets.2 next taken) later
    exact ⟨meetsCons meets.1 taken tail.1, tail.2⟩

theorem meetsMember {s out : S} {l : L} {labels : List L} (meets : Meets step condition s labels)
    (ran : run step s labels = some out) (member : l ∈ labels) : ∃ state, condition state l := by
  obtain ⟨before, after, rfl⟩ := List.append_of_mem member
  obtain ⟨state, earlier, _⟩ := runAppend.mp ran
  exact ⟨state, (meetsAppend meets earlier).2.1⟩

theorem meetsOfForall {s : S} {labels : List L} (all : ∀ l ∈ labels, ∀ state, condition state l) :
    Meets step condition s labels := by
  induction labels generalizing s with
  | nil => trivial
  | cons l rest ih =>
    exact ⟨all l List.mem_cons_self s,
      fun _ _ => ih (fun later member => all later (List.mem_cons_of_mem l member))⟩

/- The one induction: what every step preserves, given what the run has done so
far and the condition on the step, holds at the end of the run. -/
theorem historyInvariantFrom (inv : List L → S → Prop) (condition : S → L → Prop)
    (keep : ∀ {past s l next}, inv past s → condition s l → step s l = some next → inv (past ++ [l]) next)
    {past labels : List L} {s out : S} (start : inv past s) (meets : Meets step condition s labels)
    (ran : run step s labels = some out) : inv (past ++ labels) out := by
  induction labels generalizing past s with
  | nil =>
    cases Option.some.inj ran
    simpa using start
  | cons l rest ih =>
    obtain ⟨next, taken, later⟩ := runCons.mp ran
    have done := ih (keep start meets.1 taken) (meets.2 next taken) later
    simpa using done

theorem historyInvariant (inv : List L → S → Prop) (condition : S → L → Prop)
    (keep : ∀ {past s l next}, inv past s → condition s l → step s l = some next → inv (past ++ [l]) next)
    {labels : List L} {s out : S} (start : inv [] s) (meets : Meets step condition s labels)
    (ran : run step s labels = some out) : inv labels out := by
  simpa using historyInvariantFrom inv condition keep start meets ran

theorem invariantUnder (inv : S → Prop) (condition : S → L → Prop)
    (keep : ∀ {s l next}, inv s → condition s l → step s l = some next → inv next)
    {labels : List L} {s out : S} (start : inv s) (meets : Meets step condition s labels)
    (ran : run step s labels = some out) : inv out :=
  historyInvariant (fun _ state => inv state) condition (fun before holds taken => keep before holds taken)
    start meets ran

theorem invariant (inv : S → Prop) (keep : ∀ {s l next}, inv s → step s l = some next → inv next)
    {labels : List L} {s out : S} (start : inv s) (ran : run step s labels = some out) : inv out :=
  invariantUnder inv (fun _ _ => True) (fun before _ taken => keep before taken) start
    (meetsOfForall (fun _ _ _ => trivial)) ran

theorem runUntil (inv done : S → Prop) (left : S → Nat)
    (nearer : ∀ s, inv s → ¬ done s → ∃ l next, step s l = some next ∧ inv next ∧ left next < left s)
    {s : S} (start : inv s) : ∃ labels out, run step s labels = some out ∧ done out := by
  induction size : left s using Nat.strongRecOn generalizing s with
  | ind n ih =>
    by_cases finished : done s
    · exact ⟨[], s, rfl, finished⟩
    · obtain ⟨l, next, taken, holds, less⟩ := nearer s start finished
      obtain ⟨labels, out, ran, ends⟩ := ih (left next) (size ▸ less) holds rfl
      exact ⟨l :: labels, out, runCons.mpr ⟨next, taken, ran⟩, ends⟩

def only (allowed : L → Bool) (step : S → L → Option S) (s : S) (l : L) : Option S :=
  if allowed l then step s l else none

theorem onlyRun {allowed : L → Bool} {s out : S} {labels : List L} (ran : run (only allowed step) s labels = some out) :
    run step s labels = some out ∧ ∀ l ∈ labels, allowed l = true := by
  induction labels generalizing s with
  | nil => exact ⟨ran, by simp⟩
  | cons l rest ih =>
    obtain ⟨next, taken, later⟩ := runCons.mp ran
    unfold only at taken
    split at taken <;> try contradiction
    obtain ⟨plain, all⟩ := ih later
    exact ⟨runCons.mpr ⟨next, taken, plain⟩, List.forall_mem_cons.mpr ⟨by assumption, all⟩⟩

def stepAt {C M : Type} (step : C → M → Option C) (row : List C) (i : Nat) (l : M) : Option (List C) := do
  let c ← row[i]?
  let next ← step c l
  some (row.set i next)

theorem stepAtSource {C M : Type} {step : C → M → Option C} {row out : List C} {i : Nat} {l : M}
    (taken : stepAt step row i l = some out) :
    ∃ c next, row[i]? = some c ∧ step c l = some next ∧ out = row.set i next := by
  simp only [stepAt, bind, Option.bind_eq_some_iff] at taken
  obtain ⟨c, found, next, moved, last⟩ := taken
  exact ⟨c, next, found, moved, (Option.some.inj last).symm⟩

theorem stepAtLength {C M : Type} {step : C → M → Option C} {row out : List C} {i : Nat} {l : M}
    (taken : stepAt step row i l = some out) : out.length = row.length := by
  obtain ⟨c, next, _, _, rfl⟩ := stepAtSource taken
  exact List.length_set

theorem stepAtForall {C M : Type} {step : C → M → Option C} {row out : List C} {i : Nat} {l : M}
    {p : C → Prop} (all : ∀ c ∈ row, p c) (taken : stepAt step row i l = some out)
    (keep : ∀ {c next}, row[i]? = some c → p c → step c l = some next → p next) : ∀ c ∈ out, p c := by
  obtain ⟨c, next, found, moved, rfl⟩ := stepAtSource taken
  intro other member
  rcases List.mem_or_eq_of_mem_set member with old | same
  · exact all other old
  · subst other
    exact keep found (all c (List.mem_of_getElem? found)) moved

end VetisTokio.Runs
