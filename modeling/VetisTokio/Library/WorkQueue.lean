import Mathlib.Data.List.Perm.Subperm
import VetisTokio.Library.Runs

/-! A queue of bounded size that several consumers take from. What was offered is what
was claimed, in order, and then what is waiting: a value of the queue carries that
with it, so each claim is the only one of its entry. -/
namespace VetisTokio.WorkQueue

variable {A : Type}

structure Queue (A : Type) where
  offered : List A
  claimed : List (Nat × A)
  waiting : List A
  capacity : Nat
  whole : offered = claimed.map Prod.snd ++ waiting
  fits : waiting.length ≤ capacity

def Queue.empty (capacity : Nat) : Queue A := ⟨[], [], [], capacity, rfl, Nat.zero_le _⟩

inductive Op (A : Type) where
  | offer (a : A)
  | claim (consumer : Nat) (a : A)

def Queue.offer (q : Queue A) (a : A) (room : q.waiting.length < q.capacity) : Queue A where
  offered := q.offered ++ [a]
  claimed := q.claimed
  waiting := q.waiting ++ [a]
  capacity := q.capacity
  whole := by rw [q.whole, List.append_assoc]
  fits := by rw [List.length_append]; exact room

def Queue.claim (q : Queue A) (consumer : Nat) (a : A) (rest : List A) (first : q.waiting = a :: rest) :
    Queue A where
  offered := q.offered
  claimed := q.claimed ++ [(consumer, a)]
  waiting := rest
  capacity := q.capacity
  whole := by rw [q.whole, first]; simp
  fits := by
    have fits := q.fits
    rw [first, List.length_cons] at fits
    omega

def Queue.step [DecidableEq A] (q : Queue A) : Op A → Option (Queue A)
  | .offer a => if room : q.waiting.length < q.capacity then some (q.offer a room) else none
  | .claim consumer a =>
    match first : q.waiting with
    | [] => none
    | b :: rest => if b = a then some (q.claim consumer b rest first) else none

def share (consumer : Nat) (claims : List (Nat × A)) : List A :=
  (claims.filter (fun claim => claim.1 == consumer)).map Prod.snd

def claimOf : Op A → Option (Nat × A)
  | .claim consumer a => some (consumer, a)
  | .offer _ => none

section
variable [DecidableEq A] {q out : Queue A}

theorem offerTaken {a : A} (room : q.waiting.length < q.capacity) : q.step (.offer a) = some (q.offer a room) := by
  simp [Queue.step, room]

theorem claimTaken {consumer : Nat} {a : A} {rest : List A} (first : q.waiting = a :: rest) :
    q.step (.claim consumer a) = some (q.claim consumer a rest first) := by
  unfold Queue.step
  dsimp only
  split
  · rename_i none
    simp [first] at none
  · rename_i b more place
    cases List.cons.inj (first.symm.trans place) with
    | intro same tail => simp [same, tail]

inductive QueueStep (q : Queue A) : Op A → Queue A → Prop where
  | offered {a} (room : q.waiting.length < q.capacity) : QueueStep q (.offer a) (q.offer a room)
  | claimed {consumer a rest} (first : q.waiting = a :: rest) :
      QueueStep q (.claim consumer a) (q.claim consumer a rest first)

theorem queueSource {op : Op A} (taken : q.step op = some out) : QueueStep q op out := by
  cases op with
  | offer a =>
    simp only [Queue.step] at taken
    split at taken <;> try contradiction
    cases Option.some.inj taken
    exact .offered (by assumption)
  | claim consumer a =>
    simp only [Queue.step] at taken
    split at taken <;> try contradiction
    split at taken <;> try contradiction
    rename_i same
    subst same
    cases Option.some.inj taken
    exact .claimed (by assumption)

theorem capacityStays {op : Op A} (taken : q.step op = some out) : out.capacity = q.capacity := by
  cases queueSource taken <;> rfl

theorem claimsRun {ops : List (Op A)} (ran : Runs.run Queue.step q ops = some out) :
    out.claimed = q.claimed ++ ops.filterMap claimOf ∧ out.capacity = q.capacity := by
  induction ops generalizing q with
  | nil =>
    cases Option.some.inj ran
    simp
  | cons op rest ih =>
    obtain ⟨next, taken, later⟩ := Runs.runCons.mp ran
    obtain ⟨claims, capacity⟩ := ih later
    refine ⟨?_, capacity.trans (capacityStays taken)⟩
    rw [claims]
    cases queueSource taken with
    | offered room => rfl
    | claimed first => simp [Queue.claim, claimOf]

end

theorem shareMore (claims : List (Nat × A)) (i consumer : Nat) (a : A) :
    share i (claims ++ [(consumer, a)]) = if consumer = i then share i claims ++ [a] else share i claims := by
  unfold share
  by_cases same : consumer = i <;> simp [same]

theorem shareApart {claims : List (Nat × A)} {i j : Nat} (other : i ≠ j) :
    share i (claims.filter (fun claim => !(claim.1 == j))) = share i claims := by
  unfold share
  rw [List.filter_filter]
  congr 1
  refine List.filter_congr ?_
  intro claim _
  by_cases same : claim.1 = i
  · simp [same, other]
  · simp [same]

theorem sharesApart (holds : List (List A)) (first : Nat) (claims : List (Nat × A))
    (own : ∀ (k : Nat) hold, holds[k]? = some hold → hold.Sublist (share (first + k) claims)) :
    holds.flatten.Subperm (claims.map Prod.snd) := by
  induction holds generalizing first claims with
  | nil => exact List.nil_subperm
  | cons hold rest ih =>
    have mine : hold.Sublist (share first claims) := own 0 hold rfl
    have others : rest.flatten.Subperm ((claims.filter (fun claim => !(claim.1 == first))).map Prod.snd) := by
      refine ih (first + 1) _ ?_
      intro k other place
      rw [shareApart (by omega), Nat.add_assoc, Nat.add_comm 1 k]
      exact own (k + 1) other place
    have split := List.filter_append_perm (fun claim : Nat × A => claim.1 == first) claims
    rw [List.flatten_cons]
    refine (mine.subperm.append others).trans ?_
    rw [share, ← List.map_append]
    exact (split.map Prod.snd).subperm

end VetisTokio.WorkQueue
