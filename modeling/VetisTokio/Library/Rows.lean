import Mathlib.Data.List.Basic

/-! Rows whose places are never given up: an entry may change, as far as a
relation allows, and new entries come at the end. -/
namespace VetisTokio.Rows

variable {A B : Type} {R : A → A → Prop}

theorem setKeeps {row : List A} {i j : Nat} {a b c : A} (found : row[i]? = some a) (place : row[j]? = some c) :
    (j = i ∧ c = a ∧ (row.set i b)[j]? = some b) ∨ (j ≠ i ∧ (row.set i b)[j]? = some c) := by
  rcases eq_or_ne j i with rfl | other
  · have inside : j < row.length := (List.getElem?_eq_some_iff.mp found).1
    exact Or.inl ⟨rfl, Option.some.inj (place.symm.trans found), List.getElem?_set_self inside⟩
  · exact Or.inr ⟨other, by rw [List.getElem?_set_ne other.symm]; exact place⟩

theorem setSource {row : List A} {i j : Nat} {a b c : A} (found : row[i]? = some a)
    (place : (row.set i b)[j]? = some c) : (j = i ∧ c = b) ∨ (j ≠ i ∧ row[j]? = some c) := by
  rcases eq_or_ne j i with rfl | other
  · rw [List.getElem?_set_self (List.getElem?_eq_some_iff.mp found).1] at place
    exact Or.inl ⟨rfl, (Option.some.inj place).symm⟩
  · rw [List.getElem?_set_ne other.symm] at place
    exact Or.inr ⟨other, place⟩

def total (f : A → Nat) : List A → Nat
  | [] => 0
  | a :: rest => f a + total f rest

theorem totalSet (f : A → Nat) {row : List A} {i : Nat} {a b : A} (found : row[i]? = some a) (less : f b < f a) :
    total f (row.set i b) < total f row := by
  induction row generalizing i with
  | nil => simp at found
  | cons c rest ih =>
    cases i with
    | zero =>
      cases Option.some.inj found
      simp only [List.set_cons_zero, total]
      omega
    | succ i =>
      have rest := ih found
      simp only [List.set_cons_succ, total]
      omega

theorem totalMap (f : A → Nat) (row : List A) : total f row = total id (row.map f) := by
  induction row with
  | nil => rfl
  | cons a rest ih => rw [total, ih, List.map_cons, total, id]

theorem totalMore (f : A → Nat) (row : List A) (a : A) : total f (row ++ [a]) = total f row + f a := by
  induction row with
  | nil => simp [total]
  | cons b rest ih => rw [List.cons_append, total, ih, total, Nat.add_assoc]

theorem appendKeeps {row : List A} {i : Nat} {a : A} (place : row[i]? = some a) (more : List A) :
    (row ++ more)[i]? = some a := by
  rw [List.getElem?_append_left (List.getElem?_eq_some_iff.mp place).1]
  exact place

theorem appendSource {row : List A} {i : Nat} {a b : A} (place : (row ++ [b])[i]? = some a) :
    (i = row.length ∧ a = b) ∨ row[i]? = some a := by
  rcases Nat.lt_trichotomy i row.length with old | rfl | beyond
  · rw [List.getElem?_append_left old] at place
    exact Or.inr place
  · rw [List.getElem?_concat_length] at place
    exact Or.inl ⟨rfl, (Option.some.inj place).symm⟩
  · rw [List.getElem?_eq_none (by simp; omega)] at place
    contradiction

def Grows (R : A → A → Prop) (before after : List A) : Prop :=
  ∀ (i : Nat) (a : A), before[i]? = some a → ∃ b, after[i]? = some b ∧ R a b

theorem growsRefl (refl : ∀ a, R a a) (row : List A) : Grows R row row := fun _ a place => ⟨a, place, refl a⟩

theorem growsEmpty (after : List A) : Grows R [] after := by
  intro i a place
  simp at place

theorem growsTrans (trans : ∀ a b c, R a b → R b c → R a c) {first second third : List A}
    (early : Grows R first second) (late : Grows R second third) : Grows R first third := by
  intro i a place
  obtain ⟨b, there, one⟩ := early i a place
  obtain ⟨c, here, two⟩ := late i b there
  exact ⟨c, here, trans a b c one two⟩

theorem growsAppend (refl : ∀ a, R a a) (row more : List A) : Grows R row (row ++ more) := by
  intro i a place
  exact ⟨a, appendKeeps place more, refl a⟩

theorem growsSet (refl : ∀ a, R a a) {row : List A} {i : Nat} {a b : A} (found : row[i]? = some a) (moved : R a b) :
    Grows R row (row.set i b) := by
  intro j c place
  rcases setKeeps found place with ⟨_, rfl, here⟩ | ⟨_, here⟩
  · exact ⟨b, here, moved⟩
  · exact ⟨c, here, refl c⟩

theorem growsMapSet {S : B → B → Prop} (refl : ∀ b, S b b) (f : A → B) {row : List A} {i : Nat} {a b : A}
    (found : row[i]? = some a) (moved : S (f a) (f b)) : Grows S (row.map f) ((row.set i b).map f) := by
  rw [List.map_set]
  exact growsSet refl (by rw [List.getElem?_map, found]; rfl) moved

end VetisTokio.Rows
