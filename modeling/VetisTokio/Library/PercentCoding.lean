import Mathlib.Data.List.Infix
import Mathlib.Tactic.Common

/-! Percent-encoded text as bytes: the bytes of characters, the reading of escapes,
and the segments between separators. -/
namespace VetisTokio.PercentCoding

def utf8 (text : List Char) : List UInt8 := text.flatMap String.utf8EncodeChar

theorem utf8Injective {one other : List Char} (same : utf8 one = utf8 other) : one = other := by
  have encoded : one.utf8Encode = other.utf8Encode := congrArg List.toByteArray same
  have texts : String.ofList one = String.ofList other := String.toByteArray_inj.mp encoded
  exact String.ofList_injective texts

def hexDigit (b : UInt8) : Option UInt8 :=
  if 0x30 ≤ b ∧ b ≤ 0x39 then some (b - 0x30)
  else if 0x41 ≤ b ∧ b ≤ 0x46 then some (b - 0x37)
  else if 0x61 ≤ b ∧ b ≤ 0x66 then some (b - 0x57)
  else none

def escaped (sign high low : UInt8) : Option UInt8 :=
  if sign = 0x25 then do
    let upper ← hexDigit high
    let lower ← hexDigit low
    some (upper * 16 + lower)
  else none

/- A percent sign that starts no escape stands for itself. -/
def decode : List UInt8 → List UInt8
  | sign :: high :: low :: rest =>
    match escaped sign high low with
    | some byte => byte :: decode rest
    | none => sign :: decode (high :: low :: rest)
  | rest => rest

def segments (separator : UInt8) (bytes : List UInt8) : List (List UInt8) := bytes.splitOn separator

theorem decodeUnescaped {bytes : List UInt8} (plain : 0x25 ∉ bytes) : decode bytes = bytes := by
  fun_induction decode bytes with
  | case1 sign high low rest byte found ih =>
    have other : sign ≠ 0x25 := fun same => plain (by simp [same])
    simp [escaped, other] at found
  | case2 sign high low rest found ih => rw [ih (fun inside => plain (List.mem_cons_of_mem _ inside))]
  | case3 rest short => rfl

theorem memIntersperse {A : Type} {a : A} (separator : A) {parts : List A} (member : a ∈ parts) :
    a ∈ parts.intersperse separator := by
  induction parts with
  | nil => exact member
  | cons head rest ih =>
    cases rest with
    | nil => exact member
    | cons next more =>
      rw [List.intersperse_cons_cons, List.mem_cons, List.mem_cons]
      exact (List.mem_cons.mp member).imp id (fun inside => .inr (ih inside))

theorem segmentInfix {separator : UInt8} {bytes segment : List UInt8} (member : segment ∈ segments separator bytes) :
    segment <:+: bytes := by
  have inside := List.infix_of_mem_flatten (memIntersperse [separator] member)
  have whole : [separator].intercalate (bytes.splitOn separator) = bytes := List.intercalate_splitOn separator
  rw [← segments, List.intercalate] at whole
  exact whole ▸ inside

theorem utf8Cases (c : Char) : (c.toNat < 0x80 ∧ String.utf8EncodeChar c = [UInt8.ofNat c.toNat]) ∨
    ∀ b ∈ String.utf8EncodeChar c, 0x80 ≤ b.toNat := by
  have width : c.val.toNat < 0x110000 := by
    have valid := c.valid
    simp only [UInt32.isValidChar, Nat.isValidChar] at valid
    omega
  unfold String.utf8EncodeChar
  dsimp only
  split
  · left
    exact ⟨by unfold Char.toNat; omega, rfl⟩
  · right
    split
    · simp only [List.forall_mem_cons, UInt8.toNat_ofNat', Nat.reducePow, List.not_mem_nil, false_imp_iff,
        implies_true, and_true]
      omega
    · split
      · simp only [List.forall_mem_cons, UInt8.toNat_ofNat', Nat.reducePow, List.not_mem_nil, false_imp_iff,
        implies_true, and_true]
        omega
      · simp only [List.forall_mem_cons, UInt8.toNat_ofNat', Nat.reducePow, List.not_mem_nil, false_imp_iff,
        implies_true, and_true]
        omega

def byte (c : Char) : UInt8 := UInt8.ofNat c.toNat

def Ascii (text : List Char) : Prop := ∀ c ∈ text, c.toNat < 0x80

instance (text : List Char) : Decidable (Ascii text) := List.decidableBAll _ text

theorem byteValue {c : Char} (ascii : c.toNat < 0x80) : (byte c).toNat = c.toNat := by
  simp only [byte, UInt8.toNat_ofNat']
  omega

theorem utf8Head {k c : Char} {more rest : List UInt8} (ascii : k.toNat < 0x80)
    (starts : byte k :: more <+: String.utf8EncodeChar c ++ rest) : k = c ∧ more <+: rest := by
  rcases utf8Cases c with ⟨small, one⟩ | above
  · rw [one, List.singleton_append] at starts
    obtain ⟨same, later⟩ := List.cons_prefix_cons.mp starts
    have value := congrArg UInt8.toNat same
    rw [byteValue ascii, ← byte, byteValue small] at value
    exact ⟨Char.toNat_inj.mp value, later⟩
  · cases bytes : String.utf8EncodeChar c with
    | nil =>
      have positive := c.utf8Size_pos
      rw [← String.length_utf8EncodeChar, bytes] at positive
      contradiction
    | cons b others =>
      rw [bytes, List.cons_append] at starts
      have large := above b (by simp [bytes])
      rw [← (List.cons_prefix_cons.mp starts).1, byteValue ascii] at large
      omega

theorem utf8Prefix {text whole : List Char} (ascii : Ascii text) (starts : text.map byte <+: utf8 whole) :
    text <+: whole := by
  induction text generalizing whole with
  | nil => exact List.nil_prefix
  | cons k ks ih =>
    cases whole with
    | nil => simp [utf8] at starts
    | cons c rest =>
      rw [utf8, List.flatMap_cons, List.map_cons] at starts
      obtain ⟨rfl, later⟩ := utf8Head (ascii k List.mem_cons_self) starts
      exact List.cons_prefix_cons.mpr ⟨rfl, ih (fun c member => ascii c (List.mem_cons_of_mem _ member)) later⟩

theorem infixBehind {A : Type} {k : A} {ks front rest : List A} (other : ∀ a ∈ front, a ≠ k)
    (inside : k :: ks <:+: front ++ rest) : k :: ks <:+: rest := by
  induction front with
  | nil => exact inside
  | cons a front ih =>
    rcases List.infix_cons_iff.mp inside with starts | later
    · exact absurd (List.cons_prefix_cons.mp starts).1.symm (other a List.mem_cons_self)
    · exact ih (fun b member => other b (List.mem_cons_of_mem _ member)) later

theorem utf8Infix {text whole : List Char} (ascii : Ascii text) (inside : text.map byte <:+: utf8 whole) :
    text <:+: whole := by
  cases text with
  | nil => exact List.nil_infix
  | cons k ks =>
    induction whole with
    | nil => simp [utf8] at inside
    | cons c rest ih =>
      by_cases starts : (k :: ks).map byte <+: utf8 (c :: rest)
      · exact (utf8Prefix ascii starts).isInfix
      · rw [utf8, List.flatMap_cons] at inside starts
        refine (ih ?_).trans (List.suffix_cons c rest).isInfix
        rcases utf8Cases c with ⟨_, one⟩ | above
        · rw [one, List.singleton_append] at inside starts
          exact (List.infix_cons_iff.mp inside).resolve_left starts
        · refine infixBehind ?_ inside
          intro b member same
          have large := above b member
          rw [same, byteValue (ascii k List.mem_cons_self)] at large
          have small := ascii k List.mem_cons_self
          omega

end VetisTokio.PercentCoding
