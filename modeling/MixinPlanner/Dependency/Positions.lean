/-
Sets of positions, a bit for each.

A search of a graph asks again and again whether it has reached a position. The number whose bits say so answers at once,
however many positions there are. `mem_insert` and `mem_ofList` say what the bits mean.
-/

namespace MixinPlanner

/-- a set of positions: the bit at each of them is set -/
structure Positions where
  bits : Nat
  deriving DecidableEq, Repr, Inhabited

namespace Positions

instance : Membership Nat Positions := ⟨fun s i => s.bits.testBit i⟩

theorem mem_def {s : Positions} {i : Nat} : i ∈ s ↔ s.bits.testBit i := .rfl

instance (i : Nat) (s : Positions) : Decidable (i ∈ s) := inferInstanceAs (Decidable (s.bits.testBit i))

/-- no position -/
def empty : Positions := ⟨0⟩

/-- the set with one position more -/
def insert (s : Positions) (i : Nat) : Positions := ⟨s.bits ||| 1 <<< i⟩

/-- the set of the positions in a list -/
def ofList (l : List Nat) : Positions := l.foldl insert empty

@[simp]
theorem not_mem_empty (i : Nat) : ¬ i ∈ empty := by simp [mem_def, empty]

@[simp]
theorem mem_insert {s : Positions} {i j : Nat} : j ∈ s.insert i ↔ j = i ∨ j ∈ s := by
  simp only [mem_def, insert, Nat.testBit_or, Nat.one_shiftLeft, Nat.testBit_two_pow, Bool.or_eq_true, decide_eq_true_eq]
  rw [or_comm, eq_comm]

@[simp]
theorem mem_ofList {l : List Nat} {i : Nat} : i ∈ ofList l ↔ i ∈ l := by
  have insert_all (s : Positions) : i ∈ l.foldl insert s ↔ i ∈ s ∨ i ∈ l := by
    induction l generalizing s with
    | nil => simp
    | cons j rest ih => simp [ih, or_left_comm, or_assoc]
  simp [ofList, insert_all]

end Positions

end MixinPlanner
