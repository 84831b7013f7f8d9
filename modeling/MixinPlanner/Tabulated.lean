/-
Functions of a number with their first values kept.

A value of `Tabulated f` holds values of `f` from 0 up; `get` takes a value from there, and computes it where the table has
ended. `get_eq` says that nothing else changes: what is computed with the table is what is computed with the function.

The table has to be bound where it is made, outside of what reads it, so that it is made once.
-/

namespace MixinPlanner

variable {α : Type} {f : Nat → α}

/-- values of a function, in their positions -/
structure Tabulated (f : Nat → α) where
  values : Array α
  eq_of_getElem? : ∀ i a, values[i]? = some a → a = f i

namespace Tabulated

/-- the values at the numbers below a bound -/
@[noinline]
def below (f : Nat → α) (bound : Nat) : Tabulated f where
  values := Array.ofFn fun i : Fin bound => f i
  eq_of_getElem? i a h := by
    obtain ⟨hi, rfl⟩ := Array.getElem?_eq_some_iff.1 h
    simp

/-- the value at a number -/
def get (t : Tabulated f) (i : Nat) : α :=
  match t.values[i]? with
  | some a => a
  | none => f i

@[simp]
theorem get_eq (t : Tabulated f) : t.get = f := by
  funext i
  unfold get
  split
  next a h => exact t.eq_of_getElem? i a h
  next => rfl

end Tabulated

end MixinPlanner
