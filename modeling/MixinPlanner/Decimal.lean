/-
Decimal numbers and the range of double precision.

A decimal number is a natural number times a power of ten. Whether it is within the range, so that what it is rounded to is
finite, depends on where it is rounded. `isFinite` rounds once, at the end. `isFiniteByFactors` rounds the two factors first
and then their product, so that near the end of the range a number may be let in or kept out otherwise.
-/

namespace MixinPlanner.Decimal

/-- the least number that rounds to infinity in double precision -/
def overflow : Nat := Nat.pow 2 1024 - Nat.pow 2 970

/-- whether `m * 10 ^ e`, rounded once, is finite. Very small numbers are told by their binary length, so no large power of
ten is ever taken. -/
def isFinite (m : Nat) : Int → Bool
  | .ofNat e => m == 0 || (e ≤ 308 && m * Nat.pow 10 e < overflow)
  | .negSucc e => m.log2 < 1023 + 3 * (e + 1) || m < overflow * Nat.pow 10 (e + 1)

/-- a natural number rounded to its first 53 binary digits. A half goes to the even neighbour. -/
def rounded (n : Nat) : Nat :=
  let unit := Nat.pow 2 (n.log2 - 52)
  let down := n / unit
  let rest := n % unit
  (if 2 * rest < unit ∨ (2 * rest = unit ∧ down % 2 = 0) then down else down + 1) * unit

/-- whether `m * 10 ^ e` is finite when both factors are rounded first, for `m` of 64 binary digits. Beyond the 308th there
is no power of ten in double precision, and below the first the number only gets smaller. -/
def isFiniteByFactors (m : Nat) : Int → Bool
  | .ofNat e => m == 0 || (e ≤ 308 && rounded m * rounded (Nat.pow 10 e) < overflow)
  | .negSucc _ => true

/-- what has no more than 53 binary digits is kept -/
theorem rounded_of_lt {n : Nat} (h : n < Nat.pow 2 53) : rounded n = n := by
  have hlog : n.log2 - 52 = 0 := by
    by_cases h0 : n = 0
    · simp [h0]
    · have := (Nat.log2_lt h0).2 h
      omega
  simp [rounded, hlog, Nat.mod_one]

example : rounded (2 ^ 53 + 1) = 2 ^ 53 ∧ rounded (2 ^ 53 + 3) = 2 ^ 53 + 4 := by decide

end MixinPlanner.Decimal
