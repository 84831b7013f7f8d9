/-
The order of type references: structural, not the order of their texts.

Names are compared first, character by character; then the argument lists, position by position, where a list that ends
first comes first. An open parameter comes before a type, open parameters are compared by name and types in turn.

`compare_self`, `eq_of_compare`, `compare_swap` and `compare_trans` make it a lawful linear order: two references compare
equal just when they are the same tree. Equality of references is decided by it.
-/
import MixinPlanner.TypeRef.Basic

namespace MixinPlanner

open Std

mutual

/-- the order of two references -/
def TypeRef.compare : TypeRef → TypeRef → Ordering
  | .mk n as, .mk m bs => (Ord.compare n m).then (TypeArg.compareAll as bs)

/-- the order of two argument lists -/
def TypeArg.compareAll : List TypeArg → List TypeArg → Ordering
  | [], [] => .eq
  | [], _ :: _ => .lt
  | _ :: _, [] => .gt
  | a :: as, b :: bs => (TypeArg.compare a b).then (TypeArg.compareAll as bs)

/-- the order of two arguments -/
def TypeArg.compare : TypeArg → TypeArg → Ordering
  | .param p, .param q => Ord.compare p q
  | .param _, .closed _ => .lt
  | .closed _, .param _ => .gt
  | .closed t, .closed u => TypeRef.compare t u

end

instance : Ord TypeRef := ⟨TypeRef.compare⟩

instance : Ord TypeArg := ⟨TypeArg.compare⟩

/-! ## The order is lawful -/

mutual

theorem TypeRef.compare_self (t : TypeRef) : t.compare t = .eq := by
  cases t with
  | mk n as => simp [TypeRef.compare, TypeArg.compareAll_self as]

theorem TypeArg.compareAll_self (as : List TypeArg) : TypeArg.compareAll as as = .eq := by
  cases as with
  | nil => simp [TypeArg.compareAll]
  | cons a as => simp [TypeArg.compareAll, TypeArg.compare_self a, TypeArg.compareAll_self as]

theorem TypeArg.compare_self (a : TypeArg) : a.compare a = .eq := by
  cases a with
  | param p => simp [TypeArg.compare]
  | closed t => simpa [TypeArg.compare] using TypeRef.compare_self t

end

mutual

theorem TypeRef.eq_of_compare (t u : TypeRef) (h : t.compare u = .eq) : t = u := by
  cases t with
  | mk n as =>
    cases u with
    | mk m bs =>
      simp only [TypeRef.compare, Ordering.then_eq_eq] at h
      rw [LawfulEqOrd.eq_of_compare h.1, TypeArg.eq_of_compareAll as bs h.2]

theorem TypeArg.eq_of_compareAll (as bs : List TypeArg) (h : TypeArg.compareAll as bs = .eq) : as = bs := by
  cases as with
  | nil => cases bs <;> simp_all [TypeArg.compareAll]
  | cons a as =>
    cases bs with
    | nil => simp [TypeArg.compareAll] at h
    | cons b bs =>
      simp only [TypeArg.compareAll, Ordering.then_eq_eq] at h
      rw [TypeArg.eq_of_compare a b h.1, TypeArg.eq_of_compareAll as bs h.2]

theorem TypeArg.eq_of_compare (a b : TypeArg) (h : a.compare b = .eq) : a = b := by
  cases a with
  | param p =>
    cases b with
    | param q => simp only [TypeArg.compare] at h; rw [LawfulEqOrd.eq_of_compare h]
    | closed _ => simp [TypeArg.compare] at h
  | closed t =>
    cases b with
    | param _ => simp [TypeArg.compare] at h
    | closed u => simp only [TypeArg.compare] at h; rw [TypeRef.eq_of_compare t u h]

end

mutual

theorem TypeRef.compare_swap (t u : TypeRef) : t.compare u = (u.compare t).swap := by
  cases t with
  | mk n as =>
    cases u with
    | mk m bs =>
      simp only [TypeRef.compare, Ordering.swap_then]
      rw [← OrientedOrd.eq_swap, ← TypeArg.compareAll_swap as bs]

theorem TypeArg.compareAll_swap (as bs : List TypeArg) :
    TypeArg.compareAll as bs = (TypeArg.compareAll bs as).swap := by
  cases as with
  | nil => cases bs <;> simp [TypeArg.compareAll]
  | cons a as =>
    cases bs with
    | nil => simp [TypeArg.compareAll]
    | cons b bs =>
      simp only [TypeArg.compareAll, Ordering.swap_then]
      rw [← TypeArg.compare_swap a b, ← TypeArg.compareAll_swap as bs]

theorem TypeArg.compare_swap (a b : TypeArg) : a.compare b = (b.compare a).swap := by
  cases a with
  | param p =>
    cases b with
    | param q => simp only [TypeArg.compare]; exact OrientedOrd.eq_swap
    | closed _ => simp [TypeArg.compare]
  | closed t =>
    cases b with
    | param _ => simp [TypeArg.compare]
    | closed u => simp only [TypeArg.compare]; exact TypeRef.compare_swap t u

end

/-- two comparisons joined are at most equal when the first is below, or level with the second at most equal -/
theorem isLE_then {o p : Ordering} : (o.then p).isLE ↔ o = .lt ∨ (o = .eq ∧ p.isLE) := by
  cases o <;> cases p <;> simp

mutual

theorem TypeRef.compare_trans (t u v : TypeRef) (h : (t.compare u).isLE) (h' : (u.compare v).isLE) :
    (t.compare v).isLE := by
  cases t with
  | mk n as =>
    cases u with
    | mk m bs =>
      cases v with
      | mk k cs =>
        simp only [TypeRef.compare, isLE_then] at h h' ⊢
        rcases h with h | ⟨h, hl⟩
        · rcases h' with h' | ⟨h', -⟩
          · exact .inl (TransCmp.lt_trans h h')
          · exact .inl (TransCmp.lt_of_lt_of_eq h h')
        · rcases h' with h' | ⟨h', hl'⟩
          · exact .inl (TransCmp.lt_of_eq_of_lt h h')
          · exact .inr ⟨TransCmp.eq_trans h h', TypeArg.compareAll_trans as bs cs hl hl'⟩

theorem TypeArg.compareAll_trans (as bs cs : List TypeArg) (h : (TypeArg.compareAll as bs).isLE)
    (h' : (TypeArg.compareAll bs cs).isLE) : (TypeArg.compareAll as cs).isLE := by
  cases as with
  | nil => cases cs <;> simp [TypeArg.compareAll]
  | cons a as =>
    cases bs with
    | nil => simp [TypeArg.compareAll] at h
    | cons b bs =>
      cases cs with
      | nil => simp [TypeArg.compareAll] at h'
      | cons c cs =>
        simp only [TypeArg.compareAll, isLE_then] at h h' ⊢
        have step : ∀ {o p : Ordering}, o = .lt ∨ (o = .eq ∧ p.isLE) → o.isLE := by
          rintro o p (rfl | ⟨rfl, -⟩) <;> rfl
        have le : (TypeArg.compare a c).isLE := TypeArg.compare_trans a b c (step h) (step h')
        rcases h with h | ⟨h, hl⟩
        · refine .inl ?_
          cases hac : TypeArg.compare a c with
          | lt => rfl
          | gt => simp [hac] at le
          | eq =>
            obtain rfl := TypeArg.eq_of_compare a c hac
            rcases h' with h' | ⟨h', -⟩
            · rw [TypeArg.compare_swap, h'] at h; simp at h
            · rw [TypeArg.compare_swap, h'] at h; simp at h
        · obtain rfl := TypeArg.eq_of_compare a b h
          rcases h' with h' | ⟨h', hl'⟩
          · exact .inl h'
          · exact .inr ⟨h', TypeArg.compareAll_trans as bs cs hl hl'⟩

theorem TypeArg.compare_trans (a b c : TypeArg) (h : (a.compare b).isLE) (h' : (b.compare c).isLE) :
    (a.compare c).isLE := by
  cases a with
  | param p =>
    cases c with
    | closed _ => simp [TypeArg.compare]
    | param r =>
      cases b with
      | closed _ => simp [TypeArg.compare] at h'
      | param q => simp only [TypeArg.compare] at h h' ⊢; exact TransCmp.isLE_trans h h'
  | closed t =>
    cases b with
    | param _ => simp [TypeArg.compare] at h
    | closed u =>
      cases c with
      | param _ => simp [TypeArg.compare] at h'
      | closed v => simp only [TypeArg.compare] at h h' ⊢; exact TypeRef.compare_trans t u v h h'

end

instance : OrientedOrd TypeRef where
  eq_swap := TypeRef.compare_swap _ _

instance : TransOrd TypeRef where
  isLE_trans := TypeRef.compare_trans _ _ _

instance : LawfulEqOrd TypeRef where
  compare_self := TypeRef.compare_self _
  eq_of_compare := TypeRef.eq_of_compare _ _

instance : DecidableEq TypeRef := fun t u =>
  decidable_of_iff (t.compare u = .eq) ⟨TypeRef.eq_of_compare t u, fun h => h ▸ TypeRef.compare_self t⟩

instance : DecidableEq TypeArg := fun a b =>
  decidable_of_iff (a.compare b = .eq) ⟨TypeArg.eq_of_compare a b, fun h => h ▸ TypeArg.compare_self a⟩

end MixinPlanner
