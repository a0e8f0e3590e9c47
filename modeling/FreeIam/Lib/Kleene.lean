import Mathlib.Order.BoundedOrder.Lattice
import Mathlib.Order.Lattice

/-!
# Three-valued logic

What a condition may say of an object: it holds, it does not, or that is not
known. The truth values are a chain, a conjunction is the least of its members
and a disjunction the greatest, and the negation turns the chain round.
-/

namespace FreeIam.Kleene

/-- A truth value. -/
inductive Truth where
  | false
  | undefined
  | true
  deriving DecidableEq, Repr

namespace Truth

/-- The place in the chain. -/
def rank : Truth → Nat
  | .false => 0
  | .undefined => 1
  | .true => 2

theorem rank_injective : Function.Injective rank := by
  intro s t h
  cases s <;> cases t <;> first | rfl | cases h

instance : LinearOrder Truth := LinearOrder.lift' rank rank_injective

instance : BoundedOrder Truth where
  top := .true
  le_top := fun t => by cases t <;> decide
  bot := .false
  bot_le := fun t => by cases t <;> decide

@[simp] theorem top_eq : (⊤ : Truth) = .true := rfl

@[simp] theorem bot_eq : (⊥ : Truth) = .false := rfl

/-- The truth value of a decidable proposition. -/
def of (p : Prop) [Decidable p] : Truth := if p then .true else .false

@[simp] theorem of_eq_true {p : Prop} [Decidable p] : of p = .true ↔ p := by
  unfold of
  split
  · simpa
  · simpa

@[simp] theorem of_eq_false {p : Prop} [Decidable p] : of p = .false ↔ ¬p := by
  unfold of
  split
  · simpa
  · simpa

/-! ## The connectives -/

/-- Negation: what is not known stays so. -/
def not : Truth → Truth
  | .false => .true
  | .undefined => .undefined
  | .true => .false

@[simp] theorem not_not (t : Truth) : t.not.not = t := by cases t <;> rfl

/-- Conjunction: the least of the members. -/
def all (ts : List Truth) : Truth := ts.foldr (· ⊓ ·) ⊤

/-- Disjunction: the greatest of the members. -/
def any (ts : List Truth) : Truth := ts.foldr (· ⊔ ·) ⊥

@[simp] theorem all_nil : all [] = .true := rfl

@[simp] theorem all_cons (t : Truth) (ts : List Truth) : all (t :: ts) = t ⊓ all ts := rfl

@[simp] theorem any_nil : any [] = .false := rfl

@[simp] theorem any_cons (t : Truth) (ts : List Truth) : any (t :: ts) = t ⊔ any ts := rfl

@[simp] theorem all_singleton (t : Truth) : all [t] = t := inf_top_eq t

end Truth

end FreeIam.Kleene
