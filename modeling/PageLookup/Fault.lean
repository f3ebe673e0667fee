/-!
# Faults

A checked operation ends with a fault where it asks for what is not there: an
entry of a list, or the number before zero.
-/

set_option autoImplicit false

namespace PageLookup

inductive Fault where
  | noEntry (index : Nat)
  | belowZero
  deriving DecidableEq, Repr

namespace Fault

def demand {α : Type} (index : Nat) : Option α → Except Fault α
  | some a => .ok a
  | none => .error (.noEntry index)

def pred : Nat → Except Fault Nat
  | 0 => .error .belowZero
  | n+1 => .ok n

variable {α β : Type}

@[simp] theorem ok_bind (a : α) (f : α → Except Fault β) : (Except.ok a >>= f) = f a := rfl

@[simp] theorem pure_eq (a : α) : (pure a : Except Fault α) = .ok a := rfl

@[simp] theorem demand_some (index : Nat) (a : α) : demand index (some a) = .ok a := rfl

theorem demand_eq_ok_iff (index : Nat) (found : Option α) (a : α) :
    demand index found = .ok a ↔ found = some a := by
  cases found <;> simp [demand]

end Fault

end PageLookup
