import PageLookup.Ascending

/-!
# Transition tables

A state has arcs for single characters, in ascending order, and one target for
every other character; without a target the run ends. State 0 begins a run and
the last state is the accepting one. The size of a table does not depend on the
alphabet.
-/

set_option autoImplicit false

namespace PageLookup.Glob

structure State where
  arcs : List (Char × Nat)
  other : Option Nat
  deriving DecidableEq, Repr

namespace State

def dead : State := ⟨[], none⟩

def always (target : Nat) : State := ⟨[], some target⟩

def next (s : State) (c : Char) : Option Nat :=
  (s.arcs.lookup c).or s.other

def set (s : State) (c : Char) (target : Nat) : State :=
  { s with arcs := Ascending.put c target s.arcs }

/-- Where a state leads, by its arcs or otherwise; `none` is the end of a run. -/
def targets (s : State) : List (Option Nat) :=
  s.other :: s.arcs.map fun arc => some arc.2

/-- A state that fits into a table: no character has two arcs, and no target lies outside. -/
structure Sound (s : State) (size : Nat) : Prop where
  arcs : Ascending s.arcs
  targets : ∀ y, some y ∈ s.targets → y < size

end State

structure Table where
  states : Array State
  deriving DecidableEq, Repr

namespace Table

def step (t : Table) (s : Nat) (c : Char) : Option Nat :=
  t.states[s]?.bind (·.next c)

def run (t : Table) (s : Nat) : List Char → Option Nat
  | [] => some s
  | c :: rest =>
    match t.step s c with
    | some u => t.run u rest
    | none => none

def accepting (t : Table) : Nat := t.states.size - 1

def accepts (t : Table) (text : List Char) : Bool :=
  t.run 0 text == some t.accepting

end Table

end PageLookup.Glob
