import PageLookup.Glob.Draft

/-!
# Links between states

A table can be read off the symbols and one link for each state: the anchor at
the time the state was finished. A character that a state does not take goes
the way of its link, over and over, until a state takes it or a link leads
nowhere or to its own state.
-/

set_option autoImplicit false

namespace PageLookup.Glob

/-- The anchors at which the states from the present one on are finished. A
star finishes no state. -/
def Draft.links (d : Draft) : List Symbol → List (Option Nat)
  | [] => [d.anchor]
  | s :: rest =>
    match d.add s with
    | .ok d' => if s.token = .star then d'.links rest else d.anchor :: d'.links rest
    | .error _ => []

structure Linked where
  tokens : List Token
  links : List (Option Nat)
  deriving DecidableEq, Repr

namespace Linked

def ofSymbols (symbols : List Symbol) : Linked :=
  ⟨(symbols.map (·.token)).filter (· != .star), Draft.empty.links symbols⟩

def own? (l : Linked) (s : Nat) (c : Char) : Option Nat :=
  match l.tokens[s]? with
  | some .one => some (s+1)
  | some (.literal d) => if d = c then some (s+1) else none
  | _ => none

def step (l : Linked) (s : Nat) (c : Char) : Option Nat :=
  match l.own? s c with
  | some u => some u
  | none =>
    match l.links[s]?.join with
    | none => none
    | some x => if x < s then l.step x c else some s
  termination_by s

def run (l : Linked) (s : Nat) : List Char → Option Nat
  | [] => some s
  | c :: rest =>
    match l.step s c with
    | some u => l.run u rest
    | none => none

end Linked

/-- Whether the first `m` of the letters are also the last `m`, and fewer than all. -/
def IsBorder (letters : List Char) (m : Nat) : Prop :=
  m < letters.length ∧ letters.take m = letters.drop (letters.length - m)

end PageLookup.Glob
