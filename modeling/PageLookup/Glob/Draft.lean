import PageLookup.Glob.Token
import PageLookup.Glob.Table

/-!
# Building a transition table in one pass

A draft holds the finished states; the state under construction is the next
one. Once a star is read the draft has an anchor, the state whose arcs answer
a character that does not continue the pattern. A literal copies the anchor's
arcs before it adds its own, and the anchor then moves along that literal, so
no character of a text is ever read twice.
-/

set_option autoImplicit false

namespace PageLookup.Glob

inductive CompileError where
  | oneAfterStar (position : Nat)
  deriving DecidableEq, Repr

def CompileError.message : CompileError → String
  | .oneAfterStar position =>
    s!"unsupported construct at position {position}: '?' cannot directly follow '*'"

structure Draft where
  states : Array State
  anchor : Option Nat
  deriving DecidableEq, Repr

namespace Draft

def empty : Draft := ⟨#[], none⟩

def current (d : Draft) : Nat := d.states.size

/-- A state as it stands while the draft grows: the state under construction
is asked for only at a star, where it keeps the run in place. -/
def stateAt (d : Draft) (x : Nat) : State :=
  match d.states[x]? with
  | some s => s
  | none => .always x

def star (d : Draft) : Draft :=
  { d with anchor := some d.current }

/-- One arbitrary character. The anchor stays where it is. -/
def one (d : Draft) (position : Nat) : Except CompileError Draft :=
  if d.anchor = some d.current then .error (.oneAfterStar position)
  else .ok { d with states := d.states.push (.always (d.current+1)) }

def literal (d : Draft) (c : Char) : Draft :=
  match d.anchor with
  | none => { d with states := d.states.push (State.dead.set c (d.current+1)) }
  | some x =>
    { states := d.states.push ((d.stateAt x).set c (d.current+1))
      anchor := ((d.stateAt x).next c).or (some x) }

def add (d : Draft) (s : Symbol) : Except CompileError Draft :=
  match s.token with
  | .star => .ok d.star
  | .one => d.one s.position
  | .literal c => .ok (d.literal c)

def addAll (d : Draft) : List Symbol → Except CompileError Draft
  | [] => .ok d
  | s :: rest =>
    match d.add s with
    | .ok d' => d'.addAll rest
    | .error e => .error e

/-- The accepting state: it resumes at the anchor, or ends the run. -/
def last (d : Draft) : State :=
  match d.anchor with
  | none => .dead
  | some x => d.stateAt x

def finish (d : Draft) : Table := ⟨d.states.push d.last⟩

end Draft

def Table.build (symbols : List Symbol) : Except CompileError Table :=
  match Draft.empty.addAll symbols with
  | .ok d => .ok d.finish
  | .error e => .error e

end PageLookup.Glob
