import PageLookup.Glob.Pattern
import PageLookup.Halving

/-!
# Compiling and matching with every access checked

A raw pattern is read with a flag for the backslash that waits for its
character, and a table is built in place: the last state is the one under
construction, and a flag says whether a star stands right before it. Arcs are
found by halving. Each access to a state or an arc and each step back is
checked, and ends with a fault where there is nothing.
-/

set_option autoImplicit false

namespace PageLookup.Glob.Checked

section Reading

/-- The symbols from a place on, a waiting backslash one place before it included. -/
def symbolsFrom (waiting : Bool) (n : Nat) : List Char → Except Fault (List Symbol)
  | [] => .ok []
  | c :: rest =>
    if waiting then
      if isSpecial c then do
        let later ← symbolsFrom false (n+1) rest
        return ⟨.literal c, n⟩ :: later
      else do
        let before ← Fault.pred n
        let later ← symbolsFrom false (n+1) rest
        return ⟨.literal '\\', before⟩ :: ⟨.bare c, n⟩ :: later
    else if c = '\\' then symbolsFrom true (n+1) rest
    else do
      let later ← symbolsFrom false (n+1) rest
      return ⟨.bare c, n⟩ :: later

def reading (raw : String) : Except Fault Reading :=
  if raw.toList.any isSpecial then do
    let list ← symbolsFrom false 0 raw.toList
    if list.any (·.token.isWild) then return .symbols list
    else return .literal (String.ofList (list.filterMap (·.token.char?)))
  else .ok (.literal raw)

end Reading

section Arcs

def next (s : State) (c : Char) : Except Fault (Option Nat) := do
  match ← Ascending.spot s.arcs c with
  | .found i =>
    let arc ← Fault.demand i s.arcs[i]?
    return some arc.2
  | .gap _ => return s.other

def set (s : State) (c : Char) (target : Nat) : Except Fault State := do
  match ← Ascending.spot s.arcs c with
  | .found i =>
    let arc ← Fault.demand i s.arcs[i]?
    return { s with arcs := s.arcs.set i (arc.1, target) }
  | .gap i =>
    if i ≤ s.arcs.length then return { s with arcs := s.arcs.insertIdx i (c, target) }
    else throw (.noEntry i)

end Arcs

structure Builder where
  states : Array State
  anchor : Option Nat
  fresh : Bool
  deriving DecidableEq, Repr

namespace Builder

def start : Builder := ⟨#[.dead], none, false⟩

def current (b : Builder) : Except Fault Nat := Fault.pred b.states.size

def state (b : Builder) (x : Nat) : Except Fault State := Fault.demand x b.states[x]?

def write (b : Builder) (x : Nat) (s : State) : Except Fault Builder :=
  if x < b.states.size then .ok { b with states := b.states.setIfInBounds x s }
  else .error (.noEntry x)

def advance (b : Builder) : Builder := { b with states := b.states.push .dead }

def star (b : Builder) : Except Fault Builder := do
  let s ← b.current
  let b ← b.write s (.always s)
  return { b with anchor := some s, fresh := true }

def one (b : Builder) (position : Nat) : Except Fault (Except CompileError Builder) :=
  if b.anchor.isSome && b.fresh then .ok (.error (.oneAfterStar position))
  else do
    let s ← b.current
    let b ← b.write s (.always (s+1))
    return .ok b.advance

/-- Makes the state under construction, number `s`, what a character other than its own finds. -/
def resume (b : Builder) (s : Nat) (c : Char) : Except Fault Builder :=
  match b.anchor with
  | none => b.write s .dead
  | some x => do
    let anchored ← b.state x
    let target ← next anchored c
    let b ← if x = s then .ok b else b.write s anchored
    return { b with anchor := target.or (some x) }

def literal (b : Builder) (c : Char) : Except Fault Builder := do
  let s ← b.current
  let b ← b.resume s c
  let resumed ← b.state s
  let finished ← set resumed c (s+1)
  let b ← b.write s finished
  return { b with fresh := false }.advance

def add (b : Builder) (s : Symbol) : Except Fault (Except CompileError Builder) :=
  match s.token with
  | .star => do return .ok (← b.star)
  | .one => b.one s.position
  | .literal c => do return .ok (← b.literal c)

def addAll (b : Builder) : List Symbol → Except Fault (Except CompileError Builder)
  | [] => .ok (.ok b)
  | s :: rest => do
    match ← b.add s with
    | .ok b' => b'.addAll rest
    | .error e => return .error e

def finish (b : Builder) : Except Fault Table := do
  let k ← b.current
  match b.anchor with
  | none => return ⟨b.states⟩
  | some x =>
    if x = k then return ⟨b.states⟩
    else
      let b ← b.write k (← b.state x)
      return ⟨b.states⟩

end Builder

def build (symbols : List Symbol) : Except Fault (Except CompileError Table) := do
  match ← Builder.start.addAll symbols with
  | .ok b => return .ok (← b.finish)
  | .error e => return .error e

def run (t : Table) (s : Nat) : List Char → Except Fault (Option Nat)
  | [] => .ok (some s)
  | c :: rest => do
    match ← next (← Fault.demand s t.states[s]?) c with
    | some u => run t u rest
    | none => return none

def tableAccepts (t : Table) (text : List Char) : Except Fault Bool := do
  match ← run t 0 text with
  | some s => return s == (← Fault.pred t.states.size)
  | none => return false

def compile (raw : String) : Except Fault (Except CompileError Pattern) := do
  match ← reading raw with
  | .literal text => return .ok ⟨raw, .text text⟩
  | .symbols list =>
    match ← build list with
    | .ok table => return .ok ⟨raw, .table table⟩
    | .error e => return .error e

def accepts (p : Pattern) (text : String) : Except Fault Bool :=
  match p.matcher with
  | .text literal => .ok (literal == text)
  | .table table => tableAccepts table text.toList

end PageLookup.Glob.Checked
