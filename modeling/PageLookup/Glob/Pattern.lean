import PageLookup.Glob.Draft

/-!
# Compiled patterns

A pattern is its source text with a matcher. A source without wildcards is
matched by comparison with its text, any other by the run of a table. Two
patterns are equal when their sources are equal as well.
-/

set_option autoImplicit false

namespace PageLookup.Glob

inductive Matcher where
  | text (literal : String)
  | table (table : Table)
  deriving DecidableEq, Repr

structure Pattern where
  source : String
  matcher : Matcher
  deriving DecidableEq, Repr

namespace Pattern

/-- The only failure is a question mark right after a star. -/
def compile (raw : String) : Except CompileError Pattern :=
  match Reading.ofRaw raw with
  | .literal text => .ok ⟨raw, .text text⟩
  | .symbols list =>
    match Table.build list with
    | .ok table => .ok ⟨raw, .table table⟩
    | .error e => .error e

def accepts (p : Pattern) (text : String) : Bool :=
  match p.matcher with
  | .text literal => literal == text
  | .table table => table.accepts text.toList

def isLiteral (p : Pattern) : Bool :=
  match p.matcher with
  | .text _ => true
  | .table _ => false

def stateCount (p : Pattern) : Option Nat :=
  match p.matcher with
  | .text _ => none
  | .table table => some table.states.size

end Pattern

end PageLookup.Glob
