import PageLookup.Document.Digits

/-!
# Keys that are paths

A key such as `language.name` or `language[0]` points below the entry of its
first name. A key that is no path stands for itself.
-/

set_option autoImplicit false

namespace PageLookup

open PageLookup.Document

inductive KeyStep where
  | field (name : String)
  | index (n : Int)
  deriving DecidableEq, Repr

structure KeyPath where
  root : String
  steps : List KeyStep
  deriving DecidableEq, Repr

namespace KeyPath

def isNameChar (c : Char) : Bool := c.isAlphanum || c == '_' || c == '-'

def name? (cs : List Char) : Option (String × List Char) :=
  let (word, rest) := cs.span isNameChar
  if word.isEmpty then none else some (String.ofList word, rest)

def skipBlanks (cs : List Char) : List Char := cs.dropWhile fun c => c == ' ' || c == '\t'

def index? (cs : List Char) : Option (Int × List Char) := do
  let cs := skipBlanks cs
  let (negative, cs) := match cs with
    | '-' :: rest => (true, rest)
    | cs => (false, cs)
  let (digits, rest) := Digits.span cs
  let n ← Digits.value? 10 digits
  let n ← Digits.word? (if negative then -(n : Int) else n)
  match skipBlanks rest with
  | ']' :: rest => some (n, rest)
  | _ => none

/-- The steps behind the first name. Each takes a character at least. -/
def stepsWithin : Nat → List Char → Option (List KeyStep)
  | _, [] => some []
  | 0, _ :: _ => none
  | n+1, c :: rest =>
    if c = '.' then do
      let (name, rest) ← name? rest
      let steps ← stepsWithin n rest
      pure (.field name :: steps)
    else if c = '[' then do
      let (i, rest) ← index? rest
      let steps ← stepsWithin n rest
      pure (.index i :: steps)
    else none

def parse? (key : String) : Option KeyPath := do
  let (root, rest) ← name? key.toList
  let steps ← stepsWithin rest.length rest
  pure ⟨root, steps⟩

def ofKey (key : String) : KeyPath := (parse? key).getD ⟨key, []⟩

end KeyPath

end PageLookup
