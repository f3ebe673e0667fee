import PageLookup.Document.Value
import PageLookup.Document.Digits

/-!
# Nodes of YAML documents

A plain scalar is a number, a truth value or nothing at all where its text
looks like one, and otherwise a text. Real numbers keep their text, since two
keys are the same only if they are written in the same way.
-/

set_option autoImplicit false

namespace PageLookup.Document.Yaml

open PageLookup.Number

/-- A scalar whose text does not fit its tag is `misfit`. -/
inductive Node where
  | null
  | bool (b : Bool)
  | int (n : Int)
  | real (written : String)
  | text (s : String)
  | misfit
  | seq (items : List Node)
  | map (entries : List (Node × Node))
  deriving BEq, Repr

def word? (base : Nat) (cs : List Char) : Option Int := do
  let (negative, digits) := Digits.sign cs
  let n ← Digits.value? base digits
  Digits.word? (if negative then -(n : Int) else n)

def decimal? (cs : List Char) : Option Binary64 := do
  let (negative, rest) := Digits.sign cs
  let (whole, rest) := Digits.span rest
  let (fraction, rest) := match rest with
    | '.' :: rest => Digits.span rest
    | rest => ([], rest)
  let n ← Digits.value? 10 (whole ++ fraction)
  let e : Int ← match rest with
    | [] => some 0
    | c :: rest =>
      if c = 'e' ∨ c = 'E' then do
        let (down, digits) := Digits.sign rest
        let e ← Digits.value? 10 digits
        pure (if down then -(e : Int) else e)
      else none
  pure (.ofDecimal negative n (e - fraction.length))

def unboundedTexts : List String := [
  ".inf", ".Inf", ".INF", "+.inf", "+.Inf", "+.INF", "-.inf", "-.Inf", "-.INF",
  ".nan", ".NaN", ".NAN"]

def isReal (s : String) : Bool := unboundedTexts.contains s || (decimal? s.toList).isSome

def markedInt? (cs : List Char) : Option Int :=
  match cs with
  | '0' :: 'x' :: rest => word? 16 rest
  | '0' :: 'o' :: rest => word? 8 rest
  | '+' :: rest => word? 10 rest
  | _ => none

def Node.ofPlain (s : String) : Node :=
  match markedInt? s.toList with
  | some n => .int n
  | none =>
    if ["", "~", "null"].contains s then .null
    else if ["true", "True", "TRUE"].contains s then .bool true
    else if ["false", "False", "FALSE"].contains s then .bool false
    else
      match word? 10 s.toList with
      | some n => .int n
      | none => if isReal s then .real s else .text s

def Node.ofTagged (kind s : String) : Node :=
  match kind with
  | "bool" => if s = "true" then .bool true else if s = "false" then .bool false else .misfit
  | "int" =>
    match word? 10 s.toList with
    | some n => .int n
    | none => .misfit
  | "float" => if isReal s then .real s else .misfit
  | "null" => if s = "~" ∨ s = "null" then .null else .misfit
  | _ => .text s

/-- Keys and values by turns. A misfit is no key, so the node after it takes
its place. None if a key comes twice. -/
def pairs (found : List (Node × Node)) : List Node → Option (List (Node × Node))
  | [] => some found.reverse
  | [_] => some found.reverse
  | k :: v :: rest =>
    match k with
    | .misfit => pairs found (v :: rest)
    | k => if found.any (·.1 == k) then none else pairs ((k, v) :: found) rest

def Node.keyText? : Node → Option String
  | .text s => some s
  | .int n => some (toString n)
  | .bool b => some (if b then "true" else "false")
  | .real s => some s
  | _ => none

mutual

/-- Infinite numbers and keys that are no scalars have no value. -/
def Node.toValue? : Node → Option Value
  | .null => some .null
  | .misfit => some .null
  | .bool b => some (.bool b)
  | .int n => some (.int n)
  | .real s => (decimal? s.toList).map .float
  | .text s => some (.text s)
  | .seq items => (itemValues? items).map .seq
  | .map entries => (entryValues? entries).map fun es => .map (lastOfEach es)

def itemValues? : List Node → Option (List Value)
  | [] => some []
  | i :: rest => do
    let v ← i.toValue?
    let vs ← itemValues? rest
    pure (v :: vs)

def entryValues? : List (Node × Node) → Option (List (String × Value))
  | [] => some []
  | (k, i) :: rest => do
    let key ← k.keyText?
    let v ← i.toValue?
    let vs ← entryValues? rest
    pure ((key, v) :: vs)

end

end PageLookup.Document.Yaml
