import PageLookup.Document.Value
import PageLookup.Document.Toml.Date

/-!
# Numbers, booleans and dates of TOML documents

Underscores may stand between digits. A decimal number leads with no needless
zero, and whole numbers fit into 64 bits with a sign.
-/

set_option autoImplicit false

namespace PageLookup.Document.Toml

open PageLookup.Number

/-- Digits of a base without their underscores, each of which has a digit on
either side. -/
def ungrouped? (base : Nat) : List Char → Option (List Char)
  | [] => none
  | [c] => (Digits.digit? base c).map fun _ => [c]
  | c :: '_' :: rest => do
    let _ ← Digits.digit? base c
    let ds ← ungrouped? base rest
    pure (c :: ds)
  | c :: d :: rest => do
    let _ ← Digits.digit? base c
    let ds ← ungrouped? base (d :: rest)
    pure (c :: ds)

def wholePart? (word : List Char) : Option (List Char) := do
  let ds ← ungrouped? 10 word
  if ds.head? = some '0' ∧ ds.length ≠ 1 then none else some ds

def based? (base : Nat) (word : List Char) : Option Int := do
  let ds ← ungrouped? base word
  let n ← Digits.value? base ds
  Digits.word? n

def int? (word : List Char) : Option Int :=
  match word with
  | '0' :: 'x' :: rest => based? 16 rest
  | '0' :: 'o' :: rest => based? 8 rest
  | '0' :: 'b' :: rest => based? 2 rest
  | _ => do
    let (negative, rest) := Digits.sign word
    let ds ← wholePart? rest
    let n ← Digits.value? 10 ds
    Digits.word? (if negative then -(n : Int) else n)

def fraction? : List Char → Option (List Char)
  | [] => some []
  | c :: rest => if c = '.' then ungrouped? 10 rest else none

def exponent? : List Char → Option Int
  | [] => some 0
  | _ :: rest => do
    let (negative, rest) := Digits.sign rest
    let ds ← ungrouped? 10 rest
    let n ← Digits.value? 10 ds
    pure (if negative then -(n : Int) else n)

def isExponentMark (c : Char) : Bool := c == 'e' || c == 'E'

/-- One too large is refused when it is positive. -/
def float? (word : List Char) : Option Binary64 :=
  let (negative, rest) := Digits.sign word
  if rest = "inf".toList then some (.infinite negative)
  else if rest = "nan".toList then some .notANumber
  else do
    let (mantissa, e) := rest.span (!isExponentMark ·)
    let (whole, fraction) := mantissa.span (· != '.')
    if e.isEmpty && fraction.isEmpty then none
    let ws ← wholePart? whole
    let fs ← fraction? fraction
    let e ← exponent? e
    let n ← Digits.value? 10 (ws ++ fs)
    let x := Binary64.ofDecimal negative n (e - fs.length)
    if x = .infinite false then none else some x

def scalar? (word : List Char) : Option Value :=
  if word = "true".toList then some (.bool true)
  else if word = "false".toList then some (.bool false)
  else
    match int? word with
    | some n => some (.int n)
    | none =>
      match float? word with
      | some x => some (.float x)
      | none => (moment? word).map fun t => .text (String.ofList t)

def isScalarChar (c : Char) : Bool :=
  c.isAlphanum || c == '+' || c == '-' || c == '_' || c == '.' || c == ':'

/-- The word at the front. A date may go on after one space with a time. -/
def scalarWord (cs : List Char) : List Char × List Char :=
  let (word, rest) := cs.span isScalarChar
  match rest with
  | ' ' :: d :: _ =>
    if d.isDigit ∧ (date? word).map (·.2) = some [] then
      let (more, rest) := (rest.drop 1).span isScalarChar
      (word ++ ' ' :: more, rest)
    else (word, rest)
  | _ => (word, rest)

end PageLookup.Document.Toml
