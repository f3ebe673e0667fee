import PageLookup.Document.Digits
import PageLookup.Document.Value

/-!
# Numbers of JSON documents

A whole number of at most 64 bits is kept exactly. Any other number is read
with a significand of 64 bits, whose further digits are dropped, and one
product or quotient with a power of ten. Both steps round, so the last place
may differ from the nearest number. A number too large is refused.
-/

set_option autoImplicit false

namespace PageLookup.Document.Json

open PageLookup.Number

def digitValue (c : Char) : Nat := (Digits.digit? 10 c).getD 0

def wordLimit : Nat := 0x10000000000000000

def significand (start : Nat) : List Char → Nat × Nat
  | [] => (start, 0)
  | d :: rest =>
    let next := start*10 + digitValue d
    if next < wordLimit then significand next rest else (start, rest.length+1)

def powerOfTen (k : Nat) : Nat × Nat :=
  ((Binary64.ofRatio false (tenTo k) 1).ratio?).getD (1, 1)

def greatestPower : Nat := 308

/-- Division by `10^k` in steps the numbers can express. -/
def divideByPower (negative : Bool) (x : Binary64) (k : Nat) : Binary64 :=
  if k ≤ greatestPower then
    let p := powerOfTen k
    x.scale negative p.2 p.1
  else if x = .zero negative then x
  else
    let p := powerOfTen greatestPower
    divideByPower negative (x.scale negative p.2 p.1) (k - greatestPower)
termination_by k
decreasing_by simp only [greatestPower] at *; omega

def ofParts (negative : Bool) (significand : Nat) (e : Int) : Option Binary64 :=
  let x := Binary64.ofRatio negative significand 1
  if e < 0 then some (divideByPower negative x (-e).toNat)
  else if e.toNat ≤ greatestPower then
    let p := powerOfTen e.toNat
    let y := x.scale negative p.1 p.2
    if y.isInfinite then none else some y
  else if significand = 0 then some x
  else none

def whole (negative : Bool) (digits : List Char) : Option Value :=
  let (s, left) := significand 0 digits
  if left ≠ 0 then (ofParts negative s left).map .float
  else if !negative then some (.int s)
  else if s = 0 ∨ -(s : Int) < Digits.leastWord then some (.float (Binary64.ofRatio true s 1))
  else some (.int (-(s : Int)))

/-- Exponents from here on are decided by their sign. -/
def exponentLimit : Nat := 0x80000000

def fractional (negative : Bool) (digits fraction : List Char)
    (exponent : Option (Bool × List Char)) : Option Value :=
  let (s, left) := significand 0 digits
  let (s, unread) := significand s fraction
  let e : Int := (left : Int) - ((fraction.length - unread : Nat) : Int)
  match exponent with
  | none => (ofParts negative s e).map .float
  | some (down, ds) =>
    let size := ds.foldl (fun n d => n*10 + digitValue d) 0
    if size < exponentLimit then
      (ofParts negative s (if down then e - size else e + size)).map .float
    else if down ∨ s = 0 then some (.float (.zero negative))
    else none

def exponentPart (cs : List Char) : Option ((Bool × List Char) × List Char) :=
  let (down, cs) := Digits.sign cs
  let (ds, rest) := Digits.span cs
  if ds.isEmpty then none else some ((down, ds), rest)

def exponent? : List Char → Option (Option (Bool × List Char) × List Char)
  | [] => some (none, [])
  | c :: r =>
    if c = 'e' ∨ c = 'E' then (exponentPart r).map fun p => (some p.1, p.2)
    else some (none, c :: r)

/-- A zero leads no other digit. -/
def number (negative : Bool) (cs : List Char) : Option (Value × List Char) :=
  let (ds, rest) := Digits.span cs
  if ds.isEmpty ∨ (ds.head? = some '0' ∧ ds.length ≠ 1) then none
  else
    match rest with
    | '.' :: r => do
      let (fs, rest) := Digits.span r
      if fs.isEmpty then none
      let (e, rest) ← exponent? rest
      let v ← fractional negative ds fs e
      pure (v, rest)
    | rest => do
      let (e, rest) ← exponent? rest
      let v ← match e with
        | none => whole negative ds
        | some e => fractional negative ds [] (some e)
      pure (v, rest)

end PageLookup.Document.Json
