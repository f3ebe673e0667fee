/-!
# Binary floating-point numbers of 64 bits

A finite number is a mantissa below 2^53 times a power of two not below
2^-1074, with the mantissa at least 2^52 unless the power is the least one.
Rounding starts from an exact quotient of natural numbers and takes the nearest
number, of two equally near ones the one with the even mantissa.
-/

set_option autoImplicit false

namespace PageLookup.Number

inductive Binary64 where
  | finite (negative : Bool) (mantissa : Nat) (exponent : Int)
  | infinite (negative : Bool)
  | notANumber
  deriving DecidableEq, Repr

def twoTo (n : Nat) : Nat := Nat.pow 2 n

def tenTo (n : Nat) : Nat := Nat.pow 10 n

/-- The quotient rounded to the nearest whole number, halves to the even one. -/
def roundHalfEven (num den : Nat) : Nat :=
  let q := num / den
  let r := num % den
  if den < 2*r ∨ (den = 2*r ∧ q % 2 = 1) then q+1 else q

namespace Binary64

def leastExponent : Int := -1074

def greatestExponent : Int := 971

def zero (negative : Bool) : Binary64 := .finite negative 0 leastExponent

def scaled (num den : Nat) (e : Int) : Nat × Nat :=
  (num * twoTo (-e).toNat, den * twoTo e.toNat)

/-- The exponent at which the quotient has 53 binary digits before its point. -/
def exponentFor (num den : Nat) : Int :=
  let e : Int := (num.log2 : Int) - (den.log2 : Int) - 52
  let s := scaled num den e
  let e := if s.1 / s.2 < twoTo 52 then e-1 else e
  max e leastExponent

def ofRatio (negative : Bool) (num den : Nat) : Binary64 :=
  if num = 0 then zero negative
  else
    let e := exponentFor num den
    let s := scaled num den e
    let m := roundHalfEven s.1 s.2
    let (m, e) := if m = twoTo 53 then (twoTo 52, e+1) else (m, e)
    if greatestExponent < e then .infinite negative else .finite negative m e

/-- Powers far outside the range are decided by their size alone. -/
def ofDecimal (negative : Bool) (digits : Nat) (e : Int) : Binary64 :=
  let size : Int := (Nat.toDigits 10 digits).length + e
  if digits = 0 ∨ size < -330 then zero negative
  else if 330 < size then .infinite negative
  else ofRatio negative (digits * tenTo e.toNat) (tenTo (-e).toNat)

def ratio? : Binary64 → Option (Nat × Nat)
  | .finite _ m e => some (m * twoTo e.toNat, twoTo (-e).toNat)
  | .infinite _ => none
  | .notANumber => none

def isInfinite : Binary64 → Bool
  | .infinite _ => true
  | .finite .. => false
  | .notANumber => false

def scale (negative : Bool) (x : Binary64) (num den : Nat) : Binary64 :=
  match x.ratio? with
  | some (n, d) => ofRatio negative (n*num) (d*den)
  | none => x

end Binary64

end PageLookup.Number
