/-!
# Digits in a base

Digits above nine are letters of either case. A word of no digits has no value.
-/

set_option autoImplicit false

namespace PageLookup.Document.Digits

def digit? (base : Nat) (c : Char) : Option Nat :=
  let n :=
    if c.isDigit then c.toNat - '0'.toNat
    else if 'a' ≤ c && c ≤ 'z' then c.toNat - 'a'.toNat + 10
    else if 'A' ≤ c && c ≤ 'Z' then c.toNat - 'A'.toNat + 10
    else base
  if n < base then some n else none

def value? (base : Nat) (word : List Char) : Option Nat :=
  if word.isEmpty then none
  else word.foldlM (fun n c => (digit? base c).map (n*base + ·)) 0

def sign : List Char → Bool × List Char
  | '-' :: rest => (true, rest)
  | '+' :: rest => (false, rest)
  | rest => (false, rest)

def span (cs : List Char) : List Char × List Char := cs.span Char.isDigit

def scalar? (n : Nat) : Option Char :=
  if n.isValidChar then some (Char.ofNat n) else none

def leastWord : Int := -0x8000000000000000

def greatestWord : Int := 0x7fffffffffffffff

def word? (n : Int) : Option Int :=
  if leastWord ≤ n ∧ n ≤ greatestWord then some n else none

end PageLookup.Document.Digits
