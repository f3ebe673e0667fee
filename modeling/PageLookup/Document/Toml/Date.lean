import PageLookup.Document.Digits

/-!
# Dates and times of TOML documents

A date, a time, or both, with an offset only after both. The text of one is
normalised: `T` between date and time, `Z` in upper case, no zeros at the end
of a fraction, which is cut after nine places.
-/

set_option autoImplicit false

namespace PageLookup.Document.Toml

def isLeapYear (y : Nat) : Bool := y % 4 == 0 && (y % 100 != 0 || y % 400 == 0)

def daysIn (year month : Nat) : Nat :=
  if month = 2 then (if isLeapYear year then 29 else 28)
  else if month = 4 ∨ month = 6 ∨ month = 9 ∨ month = 11 then 30
  else 31

def field? (width least greatest : Nat) (cs : List Char) : Option (Nat × List Char) := do
  let word := cs.take width
  let n ← Digits.value? 10 word
  if word.length = width ∧ least ≤ n ∧ n ≤ greatest then some (n, cs.drop width) else none

def after? (c : Char) : List Char → Option (List Char)
  | d :: rest => if d = c then some rest else none
  | [] => none

def date? (cs : List Char) : Option (List Char × List Char) := do
  let (year, rest) ← field? 4 0 9999 cs
  let rest ← after? '-' rest
  let (month, rest) ← field? 2 1 12 rest
  let rest ← after? '-' rest
  let (_, rest) ← field? 2 1 (daysIn year month) rest
  pure (cs.take 10, rest)

/-- The places after the point that count. -/
def trimFraction (ds : List Char) : List Char :=
  ((ds.take 9).reverse.dropWhile (· == '0')).reverse

def time? (cs : List Char) : Option (List Char × List Char) := do
  let (_, rest) ← field? 2 0 23 cs
  let rest ← after? ':' rest
  let (_, rest) ← field? 2 0 59 rest
  let rest ← after? ':' rest
  let (_, rest) ← field? 2 0 60 rest
  match rest with
  | '.' :: rest =>
    let (ds, rest) := Digits.span rest
    if ds.isEmpty then none
    let ds := trimFraction ds
    pure (cs.take 8 ++ (if ds.isEmpty then [] else '.' :: ds), rest)
  | rest => pure (cs.take 8, rest)

def offset? : List Char → Option (List Char)
  | [] => some []
  | ['Z'] => some ['Z']
  | ['z'] => some ['Z']
  | sign :: rest =>
    if sign = '+' ∨ sign = '-' then do
      let (hours, tail) ← field? 2 0 23 rest
      let tail ← after? ':' tail
      let (minutes, tail) ← field? 2 0 59 tail
      if tail.isEmpty then
        pure ((if hours = 0 ∧ minutes = 0 then '+' else sign) :: rest)
      else none
    else none

def isDateMark (c : Char) : Bool := c == 'T' || c == 't' || c == ' '

def moment? (word : List Char) : Option (List Char) :=
  match date? word with
  | some (date, []) => some date
  | some (date, c :: rest) =>
    if isDateMark c then do
      let (time, rest) ← time? rest
      let offset ← offset? rest
      pure (date ++ 'T' :: time ++ offset)
    else none
  | none =>
    match time? word with
    | some (time, []) => some time
    | _ => none

end PageLookup.Document.Toml
