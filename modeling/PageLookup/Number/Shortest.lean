import PageLookup.Number.Binary64

/-!
# The shortest decimal text of a number

Every decimal that lies nearer to the number than to its neighbours reads back
as that number. The text has the fewest digits that do, and of several such
decimals it is the nearest, the upper one when two are equally near. It is
always positional: no exponent, and no point after a whole number.
-/

set_option autoImplicit false

namespace PageLookup.Number

/-- The decimals `c * 10^k` that read back as a given number, for one `k`: all
`c` with `low ≤ c * unit ≤ high`, without the bounds when the mantissa is odd. -/
structure Grid where
  value : Nat
  low : Nat
  high : Nat
  unit : Nat
  closed : Bool

namespace Grid

/-- Sizes are counted in quarters of the last binary place. Below a power of
two the next smaller number is only half a place away. -/
def of (mantissa : Nat) (e k : Int) : Grid :=
  let place := twoTo e.toNat * tenTo (-k).toNat
  let below := if mantissa = twoTo 52 ∧ Binary64.leastExponent < e then 1 else 2
  { value := 4*mantissa*place
    low := (4*mantissa - below)*place
    high := (4*mantissa + 2)*place
    unit := 4 * twoTo (-e).toNat * tenTo k.toNat
    closed := mantissa % 2 = 0 }

def holds (g : Grid) (c : Nat) : Bool :=
  if g.closed then g.low ≤ c*g.unit && c*g.unit ≤ g.high
  else g.low < c*g.unit && c*g.unit < g.high

/-- The grid point nearest to the number, if one reads back as it. If any does,
so does one of the number's two neighbours. -/
def nearest? (g : Grid) : Option Nat :=
  let c := g.value / g.unit
  let lower := g.holds c
  let upper := g.holds (c+1)
  if lower && upper then some (if 2*(g.value % g.unit) < g.unit then c else c+1)
  else if lower then some c
  else if upper then some (c+1)
  else none

end Grid

def coarsest (mantissa : Nat) (e : Int) : Int → Nat → Nat × Int
  | k, 0 => (mantissa, k)
  | k, fuel+1 =>
    match (Grid.of mantissa e k).nearest? with
    | some c => (c, k)
    | none => coarsest mantissa e (k-1) fuel

/-- Digits and power of ten. No number reaches 10^310, and 10^-330 is finer
than every place of one. -/
def shortestDecimal (mantissa : Nat) (e : Int) : Nat × Int :=
  coarsest mantissa e 310 640

def positional (digits : Nat) (k : Int) : List Char :=
  let ds := Nat.toDigits 10 digits
  if 0 ≤ k then ds ++ List.replicate k.toNat '0'
  else
    let places := (-k).toNat
    if places < ds.length then
      ds.take (ds.length - places) ++ '.' :: ds.drop (ds.length - places)
    else '0' :: '.' :: List.replicate (places - ds.length) '0' ++ ds

def Binary64.text : Binary64 → String
  | .finite negative mantissa e =>
    let sign := if negative then ['-'] else []
    if mantissa = 0 then String.ofList (sign ++ ['0'])
    else
      let d := shortestDecimal mantissa e
      String.ofList (sign ++ positional d.1 d.2)
  | .infinite negative => if negative then "-inf" else "inf"
  | .notANumber => "NaN"

theorem mem_positional (digits : Nat) (k : Int) (c : Char) (h : c ∈ positional digits k) :
    c.isDigit = true ∨ c = '.' := by
  have hdigit (ds : List Char) (hs : ds ⊆ Nat.toDigits 10 digits) (hc : c ∈ ds) :
      c.isDigit = true := Nat.isDigit_of_mem_toDigits (by decide) (by decide) (hs hc)
  have hzero (n : Nat) (hc : c ∈ List.replicate n '0') : c.isDigit = true :=
    List.eq_of_mem_replicate hc ▸ rfl
  simp only [positional] at h
  split at h
  · rcases List.mem_append.mp h with h | h
    · exact .inl (hdigit _ (List.Subset.refl _) h)
    · exact .inl (hzero _ h)
  split at h
  · rcases List.mem_append.mp h with h | h
    · exact .inl (hdigit _ (List.take_subset _ _) h)
    · rcases List.mem_cons.mp h with rfl | h
      · exact .inr rfl
      · exact .inl (hdigit _ (List.drop_subset _ _) h)
  · simp only [List.cons_append, List.mem_cons, List.mem_append] at h
    rcases h with rfl | rfl | h | h
    · exact .inl rfl
    · exact .inr rfl
    · exact .inl (hzero _ h)
    · exact .inl (hdigit _ (List.Subset.refl _) h)

/-- A number is written in digits, with a sign and a point, unless it is infinite or none. -/
theorem Binary64.text_chars (x : Binary64) (c : Char) (h : c ∈ x.text.toList) :
    c.isDigit = true ∨ c ∈ ".-infNaN".toList := by
  cases x with
  | finite negative mantissa e =>
    have hsign (hc : c ∈ if negative then ['-'] else []) : c ∈ ".-infNaN".toList := by
      cases negative <;> simp_all
    simp only [Binary64.text] at h
    split at h
    · rw [String.toList_ofList, List.mem_append] at h
      rcases h with h | h
      · exact .inr (hsign h)
      · exact .inl (List.mem_singleton.mp h ▸ rfl)
    · rw [String.toList_ofList, List.mem_append] at h
      rcases h with h | h
      · exact .inr (hsign h)
      · rcases mem_positional _ _ c h with h | rfl
        · exact .inl h
        · exact .inr (by decide)
  | infinite negative =>
    right
    cases negative <;> simp only [Binary64.text] at h
    · have hchar : c = 'i' ∨ c = 'n' ∨ c = 'f' := by simpa using h
      rcases hchar with rfl | rfl | rfl <;> decide
    · have hchar : c = '-' ∨ c = 'i' ∨ c = 'n' ∨ c = 'f' := by simpa using h
      rcases hchar with rfl | rfl | rfl | rfl <;> decide
  | notANumber =>
    have hchar : c = 'N' ∨ c = 'a' ∨ c = 'N' := by simpa [Binary64.text] using h
    right
    rcases hchar with rfl | rfl | rfl <;> decide

end PageLookup.Number
