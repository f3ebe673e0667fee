import PageLookup.Ascending
import PageLookup.Fault

/-!
# Search by halving

A key is looked for in the middle of the entries that are left, until a single
one is left. It stands there, or right before or behind is the gap where it
would have to be set in.
-/

set_option autoImplicit false

namespace PageLookup

inductive Spot where
  | found (index : Nat)
  | gap (index : Nat)
  deriving DecidableEq, Repr

namespace Ascending

variable {κ α : Type} [LT κ] [DecidableLT κ]

def narrow (entries : List (κ × α)) (k : κ) (base size : Nat) : Except Fault Nat :=
  if size ≤ 1 then .ok base
  else
    match Fault.demand (base + size/2) entries[base + size/2]? with
    | .ok middle =>
      if k < middle.1 then narrow entries k base (size - size/2)
      else narrow entries k (base + size/2) (size - size/2)
    | .error fault => .error fault
  termination_by size

def beside (k key : κ) (index : Nat) : Spot :=
  if k < key then .gap index else if key < k then .gap (index+1) else .found index

def spot (entries : List (κ × α)) (k : κ) : Except Fault Spot :=
  if entries.isEmpty then .ok (.gap 0)
  else do
    let base ← narrow entries k 0 entries.length
    let last ← Fault.demand base entries[base]?
    return beside k last.1 base

end Ascending

end PageLookup
