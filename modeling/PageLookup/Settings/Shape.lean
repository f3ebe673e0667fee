/-!
# Shapes of values

Settings look at the outermost shape of a value only. How a real number is
written is left to those who hold it.
-/

set_option autoImplicit false

namespace PageLookup

inductive Shape (Real : Type) where
  | unit
  | bool (b : Bool)
  | int (n : Int)
  | real (x : Real)
  | text (s : String)
  | seq
  | map
  deriving DecidableEq, Repr

def Shape.scalar? {Real : Type} (write : Real → String) : Shape Real → Option String
  | .unit => none
  | .bool b => some (if b then "true" else "false")
  | .int n => some (toString n)
  | .real x => some (write x)
  | .text s => some s
  | .seq => none
  | .map => none

end PageLookup
