import PageLookup.Document.Digits
import PageLookup.Number.Shortest
import PageLookup.Settings.Shape
import PageLookup.Text.Quoted

/-!
# Values of configuration documents

All document formats are read into one kind of value. Messages name a value by
its outermost shape.
-/

set_option autoImplicit false

namespace PageLookup.Document

open PageLookup.Number

inductive Value where
  | null
  | bool (b : Bool)
  | int (n : Int)
  | float (x : Binary64)
  | text (s : String)
  | seq (items : List Value)
  | map (entries : List (String × Value))

def Value.shape : Value → Shape Binary64
  | .null => .unit
  | .bool b => .bool b
  | .int n => .int n
  | .float x => .real x
  | .text s => .text s
  | .seq _ => .seq
  | .map _ => .map

def describe : Shape Binary64 → String
  | .unit => "unit value"
  | .bool b => "boolean `" ++ (if b then "true" else "false") ++ "`"
  | .int n =>
    let kind := if Digits.greatestWord < n then "64-bit unsigned integer" else "64-bit integer"
    kind ++ " `" ++ toString n ++ "`"
  | .real x => "floating point `" ++ x.text ++ "`"
  | .text s => "string " ++ Text.quoted s
  | .seq => "sequence"
  | .map => "map"

def lastOfEach {α : Type} : List (String × α) → List (String × α)
  | [] => []
  | e :: rest => if rest.any (·.1 == e.1) then lastOfEach rest else e :: lastOfEach rest

end PageLookup.Document
