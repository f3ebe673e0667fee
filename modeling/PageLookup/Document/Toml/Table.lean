import PageLookup.Document.Value

/-!
# Tables of TOML documents

Statements add to a tree of tables. A table remembers how it came to be, which
decides what may still be added: a header names its table once, dotted keys
add to tables made by dotted keys only, and a value is closed for good.
-/

set_option autoImplicit false

namespace PageLookup.Document.Toml

/-- How a table came to be: by its own header, on the way of a longer header,
or on the way of a dotted key. -/
inductive Origin where
  | header
  | longerHeader
  | dottedKey
  deriving DecidableEq, Repr

/-- An entry of a table. Of the tables of an array the latest is `last`. -/
inductive Item where
  | value (v : Value)
  | table (origin : Origin) (entries : List (String × Item))
  | tables (earlier : List (List (String × Item))) (last : List (String × Item))

abbrev Entries := List (String × Item)

def setEntry (k : String) (i : Item) : Entries → Entries
  | [] => [(k, i)]
  | e :: rest => if e.1 = k then (k, i) :: rest else e :: setEntry k i rest

/-- Changes the table at the end of a path, making the tables on the way that
are not there. The change is told how the table came to be. -/
def within (dotted : Bool) (change : Origin → Entries → Option Entries) :
    List String → Origin → Entries → Option Entries
  | [], origin, es => change origin es
  | k :: path, _, es =>
    match es.lookup k with
    | none =>
      let origin := if dotted then Origin.dottedKey else .longerHeader
      (within dotted change path origin []).map fun sub => setEntry k (.table origin sub) es
    | some (.value _) => none
    | some (.table origin sub) =>
      if dotted ∧ origin = .header then none
      else (within dotted change path origin sub).map fun sub => setEntry k (.table origin sub) es
    | some (.tables earlier last) =>
      (within dotted change path .header last).map fun last => setEntry k (.tables earlier last) es

def define (k : String) (v : Value) (es : Entries) : Option Entries :=
  if (es.lookup k).isSome then none else some (setEntry k (.value v) es)

/-- Only dotted keys add to tables made by dotted keys. -/
def assign (path : List String) (k : String) (v : Value) (origin : Origin) (es : Entries) :
    Option Entries :=
  within true (fun made es =>
    if decide (made = .dottedKey) = path.isEmpty then none else define k v es) path origin es

/-- The table of a header must not have been named before. -/
def openTable (k : String) (es : Entries) : Option Entries :=
  match es.lookup k with
  | none => some (setEntry k (.table .header []) es)
  | some (.table .longerHeader sub) => some (setEntry k (.table .header sub) es)
  | some _ => none

def openElement (k : String) (es : Entries) : Option Entries :=
  match es.lookup k with
  | none => some (setEntry k (.tables [] []) es)
  | some (.tables earlier last) => some (setEntry k (.tables (earlier ++ [last]) []) es)
  | some _ => none

mutual

def Item.toValue : Item → Value
  | .value v => v
  | .table _ es => .map (entryValues es)
  | .tables earlier last => .seq (tableValues earlier ++ [.map (entryValues last)])

def entryValues : List (String × Item) → List (String × Value)
  | [] => []
  | (k, i) :: rest => (k, i.toValue) :: entryValues rest

def tableValues : List (List (String × Item)) → List Value
  | [] => []
  | es :: rest => .map (entryValues es) :: tableValues rest

end

end PageLookup.Document.Toml
