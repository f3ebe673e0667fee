import PageLookup.Document.Json.Token

/-!
# Reading JSON documents

The reader goes through the tokens once and keeps the collections still open,
the innermost first. At most 127 may be open at a time. A key given twice
keeps its last value.
-/

set_option autoImplicit false

namespace PageLookup.Document.Json

/-- An open collection, with its finished parts in reverse order. A map waits
for the value of `key`. -/
inductive Frame where
  | seq (items : List Value)
  | map (entries : List (String × Value)) (key : String)

inductive Reader where
  | value (frames : List Frame)
  | firstItem (frames : List Frame)
  | firstKey (frames : List Frame)
  | key (frames : List Frame) (entries : List (String × Value))
  | colon (frames : List Frame) (entries : List (String × Value)) (key : String)
  | done (frames : List Frame) (value : Value)

def depthLimit : Nat := 127

namespace Reader

def begin (frames : List Frame) : Token → Option Reader
  | .openSeq => if frames.length < depthLimit then some (.firstItem frames) else none
  | .openMap => if frames.length < depthLimit then some (.firstKey frames) else none
  | .text s => some (.done frames (.text s))
  | .scalar v => some (.done frames v)
  | _ => none

def proceed (value : Value) (t : Token) : List Frame → Option Reader
  | [] => none
  | .seq items :: frames =>
    match t with
    | .comma => some (.value (.seq (value :: items) :: frames))
    | .closeSeq => some (.done frames (.seq (value :: items).reverse))
    | _ => none
  | .map entries name :: frames =>
    match t with
    | .comma => some (.key frames ((name, value) :: entries))
    | .closeMap => some (.done frames (.map (lastOfEach ((name, value) :: entries).reverse)))
    | _ => none

def step : Reader → Token → Option Reader
  | .value frames, t => begin frames t
  | .firstItem frames, .closeSeq => some (.done frames (.seq []))
  | .firstItem frames, t => begin (.seq [] :: frames) t
  | .firstKey frames, .closeMap => some (.done frames (.map []))
  | .firstKey frames, .text s => some (.colon frames [] s)
  | .firstKey _, _ => none
  | .key frames entries, .text s => some (.colon frames entries s)
  | .key _ _, _ => none
  | .colon frames entries name, .colon => some (.value (.map entries name :: frames))
  | .colon _ _ _, _ => none
  | .done frames v, t => proceed v t frames

end Reader

def read (cs : List Char) : Option Value := do
  let tokens ← Token.all cs
  match ← tokens.foldlM Reader.step (Reader.value []) with
  | .done [] v => some v
  | _ => none

end PageLookup.Document.Json
