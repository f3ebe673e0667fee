import PageLookup.Document.Yaml.Node
import PageLookup.Document.Yaml.Scan

/-!
# Reading YAML documents

A text holds any number of documents. Anchors and tag handles last until the
end of their document, and a reference stands for the node that its anchor
marks, once that node is complete. Every second step of the reader takes a
token, so the number of tokens bounds the steps.
-/

set_option autoImplicit false

namespace PageLookup.Document.Yaml

structure Reader where
  tokens : List Token
  anchors : List (String × Nat)
  nodes : List (Nat × Node)
  handles : List (String × String)

abbrev Reading := StateT Reader Option

namespace Reading

def peek : Reading (Option Token) := do
  return (← get).tokens.head?

def skip : Reading Unit :=
  modify fun r => { r with tokens := r.tokens.tail }

def declare (name : String) : Reading Nat := do
  let r ← get
  let id := r.anchors.length
  set { r with anchors := (name, id) :: r.anchors }
  return id

def complete (id : Option Nat) (node : Node) : Reading Node := do
  match id with
  | some id => modify fun r => { r with nodes := (id, node) :: r.nodes }
  | none => pure ()
  return node

/-- A reference inside the node it refers to stands for nothing yet. -/
def refer (name : String) : Reading Node := do
  let r ← get
  let id ← r.anchors.lookup name
  return (r.nodes.lookup id).getD .misfit

def commonTags : String := "tag:yaml.org,2002:"

/-- The kind a tag gives to a scalar, none for tags with no common kind. A
handle with a name must have been declared. -/
def kind? (handle suffix : String) : Reading (Option String) := do
  let r ← get
  let expansion :=
    if handle = "" then r.handles.lookup "" else r.handles.lookup handle
  match expansion with
  | some e => return if e = commonTags then some suffix else none
  | none =>
    if handle = "!!" then return some suffix
    else if handle = "" ∨ handle = "!" then return none
    else failure

def properties : Reading (Option Nat × Option (Option String)) := do
  match ← peek with
  | some (.anchor name) =>
    skip
    let id ← declare name
    match ← peek with
    | some (.tag handle suffix) =>
      skip
      let k ← kind? handle suffix
      return (some id, some k)
    | _ => return (some id, none)
  | some (.tag handle suffix) =>
    skip
    let k ← kind? handle suffix
    match ← peek with
    | some (.anchor name) =>
      skip
      let id ← declare name
      return (some id, some k)
    | _ => return (none, some k)
  | _ => return (none, none)

def scalar (plain : Bool) (text : String) (tag : Option (Option String)) : Node :=
  if !plain then .text text
  else
    match tag with
    | none => .ofPlain text
    | some none => .text text
    | some (some kind) => .ofTagged kind text

def mapNode (parts : List Node) : Reading Node := do
  let entries ← pairs [] parts
  return .map entries

def endsBlockPart : Option Token → Bool
  | some .key => true
  | some .value => true
  | some .closeBlock => true
  | _ => false

def endsEntry : Option Token → Bool
  | some .entry => true
  | some .closeBlock => true
  | _ => false

def endsLooseEntry : Option Token → Bool
  | some .entry => true
  | t => endsBlockPart t

def endsFlowPart : Option Token → Bool
  | some .value => true
  | some .comma => true
  | some .closeFlowSeq => true
  | some .closeFlowMap => true
  | _ => false

mutual

/-- `block` allows block collections, `loose` also a sequence whose entries stand under their key. -/
def node : Nat → Bool → Bool → Reading Node
  | 0, _, _ => failure
  | n+1, block, loose => do
    if let some (.reference name) ← peek then
      skip
      return ← refer name
    let (id, tag) ← properties
    match ← peek with
    | some (.scalar plain text) =>
      skip
      complete id (scalar plain text tag)
    | some .openFlowSeq =>
      skip
      complete id (.seq (← flowItems n))
    | some .openFlowMap =>
      skip
      complete id (← mapNode (← flowParts n))
    | some .openBlockSeq =>
      if !block then failure
      skip
      complete id (.seq (← blockItems n))
    | some .openBlockMap =>
      if !block then failure
      skip
      complete id (← mapNode (← blockParts n))
    | t =>
      if loose ∧ t = some .entry then complete id (.seq (← looseItems n))
      else if id.isSome ∨ tag.isSome then complete id (scalar true "" tag)
      else failure

def blockItems : Nat → Reading (List Node)
  | 0 => failure
  | n+1 => do
    match ← peek with
    | some .closeBlock =>
      skip
      return []
    | some .entry =>
      skip
      let i ← if endsEntry (← peek) then pure .null else node n true false
      return i :: (← blockItems n)
    | _ => failure

def looseItems : Nat → Reading (List Node)
  | 0 => failure
  | n+1 => do
    match ← peek with
    | some .entry =>
      skip
      let i ← if endsLooseEntry (← peek) then pure .null else node n true false
      return i :: (← looseItems n)
    | _ => return []

def blockParts : Nat → Reading (List Node)
  | 0 => failure
  | n+1 => do
    if (← peek) = some .closeBlock then
      skip
      return []
    let k ← match ← peek with
      | some .key =>
        skip
        if endsBlockPart (← peek) then pure .null else node n true true
      | some .value => pure .null
      | _ => failure
    let v ← match ← peek with
      | some .value =>
        skip
        if endsBlockPart (← peek) then pure .null else node n true true
      | _ => pure .null
    return k :: v :: (← blockParts n)

def flowPair : Nat → Reading (List Node)
  | 0 => failure
  | n+1 => do
    let k ← match ← peek with
      | some .key =>
        skip
        if endsFlowPart (← peek) then pure .null else node n false false
      | _ => pure .null
    let v ← match ← peek with
      | some .value =>
        skip
        if endsFlowPart (← peek) then pure .null else node n false false
      | _ => pure .null
    return [k, v]

/-- A single pair counts as a map. -/
def flowItems : Nat → Reading (List Node)
  | 0 => failure
  | n+1 => do
    match ← peek with
    | some .closeFlowSeq =>
      skip
      return []
    | t =>
      let i ←
        if t = some .key ∨ t = some .value then do mapNode (← flowPair n)
        else node n false false
      match ← peek with
      | some .closeFlowSeq =>
        skip
        return [i]
      | some .comma =>
        skip
        return i :: (← flowItems n)
      | _ => failure

def flowParts : Nat → Reading (List Node)
  | 0 => failure
  | n+1 => do
    match ← peek with
    | some .closeFlowMap =>
      skip
      return []
    | t =>
      let kv ←
        if t = some .key ∨ t = some .value then flowPair n
        else do pure [← node n false false, .null]
      match ← peek with
      | some .closeFlowMap =>
        skip
        return kv
      | some .comma =>
        skip
        return kv ++ (← flowParts n)
      | _ => failure

end

def directives : Nat → Bool → Reading Unit
  | 0, _ => failure
  | n+1, versioned => do
    match ← peek with
    | some .version =>
      if versioned then failure
      skip
      directives n true
    | some (.tagHandle handle expansion) =>
      let r ← get
      if (r.handles.lookup handle).isSome then failure
      set { r with handles := (handle, expansion) :: r.handles }
      skip
      directives n versioned
    | _ => return ()

def beginsDirective : Option Token → Bool
  | some .version => true
  | some (.tagHandle _ _) => true
  | _ => false

def content (n : Nat) : Reading Node := do
  let t ← peek
  if beginsDirective t ∨ t.isNone ∨ t = some .documentStart ∨ t = some .documentEnd then
    return .null
  else node n true false

/-- Only the first document, and one behind an end mark, may come without a start mark. -/
def documents : Nat → Bool → Reading (List Node)
  | 0, _ => failure
  | n+1, implicit => do
    modify fun r => { r with
      tokens := r.tokens.dropWhile (· == .documentEnd), anchors := [], nodes := [], handles := [] }
    let t ← peek
    if t.isNone then return []
    let root ←
      if implicit ∧ !beginsDirective t ∧ t ≠ some .documentStart then node n true false
      else do
        directives n false
        if (← peek) ≠ some .documentStart then failure
        skip
        content n
    match ← peek with
    | some .documentEnd =>
      skip
      return root :: (← documents n true)
    | t =>
      if beginsDirective t then failure
      return root :: (← documents n false)

end Reading

def read (cs : List Char) : Option (List Node) := do
  let tokens ← Token.all cs
  let (docs, _) ← (Reading.documents (2*tokens.length + 4) true).run ⟨tokens, [], [], []⟩
  pure docs

end PageLookup.Document.Yaml
