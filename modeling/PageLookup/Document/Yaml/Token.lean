import PageLookup.Document.Yaml.Block
import PageLookup.Document.Yaml.Plain
import PageLookup.Document.Yaml.Quoted

/-!
# Tokens of YAML texts

Indentation becomes tokens that open and close block collections. Whether a
word is a key shows only at the colon behind it, so the scan remembers where a
key may have begun and puts the token for it there afterwards. Outside flow
collections such a key stands on one line and is at most 1024 characters long.
-/

set_option autoImplicit false

namespace PageLookup.Document.Yaml

inductive Token where
  | version
  | tagHandle (handle expansion : String)
  | documentStart
  | documentEnd
  | openBlockSeq
  | openBlockMap
  | closeBlock
  | openFlowSeq
  | closeFlowSeq
  | openFlowMap
  | closeFlowMap
  | entry
  | comma
  | key
  | value
  | anchor (name : String)
  | reference (name : String)
  | tag (handle suffix : String)
  | scalar (plain : Bool) (text : String)
  deriving DecidableEq, Repr

/-- A column of indentation. One that `block` does not hold for opens no
collection: what follows a key or an entry must only stand right of it. -/
structure Indent where
  column : Int
  block : Bool

/-- A place where a key may have begun. A key that starts a line of its block
is required: nothing else may stand there. -/
structure KeySpot where
  token : Nat
  index : Nat
  line : Nat
  column : Nat
  required : Bool

structure FlowLevel where
  isSeq : Bool
  spot : Option KeySpot

structure Scan where
  cursor : Cursor
  tokens : Array Token
  indents : List Indent
  flows : List FlowLevel
  spot : Option KeySpot
  keyAllowed : Bool
  /-- Where a colon right behind a quoted text or a collection counts as one. -/
  adjacent : Option Nat
  /-- The number of an anchor or tag that stands at the left margin. -/
  marginMark : Option Nat

namespace Scan

def start (cs : List Char) : Scan := ⟨.start cs, #[], [], [], none, true, none, none⟩

def indent (s : Scan) : Int :=
  match s.indents with
  | [] => -1
  | i :: _ => i.column

def inFlow (s : Scan) : Bool := !s.flows.isEmpty

def push (s : Scan) (t : Token) : Scan := { s with tokens := s.tokens.push t }

def insertAt (s : Scan) (i : Nat) (t : Token) : Scan :=
  { s with tokens := s.tokens.insertIdxIfInBounds i t }

def moveTo (s : Scan) (c : Cursor) : Scan := { s with cursor := c }

def allowKey (s : Scan) (allowed : Bool) : Scan := { s with keyAllowed := allowed }

def closeBlocks (column : Int) : List Indent → List Indent × Nat
  | [] => ([], 0)
  | i :: rest =>
    if column < i.column then
      let (left, closed) := closeBlocks column rest
      (left, if i.block then closed+1 else closed)
    else (i :: rest, 0)

def unroll (s : Scan) (column : Int) : Scan :=
  if s.inFlow then s
  else
    let (left, closed) := closeBlocks column s.indents
    { s with indents := left, tokens := s.tokens ++ Array.replicate closed .closeBlock }

def dropLoose (indents : List Indent) : List Indent := indents.dropWhile (!·.block)

/-- Opens a block collection at a column right of the present block. Its token
goes before the token with number `place`. -/
def roll (s : Scan) (column : Int) (place : Nat) (t : Token) : Scan :=
  if s.inFlow then s
  else
    let indents :=
      match s.indents with
      | [] => []
      | i :: rest => if i.column ≤ column ∧ !i.block then rest else i :: rest
    let s := { s with indents := indents }
    if s.indent < column then
      { s.insertAt place t with indents := ⟨column, true⟩ :: indents }
    else s

def rollLoose (s : Scan) : Scan :=
  match s.indents with
  | [] => s
  | i :: rest =>
    if !s.inFlow && i.block then { s with indents := ⟨i.column+1, false⟩ :: i :: rest } else s

def saveSpot (s : Scan) : Scan :=
  if s.keyAllowed then
    let c := s.cursor
    let required := !s.inFlow && s.indents.head?.any fun i => i.block && i.column == (c.column : Int)
    { s with spot := some ⟨s.tokens.size, c.index, c.line, c.column, required⟩ }
  else s

def dropSpot (s : Scan) : Option Scan :=
  if s.spot.any (·.required) then none else some { s with spot := none }

def keyLimit : Nat := 1024

/-- Outside flow collections a key that the text has gone too far beyond is none. -/
def dropStaleSpot (s : Scan) : Option Scan :=
  let stale := s.spot.any fun k =>
    k.line < s.cursor.line || k.index + keyLimit < s.cursor.index
  if !s.inFlow && stale then s.dropSpot else some s

/-- A tab may not stand for indentation. -/
def skipToToken : Nat → Scan → Option Scan
  | 0, s => some s
  | n+1, s =>
    let c := s.cursor
    match c.head? with
    | none => some s
    | some ch =>
      if ch = '\t' ∧ !s.indents.isEmpty ∧ c.fresh ∧ (c.column : Int) < s.indent then do
        let d ← c.finishLine
        skipToToken n (s.moveTo d)
      else if isBlank ch then skipToToken n (s.moveTo (c.skipBlanks (· == ch)).2)
      else if isBreak ch then
        let s := s.moveTo c.newLine
        skipToToken n (if s.inFlow then s else s.allowKey true)
      else if ch = '#' then skipToToken n (s.moveTo c.toLineEnd)
      else some s

def advance (s : Scan) (n : Nat) : Scan := s.moveTo (s.cursor.advance n)

def skipRemark (s : Scan) : Option Scan := do
  let (c, _) ← s.cursor.skipRemark true
  pure (s.moveTo c)

def openFlow (s : Scan) (isSeq : Bool) : Option Scan := do
  let s := s.saveSpot.rollLoose
  if 255 ≤ s.flows.length then none
  let s := { s with flows := ⟨isSeq, s.spot⟩ :: s.flows, spot := none, keyAllowed := true }
  let s ← (s.advance 1).skipRemark
  pure (s.push (if isSeq then .openFlowSeq else .openFlowMap))

def closeFlow (s : Scan) (isSeq : Bool) : Option Scan := do
  let s ← s.dropSpot
  let s := match s.flows with
    | [] => s
    | f :: rest => { s with flows := rest, spot := f.spot }
  let s ← ((s.allowKey false).advance 1).skipRemark
  let s := if s.inFlow then { s with adjacent := some s.cursor.index } else s
  pure (s.push (if isSeq then .closeFlowSeq else .closeFlowMap))

def comma (s : Scan) : Option Scan := do
  let s ← s.dropSpot
  let s ← ((s.allowKey true).advance 1).skipRemark
  pure (s.push .comma)

def entry (s : Scan) : Option Scan := do
  if s.inFlow ∨ !s.keyAllowed then none
  let column := s.cursor.column
  if column = 0 ∧ s.marginMark = some (s.tokens.size - 1) ∧ -1 < s.indent then none
  let s := (s.advance 1).roll column s.tokens.size .openBlockSeq
  let (c, tabs, _) ← s.cursor.skipRemark true
  if tabs ∧ c.head? = some '-' ∧ endsWord c.second? then none
  let s := s.moveTo c
  let s := if c.head?.any fun ch => isBreak ch || isFlow ch then s.rollLoose else s
  let s ← s.dropSpot
  pure ((s.allowKey true).push .entry)

def skipSpace : Nat → Bool → Scan → Option Scan
  | 0, found, s => if found then some s else none
  | n+1, found, s =>
    let c := s.cursor
    match c.head? with
    | none => if found then some s else none
    | some ch =>
      if ch = ' ' then skipSpace n true (s.moveTo (c.skipBlanks (· == ' ')).2)
      else if isBreak ch then
        let s := s.moveTo c.newLine
        skipSpace n true (if s.inFlow then s else s.allowKey true)
      else if ch = '#' then skipSpace n found (s.moveTo c.toLineEnd)
      else if found then some s
      else none

def complexKey (s : Scan) : Option Scan := do
  if !s.inFlow ∧ !s.keyAllowed then none
  let s := s.roll s.cursor.column s.tokens.size .openBlockMap
  let s ← s.dropSpot
  let s := (s.allowKey !s.inFlow).advance 1
  let s ← skipSpace s.cursor.rest.length false s
  if s.cursor.head? = some '\t' then none
  pure (s.push .key)

/-- A tab is no space between a colon and a word. -/
def valueGap (c : Cursor) : Option Cursor :=
  if c.head? = some '\t' then do
    let (d, _, spaces) ← c.skipRemark true
    if !spaces ∧ d.head?.any fun ch => ch == '-' || ch.isAlpha then none
    pure d
  else some c

def value (s : Scan) : Option Scan := do
  let colon := s.cursor
  let c ← valueGap (colon.advance 1)
  let s' := s.moveTo c
  match s.spot with
  | some k =>
    if s.flows.head?.any (·.isSeq) ∧ k.line < colon.line then none
    let s' := (s'.insertAt k.token .key).roll k.column k.token .openBlockMap
    let s' := { s'.rollLoose with spot := none, keyAllowed := false }
    pure (s'.push .value)
  | none =>
    if s.inFlow then pure ((s'.allowKey false).push .value)
    else
      if !s.keyAllowed then none
      let s' := (s'.roll colon.column s'.tokens.size .openBlockMap).rollLoose
      pure ((s'.allowKey true).push .value)

def noteMark (s : Scan) : Scan :=
  if s.cursor.column = 0 then { s with marginMark := some s.tokens.size } else s

def isNameChar (c : Char) : Bool :=
  !(isBlank c || isBreak c || isFlow c || c == '\ufeff')

def named (s : Scan) (make : String → Token) : Option Scan :=
  let s := s.saveSpot.noteMark.allowKey false
  let (name, c) := (s.cursor.advance 1).span isNameChar
  if name.isEmpty then none else some ((s.moveTo c).push (make (String.ofList name)))

def quoted (s : Scan) (quote : Char) : Option Scan := do
  let line := s.cursor.line
  let s := s.saveSpot.allowKey false
  let c := s.cursor.advance 1
  let (text, c) ← quotedText quote s.indent (c.rest.length + 1) c
  let (c, _) ← c.skipRemark true
  let fits := match c.head? with
    | none => true
    | some ch =>
      isBreak ch || ch == ':' && (s.inFlow || c.line == line)
        || s.inFlow && (ch == ',' || ch == ']' || ch == '}')
  if !fits then none
  let s ← skipToToken (c.rest.length + 1) (s.moveTo c)
  pure ({ s with adjacent := some s.cursor.index }.push (.scalar false (String.ofList text)))

def block (s : Scan) (folded : Bool) : Option Scan := do
  let s := s.saveSpot.allowKey true
  let s := { s with indents := dropLoose s.indents }
  let (text, c) ← blockText folded s.indent (s.cursor.advance 1)
  pure ((s.moveTo c).push (.scalar false (String.ofList text)))

def plain (s : Scan) : Option Scan := do
  let s := s.saveSpot.allowKey false
  let s := { s with indents := dropLoose s.indents }
  let c := s.cursor
  let indent := s.indent + 1
  if s.inFlow ∧ (c.column : Int) < indent then none
  let (text, c) ← plainText s.inFlow indent (c.rest.length + 1) [] .none c
  let s := s.moveTo c
  let s := if c.fresh then s.allowKey true else s
  pure (s.push (.scalar true (String.ofList text)))

end Scan

end PageLookup.Document.Yaml
