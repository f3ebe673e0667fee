import PageLookup.Document.Digits
import PageLookup.Document.Yaml.Cursor
import PageLookup.Document.Yaml.Fold

/-!
# Block scalars of YAML texts

The header names the style, how the line ends at the end are kept, and
optionally the indentation. Without that the first line with content decides.
In the folded style two lines that both begin with a word are joined.
-/

set_option autoImplicit false

namespace PageLookup.Document.Yaml

inductive Chomping where
  | clip
  | strip
  | keep
  deriving DecidableEq, Repr

def Chomping.ofChar? (c : Char) : Option Chomping :=
  if c = '+' then some .keep else if c = '-' then some .strip else none

def indentation? (c : Char) : Option Nat :=
  match Digits.digit? 10 c with
  | some 0 => none
  | some n => some n
  | none => none

/-- The two marks may come in either order. -/
def blockHeader (c : Cursor) : Option (Chomping × Nat × Cursor) :=
  match c.head? with
  | none => some (.clip, 0, c)
  | some ch =>
    match Chomping.ofChar? ch with
    | some chomping =>
      let c := c.advance 1
      match c.head? with
      | some d =>
        if d.isDigit then (indentation? d).map fun n => (chomping, n, c.advance 1)
        else some (chomping, 0, c)
      | none => some (chomping, 0, c)
    | none =>
      if ch.isDigit then do
        let n ← indentation? ch
        let c := c.advance 1
        match c.head?.bind Chomping.ofChar? with
        | some chomping => pure (chomping, n, c.advance 1)
        | none => pure (.clip, n, c)
      else some (.clip, 0, c)

def skipIndentation (indent : Nat) : Nat → Nat → Cursor → Nat × Cursor
  | 0, breaks, c => (breaks, c)
  | n+1, breaks, c =>
    let spaces := (c.rest.takeWhile (· == ' ')).length
    let width := min spaces (indent - c.column)
    let d := if width = 0 then c else { c.advance width with fresh := c.fresh }
    if d.head?.any isBreak then skipIndentation indent n (breaks+1) d.newLine
    else (breaks, d)

def findIndentation : Nat → Nat → Nat → Cursor → Nat × Nat × Cursor
  | 0, widest, breaks, c => (widest, breaks, c)
  | n+1, widest, breaks, c =>
    let (_, d) := c.skipBlanks (· == ' ')
    let widest := max widest d.column
    if d.head?.any isBreak then findIndentation n widest (breaks+1) d.newLine
    else (widest, breaks, d)

/-- What the lines of a block scalar leave behind: the text without the line
ends at its end, whether the last line had one, how many empty lines follow. -/
structure BlockLines where
  text : List Char
  ended : Bool
  breaks : Nat
  cursor : Cursor

def blockLines (folded : Bool) (indent : Nat) : Nat → (afterBlank : Bool) → BlockLines → BlockLines
  | 0, _, b => b
  | n+1, afterBlank, b =>
    let c := b.cursor
    if c.column ≠ indent ∨ c.atEnd ∨ c.atMark Cursor.endMark then b
    else
      let blank := c.head?.any isBlank
      let gap :=
        if folded && b.ended && !afterBlank && !blank then (Gap.lines false b.breaks).text
        else lineFeeds ((if b.ended then 1 else 0) + b.breaks)
      let (line, d) := c.span (!isBreak ·)
      let text := b.text ++ gap ++ line
      if d.atEnd then ⟨text, false, 0, d⟩
      else
        let (breaks, d) := skipIndentation indent (d.rest.length + 1) 0 d.newLine
        blockLines folded indent n blank ⟨text, true, breaks, d⟩

/-- `outer` is the indentation of the block around it, below zero at the top. -/
def blockText (folded : Bool) (outer : Int) (c : Cursor) : Option (List Char × Cursor) := do
  let firstLine := c.line
  let (chomping, given, c) ← blockHeader c
  let c ← c.finishLine
  let begun := !c.atEnd
  let c := if begun then c.newLine else c
  if c.head? = some '\t' then none
  let (indent, breaks, c) :=
    if given = 0 then
      let (widest, breaks, c) := findIndentation (c.rest.length + 1) 0 0 c
      (max widest (outer+1).toNat, breaks, c)
    else
      let indent := if 0 ≤ outer then outer.toNat + given else given
      let (breaks, c) := skipIndentation indent (c.rest.length + 1) 0 c
      (indent, breaks, c)
  if c.atEnd then
    let text :=
      if chomping = .strip ∨ c.line = firstLine then []
      else if chomping = .keep ∧ breaks ≠ 0 then lineFeeds breaks
      else if begun then ['\n'] else []
    pure (text, c)
  else if c.column < indent ∧ outer < (c.column : Int) then none
  else
    let b := blockLines folded indent (c.rest.length + 1) false ⟨[], false, breaks, c⟩
    let last := if b.ended then ['\n'] else []
    let unended := b.cursor.atEnd && max indent 1 ≤ b.cursor.column
    let tail := if chomping = .strip then [] else last ++ (if unended then ['\n'] else [])
    let kept := if chomping = .keep then lineFeeds b.breaks else []
    pure (b.text ++ tail ++ kept, b.cursor)

end PageLookup.Document.Yaml
