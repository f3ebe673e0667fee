import PageLookup.Document.Yaml.Cursor
import PageLookup.Document.Yaml.Fold

/-!
# Plain scalars of YAML texts

A scalar without quotes ends at a colon before a blank, at a comment, at a
document mark, where a line stands left of it, and inside a flow collection
also at the characters that structure it. Its lines are folded.
-/

set_option autoImplicit false

namespace PageLookup.Document.Yaml

def colonEnds (flow : Bool) (next : Option Char) : Bool :=
  endsWord next || flow && next.any isFlow

def plainWord (flow : Bool) : List Char → List Char
  | [] => []
  | c :: rest =>
    if isBlank c || isBreak c || flow && isFlow c || c == ':' && colonEnds flow rest.head? then []
    else c :: plainWord flow rest

/-- Among the indentation a tab may stand on an empty line only. -/
def plainGap (indent : Int) : Nat → Gap → Cursor → Option (Gap × Cursor)
  | 0, g, c => some (g, c)
  | n+1, g, c =>
    match c.head? with
    | none => some (g, c)
    | some ch =>
      if isBreak ch then
        match g with
        | .blanks _ => plainGap indent n (.lines false 0) c.newLine
        | .lines joined breaks => plainGap indent n (.lines joined (breaks+1)) c.newLine
      else if isBlank ch then
        if !c.fresh then
          let (word, d) := c.skipBlanks isBlank
          plainGap indent n (.blanks word) d
        else if ch = '\t' ∧ (c.column : Int) < indent then do
          let d ← c.finishLine
          plainGap indent n g d
        else plainGap indent n g (c.skipBlanks (· == ch)).2
      else some (g, c)

def plainText (flow : Bool) (indent : Int) : Nat → List Char → Gap → Cursor →
    Option (List Char × Cursor)
  | 0, text, _, c => some (text, c)
  | n+1, text, gap, c =>
    if c.fresh && c.atDocumentMark || c.head? == some '#' then some (text, c)
    else if flow && c.head? == some '-' && c.second?.any isFlow then none
    else do
      let word := plainWord flow c.rest
      let text := if word.isEmpty then text else text ++ gap.text ++ word
      let gap := if word.isEmpty then gap else .none
      let c := if word.isEmpty then c else c.advance word.length
      if c.atEnd || !endsWord c.head? then pure (text, c)
      else
        let (gap, c) ← plainGap indent c.rest.length gap c
        if !flow && (c.column : Int) < indent then pure (text, c)
        else plainText flow indent n text gap c

end PageLookup.Document.Yaml
