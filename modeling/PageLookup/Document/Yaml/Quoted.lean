import PageLookup.Document.Digits
import PageLookup.Document.Yaml.Cursor
import PageLookup.Document.Yaml.Fold

/-!
# Quoted scalars of YAML texts

Between single quotes a doubled quote stands for one. Between double quotes a
backslash begins an escape, or takes away the line end after it. In both the
lines are folded and must not stand left of the surrounding block.
-/

set_option autoImplicit false

namespace PageLookup.Document.Yaml

def escape? (c : Char) : Option Char :=
  match c with
  | '0' => some '\x00'
  | 'a' => some '\x07'
  | 'b' => some '\x08'
  | 't' => some '\t'
  | '\t' => some '\t'
  | 'n' => some '\n'
  | 'v' => some '\x0b'
  | 'f' => some '\x0c'
  | 'r' => some '\r'
  | 'e' => some '\x1b'
  | ' ' => some ' '
  | '"' => some '"'
  | '/' => some '/'
  | '\\' => some '\\'
  | 'N' => some '\u0085'
  | '_' => some '\u00a0'
  | 'L' => some '\u2028'
  | 'P' => some '\u2029'
  | _ => none

def escapeDigits (c : Char) : Nat :=
  match c with
  | 'x' => 2
  | 'u' => 4
  | 'U' => 8
  | _ => 0

def Cursor.escaped? (c : Cursor) : Option (Char × Cursor) := do
  let letter ← c.head?
  let width := escapeDigits letter
  if width = 0 then
    let ch ← escape? letter
    pure (ch, c.advance 1)
  else
    let word := (c.rest.drop 1).take width
    if word.length ≠ width then none
    let n ← Digits.value? 16 word
    let ch ← Digits.scalar? n
    pure (ch, c.advance (width+1))

def quotedWord (quote : Char) : Nat → Cursor → Option (List Char × Bool × Cursor)
  | 0, c => some ([], false, c)
  | n+1, c =>
    match c.head? with
    | none => some ([], false, c)
    | some ch =>
      if isBlank ch || isBreak ch then some ([], false, c)
      else if ch = quote then
        if quote = '\'' ∧ c.second? = some quote then
          (quotedWord quote n (c.advance 2)).map fun p => (quote :: p.1, p.2)
        else some ([], false, c)
      else if quote = '"' ∧ ch = '\\' then
        if c.second?.any isBreak then some ([], true, (c.advance 1).newLine)
        else do
          let (e, d) ← (c.advance 1).escaped?
          let (word, p) ← quotedWord quote n d
          pure (e :: word, p)
      else (quotedWord quote n (c.advance 1)).map fun p => (ch :: p.1, p.2)

/-- A tab may not stand where the block's indentation does. -/
def quotedGap (indent : Int) : Nat → Gap → Cursor → Option (Gap × Cursor)
  | 0, g, c => some (g, c)
  | n+1, g, c =>
    match c.head? with
    | none => some (g, c)
    | some ch =>
      if isBlank ch then
        let (_, d) := c.skipBlanks (· == ch)
        match g with
        | .blanks cs => quotedGap indent n (.blanks (cs ++ c.rest.takeWhile (· == ch))) d
        | .lines .. =>
          if ch = '\t' ∧ (c.column : Int) < indent then none else quotedGap indent n g d
      else if isBreak ch then
        match g with
        | .blanks _ => quotedGap indent n (.lines false 0) c.newLine
        | .lines joined breaks => quotedGap indent n (.lines joined (breaks+1)) c.newLine
      else some (g, c)

def quotedText (quote : Char) (indent : Int) : Nat → Cursor → Option (List Char × Cursor)
  | 0, _ => none
  | n+1, c =>
    if c.atDocumentMark || c.atEnd || (c.column : Int) < indent then none
    else do
      let (word, joined, c) ← quotedWord quote c.rest.length c
      if c.head? = some quote then pure (word, c.advance 1)
      else
        let gap := if joined then Gap.lines true 0 else Gap.none
        let (gap, c) ← quotedGap indent c.rest.length gap c
        let (more, c) ← quotedText quote indent n c
        pure (word ++ gap.text ++ more, c)

end PageLookup.Document.Yaml
