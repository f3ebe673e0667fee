/-!
# Places in a YAML text

A cursor holds the text still to be read and the place it has reached. Line
ends of one or two characters count as one.
-/

set_option autoImplicit false

namespace PageLookup.Document.Yaml

def isBlank (c : Char) : Bool := c == ' ' || c == '\t'

def isBreak (c : Char) : Bool := c == '\n' || c == '\r'

def isFlow (c : Char) : Bool := c == ',' || c == '[' || c == ']' || c == '{' || c == '}'

def endsLine (c : Option Char) : Bool := c.all isBreak

def endsWord (c : Option Char) : Bool := c.all fun c => isBlank c || isBreak c

/-- `fresh` holds while the line has had nothing but blanks. -/
structure Cursor where
  rest : List Char
  index : Nat
  line : Nat
  column : Nat
  fresh : Bool

namespace Cursor

def start (cs : List Char) : Cursor := ⟨cs, 0, 0, 0, true⟩

def head? (c : Cursor) : Option Char := c.rest.head?

def second? (c : Cursor) : Option Char := c.rest[1]?

def atEnd (c : Cursor) : Bool := c.rest.isEmpty

def advance (c : Cursor) (n : Nat) : Cursor :=
  { c with
    rest := c.rest.drop n
    index := c.index + n
    column := c.column + n
    fresh := false }

def span (c : Cursor) (p : Char → Bool) : List Char × Cursor :=
  let word := c.rest.takeWhile p
  (word, if word.isEmpty then c else c.advance word.length)

def skipBlanks (c : Cursor) (p : Char → Bool) : List Char × Cursor :=
  let (word, d) := c.span p
  (word, { d with fresh := c.fresh })

def newLine (c : Cursor) : Cursor :=
  let size := if c.rest.take 2 = ['\r', '\n'] then 2 else 1
  { rest := c.rest.drop size, index := c.index + size, line := c.line + 1, column := 0, fresh := true }

def toLineEnd (c : Cursor) : Cursor := (c.span (!isBreak ·)).2

/-- Past blanks and a comment, which needs a blank before it. Tells whether
tabs and whether spaces were among the blanks. -/
def skipRemark (c : Cursor) (tabs : Bool) : Option (Cursor × Bool × Bool) :=
  let (word, d) := c.skipBlanks fun ch => ch == ' ' || tabs && ch == '\t'
  let found := (word.contains '\t', word.contains ' ')
  if d.head? = some '#' then
    if word.isEmpty then none else some (d.toLineEnd, found)
  else some (d, found)

def finishLine (c : Cursor) : Option Cursor := do
  let (d, _) ← c.skipRemark true
  if endsLine d.head? then some d else none

def atMark (c : Cursor) (mark : List Char) : Bool :=
  c.column == 0 && mark.isPrefixOf c.rest && endsWord c.rest[mark.length]?

def startMark : List Char := ['-', '-', '-']

def endMark : List Char := ['.', '.', '.']

def atDocumentMark (c : Cursor) : Bool := c.atMark startMark || c.atMark endMark

end Cursor

end PageLookup.Document.Yaml
