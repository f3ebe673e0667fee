import PageLookup.Document.Yaml.Token

/-!
# Scanning YAML texts

Directives and tags, and the choice of the next token by the characters at the
cursor. Every step reads a character, so the length of the text bounds them.
-/

set_option autoImplicit false

namespace PageLookup.Document.Yaml

def isWordChar (c : Char) : Bool := c.isAlphanum || c == '-'

def isHandleChar (c : Char) : Bool := isWordChar c || c == '_'

def isTagChar (c : Char) : Bool := isWordChar c || "#;/?:@&=+$_.~*'()%".toList.contains c

def isAddressChar (c : Char) : Bool := isTagChar c || c == '!' || c == ',' || c == '[' || c == ']'

def tagHandle? (cs : List Char) : Option (List Char × List Char) :=
  match cs with
  | '!' :: rest =>
    let (name, rest) := rest.span isHandleChar
    match rest with
    | '!' :: rest => some ('!' :: name ++ ['!'], rest)
    | rest => some ('!' :: name, rest)
  | _ => none

def escapedByte? : List Char → Option (Nat × List Char)
  | '%' :: a :: b :: rest => (Digits.value? 16 [a, b]).map (·, rest)
  | _ => none

def leadByte? (n : Nat) : Option (Nat × Nat) :=
  if n < 0x80 then some (0, n)
  else if 0xc0 ≤ n ∧ n < 0xe0 then some (1, n % 0x20)
  else if 0xe0 ≤ n ∧ n < 0xf0 then some (2, n % 0x10)
  else if 0xf0 ≤ n ∧ n < 0xf8 then some (3, n % 0x08)
  else none

def escapedBytes : Nat → Nat → List Char → Option (Nat × List Char)
  | 0, n, cs => some (n, cs)
  | more+1, n, cs => do
    let (b, rest) ← escapedByte? cs
    if b / 0x40 ≠ 2 then none
    escapedBytes more (n*0x40 + b % 0x40) rest

def escapedChar? (cs : List Char) : Option (Char × List Char) := do
  let (b, rest) ← escapedByte? cs
  let (more, n) ← leadByte? b
  let (n, rest) ← escapedBytes more n rest
  let c ← Digits.scalar? n
  pure (c, rest)

def address (p : Char → Bool) : Nat → List Char → Option (List Char × List Char)
  | 0, cs => some ([], cs)
  | _+1, [] => some ([], [])
  | n+1, c :: rest =>
    if c = '%' ∧ p c then do
      let (ch, rest) ← escapedChar? (c :: rest)
      let (word, rest) ← address p n rest
      pure (ch :: word, rest)
    else if p c then (address p n rest).map fun q => (c :: q.1, q.2)
    else some ([], c :: rest)

def tag? (cs : List Char) : Option (List Char × List Char × List Char) :=
  match cs with
  | '!' :: '<' :: rest => do
    let (word, rest) ← address isAddressChar rest.length rest
    match rest with
    | '>' :: rest => if word.isEmpty then none else pure ([], word, rest)
    | _ => none
  | _ => do
    let (handle, rest) ← tagHandle? cs
    let (word, rest) ← address isTagChar rest.length rest
    if 2 ≤ handle.length ∧ handle.getLast? = some '!' then
      if handle = ['!', '!'] ∧ word.isEmpty then none else pure (handle, word, rest)
    else
      let word := handle.drop 1 ++ word
      if word.isEmpty then pure ([], ['!'], rest) else pure (['!'], word, rest)

namespace Cursor

def upTo (c : Cursor) (rest : List Char) : Cursor := c.advance (c.rest.length - rest.length)

def version? (c : Cursor) : Option Cursor := do
  let (_, c) := c.skipBlanks isBlank
  let (major, c) := c.span Char.isDigit
  if major.isEmpty ∨ 9 < major.length ∨ c.head? ≠ some '.' then none
  let (minor, c) := (c.advance 1).span Char.isDigit
  if minor.isEmpty ∨ 9 < minor.length then none else pure c

def tagDirective? (c : Cursor) : Option (Token × Cursor) := do
  let (_, c) := c.skipBlanks isBlank
  let (handle, rest) ← tagHandle? c.rest
  if handle ≠ ['!'] ∧ handle.getLast? ≠ some '!' then none
  let (_, c) := (c.upTo rest).skipBlanks isBlank
  let (expansion, rest) ← address isAddressChar c.rest.length c.rest
  if expansion.isEmpty then none
  let c := c.upTo rest
  if endsWord c.head? then pure (.tagHandle (String.ofList handle) (String.ofList expansion), c)
  else none

/-- Unknown directives count as tag directives that say nothing. -/
def directive? (c : Cursor) : Option (Token × Cursor) := do
  let (name, c) := c.span isHandleChar
  if name.isEmpty ∨ !endsWord c.head? then none
  let (t, c) ←
    if name = "YAML".toList then (c.version?).map (Token.version, ·)
    else if name = "TAG".toList then c.tagDirective?
    else some (.tagHandle "" "", c.toLineEnd)
  let c ← c.finishLine
  pure (t, if c.atEnd then c else c.newLine)

end Cursor

namespace Scan

def tag (s : Scan) : Option Scan := do
  let s := s.saveSpot.noteMark.allowKey false
  let (handle, suffix, rest) ← tag? s.cursor.rest
  let c := s.cursor.upTo rest
  if endsWord c.head? || s.inFlow && c.head?.any isFlow then
    pure ((s.moveTo c).push (.tag (String.ofList handle) (String.ofList suffix)))
  else none

/-- Before a directive or a document mark all blocks are closed. -/
def leaveDocument (s : Scan) : Option Scan := do
  let s ← (s.unroll (-1)).dropSpot
  pure (s.allowKey false)

def directive (s : Scan) : Option Scan := do
  let s ← s.leaveDocument
  let (t, c) ← (s.cursor.advance 1).directive?
  pure ((s.moveTo c).push t)

def documentStart (s : Scan) : Option Scan := do
  let s ← s.leaveDocument
  pure ((s.advance 3).push .documentStart)

def documentEnd (s : Scan) : Option Scan := do
  let s ← s.leaveDocument
  let c ← (s.cursor.advance 3).finishLine
  pure ((s.moveTo c).push .documentEnd)

def isValue (s : Scan) : Bool :=
  let c := s.cursor
  endsWord c.second?
    || s.inFlow && (c.second?.any isFlow || s.adjacent == some c.index)

def next (s : Scan) (ch : Char) : Option Scan :=
  let c := s.cursor
  if c.column = 0 ∧ ch = '%' then s.directive
  else if c.atMark Cursor.startMark then s.documentStart
  else if c.atMark Cursor.endMark then s.documentEnd
  else if (c.column : Int) < s.indent then none
  else if ch = '[' then s.openFlow true
  else if ch = '{' then s.openFlow false
  else if ch = ']' then s.closeFlow true
  else if ch = '}' then s.closeFlow false
  else if ch = ',' then s.comma
  else if ch = '-' ∧ endsWord c.second? then s.entry
  else if ch = '?' ∧ endsWord c.second? then s.complexKey
  else if ch = ':' ∧ s.isValue then s.value
  else if ch = '*' then s.named .reference
  else if ch = '&' then s.named .anchor
  else if ch = '!' then s.tag
  else if ch = '|' ∧ !s.inFlow then s.block false
  else if ch = '>' ∧ !s.inFlow then s.block true
  else if ch = '\'' ∨ ch = '"' then s.quoted ch
  else if ch = '%' ∨ ch = '@' ∨ ch.toNat = 0x60 then none
  else s.plain

def run : Nat → Scan → Option (List Token)
  | 0, _ => none
  | n+1, s => do
    let s ← skipToToken (s.cursor.rest.length + 1) s
    let s ← s.dropStaleSpot
    let s := s.unroll s.cursor.column
    match s.cursor.head? with
    | none =>
      let s ← s.dropSpot
      pure (s.unroll (-1)).tokens.toList
    | some ch =>
      let s ← s.next ch
      run n s

end Scan

/-- A null character ends the text. -/
def Token.all (cs : List Char) : Option (List Token) :=
  let cs := cs.takeWhile (· != '\x00')
  Scan.run (cs.length + 1) (.start cs)

end PageLookup.Document.Yaml
