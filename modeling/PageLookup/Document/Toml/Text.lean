import PageLookup.Document.Digits

/-!
# Keys and texts of TOML documents

A basic text has escapes, a literal one has none. Three quotes open a text of
several lines: a line end right after them does not count, every other line
end counts as a single line feed, and up to two quotes may stand before the
closing three.
-/

set_option autoImplicit false

namespace PageLookup.Document.Toml

def isBlank (c : Char) : Bool := c == ' ' || c == '\t'

def skipBlanks (cs : List Char) : List Char := cs.dropWhile isBlank

def isPlain (c : Char) : Bool := c == '\t' || (' ' ≤ c && c != '\x7f')

def lineEnd? : List Char → Option (List Char)
  | '\n' :: rest => some rest
  | '\r' :: '\n' :: rest => some rest
  | _ => none

def escape? (c : Char) : Option Char :=
  match c with
  | 'b' => some '\x08'
  | 't' => some '\t'
  | 'n' => some '\n'
  | 'f' => some '\x0c'
  | 'r' => some '\r'
  | '"' => some '"'
  | '\\' => some '\\'
  | _ => none

def escaped? : List Char → Option (Char × List Char)
  | 'u' :: a :: b :: c :: d :: rest => do
    let n ← Digits.value? 16 [a, b, c, d]
    let ch ← Digits.scalar? n
    pure (ch, rest)
  | 'U' :: a :: b :: c :: d :: e :: f :: g :: h :: rest => do
    let n ← Digits.value? 16 [a, b, c, d, e, f, g, h]
    let ch ← Digits.scalar? n
    pure (ch, rest)
  | c :: rest => (escape? c).map (·, rest)
  | [] => none

def oneLine (quote : Char) : Nat → List Char → Option (List Char × List Char)
  | _, [] => none
  | 0, _ :: _ => none
  | n+1, c :: rest =>
    if c = quote then some ([], rest)
    else if c = '\\' ∧ quote = '"' then do
      let (ch, rest) ← escaped? rest
      let (text, rest) ← oneLine quote n rest
      pure (ch :: text, rest)
    else if isPlain c then do
      let (text, rest) ← oneLine quote n rest
      pure (c :: text, rest)
    else none

def skipSpace (cs : List Char) : List Char :=
  cs.dropWhile fun c => isBlank c || c == '\n' || c == '\r'

def joinedLines? (cs : List Char) : Option (List Char) :=
  (lineEnd? (skipBlanks cs)).map skipSpace

def manyLines (quote : Char) : Nat → List Char → Option (List Char × List Char)
  | _, [] => none
  | 0, _ :: _ => none
  | n+1, c :: rest =>
    if c = quote then
      let run := (c :: rest).takeWhile (· == quote)
      let rest := (c :: rest).dropWhile (· == quote)
      if run.length < 3 then do
        let (text, rest) ← manyLines quote n rest
        pure (run ++ text, rest)
      else if run.length ≤ 5 then some (run.drop 3, rest)
      else none
    else if c = '\\' ∧ quote = '"' then
      match joinedLines? rest with
      | some rest => manyLines quote n rest
      | none => do
        let (ch, rest) ← escaped? rest
        let (text, rest) ← manyLines quote n rest
        pure (ch :: text, rest)
    else
      match lineEnd? (c :: rest) with
      | some rest => do
        let (text, rest) ← manyLines quote n rest
        pure ('\n' :: text, rest)
      | none =>
        if isPlain c then do
          let (text, rest) ← manyLines quote n rest
          pure (c :: text, rest)
        else none

def isQuote (c : Char) : Bool := c == '"' || c == '\''

def quotedLine? : List Char → Option (String × List Char)
  | c :: rest =>
    if isQuote c then
      (oneLine c rest.length rest).map fun p => (String.ofList p.1, p.2)
    else none
  | [] => none

def text? : List Char → Option (String × List Char)
  | a :: b :: c :: rest =>
    if isQuote a ∧ b = a ∧ c = a then
      let rest := (lineEnd? rest).getD rest
      (manyLines a rest.length rest).map fun p => (String.ofList p.1, p.2)
    else quotedLine? (a :: b :: c :: rest)
  | cs => quotedLine? cs

def isBare (c : Char) : Bool := c.isAlphanum || c == '_' || c == '-'

def part? (cs : List Char) : Option (String × List Char) :=
  match cs with
  | [] => none
  | c :: _ =>
    if isQuote c then quotedLine? cs
    else
      let (word, rest) := cs.span isBare
      if word.isEmpty then none else some (String.ofList word, rest)

def keyWithin : Nat → List Char → Option (List String × List Char)
  | 0, _ => none
  | n+1, cs => do
    let (p, rest) ← part? cs
    match skipBlanks rest with
    | '.' :: rest =>
      let (ps, rest) ← keyWithin n (skipBlanks rest)
      pure (p :: ps, rest)
    | rest => pure ([p], rest)

def key? (cs : List Char) : Option (List String × List Char) := keyWithin (cs.length + 1) cs

end PageLookup.Document.Toml
