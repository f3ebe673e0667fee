import PageLookup.Document.Toml.Scalar
import PageLookup.Document.Toml.Table
import PageLookup.Document.Toml.Text

/-!
# Reading TOML documents

A document is a line of statements: headers, and keys with their values. A
value may hold values of its own, in arrays over several lines and in inline
tables on one. Every step of a reader takes a character, so the length of the
text bounds the steps.
-/

set_option autoImplicit false

namespace PageLookup.Document.Toml

def skipComment (cs : List Char) : List Char :=
  match cs with
  | '#' :: rest => rest.dropWhile isPlain
  | cs => cs

def skipLines : Nat → List Char → Option (List Char)
  | 0, cs => some cs
  | n+1, cs =>
    match skipBlanks cs with
    | '#' :: rest =>
      match lineEnd? (rest.dropWhile isPlain) with
      | some rest => skipLines n rest
      | none => none
    | cs =>
      match lineEnd? cs with
      | some rest => skipLines n rest
      | none => some cs

mutual

def valueWithin : Nat → List Char → Option (Value × List Char)
  | 0, _ => none
  | n+1, cs =>
    match cs with
    | [] => none
    | c :: rest =>
      if c = '[' then (itemsWithin n rest).map fun p => (.seq p.1, p.2)
      else if c = '{' then
        match skipBlanks rest with
        | '}' :: rest => some (.map [], rest)
        | rest => (pairsWithin n [] rest).map fun p => (.map (entryValues p.1), p.2)
      else if isQuote c then (text? cs).map fun p => (.text p.1, p.2)
      else
        let (word, rest) := scalarWord cs
        (scalar? word).map (·, rest)

def itemsWithin : Nat → List Char → Option (List Value × List Char)
  | 0, _ => none
  | n+1, cs => do
    match ← skipLines cs.length cs with
    | ']' :: rest => pure ([], rest)
    | cs =>
      let (v, rest) ← valueWithin n cs
      match ← skipLines rest.length rest with
      | ']' :: rest => pure ([v], rest)
      | ',' :: rest =>
        let (vs, rest) ← itemsWithin n rest
        pure (v :: vs, rest)
      | _ => none

def pairsWithin : Nat → Entries → List Char → Option (Entries × List Char)
  | 0, _, _ => none
  | n+1, es, cs => do
    let (path, cs) ← key? cs
    let cs ← match cs with
      | '=' :: rest => some (skipBlanks rest)
      | _ => none
    let (v, rest) ← valueWithin n cs
    let es ← assign path.dropLast (path.getLastD "") v .header es
    match skipBlanks rest with
    | '}' :: rest => pure (es, rest)
    | ',' :: rest => pairsWithin n es (skipBlanks rest)
    | _ => none

end

inductive Statement where
  | assign (path : List String) (v : Value)
  | table (path : List String)
  | element (path : List String)

def statement? (cs : List Char) : Option (Statement × List Char) :=
  match cs with
  | '[' :: '[' :: rest => do
    match ← key? (skipBlanks rest) with
    | (path, ']' :: ']' :: rest) => pure (.element path, rest)
    | _ => none
  | '[' :: rest => do
    match ← key? (skipBlanks rest) with
    | (path, ']' :: rest) => pure (.table path, rest)
    | _ => none
  | cs => do
    match ← key? cs with
    | (path, '=' :: rest) =>
      let rest := skipBlanks rest
      let (v, rest) ← valueWithin (rest.length + 1) rest
      pure (.assign path v, rest)
    | _ => none

/-- A document in the making: all tables, and the table that plain keys go to. -/
structure Draft where
  root : Entries
  current : List String

def Draft.apply (d : Draft) (s : Statement) : Option Draft :=
  match s with
  | .assign path v => do
    let root ← within false (assign path.dropLast (path.getLastD "") v) d.current .header d.root
    pure { d with root := root }
  | .table path => do
    let root ← within false (fun _ => openTable (path.getLastD "")) path.dropLast .header d.root
    pure ⟨root, path⟩
  | .element path => do
    let root ← within false (fun _ => openElement (path.getLastD "")) path.dropLast .header d.root
    pure ⟨root, path⟩

def Draft.line? (d : Draft) (cs : List Char) : Option (Draft × List Char) :=
  match skipBlanks cs with
  | [] => some (d, [])
  | c :: rest =>
    if c = '#' ∨ (lineEnd? (c :: rest)).isSome then some (d, c :: rest)
    else do
      let (s, rest) ← statement? (c :: rest)
      let d ← d.apply s
      pure (d, rest)

def linesWithin : Nat → Draft → List Char → Option Draft
  | 0, _, _ => none
  | n+1, d, cs => do
    let (d, cs) ← d.line? cs
    match skipComment (skipBlanks cs) with
    | [] => some d
    | cs =>
      let rest ← lineEnd? cs
      linesWithin n d rest

/-- A mark of the byte order at the very front does not count. -/
def withoutMark : List Char → List Char
  | '\ufeff' :: rest => rest
  | cs => cs

def read (cs : List Char) : Option Value := do
  let cs := withoutMark cs
  let d ← linesWithin (cs.length + 1) ⟨[], []⟩ cs
  pure (.map (entryValues d.root))

end PageLookup.Document.Toml
