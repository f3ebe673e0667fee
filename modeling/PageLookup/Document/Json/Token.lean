import PageLookup.Document.Json.Number

/-!
# Tokens of JSON documents

Blanks are space, tab and the two line ends. A text holds no raw control
character. An escaped character above the basic plane is written as a pair of
surrogates, and neither half may stand alone.
-/

set_option autoImplicit false

namespace PageLookup.Document.Json

inductive Token where
  | openSeq
  | closeSeq
  | openMap
  | closeMap
  | comma
  | colon
  | text (s : String)
  | scalar (v : Value)

def punctuation? (c : Char) : Option Token :=
  match c with
  | '[' => some .openSeq
  | ']' => some .closeSeq
  | '{' => some .openMap
  | '}' => some .closeMap
  | ',' => some .comma
  | ':' => some .colon
  | _ => none

def isBlank (c : Char) : Bool := c == ' ' || c == '\t' || c == '\n' || c == '\r'

def escape? (c : Char) : Option Char :=
  match c with
  | '"' => some '"'
  | '\\' => some '\\'
  | '/' => some '/'
  | 'b' => some '\x08'
  | 'f' => some '\x0c'
  | 'n' => some '\n'
  | 'r' => some '\r'
  | 't' => some '\t'
  | _ => none

def isHighSurrogate (n : Nat) : Bool := 0xd800 ≤ n && n ≤ 0xdbff

def isLowSurrogate (n : Nat) : Bool := 0xdc00 ≤ n && n ≤ 0xdfff

def pairedSurrogates (high low : Nat) : Char :=
  Char.ofNat (0x10000 + (high - 0xd800)*0x400 + (low - 0xdc00))

/-- `high` is a surrogate whose other half must come next. -/
def textBody (high : Option Nat) : List Char → Option (List Char × List Char)
  | [] => none
  | '\\' :: 'u' :: a :: b :: c :: d :: rest =>
    match Digits.value? 16 [a, b, c, d], high with
    | none, _ => none
    | some n, some h =>
      if isLowSurrogate n then (textBody none rest).map fun p => (pairedSurrogates h n :: p.1, p.2)
      else none
    | some n, none =>
      if isHighSurrogate n then textBody (some n) rest
      else if isLowSurrogate n then none
      else (textBody none rest).map fun p => (Char.ofNat n :: p.1, p.2)
  | '\\' :: c :: rest =>
    match escape? c, high with
    | some e, none => (textBody none rest).map fun p => (e :: p.1, p.2)
    | _, _ => none
  | c :: rest =>
    if high.isSome then none
    else if c = '"' then some ([], rest)
    else if c < ' ' || c = '\\' then none
    else (textBody none rest).map fun p => (c :: p.1, p.2)

def words : List (List Char × Value) := [
  ("true".toList, .bool true),
  ("false".toList, .bool false),
  ("null".toList, .null)]

def word? (cs : List Char) : Option (Value × List Char) :=
  words.findSome? fun w => if w.1.isPrefixOf cs then some (w.2, cs.drop w.1.length) else none

def Token.first? : List Char → Option (Token × List Char)
  | [] => none
  | c :: rest =>
    match punctuation? c with
    | some t => some (t, rest)
    | none =>
      if c = '"' then (textBody none rest).map fun p => (.text (String.ofList p.1), p.2)
      else if c = '-' then (number true rest).map fun p => (.scalar p.1, p.2)
      else if c.isDigit then (number false (c :: rest)).map fun p => (.scalar p.1, p.2)
      else (word? (c :: rest)).map fun p => (.scalar p.1, p.2)

/-- Every step takes a character, so the length of the text bounds the steps. -/
def Token.allWithin : Nat → List Char → Option (List Token)
  | _, [] => some []
  | 0, _ :: _ => none
  | n+1, c :: rest =>
    if isBlank c then allWithin n rest
    else do
      let (t, rest) ← Token.first? (c :: rest)
      let ts ← allWithin n rest
      pure (t :: ts)

def Token.all (cs : List Char) : Option (List Token) := Token.allWithin cs.length cs

end PageLookup.Document.Json
