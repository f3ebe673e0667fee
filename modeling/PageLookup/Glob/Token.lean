/-!
# Tokens of a glob pattern

A raw pattern is read left to right. A backslash before a special character
makes it ordinary, before any other character it stands for itself, and at the
end of the pattern it is dropped. Every token keeps the place, counted in
characters of the raw pattern, of the character it comes from.
-/

set_option autoImplicit false

namespace PageLookup.Glob

inductive Token where
  | literal (c : Char)
  | one
  | star
  deriving DecidableEq, Repr

namespace Token

def isWild : Token → Bool
  | .literal _ => false
  | .one => true
  | .star => true

def char? : Token → Option Char
  | .literal c => some c
  | .one => none
  | .star => none

def bare (c : Char) : Token :=
  if c = '*' then .star else if c = '?' then .one else .literal c

end Token

structure Symbol where
  token : Token
  position : Nat
  deriving DecidableEq, Repr

def isSpecial (c : Char) : Bool :=
  c == '*' || c == '?' || c == '\\'

def symbolsFrom (n : Nat) : List Char → List Symbol
  | [] => []
  | [c] => if c = '\\' then [] else [⟨.bare c, n⟩]
  | c :: d :: rest =>
    if c = '\\' then
      if isSpecial d then ⟨.literal d, n+1⟩ :: symbolsFrom (n+2) rest
      else ⟨.literal c, n⟩ :: ⟨.literal d, n+1⟩ :: symbolsFrom (n+2) rest
    else ⟨.bare c, n⟩ :: symbolsFrom (n+1) (d :: rest)

def tokens (raw : String) : List Token :=
  (symbolsFrom 0 raw.toList).map (·.token)

/-- What a raw pattern asks for: one fixed text, or symbols with a wildcard among them. -/
inductive Reading where
  | literal (text : String)
  | symbols (list : List Symbol)
  deriving DecidableEq, Repr

/-- A text without special characters stands for itself and needs no reading. -/
def Reading.ofRaw (raw : String) : Reading :=
  if raw.toList.any isSpecial then
    let list := symbolsFrom 0 raw.toList
    if list.any (·.token.isWild) then .symbols list
    else .literal (String.ofList (list.filterMap (·.token.char?)))
  else .literal raw

end PageLookup.Glob
