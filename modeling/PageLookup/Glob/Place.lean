import PageLookup.Glob.Token

/-!
# Tokens by their places

What a place of a raw pattern stands for, said of the pattern as a whole: a
backslash acts if an even number of backslashes stands right before it and a
special character or nothing comes after it. Every place whose character does
not act carries one token, and the tokens come in the order of their places.
-/

set_option autoImplicit false

namespace PageLookup.Glob

def backslashesBefore (cs : List Char) (i : Nat) : Nat :=
  ((cs.take i).reverse.takeWhile (· == '\\')).length

/-- Whether a place holds a backslash that acts on what follows. -/
def acts (cs : List Char) (i : Nat) : Bool :=
  cs[i]? == some '\\' && backslashesBefore cs i % 2 == 0 && cs[i+1]?.all isSpecial

def actedOn (cs : List Char) (i : Nat) : Bool :=
  match i with
  | 0 => false
  | j+1 => acts cs j

def symbolAt? (cs : List Char) (i : Nat) : Option Symbol :=
  match cs[i]? with
  | none => none
  | some c =>
    if acts cs i then none
    else if actedOn cs i then some ⟨.literal c, i⟩
    else some ⟨.bare c, i⟩

def symbolsByPlace (cs : List Char) : List Symbol :=
  (List.range cs.length).filterMap (symbolAt? cs)

def oneAfterStarAt (cs : List Char) (i : Nat) : Bool :=
  match i with
  | 0 => false
  | j+1 => cs[j]? == some '*' && backslashesBefore cs j % 2 == 0 && cs[j+1]? == some '?'

/-- Whether a place holds a wildcard that no backslash makes ordinary. -/
def wildcardAt (cs : List Char) (i : Nat) : Bool :=
  (cs[i]? == some '*' || cs[i]? == some '?') && backslashesBefore cs i % 2 == 0

/-- The characters of a raw pattern but for the backslashes that act. -/
def resolved (cs : List Char) : List Char :=
  (List.range cs.length).filterMap fun i => if acts cs i then none else cs[i]?

end PageLookup.Glob
