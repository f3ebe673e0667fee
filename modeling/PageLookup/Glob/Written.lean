import PageLookup.Glob.Token

/-!
# Writing tokens as a raw pattern

Every list of tokens can be written: a backslash goes before each literal that
would be special otherwise. A text is escaped by writing its characters.
-/

set_option autoImplicit false

namespace PageLookup.Glob

def Token.written : Token → List Char
  | .literal c => if isSpecial c then ['\\', c] else [c]
  | .one => ['?']
  | .star => ['*']

def written (ts : List Token) : String := String.ofList (ts.flatMap (·.written))

def escaped (text : String) : String := written (text.toList.map .literal)

end PageLookup.Glob
