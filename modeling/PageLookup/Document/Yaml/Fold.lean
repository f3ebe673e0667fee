/-!
# Folded line ends

One line end between two words of a text becomes a space, and of several the
first is dropped.
-/

set_option autoImplicit false

namespace PageLookup.Document.Yaml

/-- The space between two words: blanks on one line, or line ends. `breaks`
counts the line ends after the first; `joined` says that the first was not
there or was taken away. -/
inductive Gap where
  | blanks (cs : List Char)
  | lines (joined : Bool) (breaks : Nat)

def Gap.none : Gap := .blanks []

def lineFeeds (n : Nat) : List Char := List.replicate n '\n'

def Gap.text : Gap → List Char
  | .blanks cs => cs
  | .lines joined breaks =>
    if joined then lineFeeds breaks
    else if breaks = 0 then [' ']
    else lineFeeds breaks

end PageLookup.Document.Yaml
