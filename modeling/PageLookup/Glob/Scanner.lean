import PageLookup.Glob.Token

/-!
# Scanning without taking back

How tokens are looked for behind a star, said without states. The tokens up to
the next star are a span. A character that does not go on with the span begins
it anew with that same character, and a character once read is never looked at
again. A span is done when its last token is read, except for the last span,
which has to be complete where the text ends.
-/

set_option autoImplicit false

namespace PageLookup.Glob

def Token.fits (t : Token) (c : Char) : Bool :=
  match t with
  | .literal d => d == c
  | .one => true
  | .star => false

def spans : List Token → List Token × List (List Token)
  | [] => ([], [])
  | .star :: ts => ([], (spans ts).1 :: (spans ts).2)
  | t :: ts => (t :: (spans ts).1, (spans ts).2)

/-- The span looked for, what is left of it, and the spans after it. -/
structure Scanner where
  span : List Token
  left : List Token
  later : List (List Token)
  deriving DecidableEq, Repr

namespace Scanner

def atSpan (span : List Token) : List (List Token) → Scanner
  | [] => ⟨span, span, []⟩
  | s :: later => if span.isEmpty then atSpan s later else ⟨span, span, s :: later⟩

def withLeft (s : Scanner) (left : List Token) : Scanner :=
  match left, s.later with
  | [], next :: later => atSpan next later
  | left, _ => { s with left := left }

/-- Begins the span anew with a character. One that does not fit is skipped. -/
def restart (s : Scanner) (c : Char) : Scanner :=
  match s.span with
  | [] => s
  | t :: left => if t.fits c then s.withLeft left else { s with left := s.span }

def read (s : Scanner) (c : Char) : Scanner :=
  match s.left with
  | [] => s.restart c
  | t :: left => if t.fits c then s.withLeft left else s.restart c

def done (s : Scanner) : Bool := s.left.isEmpty && s.later.isEmpty

def accepts (s : Scanner) (text : List Char) : Bool := (text.foldl read s).done

end Scanner

/-- The tokens before the first star have to stand at the start of the text. -/
def scan : List Token → List Char → Bool
  | [], text => text.isEmpty
  | .star :: ts, text => (Scanner.atSpan (spans ts).1 (spans ts).2).accepts text
  | _ :: _, [] => false
  | t :: ts, c :: text => t.fits c && scan ts text

/-- Of no span does the first token come again as a literal in the same span. -/
def OpensOnce (ts : List Token) : Prop :=
  ∀ span ∈ (spans ts).2, ∀ t ∈ span.head?, t ∉ span.tail

end PageLookup.Glob
