import PageLookup.Glob.Token

/-!
# The language of a pattern

A text is in the language of a list of tokens if it can be cut into pieces, one
for each token: a literal takes its character, a question mark one character,
and a star any text at all. A table reads a text once and never takes a
character back, so where question marks stand among the literals behind a star
it knows fewer texts than the language has. `Regular` leaves such lists out.
-/

set_option autoImplicit false

namespace PageLookup.Glob

def Token.Takes : Token → List Char → Prop
  | .literal c, piece => piece = [c]
  | .one, piece => piece.length = 1
  | .star, _ => True

inductive Fits : List Token → List Char → Prop where
  | nil : Fits [] []
  | cons {t : Token} {ts : List Token} {piece text : List Char} :
    t.Takes piece → Fits ts text → Fits (t :: ts) (piece ++ text)

theorem fits_nil_iff (text : List Char) : Fits [] text ↔ text = [] :=
  ⟨fun h => by cases h; rfl, fun h => h ▸ .nil⟩

theorem fits_cons_iff (t : Token) (ts : List Token) (text : List Char) :
    Fits (t :: ts) text ↔ ∃ piece rest, text = piece ++ rest ∧ t.Takes piece ∧ Fits ts rest := by
  constructor
  · intro h
    cases h with
    | cons ht hts => exact ⟨_, _, rfl, ht, hts⟩
  · rintro ⟨piece, rest, rfl, ht, hts⟩
    exact .cons ht hts

theorem fits_literal_iff (c : Char) (ts : List Token) (text : List Char) :
    Fits (.literal c :: ts) text ↔ ∃ rest, text = c :: rest ∧ Fits ts rest := by
  rw [fits_cons_iff]
  constructor
  · rintro ⟨piece, rest, rfl, rfl, h⟩
    exact ⟨rest, rfl, h⟩
  · rintro ⟨rest, rfl, h⟩
    exact ⟨[c], rest, rfl, rfl, h⟩

theorem fits_one_iff (ts : List Token) (text : List Char) :
    Fits (.one :: ts) text ↔ ∃ c rest, text = c :: rest ∧ Fits ts rest := by
  rw [fits_cons_iff]
  constructor
  · rintro ⟨piece, rest, rfl, hp, h⟩
    obtain ⟨c, rfl⟩ := List.length_eq_one_iff.mp hp
    exact ⟨c, rest, rfl, h⟩
  · rintro ⟨c, rest, rfl, h⟩
    exact ⟨[c], rest, rfl, rfl, h⟩

theorem fits_star_iff (ts : List Token) (text : List Char) :
    Fits (.star :: ts) text ↔ ∃ piece rest, text = piece ++ rest ∧ Fits ts rest := by
  rw [fits_cons_iff]
  exact ⟨fun ⟨p, r, e, _, h⟩ => ⟨p, r, e, h⟩, fun ⟨p, r, e, h⟩ => ⟨p, r, e, trivial, h⟩⟩

/-- Every run of question marks ends at a star. -/
def RunsEndAtStars : List Token → Prop
  | [] => True
  | .one :: ts => (ts.dropWhile (· == .one)).head? = some .star ∧ RunsEndAtStars ts
  | _ :: ts => RunsEndAtStars ts

/-- Behind the first star question marks stand right before another star only. -/
def Regular (ts : List Token) : Prop :=
  RunsEndAtStars (ts.dropWhile (· != .star))

def solid (ts : List Token) : List Token := ts.filter (· != .star)

/-- A run of stars says no more than one of them. -/
def mergeStars : List Token → List Token
  | [] => []
  | [t] => [t]
  | t :: u :: ts =>
    if t = .star ∧ u = .star then mergeStars (u :: ts) else t :: mergeStars (u :: ts)

end PageLookup.Glob
