import Mathlib.Data.List.Forall2
import Mathlib.Data.List.Infix
import PageLookup.Glob.Language
import PageLookup.Glob.Scanner

/-!
# Cutting texts along tokens

The tokens of a text can be cut anywhere, and without a star they take one
character each. A place among the tokens is counted in the tokens before it
that take a character: `Reaches` says that the tokens up to such a place take
a text, and it can be followed one character at a time.
-/

set_option autoImplicit false

namespace PageLookup.Glob

/-- Tokens and characters stand over each other one by one, and each token fits. -/
def FitsEach (ts : List Token) (text : List Char) : Prop :=
  List.Forall₂ (fun t c => t.fits c = true) ts text

instance (ts : List Token) (text : List Char) : Decidable (FitsEach ts text) :=
  inferInstanceAs (Decidable (List.Forall₂ _ ts text))

theorem fitsEach_nil_iff (text : List Char) : FitsEach [] text ↔ text = [] :=
  List.forall₂_nil_left_iff

theorem fitsEach_cons_iff (t : Token) (ts : List Token) (text : List Char) :
    FitsEach (t :: ts) text ↔ ∃ c rest, text = c :: rest ∧ t.fits c = true ∧ FitsEach ts rest := by
  rw [FitsEach, List.forall₂_cons_left_iff]
  constructor
  · rintro ⟨c, rest, hc, hr, rfl⟩
    exact ⟨c, rest, rfl, hc, hr⟩
  · rintro ⟨c, rest, rfl, hc, hr⟩
    exact ⟨c, rest, hc, hr, rfl⟩

theorem FitsEach.length_eq {ts : List Token} {text : List Char} (h : FitsEach ts text) :
    ts.length = text.length :=
  List.Forall₂.length_eq h

theorem FitsEach.append {xs ys : List Token} {u v : List Char} (hx : FitsEach xs u)
    (hy : FitsEach ys v) : FitsEach (xs ++ ys) (u ++ v) :=
  List.rel_append hx hy

theorem FitsEach.take {ts : List Token} {text : List Char} (h : FitsEach ts text) (n : Nat) :
    FitsEach (ts.take n) (text.take n) :=
  List.forall₂_take n h

theorem FitsEach.drop {ts : List Token} {text : List Char} (h : FitsEach ts text) (n : Nat) :
    FitsEach (ts.drop n) (text.drop n) :=
  List.forall₂_drop n h

theorem fitsEach_singleton (t : Token) (c : Char) : FitsEach [t] [c] ↔ t.fits c = true := by
  simp [fitsEach_cons_iff, fitsEach_nil_iff]

theorem fitsEach_literals_iff (w text : List Char) :
    FitsEach (w.map .literal) text ↔ text = w := by
  induction w generalizing text with
  | nil => simp [fitsEach_nil_iff]
  | cons d w ih =>
    rw [List.map_cons, fitsEach_cons_iff]
    simp only [ih, Token.fits, beq_iff_eq]
    constructor
    · rintro ⟨c, rest, rfl, rfl, rfl⟩
      rfl
    · rintro rfl
      exact ⟨d, w, rfl, rfl, rfl⟩

theorem takes_iff (t : Token) (ht : t ≠ .star) (piece : List Char) :
    t.Takes piece ↔ ∃ c, piece = [c] ∧ t.fits c = true := by
  cases t with
  | literal d => simp [Token.Takes, Token.fits]
  | one => simp [Token.Takes, Token.fits, List.length_eq_one_iff]
  | star => exact absurd rfl ht

theorem fits_append (xs ys : List Token) (text : List Char) :
    Fits (xs ++ ys) text ↔ ∃ u v, text = u ++ v ∧ Fits xs u ∧ Fits ys v := by
  induction xs generalizing text with
  | nil =>
    constructor
    · exact fun h => ⟨[], text, rfl, .nil, h⟩
    · rintro ⟨u, v, rfl, hu, hv⟩
      rw [(fits_nil_iff u).mp hu]
      exact hv
  | cons t xs ih =>
    rw [List.cons_append, fits_cons_iff]
    constructor
    · rintro ⟨piece, rest, rfl, ht, hrest⟩
      obtain ⟨u, v, rfl, hu, hv⟩ := (ih rest).mp hrest
      exact ⟨piece ++ u, v, by simp, .cons ht hu, hv⟩
    · rintro ⟨u, v, rfl, hu, hv⟩
      obtain ⟨piece, rest, rfl, ht, hrest⟩ := (fits_cons_iff t xs u).mp hu
      exact ⟨piece, rest ++ v, by simp, ht, (ih _).mpr ⟨rest, v, rfl, hrest, hv⟩⟩

theorem fits_plain_iff (ts : List Token) (hs : .star ∉ ts) (text : List Char) :
    Fits ts text ↔ FitsEach ts text := by
  induction ts generalizing text with
  | nil => rw [fits_nil_iff, fitsEach_nil_iff]
  | cons t ts ih =>
    have ht : t ≠ .star := fun h => hs (by simp [h])
    have hts : .star ∉ ts := fun h => hs (by simp [h])
    rw [fits_cons_iff, fitsEach_cons_iff]
    constructor
    · rintro ⟨piece, rest, rfl, hp, hr⟩
      obtain ⟨c, rfl, hc⟩ := (takes_iff t ht piece).mp hp
      exact ⟨c, rest, rfl, hc, (ih hts rest).mp hr⟩
    · rintro ⟨c, rest, rfl, hc, hr⟩
      exact ⟨[c], rest, rfl, (takes_iff t ht [c]).mpr ⟨c, rfl, hc⟩, (ih hts rest).mpr hr⟩

theorem star_not_mem_literals (w : List Char) : .star ∉ w.map Token.literal := by
  simp

theorem fits_literals_iff (w text : List Char) : Fits (w.map .literal) text ↔ text = w := by
  rw [fits_plain_iff _ (star_not_mem_literals w), fitsEach_literals_iff]

theorem fits_concat_star (ts : List Token) (text : List Char) :
    Fits (ts ++ [.star]) text ↔ ∃ u v, text = u ++ v ∧ Fits ts u := by
  rw [fits_append]
  constructor
  · rintro ⟨u, v, rfl, hu, -⟩
    exact ⟨u, v, rfl, hu⟩
  · rintro ⟨u, v, rfl, hu⟩
    exact ⟨u, v, rfl, hu, (fits_star_iff [] v).mpr ⟨v, [], by simp, .nil⟩⟩

theorem fits_concat_plain (ts : List Token) (t : Token) (ht : t ≠ .star) (text : List Char) :
    Fits (ts ++ [t]) text ↔ ∃ u c, text = u ++ [c] ∧ Fits ts u ∧ t.fits c = true := by
  have hs : .star ∉ [t] := by simpa using ht.symm
  rw [fits_append]
  constructor
  · rintro ⟨u, v, rfl, hu, hv⟩
    obtain ⟨c, rest, rfl, hc, hr⟩ := (fitsEach_cons_iff t [] v).mp ((fits_plain_iff [t] hs v).mp hv)
    rw [(fitsEach_nil_iff rest).mp hr]
    exact ⟨u, c, rfl, hu, hc⟩
  · rintro ⟨u, c, rfl, hu, hc⟩
    exact ⟨u, [c], rfl, hu, (fits_plain_iff [t] hs [c]).mpr ((fitsEach_singleton t c).mpr hc)⟩

/-- What comes after a star may have any text set before it. -/
theorem fits_star_prepend (ts xs : List Token) (u v : List Char)
    (h : Fits (ts ++ [.star]) u) (hx : Fits xs v) (w : List Char) :
    Fits (ts ++ .star :: xs) (u ++ w ++ v) := by
  obtain ⟨u, u', rfl, hu⟩ := (fits_concat_star ts u).mp h
  rw [show ts ++ .star :: xs = (ts ++ [.star]) ++ xs by simp, fits_append]
  exact ⟨u ++ u' ++ w, v, rfl, (fits_concat_star ts _).mpr ⟨u, u' ++ w, by simp, hu⟩, hx⟩

def canFit : List Token → List Char → Bool
  | [], text => text.isEmpty
  | .star :: ts, text => text.tails.any (canFit ts)
  | .one :: ts, text => text.head?.any (Token.one.fits ·) && canFit ts text.tail
  | .literal d :: ts, text => text.head?.any ((Token.literal d).fits ·) && canFit ts text.tail

theorem canFit_iff (ts : List Token) (text : List Char) : canFit ts text = true ↔ Fits ts text := by
  induction ts generalizing text with
  | nil => simp [canFit, fits_nil_iff]
  | cons t ts ih =>
    cases t with
    | star =>
      rw [canFit, List.any_eq_true, fits_star_iff]
      constructor
      · rintro ⟨rest, hr, hf⟩
        obtain ⟨piece, rfl⟩ := (List.mem_tails rest text).mp hr
        exact ⟨piece, rest, rfl, (ih rest).mp hf⟩
      · rintro ⟨piece, rest, rfl, hf⟩
        exact ⟨rest, (List.mem_tails rest _).mpr (List.suffix_append piece rest), (ih rest).mpr hf⟩
    | one => cases text <;> simp [canFit, fits_one_iff, Token.fits, ih]
    | literal d =>
      rw [fits_literal_iff]
      constructor
      · intro h
        cases text with
        | nil => simp [canFit] at h
        | cons c rest =>
          obtain ⟨rfl, hr⟩ : d = c ∧ canFit ts rest = true := by simpa [canFit, Token.fits] using h
          exact ⟨rest, rfl, (ih rest).mp hr⟩
      · rintro ⟨rest, rfl, hr⟩
        simpa [canFit, Token.fits] using (ih rest).mpr hr

instance (ts : List Token) (text : List Char) : Decidable (Fits ts text) :=
  decidable_of_iff _ (canFit_iff ts text)

section Solid

@[simp] theorem solid_nil : solid [] = [] := rfl

@[simp] theorem solid_append (xs ys : List Token) : solid (xs ++ ys) = solid xs ++ solid ys := by
  simp [solid]

@[simp] theorem solid_star_cons (ts : List Token) : solid (.star :: ts) = solid ts := by
  simp [solid]

theorem solid_cons_of_ne (t : Token) (ht : t ≠ .star) (ts : List Token) :
    solid (t :: ts) = t :: solid ts := by
  simp [solid, ht]

theorem solid_of_plain (ts : List Token) (hs : .star ∉ ts) : solid ts = ts := by
  rw [solid, List.filter_eq_self]
  intro t ht
  simpa using fun h : t = .star => hs (h ▸ ht)

theorem star_not_mem_solid (ts : List Token) : .star ∉ solid ts := by
  simp [solid]

theorem eq_replicate_of_solid (ts : List Token) (h : (solid ts).length = 0) :
    ts = List.replicate ts.length .star := by
  rw [List.eq_replicate_iff]
  refine ⟨rfl, fun t ht => ?_⟩
  have hnil := List.length_eq_zero_iff.mp h
  rw [solid, List.filter_eq_nil_iff] at hnil
  simpa using hnil t ht

theorem length_of_fits (ts : List Token) (text : List Char) (h : Fits ts text) :
    (solid ts).length ≤ text.length := by
  induction h with
  | nil => exact Nat.le_refl _
  | @cons t ts piece text ht _ ih =>
    by_cases hs : t = .star
    · subst hs
      simpa using Nat.le_add_left_of_le ih
    · obtain ⟨c, rfl, -⟩ := (takes_iff t hs piece).mp ht
      simpa [solid_cons_of_ne t hs] using ih

end Solid

end PageLookup.Glob
