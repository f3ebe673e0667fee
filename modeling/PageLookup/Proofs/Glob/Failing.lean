import Mathlib.Order.Bounds.Basic
import PageLookup.Proofs.Glob.Linking
import PageLookup.Proofs.Glob.Placing

/-!
# Where compiling fails

A draft refuses a question mark while its anchor is the state under construction,
and that is so right after a star only. Between the places of two symbols that
follow each other stand backslashes that act, and none stands right before a
question mark that is a wildcard. So the refused question mark stands right
after the star in the raw pattern as well.
-/

set_option autoImplicit false

namespace PageLookup.Glob

namespace Stands

variable {ts lead past : List Token}

theorem last_eq_star_iff (h : Stands ts lead past []) :
    ts.getLast? = some .star ↔ lead ≠ [] ∧ past = [] := by
  rw [h.split, List.append_nil]
  rcases List.eq_nil_or_concat past with rfl | ⟨us, t, rfl⟩
  · rcases h.led with rfl | ⟨before, rfl⟩
    · simp
    · simp
  · have ht : t ≠ .star := fun ht => h.plain (by simp [ht])
    simp [← List.append_assoc, ht]

end Stands

namespace Draft

theorem anchored_iff {ts : List Token} {d : Draft} (hd : Draft.empty.grow ts = some d) :
    d.anchor = some d.current ↔ ts.getLast? = some .star := by
  obtain ⟨lead, past, rfl, hp, hl⟩ := exists_lead ts
  have h : Stands (lead ++ past) lead past [] := ⟨by simp, hp, hl, by simp⟩
  rw [h.last_eq_star_iff]
  cases ha : d.anchor with
  | none => simp [(h.anchor_none_iff hd).mp ha]
  | some x => rw [Option.some.injEq, (h.anchor_le hd x ha).2]

theorem add_eq_error_iff (d : Draft) (s : Symbol) (r : Nat) :
    d.add s = .error (.oneAfterStar r) ↔ s = ⟨.one, r⟩ ∧ d.anchor = some d.current := by
  obtain ⟨t, n⟩ := s
  cases t with
  | literal c => simp [add]
  | star => simp [add]
  | one => by_cases ha : d.anchor = some d.current <;> simp [add, one, ha]

/-- A draft fails at the first question mark that finds the anchor under construction. -/
theorem addAll_eq_error_iff (d : Draft) (symbols : List Symbol) (r : Nat) :
    d.addAll symbols = .error (.oneAfterStar r) ↔ ∃ xs ys m, symbols = xs ++ ⟨.one, r⟩ :: ys ∧
      d.addAll xs = .ok m ∧ m.anchor = some m.current := by
  constructor
  · intro h
    induction symbols generalizing d with
    | nil => cases h
    | cons s rest ih =>
      rw [addAll] at h
      cases hs : d.add s with
      | ok d' =>
        rw [hs] at h
        obtain ⟨xs, ys, m, rfl, hm, ha⟩ := ih d' h
        exact ⟨s :: xs, ys, m, rfl, by rw [addAll, hs]; exact hm, ha⟩
      | error e =>
        rw [hs] at h
        cases h
        obtain ⟨rfl, ha⟩ := (add_eq_error_iff d s r).mp hs
        exact ⟨[], rest, d, rfl, rfl, ha⟩
  · rintro ⟨xs, ys, m, rfl, hm, ha⟩
    have hone := (add_eq_error_iff m ⟨.one, r⟩ r).mpr ⟨rfl, ha⟩
    rw [addAll_append, hm, Except.bind, addAll, hone]

end Draft

section Places

variable {cs : List Char}

theorem oneAfterStarAt_succ (j : Nat) : oneAfterStarAt cs (j+1) = true ↔
    cs[j]? = some '*' ∧ backslashesBefore cs j % 2 = 0 ∧ cs[j+1]? = some '?' := by
  simp [oneAfterStarAt, and_assoc]

/-- Where a question mark follows a star among the symbols it does so in the raw pattern. -/
theorem place_of_symbols (us ys : List Symbol) (a r : Nat)
    (h : symbolsByPlace cs = us ++ ⟨.star, a⟩ :: ⟨.one, r⟩ :: ys) :
    oneAfterStarAt cs r = true := by
  have hstar := (mem_symbolsByPlace_iff cs ⟨.star, a⟩).mp (by simp [h])
  have hone := (mem_symbolsByPlace_iff cs ⟨.one, r⟩).mp (by simp [h])
  obtain ⟨hchar, hrun⟩ := (starAt_iff cs a).mp hstar
  obtain ⟨hsign, heven⟩ := (oneAt_iff cs r).mp hone
  cases r with
  | zero =>
    have hascend := positions_ascend cs
    simp [h, List.pairwise_append] at hascend
  | succ b =>
    -- a backslash that acted here would have made the question mark a literal
    have hacts : acts cs b = false := by
      have hon := actedOn_eq cs (b+1) '?' hsign
      rw [heven] at hon
      exact hon
    have hab : a = b := next_place cs us ys _ _ b h rfl hacts
    rw [hab] at hchar hrun
    exact (oneAfterStarAt_succ b).mpr ⟨hchar, hrun, hsign⟩

theorem split_of_place (i : Nat) (h : oneAfterStarAt cs i = true) :
    ∃ p q, cs = p ++ '*' :: '?' :: q ∧ p.length + 1 = i ∧ backslashesBefore p p.length % 2 = 0 := by
  cases i with
  | zero => cases h
  | succ j =>
    obtain ⟨hstar, hrun, hone⟩ := (oneAfterStarAt_succ j).mp h
    obtain ⟨hj, hstar⟩ := List.getElem?_eq_some_iff.mp hstar
    obtain ⟨hj', hone⟩ := List.getElem?_eq_some_iff.mp hone
    refine ⟨cs.take j, cs.drop (j+2), ?_, by simp; omega, ?_⟩
    · rw [← hstar, ← hone, ← List.drop_eq_getElem_cons hj', ← List.drop_eq_getElem_cons hj,
        List.take_append_drop]
    · rwa [backslashesBefore, List.take_length]

end Places

section Compile

theorem place_of_error (cs : List Char) (r : Nat)
    (h : Draft.empty.addAll (symbolsFrom 0 cs) = .error (.oneAfterStar r)) :
    oneAfterStarAt cs r = true := by
  obtain ⟨xs, ys, m, hsplit, hm, ha⟩ := (Draft.addAll_eq_error_iff _ _ r).mp h
  have hlast := (Draft.anchored_iff ((Draft.addAll_eq_ok _ m xs).mp hm)).mp ha
  rw [List.getLast?_map, Option.map_eq_some_iff] at hlast
  obtain ⟨⟨t, a⟩, hlast, rfl⟩ := hlast
  obtain ⟨us, rfl⟩ := List.getLast?_eq_some_iff.mp hlast
  apply place_of_symbols us ys a r
  rw [← symbolsFrom_zero, hsplit, List.append_assoc]
  rfl

/-- A question mark right after a star is refused unless an earlier one is. -/
theorem error_of_place (cs : List Char) (i : Nat) (h : oneAfterStarAt cs i = true) :
    ∃ r ≤ i, Draft.empty.addAll (symbolsFrom 0 cs) = .error (.oneAfterStar r) := by
  obtain ⟨p, q, rfl, rfl, hp⟩ := split_of_place i h
  rw [symbolsFrom_append 0 p _ hp, Draft.addAll_append]
  cases hd : Draft.empty.addAll (symbolsFrom 0 p) with
  | error err =>
    obtain ⟨r⟩ := err
    obtain ⟨u, v, rfl, rfl, -⟩ := split_of_place r (place_of_error p r hd)
    exact ⟨u.length + 1, by simp, rfl⟩
  | ok d =>
    have hstar : Token.bare '*' = .star := rfl
    have hsign : Token.bare '?' = .one := rfl
    have hone := (Draft.add_eq_error_iff d.star ⟨.one, p.length + 1⟩ _).mpr ⟨rfl, rfl⟩
    refine ⟨p.length + 1, Nat.le_refl _, ?_⟩
    rw [symbolsFrom_cons _ '*' (by decide), symbolsFrom_cons _ '?' (by decide), hstar, hsign,
      Except.bind, Draft.addAll_star_cons, Nat.zero_add, Draft.addAll, hone]

end Compile

/-- Compiling fails at the first question mark right after a star that no backslash acts on, and
there only. -/
theorem compile_fails_iff (raw : String) :
    (∀ err, Pattern.compile raw = .error err ↔
      ∃ i, err = .oneAfterStar i ∧ IsLeast {i | oneAfterStarAt raw.toList i = true} i) ∧
    ((∃ p, Pattern.compile raw = .ok p) ↔ ∀ i, oneAfterStarAt raw.toList i = false) := by
  constructor
  · intro err
    obtain ⟨r⟩ := err
    rw [compile_error_iff]
    constructor
    · intro h
      refine ⟨r, rfl, place_of_error _ r h, ?_⟩
      intro i hi
      obtain ⟨r', hle, h'⟩ := error_of_place _ i hi
      rw [h] at h'
      cases h'
      exact hle
    · rintro ⟨i, hri, hi, hleast⟩
      obtain rfl : r = i := by simpa using hri
      obtain ⟨r', hle, h⟩ := error_of_place _ r hi
      have hge : r ≤ r' := hleast (place_of_error _ r' h)
      rwa [Nat.le_antisymm hge hle]
  · constructor
    · rintro ⟨p, hp⟩ i
      by_contra hi
      obtain ⟨r, -, h⟩ := error_of_place _ i (by simpa using hi)
      rw [(compile_error_iff raw _).mpr h] at hp
      cases hp
    · intro hnone
      cases hp : Pattern.compile raw with
      | ok p => exact ⟨p, rfl⟩
      | error err =>
        obtain ⟨r⟩ := err
        have hr := place_of_error _ r ((compile_error_iff raw _).mp hp)
        simp [hnone r] at hr

example : Pattern.compile "\\*?**?" = .error (.oneAfterStar 5) := by decide

end PageLookup.Glob
