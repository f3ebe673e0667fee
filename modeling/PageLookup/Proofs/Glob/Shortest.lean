import PageLookup.Proofs.Glob.Compiled

/-!
# The shortest texts of a pattern

A character leads one state on at most, and by the state's own token only. So a
run that is as far on as the text is long has read every character by the token
that stands over it, and no shorter text comes as far.
-/

set_option autoImplicit false

namespace PageLookup.Glob

section Run

variable {ts : List Token} {e : Draft}

theorem run_le (he : Draft.empty.grow ts = some e) (x y : Nat) (text : List Char)
    (h : e.finish.run x text = some y) : y ≤ x + text.length := by
  induction text generalizing x with
  | nil =>
    cases h
    exact Nat.le_refl _
  | cons c rest ih =>
    rw [Table.run_cons, Option.bind_eq_some_iff] at h
    obtain ⟨z, hstep, hrun⟩ := h
    have hz := step_le he x z c hstep
    have hy := ih z hrun
    rw [List.length_cons]
    omega

theorem fitsEach_from_iff (ts : List Token) (x : Nat) (c : Char) (rest : List Char) :
    FitsEach ((ts.drop x).take (rest.length + 1)) (c :: rest) ↔
      ts[x]?.any (·.fits c) = true ∧ FitsEach ((ts.drop (x+1)).take rest.length) rest := by
  by_cases hx : x < ts.length
  · rw [List.drop_eq_getElem_cons hx, List.take_succ_cons, List.getElem?_eq_getElem hx, FitsEach,
      List.forall₂_cons]
    rfl
  · have hnil : ts.drop x = [] := List.drop_eq_nil_of_le (Nat.le_of_not_lt hx)
    simp [hnil, fitsEach_nil_iff, List.getElem?_eq_none (Nat.le_of_not_lt hx)]

/-- A run moves on with every character if the tokens ahead fit the text one by one. -/
theorem run_straight_iff (he : Draft.empty.grow ts = some e) (x : Nat) (text : List Char) :
    e.finish.run x text = some (x + text.length) ↔
      FitsEach (((solid ts).drop x).take text.length) text := by
  induction text generalizing x with
  | nil => simp [Table.run, fitsEach_nil_iff]
  | cons c rest ih =>
    have hplace : x + (rest.length + 1) = x + 1 + rest.length := by omega
    have hstep := step_forward he x c
    rw [List.length_cons, fitsEach_from_iff, Table.run_cons]
    split at hstep
    · rename_i hfits
      rw [hstep, Option.bind_some, hplace, ih (x+1)]
      exact (and_iff_right hfits).symm
    · rename_i hfits
      apply iff_of_false
      · intro h
        obtain ⟨y, hs, hrun⟩ := Option.bind_eq_some_iff.mp h
        have hy := hstep y hs
        have hle := run_le he y _ rest hrun
        omega
      · exact fun h => hfits h.1

end Run

theorem stateCount_of_compile (raw : String) (p : Pattern) (hp : Pattern.compile raw = .ok p) :
    p.stateCount =
      if p.isLiteral then none else some ((solid (tokens raw)).length + 1) := by
  obtain ⟨e, he, hmatcher, -⟩ := table_of_compile raw p hp
  rw [Pattern.stateCount, Pattern.isLiteral]
  rcases hmatcher with ht | ⟨⟨text, ht⟩, -⟩
  · have hsize : e.finish.states.size = e.current + 1 := by
      rw [Draft.finish, Array.size_push, Draft.current]
    rw [ht, ← current_of_grow _ he, ← hsize]
    rfl
  · rw [ht]
    rfl

/-- No text shorter than the tokens that take a character is accepted, and a text of just their
number if each of them fits the character below it. -/
theorem accepts_shortest_iff (raw : String) (p : Pattern) (hp : Pattern.compile raw = .ok p) :
    let ts := solid (tokens raw)
    p.stateCount = (if p.isLiteral then none else some (ts.length + 1)) ∧
      (∀ text, text.length < ts.length → p.accepts text = false) ∧
      (∀ text, text.length = ts.length → (p.accepts text = true ↔ FitsEach ts text.toList)) ∧
      ∀ text, FitsEach ts text.toList → p.accepts text = true := by
  intro ts
  obtain ⟨e, he, -, hacc⟩ := table_of_compile raw p hp
  have hshortest (text : String) (hl : text.length = ts.length) :
      p.accepts text = true ↔ FitsEach ts text.toList := by
    have hrun := run_straight_iff he 0 text.toList
    rw [Nat.zero_add, String.length_toList, hl, List.drop_zero, List.take_length] at hrun
    rw [hacc, accepts_iff_run _ he, hrun]
  refine ⟨stateCount_of_compile raw p hp, ?_, hshortest, ?_⟩
  · intro text hl
    by_contra h
    have hrun := (accepts_iff_run _ he text.toList).mp (by simpa [hacc] using h)
    have hle := run_le he 0 _ text.toList hrun
    rw [String.length_toList, Nat.zero_add] at hle
    exact absurd hl (Nat.not_lt_of_le hle)
  · intro text hfits
    refine (hshortest text ?_).mpr hfits
    rw [hfits.length_eq, String.length_toList]

/-- Of the texts of four characters only those with both letters in place are accepted. -/
theorem accepts_shortest_of_two_letters :
    ∃ p, Pattern.compile "x*aa?" = .ok p ∧ p.stateCount = some 5 ∧ p.accepts "xaa" = false ∧
      p.accepts "xaab" = true ∧ p.accepts "xaba" = false ∧ p.accepts "xaaa" = true := by
  refine ⟨_, rfl, ?_⟩
  obtain ⟨hcount, hshort, hiff, hfill⟩ := accepts_shortest_iff "x*aa?" _ rfl
  refine ⟨hcount, hshort "xaa" (by decide), (hiff "xaab" (by decide)).mpr (by decide), ?_,
    hfill "xaaa" (by decide)⟩
  have hfits : ¬FitsEach (solid (tokens "x*aa?")) "xaba".toList := by decide
  exact Bool.eq_false_iff.mpr (mt (hiff "xaba" (by decide)).mp hfits)

end PageLookup.Glob
