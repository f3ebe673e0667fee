import Mathlib.Data.List.Induction
import PageLookup.Proofs.Glob.Fitting

/-!
# Places among the tokens

A place is counted in the tokens before it that take a character, so a star
has no place of its own. `Reaches` says that the tokens up to a place take a
text; a text longer by one character reaches a place that stays put at a star
or the place after a token that fits. `Stands` cuts the tokens at a place into
those up to the last star, those since, and those to come.
-/

set_option autoImplicit false

namespace PageLookup.Glob

/-- The tokens up to a place take the whole text. -/
def Reaches (ts : List Token) (text : List Char) (x : Nat) : Prop :=
  ∃ xs ys, ts = xs ++ ys ∧ (solid xs).length = x ∧ Fits xs text

def Starred (ts : List Token) (x : Nat) : Prop :=
  ∃ xs ys, ts = xs ++ .star :: ys ∧ (solid xs).length = x

theorem fits_of_same_place (xs zs : List Token) (hz : (solid zs).length = 0) (text : List Char)
    (h : Fits xs text) : Fits (xs ++ zs) text := by
  rw [eq_replicate_of_solid zs hz, fits_append]
  refine ⟨text, [], by simp, h, ?_⟩
  induction zs.length with
  | zero => exact .nil
  | succ n ih => exact (fits_star_iff _ []).mpr ⟨[], [], rfl, ih⟩

/-- The largest prefix with a given place decides whether the place is reached. -/
theorem reaches_iff_fits (xs ys : List Token) (hy : ys.head? ≠ some .star) (text : List Char) :
    Reaches (xs ++ ys) text (solid xs).length ↔ Fits xs text := by
  constructor
  · rintro ⟨xs', ys', he, hl, hf⟩
    rcases List.append_eq_append_iff.mp he with ⟨zs, rfl, hys⟩ | ⟨zs, rfl, -⟩
    · have hz : (solid zs).length = 0 := by simpa using hl
      rw [eq_replicate_of_solid zs hz] at hys hf
      cases hn : zs.length with
      | zero => simpa [hn] using hf
      | succ n => simp [hys, hn, List.replicate_succ] at hy
    · exact fits_of_same_place xs' zs (by simpa using hl.symm) text hf
  · exact fun h => ⟨xs, ys, rfl, rfl, h⟩

theorem reaches_end_iff (ts : List Token) (text : List Char) :
    Reaches ts text (solid ts).length ↔ Fits ts text := by
  simpa using reaches_iff_fits ts [] (by simp) text

theorem reaches_nil (ts : List Token) (x : Nat) (h : Reaches ts [] x) : x = 0 := by
  obtain ⟨xs, ys, -, rfl, hf⟩ := h
  simpa using length_of_fits xs [] hf

theorem reaches_bound (ts : List Token) (text : List Char) (x : Nat) (h : Reaches ts text x) :
    x ≤ (solid ts).length := by
  obtain ⟨xs, ys, rfl, rfl, -⟩ := h
  simp

theorem solid_getElem? (xs ys : List Token) (t : Token) (ht : t ≠ .star) :
    (solid (xs ++ t :: ys))[(solid xs).length]? = some t := by
  simp [solid_cons_of_ne t ht]

theorem reaches_concat (ts : List Token) (text : List Char) (c : Char) (y : Nat)
    (h : Reaches ts (text ++ [c]) y) :
    (Starred ts y ∧ Reaches ts text y) ∨
      ∃ x t, y = x+1 ∧ (solid ts)[x]? = some t ∧ t.fits c = true ∧ Reaches ts text x := by
  obtain ⟨xs, ys, rfl, rfl, hf⟩ := h
  induction xs using List.reverseRecOn generalizing ys with
  | nil => simp [fits_nil_iff] at hf
  | append_singleton xs t ih =>
    by_cases ht : t = .star
    · subst ht
      obtain ⟨u, v, he, hu⟩ := (fits_concat_star xs _).mp hf
      rcases List.eq_nil_or_concat v with rfl | ⟨v, d, rfl⟩
      · have hx : Fits xs (text ++ [c]) := by rw [he, List.append_nil]; exact hu
        simpa using ih (.star :: ys) hx
      · obtain ⟨rfl, -⟩ : text = u ++ v ∧ c = d := by
          simpa [← List.append_assoc] using he
        left
        exact ⟨⟨xs, ys, by simp, by simp⟩, xs ++ [.star], ys, rfl, rfl,
          (fits_concat_star xs _).mpr ⟨u, v, rfl, hu⟩⟩
    · obtain ⟨u, d, he, hu, hd⟩ := (fits_concat_plain xs t ht _).mp hf
      obtain ⟨rfl, rfl⟩ : text = u ∧ c = d := by
        simpa using he
      right
      refine ⟨(solid xs).length, t, by simp [solid_cons_of_ne t ht], ?_, hd, xs, t :: ys,
        by simp, rfl, hu⟩
      rw [List.append_assoc]
      exact solid_getElem? xs ys t ht

theorem split_at_star (xs ys us vs : List Token) (h : xs ++ ys = us ++ .star :: vs) :
    (∃ ws, xs = us ++ .star :: ws) ∨ ∃ ws, us = xs ++ ws ∧ ys = ws ++ .star :: vs := by
  rcases List.append_eq_append_iff.mp h with ⟨ws, hu, hy⟩ | ⟨ws, hx, hv⟩
  · exact .inr ⟨ws, hu, hy⟩
  · cases ws with
    | nil =>
      refine .inr ⟨[], ?_, hv.symm⟩
      rw [hx, List.append_nil, List.append_nil]
    | cons t ws => exact .inl ⟨ws, by rw [hx, (List.cons.inj hv).1]⟩

/-- A place cuts the tokens after the last star before it, and never in front of a star. -/
structure Stands (ts lead past left : List Token) : Prop where
  split : ts = lead ++ past ++ left
  plain : .star ∉ past
  led : lead = [] ∨ ∃ before, lead = before ++ [.star]
  next : left.head? ≠ some .star

theorem exists_prefix (ts : List Token) (x : Nat) (hx : x ≤ (solid ts).length) :
    ∃ xs ys, ts = xs ++ ys ∧ (solid xs).length = x ∧ ys.head? ≠ some .star := by
  induction ts generalizing x with
  | nil => exact ⟨[], [], rfl, (Nat.le_zero.mp hx).symm, by simp⟩
  | cons t ts ih =>
    by_cases ht : t = .star
    · subst ht
      obtain ⟨xs, ys, rfl, rfl, hy⟩ := ih x (by simpa using hx)
      exact ⟨.star :: xs, ys, rfl, by simp, hy⟩
    · cases x with
      | zero => exact ⟨[], t :: ts, rfl, rfl, by simpa using ht⟩
      | succ x =>
        rw [solid_cons_of_ne t ht] at hx
        obtain ⟨xs, ys, rfl, rfl, hy⟩ := ih x (by simpa using hx)
        exact ⟨t :: xs, ys, rfl, by simp [solid_cons_of_ne t ht], hy⟩

theorem exists_span (ts : List Token) :
    ∃ span later, ts = span ++ later ∧ .star ∉ span ∧
      (later ≠ [] → later.head? = some .star) := by
  induction ts with
  | nil => exact ⟨[], [], rfl, by simp, by simp⟩
  | cons t ts ih =>
    by_cases ht : t = .star
    · exact ⟨[], t :: ts, rfl, by simp, by simp [ht]⟩
    · obtain ⟨span, later, rfl, hs, hl⟩ := ih
      exact ⟨t :: span, later, rfl, by simpa [hs] using Ne.symm ht, hl⟩

theorem exists_lead (xs : List Token) :
    ∃ lead past, xs = lead ++ past ∧ .star ∉ past ∧
      (lead = [] ∨ ∃ before, lead = before ++ [.star]) := by
  induction xs using List.reverseRecOn with
  | nil => exact ⟨[], [], rfl, by simp, .inl rfl⟩
  | append_singleton xs t ih =>
    by_cases ht : t = .star
    · exact ⟨xs ++ [.star], [], by simp [ht], by simp, .inr ⟨xs, rfl⟩⟩
    · obtain ⟨lead, past, rfl, hp, hl⟩ := ih
      exact ⟨lead, past ++ [t], by simp, by simpa [hp] using Ne.symm ht, hl⟩

theorem exists_stands (ts : List Token) (x : Nat) (hx : x ≤ (solid ts).length) :
    ∃ lead past left, Stands ts lead past left ∧ x = (solid lead).length + past.length := by
  obtain ⟨xs, ys, rfl, rfl, hy⟩ := exists_prefix ts x hx
  obtain ⟨lead, past, rfl, hp, hl⟩ := exists_lead xs
  exact ⟨lead, past, ys, ⟨rfl, hp, hl, hy⟩, by simp [solid_of_plain past hp]⟩

namespace Stands

variable {ts lead past left : List Token}

theorem head_ne {t : Token} (h : Stands ts lead past (t :: left)) : t ≠ .star := by
  intro ht
  exact h.next (by rw [ht, List.head?_cons])

theorem place (h : Stands ts lead past left) :
    (solid (lead ++ past)).length = (solid lead).length + past.length := by
  simp [solid_of_plain past h.plain]

theorem token_past (h : Stands ts lead past left) (i : Nat) (hi : i < past.length) :
    (solid ts)[(solid lead).length + i]? = past[i]? := by
  rw [h.split, List.append_assoc, solid_append, solid_append, solid_of_plain past h.plain,
    List.getElem?_append_right (by omega), Nat.add_sub_cancel_left, List.getElem?_append_left hi]

theorem token_next (h : Stands ts lead past left) :
    (solid ts)[(solid lead).length + past.length]? = left.head? := by
  rw [h.split, solid_append, ← h.place, List.getElem?_append_right (Nat.le_refl _), Nat.sub_self]
  cases left with
  | nil => rfl
  | cons t left =>
    rw [solid_cons_of_ne t h.head_ne]
    rfl

theorem split_take (h : Stands ts lead past left) (j : Nat) :
    ts = lead ++ past.take j ++ (past.drop j ++ left) := by
  rw [List.append_assoc, ← List.append_assoc (past.take j), List.take_append_drop, h.split,
    List.append_assoc]

theorem reaches_take_iff (h : Stands ts lead past left) (text : List Char) (i : Nat)
    (hi : i ≤ past.length) :
    Reaches ts text ((solid lead).length + i) ↔ Fits (lead ++ past.take i) text := by
  have hp : .star ∉ past.take i := fun hm => h.plain (List.mem_of_mem_take hm)
  have hplace : (solid (lead ++ past.take i)).length = (solid lead).length + i := by
    simp [solid_of_plain _ hp, Nat.min_eq_left hi]
  have hnext : (past.drop i ++ left).head? ≠ some .star := by
    intro hs
    cases hd : past.drop i with
    | nil => exact h.next (by simpa [hd] using hs)
    | cons t rest =>
      have ht : t ∈ past := List.mem_of_mem_drop (hd ▸ List.mem_cons_self)
      rw [hd, List.cons_append, List.head?_cons, Option.some.injEq] at hs
      exact h.plain (hs ▸ ht)
  rw [← hplace, h.split_take i]
  exact reaches_iff_fits _ _ hnext text

theorem reaches_iff (h : Stands ts lead past left) (text : List Char) :
    Reaches ts text ((solid lead).length + past.length) ↔ Fits (lead ++ past) text := by
  simpa using h.reaches_take_iff text past.length (Nat.le_refl _)

theorem starred {before : List Token} (h : Stands ts (before ++ [.star]) past left) :
    Starred ts (solid before).length :=
  ⟨before, past ++ left, by simp [h.split], rfl⟩

theorem starred_le (h : Stands ts lead past left) (y : Nat) (hs : Starred ts y)
    (hy : y ≤ (solid lead).length + past.length) :
    ∃ before, lead = before ++ [.star] ∧ y ≤ (solid before).length := by
  obtain ⟨xs, ys, hts, rfl⟩ := hs
  obtain ⟨us, hus⟩ : ∃ us, lead ++ past = xs ++ .star :: us := by
    rcases split_at_star _ _ xs ys (h.split.symm.trans hts) with hlead | ⟨vs, rfl, hl⟩
    · exact hlead
    · have hz : (solid vs).length = 0 := by
        rw [solid_append, List.length_append, h.place] at hy
        omega
      have hstar : left.head? = some .star := by
        rw [hl, eq_replicate_of_solid vs hz]
        cases vs.length <;> simp [List.replicate_succ]
      exact absurd hstar h.next
  obtain ⟨vs, rfl⟩ : ∃ vs, lead = xs ++ .star :: vs := by
    rcases split_at_star lead past xs us hus with hlead | ⟨vs, -, hp⟩
    · exact hlead
    · exact absurd (by simp [hp]) h.plain
  rcases h.led with hnil | ⟨before, hb⟩
  · simp at hnil
  · refine ⟨before, hb, ?_⟩
    have hlen := congrArg (fun l => (solid l).length) hb
    simp only [solid_append, solid_star_cons, solid_nil, List.length_append, List.length_nil] at hlen
    omega

end Stands

end PageLookup.Glob
