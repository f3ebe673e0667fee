import Mathlib.Data.List.Induction
import PageLookup.Proofs.Glob.Window

/-!
# Words behind a star

While the tokens behind a star are letters, a state stands for the longest
beginning of the word that ends the text, and the anchor for the longest that
ends the word without its first letter. So a letter that does not go on with
the word leads to the longest beginning still alive, and nothing is forgotten.
-/

set_option autoImplicit false

namespace PageLookup.Glob

theorem suffix_tail (u w : List Char) (h : u <:+ w) (hl : u.length < w.length) :
    u <:+ w.tail := by
  cases w with
  | nil => simp at hl
  | cons c w =>
    rcases List.suffix_cons_iff.mp h with rfl | hs
    · exact absurd hl (Nat.lt_irrefl _)
    · exact hs

/-- The length of the longest beginning of a word that ends a text. -/
def overlap (w : List Char) : List Char → Nat
  | [] => 0
  | c :: u => if c :: u <+: w then u.length + 1 else overlap w u

theorem overlap_le_length (w u : List Char) : overlap w u ≤ u.length := by
  induction u with
  | nil => exact Nat.le_refl _
  | cons c u ih =>
    unfold overlap
    split
    · exact Nat.le_refl _
    · exact Nat.le_succ_of_le ih

theorem overlap_le (w u : List Char) : overlap w u ≤ w.length := by
  induction u with
  | nil => exact Nat.zero_le _
  | cons c u ih =>
    unfold overlap
    split
    · rename_i h
      simpa using h.length_le
    · exact ih

theorem take_overlap_suffix (w u : List Char) : w.take (overlap w u) <:+ u := by
  induction u with
  | nil => simp [overlap]
  | cons c u ih =>
    unfold overlap
    split
    · rename_i h
      have ht := List.prefix_iff_eq_take.mp h
      rw [List.length_cons] at ht
      exact ht ▸ List.suffix_refl _
    · exact ih.trans (List.suffix_cons c u)

theorem le_overlap (w u : List Char) (j : Nat) (hj : j ≤ w.length) (h : w.take j <:+ u) :
    j ≤ overlap w u := by
  induction u with
  | nil =>
    have hlen := h.length_le
    simp only [List.length_take, Nat.min_eq_left hj, List.length_nil] at hlen
    exact hlen
  | cons c u ih =>
    unfold overlap
    split
    · simpa [Nat.min_eq_left hj] using h.length_le
    · rename_i hp
      rcases List.suffix_cons_iff.mp h with he | hs
      · exact absurd (he ▸ List.take_prefix j w) hp
      · exact ih hs

theorem overlap_self (w : List Char) : overlap w w = w.length :=
  Nat.le_antisymm (overlap_le w w) (le_overlap w w _ (Nat.le_refl _) (by simp))

/-- A longer word has the same overlap with a text that the word is as long as. -/
theorem overlap_append (w v u : List Char) (h : u.length ≤ w.length) :
    overlap (w ++ v) u = overlap w u := by
  induction u with
  | nil => rfl
  | cons c u ih =>
    have hp : c :: u <+: w ++ v ↔ c :: u <+: w :=
      ⟨fun hp => List.prefix_of_prefix_length_le hp (List.prefix_append w v) h,
        fun hp => hp.trans (List.prefix_append w v)⟩
    simp only [overlap, hp, ih (by simp at h; omega)]

theorem take_succ_suffix_concat (w u : List Char) (c : Char) (i : Nat) (hi : i < w.length) :
    w.take (i+1) <:+ u ++ [c] ↔ w.take i <:+ u ∧ w[i] = c := by
  rw [List.take_succ_eq_append_getElem hi]
  constructor
  · rintro ⟨t, ht⟩
    rw [← List.append_assoc] at ht
    obtain ⟨h, hc⟩ := List.append_inj' ht rfl
    exact ⟨⟨t, h⟩, by simpa using hc⟩
  · rintro ⟨⟨t, rfl⟩, rfl⟩
    exact ⟨t, by simp⟩

/-- Of a text only the overlap matters for the overlap with the text and one more letter. -/
theorem overlap_concat (w u : List Char) (c : Char) :
    overlap w (u ++ [c]) = overlap w (w.take (overlap w u) ++ [c]) := by
  apply Nat.le_antisymm
  · apply le_overlap w _ _ (overlap_le w _)
    have hs := take_overlap_suffix w (u ++ [c])
    cases hj : overlap w (u ++ [c]) with
    | zero => simp
    | succ i =>
      have hi : i < w.length := by
        have := overlap_le w (u ++ [c])
        omega
      rw [hj, take_succ_suffix_concat w u c i hi] at hs
      have hle := le_overlap w u i (Nat.le_of_lt hi) hs.1
      refine (take_succ_suffix_concat w _ c i hi).mpr ⟨?_, hs.2⟩
      exact List.suffix_of_suffix_length_le hs.1 (take_overlap_suffix w u) (by simp; omega)
  · apply le_overlap w _ _ (overlap_le w _)
    obtain ⟨t, ht⟩ := take_overlap_suffix w u
    refine (take_overlap_suffix w _).trans ⟨t, ?_⟩
    rw [← List.append_assoc, ht]

theorem overlap_concat_of_ne (w : List Char) (a c : Char) (hc : c ≠ a) :
    overlap (w ++ [a]) (w ++ [c]) = overlap w (w ++ [c]).tail := by
  have hp : ¬w ++ [c] <+: w ++ [a] := by
    intro h
    have he := h.eq_of_length (by simp)
    exact hc (by simpa using he)
  obtain ⟨h, u, hu⟩ : ∃ h u, w ++ [c] = h :: u := List.exists_cons_of_ne_nil (by simp)
  have hlen := congrArg List.length hu
  simp only [List.length_append, List.length_cons, List.length_nil] at hlen
  rw [hu] at hp ⊢
  rw [overlap, if_neg hp, List.tail_cons, overlap_append w [a] u (by omega)]

structure Spells (b : Nat) (w : List Char) (m : Draft) : Prop where
  current : m.current = b + w.length
  anchor : m.anchor = some (b + overlap w w.tail)
  next : ∀ s < w.length, ∀ c, m.next (b + s) c = some (b + overlap w (w.take s ++ [c]))

theorem Spells.resume {b : Nat} {w : List Char} {m : Draft} (h : Spells b w m) (c : Char) :
    m.resume c = some (b + overlap w (w ++ [c]).tail) := by
  rw [Draft.resume, h.anchor, Option.bind_some]
  cases w with
  | nil =>
    have hc := h.current
    simp only [List.length_nil, Nat.add_zero] at hc
    simp [overlap, ← hc]
  | cons a w =>
    have hlt : overlap (a :: w) w < (a :: w).length :=
      Nat.lt_of_le_of_lt (overlap_le_length _ _) (by simp)
    rw [List.tail_cons, h.next _ hlt c, List.cons_append, List.tail_cons, ← overlap_concat]

theorem spells_literal {b : Nat} {w : List Char} {m : Draft} (h : Spells b w m) (a : Char) :
    Spells b (w ++ [a]) (m.literal a) where
  current := by simp [h.current, Nat.add_assoc]
  anchor := by
    have hr := h.resume a
    rw [Draft.resume, h.anchor, Option.bind_some] at hr
    rw [Draft.literal_anchor, h.anchor, Option.map_some, hr, Option.getD_some,
      overlap_append w [a] _ (by simp)]
  next := by
    intro s hs c
    rw [List.length_append, List.length_singleton] at hs
    rw [Draft.literal_next, h.current]
    by_cases he : s = w.length
    · subst he
      rw [if_pos rfl, List.take_left]
      split
      · rename_i hca
        rw [hca, overlap_self, List.length_append, List.length_singleton, Nat.add_assoc]
      · rename_i hca
        rw [h.resume c, overlap_concat_of_ne w a c hca]
    · have hlt : s < w.length := by omega
      rw [if_neg (by omega), h.next s hlt c, List.take_append_of_le_length (by omega),
        overlap_append w [a] _ (by simp; omega)]

theorem spells_of_grow (d m : Draft) (w : List Char)
    (h : d.star.grow (w.map .literal) = some m) : Spells d.current w m := by
  induction w using List.reverseRecOn generalizing m with
  | nil =>
    cases h
    exact ⟨rfl, rfl, by simp⟩
  | append_singleton w a ih =>
    rw [List.map_append, Draft.grow_append_eq_some] at h
    obtain ⟨m', hm', ha⟩ := h
    cases ha
    exact spells_literal (ih m' hm') a

end PageLookup.Glob
