import Mathlib.Order.Bounds.Defs
import PageLookup.Glob.Link
import PageLookup.Proofs.Glob.Overlap

/-!
# Borders of the word behind a star

The anchor is found by a step of the unfinished table and not by trying the
borders of a word one after another. It is the longest border all the same: the
longest beginning of the word that ends the word without its first letter. For
the same reason a run that stays with the word stands at the longest beginning
of the word that ends what it has read.
-/

set_option autoImplicit false

namespace PageLookup.Glob

section Border

variable (w : List Char)

theorem isBorder_iff (m : Nat) : IsBorder w m ↔ m < w.length ∧ w.take m <:+ w.tail := by
  refine and_congr_right fun hm => ?_
  have hlen : (w.take m).length = m := by simp [Nat.le_of_lt hm]
  constructor
  · intro h
    exact suffix_tail _ w (h ▸ List.drop_suffix _ w) (hlen.trans_lt hm)
  · intro h
    have hdrop := List.suffix_iff_eq_drop.mp (h.trans (List.tail_suffix w))
    rwa [hlen] at hdrop

theorem overlap_isGreatest (text : List Char) :
    IsGreatest {i | i ≤ w.length ∧ w.take i <:+ text} (overlap w text) :=
  ⟨⟨overlap_le w text, take_overlap_suffix w text⟩, fun i hi => le_overlap w text i hi.1 hi.2⟩

theorem border_isGreatest (hw : w ≠ []) : IsGreatest {i | IsBorder w i} (overlap w w.tail) := by
  have hpos := List.length_pos_of_ne_nil hw
  constructor
  · refine (isBorder_iff w _).mpr ⟨?_, take_overlap_suffix w w.tail⟩
    calc overlap w w.tail ≤ w.tail.length := overlap_le_length w w.tail
      _ < w.length := by rw [List.length_tail]; omega
  · intro i hi
    obtain ⟨hlt, hs⟩ := (isBorder_iff w i).mp hi
    exact le_overlap w w.tail i (Nat.le_of_lt hlt) hs

/-- Behind the whole word a letter is looked for from the second letter of the word on. -/
theorem overlap_beyond (c : Char) : overlap w (w ++ [c]) = overlap w (w ++ [c]).tail := by
  have hp : ¬w ++ [c] <+: w := fun h => absurd h.length_le (by simp)
  obtain ⟨a, u, hu⟩ : ∃ a u, w ++ [c] = a :: u := List.exists_cons_of_ne_nil (by simp)
  rw [hu] at hp ⊢
  rw [overlap, if_neg hp, List.tail_cons]

end Border

def Table.ReadsIn (t : Table) (states : Nat → Prop) : Nat → List Char → Prop
  | _, [] => True
  | s, c :: rest => states s ∧ ∃ x, t.step s c = some x ∧ t.ReadsIn states x rest

/-- The states of the letters of a word that begins at `b`, and also the one behind the word if
nothing is left of the pattern there. -/
def InWord (b : Nat) (w : List Char) (left : List Token) (x : Nat) : Prop :=
  b ≤ x ∧ x < b + w.length ∨ x = b + w.length ∧ left = []

instance (b : Nat) (w : List Char) (left : List Token) (x : Nat) : Decidable (InWord b w left x) :=
  inferInstanceAs (Decidable (b ≤ x ∧ x < b + w.length ∨ x = b + w.length ∧ left = []))

section Word

variable {before left : List Token} {w : List Char} {e : Draft}

theorem exists_word (he : Draft.empty.grow (before ++ .star :: (w.map .literal ++ left)) = some e) :
    ∃ m, Draft.empty.grow (before ++ .star :: w.map .literal) = some m ∧ m.grow left = some e ∧
      Spells (solid before).length w m := by
  have hsplit : before ++ .star :: (w.map .literal ++ left) =
      (before ++ .star :: w.map .literal) ++ left := by simp
  rw [hsplit, Draft.grow_append_eq_some] at he
  obtain ⟨m, hm, hleft⟩ := he
  obtain ⟨d, hd, hword⟩ := (Draft.grow_append_eq_some _ m before _).mp hm
  exact ⟨m, hm, hleft, current_of_grow before hd ▸ spells_of_grow d m w hword⟩

/-- A state of the word leads to the longest beginning that ends what is read then. -/
theorem step_word (he : Draft.empty.grow (before ++ .star :: (w.map .literal ++ left)) = some e)
    (i : Nat) (hi : InWord (solid before).length w left ((solid before).length + i)) (c : Char) :
    e.finish.step ((solid before).length + i) c =
      some ((solid before).length + overlap w (w.take i ++ [c])) := by
  obtain ⟨m, -, hleft, hspells⟩ := exists_word he
  have hm : m.current = (solid before).length + w.length := hspells.current
  rcases hi with ⟨-, hlt⟩ | ⟨hend, rfl⟩
  · have hcur := Draft.grow_current m e left hleft
    rw [step_finish, if_pos (by omega), Draft.grow_next m e left hleft _ (by omega) c,
      hspells.next i (by omega) c]
  · -- the state behind the word is the accepting one and resumes at the anchor
    cases hleft
    obtain rfl : i = w.length := by omega
    rw [step_finish, if_neg (by omega), if_pos hm.symm, hspells.resume c, List.take_length,
      overlap_beyond]

theorem run_word (he : Draft.empty.grow (before ++ .star :: (w.map .literal ++ left)) = some e)
    (read text : List Char)
    (h : e.finish.ReadsIn (InWord (solid before).length w left)
      ((solid before).length + overlap w read) text) :
    e.finish.run ((solid before).length + overlap w read) text =
      some ((solid before).length + overlap w (read ++ text)) := by
  induction text generalizing read with
  | nil => rw [List.append_nil, Table.run]
  | cons c text ih =>
    obtain ⟨hin, x, hx, hrest⟩ := h
    have hstep := step_word he _ hin c
    rw [← overlap_concat] at hstep
    obtain rfl := Option.some.inj (hx.symm.trans hstep)
    rw [Table.run_cons, hx, Option.bind_some, ih (read ++ [c]) hrest, List.append_assoc,
      List.singleton_append]

end Word

/-- The anchor behind a word that follows a star is the state of the longest border of the word,
and a run that stays with the word stands at the longest beginning of the word that ends the
text. -/
theorem Table.tracks_longest_borders (xs ys : List Symbol) (before : List Token) (w : List Char)
    (t : Table) (ht : Table.build (xs ++ ys) = .ok t)
    (hx : xs.map (·.token) = before ++ .star :: w.map .literal) :
    let b := (solid before).length
    (w ≠ [] → ∃ d m, Draft.empty.addAll xs = .ok d ∧ d.current = b + w.length ∧
      d.anchor = some (b + m) ∧ IsGreatest {i | IsBorder w i} m) ∧
    ∀ text, t.ReadsIn (InWord b w (ys.map (·.token))) b text →
      ∃ j, t.run b text = some (b + j) ∧
        IsGreatest {i | i ≤ w.length ∧ w.take i <:+ text} j := by
  intro b
  obtain ⟨e, he, rfl⟩ := (build_eq_ok_iff _ t).mp ht
  rw [List.map_append, hx, List.append_assoc, List.cons_append] at he
  constructor
  · intro hw
    obtain ⟨d, hd, -, hspells⟩ := exists_word he
    exact ⟨d, overlap w w.tail, (Draft.addAll_eq_ok _ d xs).mpr (hx ▸ hd), hspells.current,
      hspells.anchor, border_isGreatest w hw⟩
  · intro text h
    exact ⟨overlap w text, run_word he [] text h, overlap_isGreatest w text⟩

/-- At the end of `abab` the border `ab` is in hand, and the run reads on from there. -/
theorem Table.tracks_longest_borders_of_doubled_word :
    ∃ t, Table.build (symbolsFrom 0 "x*abab".toList) = .ok t ∧
      (∃ d m, Draft.empty.addAll (symbolsFrom 0 "x*abab".toList) = .ok d ∧ d.current = 5 ∧
        d.anchor = some (1 + m) ∧ IsGreatest {i | IsBorder "abab".toList i} m) ∧
      ∃ j, t.run 1 "ababa".toList = some (1 + j) ∧
        IsGreatest {i | i ≤ 4 ∧ "abab".toList.take i <:+ "ababa".toList} j := by
  refine ⟨_, rfl, ?_⟩
  have h := Table.tracks_longest_borders (symbolsFrom 0 "x*abab".toList) [] [.literal 'x']
    "abab".toList _ rfl (by decide)
  refine ⟨h.1 (by decide), h.2 "ababa".toList ?_⟩
  exact ⟨by decide, _, rfl, by decide, _, rfl, by decide, _, rfl, by decide, _, rfl, by decide, _,
    rfl, trivial⟩

end PageLookup.Glob
