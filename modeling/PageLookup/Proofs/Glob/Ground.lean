import Mathlib.Data.List.Forall2
import PageLookup.Proofs.Glob.Compiled

/-!
# Arcs that hold what they promise

A state behind a star promises that the last characters fit the tokens between
the star and the state. An arc back is grounded if these tokens cover what was
read on the way: the span's tokens so far and the character. Where all arcs are
grounded a run never reaches a place that the text does not reach.
-/

set_option autoImplicit false

namespace PageLookup.Glob

/-- Tokens that take whatever the other tokens take, one by one. -/
def Covers (ts us : List Token) : Prop :=
  List.Forall₂ (fun t u => t = .one ∨ t = u) ts us

theorem fitsEach_of_covers (ts us : List Token) (hc : Covers ts us) (text : List Char)
    (h : FitsEach us text) : FitsEach ts text := by
  induction hc generalizing text with
  | nil => exact h
  | @cons t u ts us htu _ ih =>
    obtain ⟨c, rest, rfl, hu, hr⟩ := (fitsEach_cons_iff u us text).mp h
    refine (fitsEach_cons_iff t ts _).mpr ⟨c, rest, rfl, ?_, ih rest hr⟩
    rcases htu with rfl | rfl
    · rfl
    · exact hu

def lastRead (past : List Token) (c : Char) (j : Nat) : List Token :=
  (past ++ [Token.literal c]).drop (past.length + 1 - j)

/-- Every arc back leads to a place behind the same star whose tokens cover the tokens and the
character read last. -/
def Grounded (ts : List Token) (t : Table) : Prop :=
  ∀ before past left c j, Stands ts (before ++ [.star]) past left → j ≤ past.length →
    t.step ((solid before).length + past.length) c = some ((solid before).length + j) →
    Covers (past.take j) (lastRead past c j)

section Reach

variable {ts lead past left : List Token} {e : Draft}

theorem reaches_own (h : Stands ts lead past left) (text : List Char) (c : Char)
    (hl : left.head?.any (·.fits c) = true)
    (hr : Reaches ts text ((solid lead).length + past.length)) :
    Reaches ts (text ++ [c]) ((solid lead).length + past.length + 1) := by
  obtain ⟨t, ht, hc⟩ := (Option.any_eq_true _ _).mp hl
  obtain ⟨rest, rfl⟩ := List.head?_eq_some_iff.mp ht
  have hs := h.head_ne
  refine ⟨lead ++ past ++ [t], rest, by simp [h.split], ?_, ?_⟩
  · rw [solid_append, List.length_append, h.place, solid_cons_of_ne t hs]
    rfl
  · exact (fits_concat_plain _ t hs _).mpr ⟨text, c, rfl, (h.reaches_iff text).mp hr, hc⟩

theorem reaches_back {before : List Token} (h : Stands ts (before ++ [.star]) past left)
    (text : List Char) (c : Char) (j : Nat) (hj : j ≤ past.length)
    (hc : Covers (past.take j) (lastRead past c j))
    (hr : Reaches ts text ((solid (before ++ [.star])).length + past.length)) :
    Reaches ts (text ++ [c]) ((solid before).length + j) := by
  obtain ⟨u, v, rfl, hu, hv⟩ := (fits_append _ _ _).mp ((h.reaches_iff text).mp hr)
  have hlast : FitsEach [Token.literal c] [c] := (fitsEach_singleton _ c).mpr (by simp [Token.fits])
  have hread := ((fits_plain_iff past h.plain v).mp hv).append hlast
  have hp : .star ∉ past.take j := fun hm => h.plain (List.mem_of_mem_take hm)
  have hback := (fits_plain_iff _ hp _).mpr
    (fitsEach_of_covers _ _ hc _ (hread.drop (past.length + 1 - j)))
  refine ⟨before ++ .star :: past.take j, past.drop j ++ left, by simpa using h.split_take j, ?_, ?_⟩
  · simp [solid_of_plain _ hp, Nat.min_eq_left hj]
  · have hall := fits_star_prepend before (past.take j) u _ hu hback
      ((v ++ [c]).take (past.length + 1 - j))
    rwa [List.append_assoc, List.take_append_drop, ← List.append_assoc] at hall

theorem run_reaches (he : Draft.empty.grow ts = some e) (hg : Grounded ts e.finish)
    (text : List Char) (x : Nat) (h : e.finish.run 0 text = some x) : Reaches ts text x := by
  induction text using List.reverseRecOn generalizing x with
  | nil =>
    cases h
    exact ⟨[], ts, rfl, rfl, .nil⟩
  | append_singleton text c ih =>
    rw [Table.run_concat, Option.bind_eq_some_iff] at h
    obtain ⟨y, hy, hstep⟩ := h
    have hr := ih y hy
    obtain ⟨lead, past, left, hs, rfl⟩ := exists_stands ts y (reaches_bound ts text y hr)
    obtain ⟨m, hm, hall⟩ := hs.step he
    rw [hall c] at hstep
    split at hstep
    · rename_i hl
      cases hstep
      exact reaches_own hs text c hl hr
    · rename_i hl
      rcases hs.led with rfl | ⟨before, rfl⟩
      · rw [Stands.resume_plain hs.plain hm] at hstep
        cases hstep
      · obtain ⟨j, hj, hres⟩ := Stands.resume_lead hs.plain hm c
        rw [hres] at hstep
        cases hstep
        refine reaches_back hs text c j hj (hg before past left c j hs hj ?_) hr
        have hstep := hall c
        rw [if_neg hl, hres] at hstep
        simpa using hstep

end Reach

end PageLookup.Glob
