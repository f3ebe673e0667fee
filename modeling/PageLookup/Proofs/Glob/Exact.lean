import PageLookup.Proofs.Glob.Ground
import PageLookup.Proofs.Glob.Overlap

/-!
# Regular patterns accept their language

Where question marks behind a star only close a span, the state of a run is the
furthest place the text reaches. A run never overstates, since all arcs back
are grounded; and it never falls behind, since a star keeps every place before
it, and among the letters of a span the longest overlap holds all shorter ones.
-/

set_option autoImplicit false

namespace PageLookup.Glob

instance decidableRunsEndAtStars : (ts : List Token) → Decidable (RunsEndAtStars ts)
  | [] => inferInstanceAs (Decidable True)
  | .one :: ts =>
    have := decidableRunsEndAtStars ts
    inferInstanceAs (Decidable ((ts.dropWhile (· == .one)).head? = some .star ∧ RunsEndAtStars ts))
  | .star :: ts => decidableRunsEndAtStars ts
  | .literal _ :: ts => decidableRunsEndAtStars ts

instance (ts : List Token) : Decidable (Regular ts) :=
  decidableRunsEndAtStars (ts.dropWhile (· != .star))

theorem runsEndAtStars_of_append (xs ys : List Token) (h : RunsEndAtStars (xs ++ ys)) :
    RunsEndAtStars ys := by
  induction xs with
  | nil => exact h
  | cons t xs ih =>
    cases t with
    | star => exact ih h
    | one => exact ih h.2
    | literal c => exact ih h

theorem runsEndAtStars_of_regular (before ts : List Token) (h : Regular (before ++ .star :: ts)) :
    RunsEndAtStars ts := by
  unfold Regular at h
  induction before with
  | nil => exact h
  | cons t before ih =>
    by_cases ht : t = .star
    · subst ht
      rw [List.cons_append, List.dropWhile_cons_of_neg (by simp)] at h
      exact runsEndAtStars_of_append (.star :: before ++ [.star]) ts (by simpa using h)
    · rw [List.cons_append, List.dropWhile_cons_of_pos (by simpa using ht)] at h
      exact ih h

/-- Within a span question marks stand at its end only. -/
theorem literals_of_runs (past left : List Token) (hp : .star ∉ past)
    (h : RunsEndAtStars (past ++ left)) (hl : left.head? ≠ some .star)
    (hone : left.head? ≠ some .one) : ∃ w : List Char, past = w.map .literal := by
  induction past with
  | nil => exact ⟨[], rfl⟩
  | cons t past ih =>
    have hps : .star ∉ past := fun h => hp (by simp [h])
    cases t with
    | star => simp at hp
    | literal c =>
      obtain ⟨w, rfl⟩ := ih hps h
      exact ⟨c :: w, rfl⟩
    | one =>
      obtain ⟨w, rfl⟩ := ih hps h.2
      have hend := h.1
      cases w with
      | cons c w => simp at hend
      | nil =>
        change (left.dropWhile (· == .one)).head? = some .star at hend
        rw [List.dropWhile_beq_eq_self_of_head?_ne hone] at hend
        exact absurd hend hl

section Regular

variable {ts before past left : List Token} {e : Draft}

/-- A state of a regular table that does not take a character resumes at the overlap. -/
theorem resume_overlap (hr : Regular ts) (hs : Stands ts (before ++ [.star]) past left)
    {m : Draft} (hm : Draft.empty.grow (before ++ [.star] ++ past) = some m) (c : Char)
    (hc : left.head?.any (·.fits c) = false) :
    ∃ w : List Char, past = w.map .literal ∧
      m.resume c = some ((solid before).length + overlap w (w ++ [c]).tail) := by
  have hone : left.head? ≠ some .one := fun h => by simp [h, Token.fits] at hc
  have hruns : RunsEndAtStars (past ++ left) := by
    apply runsEndAtStars_of_regular before
    simpa [hs.split] using hr
  obtain ⟨w, rfl⟩ := literals_of_runs past left hs.plain hruns hs.next hone
  obtain ⟨d, hd, hg⟩ := Stands.grow_lead hm
  exact ⟨w, rfl, hd ▸ (spells_of_grow d m w hg).resume c⟩

theorem covers_of_suffix (w : List Char) (c : Char) (j : Nat) (hj : j ≤ w.length)
    (h : w.take j <:+ w ++ [c]) :
    Covers ((w.map Token.literal).take j) (lastRead (w.map .literal) c j) := by
  have hdrop := List.suffix_iff_eq_drop.mp h
  rw [List.length_append, List.length_singleton, List.length_take, Nat.min_eq_left hj] at hdrop
  have hlast : lastRead (w.map .literal) c j = ((w ++ [c]).drop (w.length + 1 - j)).map .literal := by
    rw [lastRead, List.map_drop, List.map_append, List.length_map]
    rfl
  rw [hlast, ← hdrop, List.map_take]
  exact List.forall₂_same.mpr fun t _ => .inr rfl

theorem grounded_of_regular (hr : Regular ts) (he : Draft.empty.grow ts = some e) :
    Grounded ts e.finish := by
  intro before past left c j hs hj hstep
  obtain ⟨m, hm, hall⟩ := hs.step he
  have hback := hall c
  simp only [solid_append, solid_star_cons, solid_nil, List.append_nil, hstep] at hback
  split at hback
  · simp at hback
    omega
  · rename_i hc
    obtain ⟨w, rfl, hres⟩ := resume_overlap hr hs hm c (by simpa using hc)
    rw [hres] at hback
    obtain rfl : j = overlap w (w ++ [c]).tail := by simpa using hback
    exact covers_of_suffix w c _ (overlap_le w _)
      ((take_overlap_suffix w (w ++ [c]).tail).trans (List.tail_suffix _))

/-- Of two places reached in a span the beginning up to the first ends the word up to the second. -/
theorem take_suffix_of_reaches (w : List Char) (hs : Stands ts (before ++ [.star]) (w.map .literal) left)
    (text : List Char) (i : Nat) (hi : i ≤ w.length)
    (hy : Reaches ts text ((solid (before ++ [.star])).length + i))
    (hx : Reaches ts text ((solid (before ++ [.star])).length + (w.map Token.literal).length)) :
    w.take i <:+ w := by
  obtain ⟨u, v, htext, -, hv⟩ := (fits_append _ _ _).mp ((hs.reaches_iff text).mp hx)
  obtain ⟨u', v', htext', -, hv'⟩ :=
    (fits_append _ _ _).mp ((hs.reaches_take_iff text i (by simpa using hi)).mp hy)
  rw [← List.map_take] at hv'
  rw [(fits_literals_iff w v).mp hv] at htext
  rw [(fits_literals_iff (w.take i) v').mp hv'] at htext'
  exact List.suffix_of_suffix_length_le ⟨u', htext'.symm⟩ ⟨u, htext.symm⟩
    (List.length_take_le' _ _)

theorem overlap_keeps_up (w : List Char)
    (hs : Stands ts (before ++ [.star]) (w.map .literal) left) (text : List Char) (c : Char)
    (i : Nat) (hi : i < w.length) (t : Token)
    (ht : (solid ts)[(solid (before ++ [.star])).length + i]? = some t) (hc : t.fits c = true)
    (hy : Reaches ts text ((solid (before ++ [.star])).length + i))
    (hx : Reaches ts text ((solid (before ++ [.star])).length + (w.map Token.literal).length)) :
    i + 1 ≤ overlap w (w ++ [c]).tail := by
  rw [hs.token_past i (by simpa using hi), List.getElem?_map, List.getElem?_eq_getElem hi,
    Option.map_some, Option.some.injEq] at ht
  have hwc : w[i] = c := by simpa [← ht, Token.fits] using hc
  have hend := (take_succ_suffix_concat w w c i hi).mpr
    ⟨take_suffix_of_reaches w hs text i (Nat.le_of_lt hi) hy hx, hwc⟩
  have hlen : (w.take (i+1)).length < (w ++ [c]).length := by
    rw [List.length_take, List.length_append, List.length_singleton]
    omega
  exact le_overlap w _ (i+1) hi (suffix_tail _ _ hend hlen)

theorem reaches_plain (hs : Stands ts [] past left) (text : List Char) (i : Nat)
    (hi : i ≤ past.length) (h : Reaches ts text i) : i = text.length := by
  have hp : .star ∉ past.take i := fun h => hs.plain (List.mem_of_mem_take h)
  have hf := (hs.reaches_take_iff text i hi).mp (by simpa using h)
  have hlen := ((fits_plain_iff _ hp text).mp hf).length_eq
  rw [List.length_take, Nat.min_eq_left hi] at hlen
  exact hlen

/-- If a state is the furthest place reached, the next state is not behind any place reached then. -/
theorem step_keeps_up {lead : List Token} (hr : Regular ts) (hs : Stands ts lead past left)
    (he : Draft.empty.grow ts = some e) (text : List Char) (c : Char) (y : Nat)
    (hx : Reaches ts text ((solid lead).length + past.length))
    (hmax : ∀ y', Reaches ts text y' → y' ≤ (solid lead).length + past.length)
    (hy : Reaches ts (text ++ [c]) y) :
    ∃ x, e.finish.step ((solid lead).length + past.length) c = some x ∧ y ≤ x := by
  obtain ⟨m, hm, hall⟩ := hs.step he
  rw [hall c]
  have hcases := reaches_concat ts text c y hy
  by_cases hown : left.head?.any (·.fits c) = true
  · refine ⟨_, if_pos hown, ?_⟩
    rcases hcases with ⟨-, hy⟩ | ⟨y', t, rfl, -, -, hy⟩
    · exact Nat.le_succ_of_le (hmax y hy)
    · exact Nat.succ_le_succ (hmax y' hy)
  rw [if_neg hown]
  rcases hcases with ⟨hstar, hy⟩ | ⟨y', t, rfl, ht, hc, hy⟩
  · -- a star keeps its place, and the run stays behind the last star
    obtain ⟨before, rfl, hle⟩ := hs.starred_le y hstar (hmax y hy)
    obtain ⟨j, -, hres⟩ := Stands.resume_lead hs.plain hm c
    exact ⟨_, hres, by omega⟩
  have hlt : y' < (solid lead).length + past.length := by
    refine Nat.lt_of_le_of_ne (hmax y' hy) ?_
    rintro rfl
    rw [hs.token_next] at ht
    exact hown (by simp [ht, hc])
  rcases hs.led with rfl | ⟨before, rfl⟩
  · rw [solid_nil, List.length_nil, Nat.zero_add] at hlt hx
    have h1 := reaches_plain hs text y' (Nat.le_of_lt hlt) hy
    have h2 := reaches_plain hs text past.length (Nat.le_refl _) hx
    omega
  have hlead : (solid (before ++ [.star])).length = (solid before).length := by simp
  by_cases hb : y' < (solid before).length
  · obtain ⟨j, -, hres⟩ := Stands.resume_lead hs.plain hm c
    exact ⟨_, hres, by omega⟩
  · -- within the span the overlap decides
    obtain ⟨i, rfl⟩ := Nat.exists_eq_add_of_le (Nat.le_of_not_lt hb)
    obtain ⟨w, rfl, hover⟩ := resume_overlap hr hs hm c (by simpa using hown)
    rw [List.length_map] at hlt
    rw [← hlead] at ht hy
    have hkeep := overlap_keeps_up w hs text c i (by omega) t ht hc hy hx
    exact ⟨_, hover, by omega⟩

theorem reaches_le_run (hr : Regular ts) (he : Draft.empty.grow ts = some e) (text : List Char)
    (y : Nat) (h : Reaches ts text y) : ∃ x, e.finish.run 0 text = some x ∧ y ≤ x := by
  induction text using List.reverseRecOn generalizing y with
  | nil => exact ⟨0, rfl, Nat.le_of_eq (reaches_nil ts y h)⟩
  | append_singleton text c ih =>
    have hg := grounded_of_regular hr he
    obtain ⟨y', hy'⟩ : ∃ y', Reaches ts text y' := by
      rcases reaches_concat ts text c y h with ⟨-, hy⟩ | ⟨y', -, -, -, -, hy⟩
      · exact ⟨y, hy⟩
      · exact ⟨y', hy⟩
    obtain ⟨x, hx, -⟩ := ih y' hy'
    have hreach := run_reaches he hg text x hx
    have hmax : ∀ y', Reaches ts text y' → y' ≤ x := by
      intro y' hy'
      obtain ⟨x', hx', hle⟩ := ih y' hy'
      rw [hx] at hx'
      cases hx'
      exact hle
    obtain ⟨lead, past, left, hs, rfl⟩ := exists_stands ts x (reaches_bound ts text x hreach)
    obtain ⟨z, hz, hyz⟩ := step_keeps_up hr hs he text c y hreach hmax h
    exact ⟨z, by rw [Table.run_concat, hx, Option.bind_some, hz], hyz⟩

theorem accepts_iff_of_regular (hr : Regular ts) (he : Draft.empty.grow ts = some e)
    (text : List Char) : e.finish.accepts text = true ↔ Fits ts text := by
  rw [accepts_iff_run ts he]
  constructor
  · intro h
    exact (reaches_end_iff ts text).mp (run_reaches he (grounded_of_regular hr he) text _ h)
  · intro h
    obtain ⟨x, hx, hle⟩ := reaches_le_run hr he text _ ((reaches_end_iff ts text).mpr h)
    have hge := reaches_bound ts text x (run_reaches he (grounded_of_regular hr he) text x hx)
    rw [hx, Nat.le_antisymm hle hge]

end Regular

/-- A compiled pattern with question marks behind the first star only where a star follows accepts
its language and nothing else. -/
theorem accepts_iff_fits_of_regular (raw : String) (p : Pattern)
    (hp : Pattern.compile raw = .ok p) (hr : Regular (tokens raw)) (text : String) :
    p.accepts text = true ↔ Fits (tokens raw) text.toList := by
  obtain ⟨e, he, -, hacc⟩ := table_of_compile raw p hp
  rw [hacc text]
  exact accepts_iff_of_regular hr he text.toList

theorem fits_overlapping_needles :
    ∃ p, Pattern.compile "x?*aba?*aab" = .ok p ∧ Regular (tokens "x?*aba?*aab") ∧
      p.accepts "xyababaaab" = true ∧ Fits (tokens "x?*aba?*aab") "xyababaaab".toList := by
  refine ⟨_, rfl, by decide, by decide, ?_⟩
  exact (accepts_iff_fits_of_regular "x?*aba?*aab" _ rfl (by decide) _).mp (by decide)

end PageLookup.Glob
