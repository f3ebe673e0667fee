import Mathlib.Algebra.GroupWithZero.Nat
import Mathlib.Data.List.Nodup
import Mathlib.Data.List.Range
import PageLookup.Proofs.Glob.Window

/-!
# The arcs of a table

The state of a question mark has no arcs, and behind a star no arc leads to the
star's own state, where all characters without an arc go. So an arc is the own
arc of a letter's state, or it leads back to a state where a part of what stands
behind the star has been read.
-/

set_option autoImplicit false

namespace PageLookup.Glob

@[ext]
structure Arc where
  source : Nat
  char : Char
  target : Nat
  deriving DecidableEq, Repr

namespace Table

def arcsFrom (t : Table) (x : Nat) : List Arc :=
  (t.states[x]?.map (·.arcs)).getD [] |>.map fun arc => ⟨x, arc.1, arc.2⟩

def arcs (t : Table) : List Arc := (List.range t.states.size).flatMap t.arcsFrom

variable (t : Table)

theorem mem_arcsFrom_iff (x : Nat) (a : Arc) :
    a ∈ t.arcsFrom x ↔
      a.source = x ∧ ∃ s, t.states[x]? = some s ∧ (a.char, a.target) ∈ s.arcs := by
  obtain ⟨y, c, z⟩ := a
  unfold arcsFrom
  cases t.states[x]? <;> simp [eq_comm (a := x), and_comm]

theorem state_of_arc (a : Arc) (h : a ∈ t.arcs) :
    ∃ s, t.states[a.source]? = some s ∧ (a.char, a.target) ∈ s.arcs := by
  obtain ⟨x, -, hx⟩ := List.mem_flatMap.mp h
  obtain ⟨rfl, hs⟩ := (t.mem_arcsFrom_iff x a).mp hx
  exact hs

theorem arcs_length : t.arcs.length = (t.states.toList.map (·.arcs.length)).sum := by
  rw [arcs, List.length_flatMap]
  congr 1
  apply List.ext_getElem
  · simp
  · intro x h₁ h₂
    have hx : x < t.states.size := by simpa using h₁
    simp [arcsFrom, hx]

/-- No arc is listed twice. -/
theorem arcs_nodup (h : ∀ (x : Nat) (s : State), t.states[x]? = some s → Ascending s.arcs) :
    t.arcs.Nodup := by
  refine List.nodup_flatMap.mpr ⟨?_, ?_⟩
  · intro x _
    unfold arcsFrom
    cases hs : t.states[x]? with
    | none => simp
    | some s =>
      have hkeys : (s.arcs.map Prod.fst).Nodup := (h x s hs).imp Char.ne_of_lt
      refine (hkeys.of_map _).map ?_
      rintro ⟨c, y⟩ ⟨d, z⟩ heq
      simpa using heq
  · refine List.nodup_range.imp ?_
    intro x y hxy a hx hy
    rw [mem_arcsFrom_iff] at hx hy
    exact hxy (hx.1.symm.trans hy.1)

end Table

namespace Draft

/-- From state `b` on no arc leads to `b` or back before it. -/
structure Rising (d : Draft) (b : Nat) : Prop extends d.Bounded b where
  arcs : ∀ x c y, b ≤ x → (c, y) ∈ (d.stateAt x).arcs → b < y

variable {d e : Draft} {b : Nat}

theorem star_rising (d : Draft) : d.star.Rising d.current where
  toBounded := d.star_stays.toBounded
  arcs := by
    intro x c y hb harc
    rw [star_stateAt, stateAt_beyond d x hb] at harc
    cases harc

theorem Rising.last (h : d.Rising b) (c : Char) (y : Nat) (harc : (c, y) ∈ d.last.arcs) :
    b < y := by
  cases ha : d.anchor with
  | none =>
    rw [Draft.last, ha] at harc
    cases harc
  | some x =>
    rw [last_of_anchor d x ha] at harc
    exact h.arcs x c y (h.anchor x ha).1 harc

theorem Rising.star (h : d.Rising b) : d.star.Rising b where
  toBounded := h.toBounded.star
  arcs := h.arcs

theorem Rising.any (h : d.Rising b) : d.any.Rising b where
  toBounded := h.toBounded.any
  arcs := by
    intro x c y hb harc
    rw [any_stateAt] at harc
    split at harc
    · cases harc
    · exact h.arcs x c y hb harc

theorem Rising.literal (h : d.Rising b) (a : Char) : (d.literal a).Rising b where
  toBounded := h.toBounded.literal a
  arcs := by
    intro x c y hb harc
    rw [literal_stateAt] at harc
    split at harc
    · rcases Ascending.mem_put a _ _ (c, y) harc with he | harc
      · cases he
        exact Nat.lt_succ_of_le h.current
      · exact h.last c y harc
    · exact h.arcs x c y hb harc

theorem grow_rising (ts : List Token) (h : d.grow ts = some e) (hd : d.Rising b) : e.Rising b := by
  apply grow_preserves (·.Rising b) ts _ _ _ d e h hd
  · intro d _ hd
    exact hd.star
  · intro d hd
    exact hd.any
  · intro d a _ hd
    exact hd.literal a

theorem rising_of_starred (ts : List Token) (he : Draft.empty.grow ts = some e)
    (hb : Starred ts b) : e.Rising b := by
  obtain ⟨xs, ys, rfl, rfl⟩ := hb
  obtain ⟨m, hm, hg⟩ := (grow_append_eq_some _ e xs _).mp he
  rw [← current_of_grow xs hm]
  exact grow_rising ys hg m.star_rising

theorem Rising.finish {x : Nat} {s : State} (h : e.Rising b) (hs : e.finish.states[x]? = some s)
    (hb : b ≤ x) (c : Char) (y : Nat) (harc : (c, y) ∈ s.arcs) : b < y := by
  rw [finish_getElem?] at hs
  split at hs
  · cases hs
    exact h.arcs x c y hb harc
  · split at hs
    · cases hs
      exact h.last c y harc
    · cases hs

end Draft

section Arcs

variable {ts : List Token} {e : Draft}

theorem step_of_arc {x : Nat} {s : State} (he : Draft.empty.grow ts = some e)
    (hs : e.finish.states[x]? = some s) (c : Char) (y : Nat) (harc : (c, y) ∈ s.arcs) :
    e.finish.step x c = some y := by
  have ha := (Draft.grow_ordered ts he Draft.empty_ordered).finish hs
  rw [Table.step, hs, Option.bind_some, State.next,
    (Ascending.lookup_eq_some_iff s.arcs ha c y).mpr harc, Option.some_or]

theorem state_of_one {lead past left : List Token} (h : Stands ts lead past (.one :: left))
    (he : Draft.empty.grow ts = some e) :
    e.finish.states[(solid lead).length + past.length]? =
      some (.always ((solid lead).length + past.length + 1)) := by
  rw [h.split, Draft.grow_append_eq_some] at he
  obtain ⟨m, hm, hg⟩ := he
  have hc : m.current = (solid lead).length + past.length := (current_of_grow _ hm).trans h.place
  simp only [Draft.grow] at hg
  split at hg
  · cases hg
  · have hlt : m.current < m.any.current := by simp
    have hle : m.any.current ≤ e.current := by
      rw [Draft.grow_current m.any e left hg]
      exact Nat.le_add_right _ _
    rw [← hc, Draft.finish_getElem?, if_pos (Nat.lt_of_lt_of_le hlt hle),
      Draft.grow_stateAt m.any e left hg _ hlt, Draft.any_stateAt, if_pos rfl]

/-- Only a letter has an arc to the next state. -/
theorem literal_of_forward_arc (he : Draft.empty.grow ts = some e) (a : Arc)
    (ha : a ∈ e.finish.arcs) (hf : a.target = a.source + 1) :
    (solid ts)[a.source]? = some (.literal a.char) := by
  obtain ⟨s, hs, harc⟩ := e.finish.state_of_arc a ha
  have hstep := step_forward he a.source a.char
  rw [step_of_arc he hs _ _ harc] at hstep
  split at hstep
  · rename_i hfits
    obtain ⟨t, ht, hc⟩ := (Option.any_eq_true _ _).mp hfits
    cases t with
    | star => cases hc
    | literal d => rw [ht, beq_iff_eq.mp hc]
    | one =>
      -- the state of a question mark has no arc at all
      obtain ⟨hlt, -⟩ := List.getElem?_eq_some_iff.mp ht
      obtain ⟨lead, past, left, hst, hx⟩ := exists_stands ts a.source (Nat.le_of_lt hlt)
      rw [hx, hst.token_next] at ht
      obtain ⟨rest, rfl⟩ := List.head?_eq_some_iff.mp ht
      rw [hx, state_of_one hst he] at hs
      cases hs
      cases harc
  · have hle := hstep a.target rfl
    omega

/-- An arc that does not lead to the next state answers a character that the token does not. -/
theorem refused_of_arc (he : Draft.empty.grow ts = some e) (a : Arc) (ha : a ∈ e.finish.arcs)
    (hb : a.target ≠ a.source + 1) :
    e.finish.step a.source a.char = some a.target ∧
      (solid ts)[a.source]?.any (·.fits a.char) = false := by
  obtain ⟨s, hs, harc⟩ := e.finish.state_of_arc a ha
  have hstep := step_forward he a.source a.char
  rw [step_of_arc he hs _ _ harc] at hstep ⊢
  split at hstep
  · exact absurd (Option.some.inj hstep) hb
  · rename_i hfits
    exact ⟨rfl, Bool.eq_false_iff.mpr hfits⟩

end Arcs

end PageLookup.Glob
