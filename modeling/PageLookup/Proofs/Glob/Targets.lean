import PageLookup.Proofs.Glob.Growth

/-!
# Where states lead

The targets of a state are those of its arcs and the one for all other
characters. A state is finished as a copy of an earlier one with an arc to the
next state, so no state leads further on than that. And from the state of a
star on no state leads back before it, and none ends a run: the anchor lies
behind the star, and what is built there copies what the anchor leads to.
-/

set_option autoImplicit false

namespace PageLookup.Glob

namespace State

@[simp] theorem targets_dead : dead.targets = [none] := rfl

@[simp] theorem targets_always (target : Nat) : (always target).targets = [some target] := rfl

theorem mem_targets_iff (s : State) (u : Option Nat) :
    u ∈ s.targets ↔ u = s.other ∨ ∃ c y, (c, y) ∈ s.arcs ∧ u = some y := by
  simp [targets, eq_comm (b := u)]

theorem next_mem_targets (s : State) (c : Char) : s.next c ∈ s.targets := by
  rw [mem_targets_iff, next]
  cases h : s.arcs.lookup c with
  | none => simp
  | some y =>
    obtain ⟨xs, ys, harcs, -⟩ := List.lookup_eq_some_iff.mp h
    exact .inr ⟨c, y, by simp [harcs], rfl⟩

/-- A state that ends no run answers every character. -/
theorem exists_next (s : State) (h : none ∉ s.targets) (c : Char) :
    ∃ y, s.next c = some y ∧ some y ∈ s.targets := by
  have hmem := s.next_mem_targets c
  cases hy : s.next c with
  | none => exact absurd (hy ▸ hmem) h
  | some y => exact ⟨y, rfl, hy ▸ hmem⟩

theorem mem_targets_set (s : State) (c : Char) (target : Nat) (u : Option Nat)
    (h : u ∈ (s.set c target).targets) : u = some target ∨ u ∈ s.targets := by
  rw [mem_targets_iff] at h ⊢
  rcases h with rfl | ⟨d, y, harc, rfl⟩
  · exact .inr (.inl rfl)
  · rcases Ascending.mem_put c target s.arcs (d, y) harc with he | harc
    · exact .inl (congrArg (fun e => some e.2) he)
    · exact .inr (.inr ⟨d, y, harc, rfl⟩)

end State

namespace Draft

/-- From state `b` on no state leads back before `b` or further on than to the next state. -/
structure Bounded (d : Draft) (b : Nat) : Prop where
  current : b ≤ d.current
  anchor : ∀ x, d.anchor = some x → b ≤ x ∧ x ≤ d.current
  targets : ∀ x y, b ≤ x → some y ∈ (d.stateAt x).targets → b ≤ y ∧ y ≤ x + 1

structure Stays (d : Draft) (b : Nat) : Prop extends d.Bounded b where
  anchored : d.anchor ≠ none
  endless : ∀ x, b ≤ x → none ∉ (d.stateAt x).targets

variable {d e : Draft} {b : Nat}

theorem empty_bounded : Draft.empty.Bounded 0 where
  current := Nat.le_refl _
  anchor := by
    intro x hx
    cases hx
  targets := by
    intro x y _ hy
    rw [stateAt_beyond .empty x (Nat.zero_le x)] at hy
    obtain rfl : y = x := by simpa using hy
    exact ⟨Nat.zero_le y, Nat.le_succ y⟩

/-- The accepting state leads on no further than to itself. -/
theorem Bounded.last (h : d.Bounded b) (y : Nat) (hy : some y ∈ d.last.targets) :
    b ≤ y ∧ y ≤ d.current := by
  cases ha : d.anchor with
  | none => simp [Draft.last, ha] at hy
  | some x =>
    rw [last_of_anchor d x ha] at hy
    obtain ⟨hb, hx⟩ := h.anchor x ha
    rcases Nat.eq_or_lt_of_le hx with rfl | hlt
    · rw [stateAt_beyond d _ (Nat.le_refl _)] at hy
      obtain rfl : y = d.current := by simpa using hy
      exact ⟨hb, Nat.le_refl _⟩
    · have hy := h.targets x y hb hy
      omega

theorem Bounded.star (h : d.Bounded b) : d.star.Bounded b where
  current := h.current
  anchor := by
    intro x hx
    cases hx
    exact ⟨h.current, Nat.le_refl _⟩
  targets := h.targets

theorem Bounded.any (h : d.Bounded b) : d.any.Bounded b where
  current := by
    rw [any_current]
    exact Nat.le_succ_of_le h.current
  anchor := by
    intro x hx
    rw [any_current]
    exact ⟨(h.anchor x hx).1, Nat.le_succ_of_le (h.anchor x hx).2⟩
  targets := by
    intro x y hb hy
    rw [any_stateAt] at hy
    split at hy
    · obtain rfl : y = d.current + 1 := by simpa using hy
      omega
    · exact h.targets x y hb hy

/-- A literal moves the anchor to a finished state. -/
theorem Bounded.literal_anchor (h : d.Bounded b) (a : Char) (y : Nat)
    (hy : (d.literal a).anchor = some y) : b ≤ y ∧ y ≤ d.current := by
  rw [Draft.literal_anchor, Option.map_eq_some_iff] at hy
  obtain ⟨x, hx, rfl⟩ := hy
  cases hn : d.next x a with
  | none => exact h.anchor x hx
  | some y =>
    have hlast : d.last.next a = some y := by
      rw [last_of_anchor d x hx]
      exact hn
    exact h.last y (hlast ▸ State.next_mem_targets d.last a)

theorem Bounded.literal (h : d.Bounded b) (a : Char) : (d.literal a).Bounded b where
  current := by
    rw [literal_current]
    exact Nat.le_succ_of_le h.current
  anchor := by
    intro y hy
    rw [literal_current]
    obtain ⟨hb, hc⟩ := h.literal_anchor a y hy
    exact ⟨hb, Nat.le_succ_of_le hc⟩
  targets := by
    intro x y hb hy
    rw [literal_stateAt] at hy
    split at hy
    · rcases State.mem_targets_set _ _ _ _ hy with hy | hy
      · obtain rfl : y = d.current + 1 := by simpa using hy
        omega
      · have hy := h.last y hy
        omega
    · exact h.targets x y hb hy

/-- Whatever draft a star is added to, nothing leads out behind it. -/
theorem star_stays (d : Draft) : d.star.Stays d.current where
  current := Nat.le_refl _
  anchor := by
    intro x hx
    cases hx
    exact ⟨Nat.le_refl _, Nat.le_refl _⟩
  targets := by
    intro x y hb hy
    rw [star_stateAt, stateAt_beyond d x hb] at hy
    obtain rfl : y = x := by simpa using hy
    exact ⟨hb, Nat.le_succ y⟩
  anchored := by simp
  endless := by
    intro x hb
    rw [star_stateAt, stateAt_beyond d x hb]
    simp

theorem Stays.last (h : d.Stays b) : none ∉ d.last.targets := by
  obtain ⟨x, hx⟩ := Option.ne_none_iff_exists'.mp h.anchored
  rw [last_of_anchor d x hx]
  exact h.endless x (h.anchor x hx).1

theorem Stays.star (h : d.Stays b) : d.star.Stays b where
  toBounded := h.toBounded.star
  anchored := by simp
  endless := h.endless

theorem Stays.any (h : d.Stays b) : d.any.Stays b where
  toBounded := h.toBounded.any
  anchored := h.anchored
  endless := by
    intro x hb
    rw [any_stateAt]
    split
    · simp
    · exact h.endless x hb

theorem Stays.literal (h : d.Stays b) (a : Char) : (d.literal a).Stays b where
  toBounded := h.toBounded.literal a
  anchored := by
    rw [literal_anchor, Ne, Option.map_eq_none_iff]
    exact h.anchored
  endless := by
    intro x hb hn
    rw [literal_stateAt] at hn
    split at hn
    · rcases State.mem_targets_set _ _ _ _ hn with hn | hn
      · cases hn
      · exact h.last hn
    · exact h.endless x hb hn

theorem grow_bounded (ts : List Token) (h : d.grow ts = some e) (hd : d.Bounded b) :
    e.Bounded b := by
  apply grow_preserves (·.Bounded b) ts _ _ _ d e h hd
  · intro d _ hd
    exact hd.star
  · intro d hd
    exact hd.any
  · intro d a _ hd
    exact hd.literal a

theorem grow_stays (ts : List Token) (h : d.grow ts = some e) (hd : d.Stays b) : e.Stays b := by
  apply grow_preserves (·.Stays b) ts _ _ _ d e h hd
  · intro d _ hd
    exact hd.star
  · intro d hd
    exact hd.any
  · intro d a _ hd
    exact hd.literal a

theorem stays_of_starred (ts : List Token) (he : Draft.empty.grow ts = some e)
    (hb : Starred ts b) : e.Stays b := by
  obtain ⟨xs, ys, rfl, rfl⟩ := hb
  obtain ⟨m, hm, hg⟩ := (grow_append_eq_some _ e xs _).mp he
  rw [← current_of_grow xs hm]
  exact grow_stays ys hg m.star_stays

section Order

def Ordered (d : Draft) : Prop := ∀ x, Ascending (d.stateAt x).arcs

theorem empty_ordered : Draft.empty.Ordered := by
  intro x
  rw [stateAt_beyond .empty x (Nat.zero_le x)]
  exact .nil

theorem Ordered.last (h : d.Ordered) : Ascending d.last.arcs := by
  unfold Draft.last
  cases d.anchor with
  | none => exact .nil
  | some x => exact h x

theorem Ordered.any (h : d.Ordered) : d.any.Ordered := by
  intro x
  rw [any_stateAt]
  split
  · exact .nil
  · exact h x

theorem Ordered.literal (h : d.Ordered) (a : Char) : (d.literal a).Ordered := by
  intro x
  rw [literal_stateAt]
  split
  · exact Ascending.put_ascending a _ _ h.last
  · exact h x

theorem grow_ordered (ts : List Token) (h : d.grow ts = some e) (hd : d.Ordered) : e.Ordered := by
  apply grow_preserves Ordered ts _ _ _ d e h hd
  · intro d _ hd
    exact hd
  · intro d hd
    exact hd.any
  · intro d a _ hd
    exact hd.literal a

end Order

section Finish

theorem exists_finished (e : Draft) (x : Nat) (hx : x ≤ e.current) :
    ∃ s, e.finish.states[x]? = some s := by
  rw [finish_getElem?]
  rcases Nat.lt_or_eq_of_le hx with hlt | heq
  · exact ⟨_, if_pos hlt⟩
  · exact ⟨e.last, by simp [heq]⟩

variable {x : Nat} {s : State}

/-- In the finished table a state leads on to the next state or to the accepting one at most. -/
theorem Bounded.finish (h : e.Bounded b) (hs : e.finish.states[x]? = some s) (hb : b ≤ x)
    (y : Nat) (hy : some y ∈ s.targets) : b ≤ y ∧ y ≤ x + 1 ∧ y ≤ e.current := by
  rw [finish_getElem?] at hs
  split at hs
  · cases hs
    have hy := h.targets x y hb hy
    omega
  · split at hs
    · cases hs
      have hy := h.last y hy
      omega
    · cases hs

theorem Ordered.finish (h : e.Ordered) (hs : e.finish.states[x]? = some s) : Ascending s.arcs := by
  rw [finish_getElem?] at hs
  split at hs
  · cases hs
    exact h x
  · split at hs
    · cases hs
      exact h.last
    · cases hs

theorem Stays.finish (h : e.Stays b) (hs : e.finish.states[x]? = some s) (hb : b ≤ x) :
    none ∉ s.targets := by
  rw [finish_getElem?] at hs
  split at hs
  · cases hs
    exact h.endless x hb
  · split at hs
    · cases hs
      exact h.last
    · cases hs

end Finish

end Draft

end PageLookup.Glob
