import PageLookup.Proofs.Glob.Window

/-!
# No way back over a star

Once a run has come to the state of a star it never ends early and never comes
before that state again. The anchor of a draft lies there as well: between the
last star so far and the state under construction, where every character leads
on.
-/

set_option autoImplicit false

namespace PageLookup.Glob

section Run

variable {e : Draft} {b : Nat}

theorem step_mem_targets (s : State) (x : Nat) (hs : e.finish.states[x]? = some s) (c : Char) :
    e.finish.step x c ∈ s.targets := by
  rw [Table.step, hs]
  exact s.next_mem_targets c

/-- A run does not leave the table. -/
theorem run_bounded (h : e.Bounded 0) (x y : Nat) (hx : x ≤ e.current) (text : List Char)
    (hr : e.finish.run x text = some y) : y ≤ e.current := by
  induction text generalizing x with
  | nil =>
    cases hr
    exact hx
  | cons c rest ih =>
    rw [Table.run_cons, Option.bind_eq_some_iff] at hr
    obtain ⟨z, hz, hr⟩ := hr
    obtain ⟨s, hs⟩ := e.exists_finished x hx
    have hmem := step_mem_targets s x hs c
    rw [hz] at hmem
    exact ih z (h.finish hs (Nat.zero_le x) z hmem).2.2 hr

/-- A character read behind a star leads to a state behind it. -/
theorem step_stays (h : e.Stays b) (x : Nat) (hb : b ≤ x) (hx : x ≤ e.current) (c : Char) :
    ∃ y, e.finish.step x c = some y ∧ b ≤ y ∧ y ≤ e.current := by
  obtain ⟨s, hs⟩ := e.exists_finished x hx
  obtain ⟨y, hy, hmem⟩ := s.exists_next (h.finish hs hb) c
  obtain ⟨hby, -, hyc⟩ := h.toBounded.finish hs hb y hmem
  exact ⟨y, by rw [Table.step, hs, Option.bind_some, hy], hby, hyc⟩

theorem run_stays (h : e.Stays b) (x : Nat) (hb : b ≤ x) (hx : x ≤ e.current) (text : List Char) :
    ∃ y, e.finish.run x text = some y ∧ b ≤ y ∧ y ≤ e.current := by
  induction text generalizing x with
  | nil => exact ⟨x, rfl, hb, hx⟩
  | cons c rest ih =>
    obtain ⟨z, hz, hbz, hzc⟩ := step_stays h x hb hx c
    rw [Table.run_cons, hz, Option.bind_some]
    exact ih z hbz hzc

end Run

/-- Behind a star, the last one before a state or any earlier one, every target is a state between
the star and the next state, no run ends or goes back, and the anchor lies between the star and
the state under construction, so every character leads on from it. -/
theorem Table.keeps_behind_star (symbols : List Symbol) (t : Table)
    (ht : Table.build symbols = .ok t) :
    let ts := symbols.map (·.token)
    let k := (solid ts).length
    t.states.size = k + 1 ∧
    (∀ b x s, Starred ts b → b ≤ x → t.states[x]? = some s →
      ∀ u ∈ s.targets, ∃ y, u = some y ∧ b ≤ y ∧ y ≤ x + 1) ∧
    (∀ b x, Starred ts b → b ≤ x → ∀ u v, t.run 0 u = some x →
      ∃ y, t.run 0 (u ++ v) = some y ∧ b ≤ y ∧ y ≤ k) ∧
    ∀ xs ys, symbols = xs ++ ys → ∃ d, Draft.empty.addAll xs = .ok d ∧
      ∀ b, Starred (xs.map (·.token)) b → ∃ x, d.anchor = some x ∧ b ≤ x ∧ x ≤ d.current ∧
        ∀ c, ∃ y, (d.stateAt x).next c = some y ∧ b ≤ y ∧ y ≤ d.current := by
  intro ts k
  obtain ⟨e, he, rfl⟩ := (build_eq_ok_iff symbols t).mp ht
  have hk : e.current = k := current_of_grow ts he
  refine ⟨hk ▸ size_finish, ?_, ?_, ?_⟩
  · intro b x s hb hbx hs u hu
    have h := Draft.stays_of_starred ts he hb
    cases u with
    | none => exact absurd hu (h.finish hs hbx)
    | some y =>
      obtain ⟨hby, hyx, -⟩ := h.toBounded.finish hs hbx y hu
      exact ⟨y, rfl, hby, hyx⟩
  · intro b x hb hbx u v hu
    have hx := run_bounded (Draft.grow_bounded ts he Draft.empty_bounded) 0 x (Nat.zero_le _) u hu
    rw [Table.run_append, hu, Option.bind_some, ← hk]
    exact run_stays (Draft.stays_of_starred ts he hb) x hbx hx v
  · intro xs ys hsplit
    rw [hsplit, List.map_append, Draft.grow_append_eq_some] at he
    obtain ⟨d, hd, -⟩ := he
    refine ⟨d, (Draft.addAll_eq_ok _ d xs).mpr hd, fun b hb => ?_⟩
    have h := Draft.stays_of_starred _ hd hb
    obtain ⟨x, hx, hbx, hxc⟩ := h.window.anchored
    refine ⟨x, hx, hbx, hxc, fun c => ?_⟩
    -- the accepting state, if the pattern ended here, would be the anchor's copy
    rw [← d.last_of_anchor x hx]
    obtain ⟨y, hy, hmem⟩ := d.last.exists_next h.last c
    exact ⟨y, hy, h.toBounded.last y hmem⟩

/-- The state of the last letter copies the question mark's, so it leads into the middle of the
span, and still behind the star. -/
theorem Table.keeps_behind_star_and_any :
    ∃ t, Table.build (symbolsFrom 0 "x*a?ab".toList) = .ok t ∧
      (∃ s, t.states[4]? = some s ∧ s.other = some 3 ∧
        ∀ u ∈ s.targets, ∃ y, u = some y ∧ 1 ≤ y ∧ y ≤ 5) ∧
      (∀ v, ∃ y, t.run 0 ('x' :: v) = some y ∧ 1 ≤ y ∧ y ≤ 5) ∧
      ∃ d, Draft.empty.addAll (symbolsFrom 0 "x*a?a".toList) = .ok d ∧
        ∃ x, d.anchor = some x ∧ 1 ≤ x ∧ x ≤ d.current ∧
          ∀ c, ∃ y, (d.stateAt x).next c = some y ∧ 1 ≤ y ∧ y ≤ d.current := by
  have hstar : Starred ((symbolsFrom 0 "x*a?a".toList).map (·.token)) 1 :=
    ⟨[.literal 'x'], [.literal 'a', .one, .literal 'a'], by decide, by decide⟩
  have hstar' : Starred ((symbolsFrom 0 "x*a?ab".toList).map (·.token)) 1 :=
    ⟨[.literal 'x'], [.literal 'a', .one, .literal 'a', .literal 'b'], by decide, by decide⟩
  refine ⟨_, rfl, ?_⟩
  obtain ⟨-, htargets, hruns, hanchors⟩ :=
    Table.keeps_behind_star (symbolsFrom 0 "x*a?ab".toList) _ rfl
  refine ⟨?_, fun v => hruns 1 1 hstar' (by decide) ['x'] v (by decide), ?_⟩
  · exact ⟨_, rfl, rfl, htargets 1 4 _ hstar' (by decide) rfl⟩
  · obtain ⟨d, hd, hall⟩ := hanchors (symbolsFrom 0 "x*a?a".toList) [⟨.literal 'b', 5⟩] (by decide)
    exact ⟨d, hd, hall 1 hstar⟩

end PageLookup.Glob
