import PageLookup.Proofs.Glob.Targets

/-!
# Behind a star

From the state of a star on, a table never ends a run and never goes back
before that state, and it moves on by one state at most. The anchor lies
between the state of the last star and the state under construction, so a
character that does not go on with the pattern keeps the run behind the star.
Before the first star there is no anchor and such a character ends the run.
-/

set_option autoImplicit false

namespace PageLookup.Glob

theorem Table.run_cons (t : Table) (s : Nat) (c : Char) (rest : List Char) :
    t.run s (c :: rest) = (t.step s c).bind (t.run · rest) := by
  rw [run]
  cases t.step s c <;> rfl

theorem Table.run_append (t : Table) (s : Nat) (u v : List Char) :
    t.run s (u ++ v) = (t.run s u).bind (t.run · v) := by
  induction u generalizing s with
  | nil => rfl
  | cons c u ih =>
    rw [List.cons_append, run_cons, run_cons]
    cases t.step s c with
    | none => rfl
    | some x => exact ih x

theorem Table.run_concat (t : Table) (s : Nat) (u : List Char) (c : Char) :
    t.run s (u ++ [c]) = (t.run s u).bind (t.step · c) := by
  rw [run_append]
  congr 1
  funext x
  rw [run_cons]
  exact Option.bind_fun_some _

namespace Draft

/-- Between the state `b` of a star and the state under construction nothing leads out. -/
structure Window (d : Draft) (b : Nat) : Prop where
  anchored : ∃ x, d.anchor = some x ∧ b ≤ x ∧ x ≤ d.current
  next : ∀ x c, b ≤ x → x ≤ d.current → ∃ y, d.next x c = some y ∧ b ≤ y ∧ y ≤ x + 1

theorem Stays.window {d : Draft} {b : Nat} (h : d.Stays b) : d.Window b where
  anchored := by
    obtain ⟨x, hx⟩ := Option.ne_none_iff_exists'.mp h.anchored
    exact ⟨x, hx, h.anchor x hx⟩
  next := by
    intro x c hb _
    obtain ⟨y, hy, hmem⟩ := (d.stateAt x).exists_next (h.endless x hb) c
    exact ⟨y, hy, h.targets x y hb hmem⟩

theorem Window.resume {d : Draft} {b : Nat} (h : d.Window b) (c : Char) :
    ∃ y, d.resume c = some y ∧ b ≤ y ∧ y ≤ d.current := by
  obtain ⟨x, hx, hb, hc⟩ := h.anchored
  by_cases he : x = d.current
  · exact ⟨d.current, by simp [Draft.resume, hx, he], he ▸ hb, Nat.le_refl _⟩
  · obtain ⟨y, hy, hby, hyx⟩ := h.next x c hb hc
    exact ⟨y, by simp [Draft.resume, hx, hy], hby, by omega⟩

theorem grow_anchor_none (d e : Draft) (ts : List Token) (hs : .star ∉ ts)
    (h : d.grow ts = some e) (hd : d.anchor = none) : e.anchor = none := by
  apply grow_preserves (·.anchor = none) ts _ _ _ d e h hd
  · intro d hm
    exact absurd hm hs
  · intro d hd
    exact hd
  · intro d a _ hd
    simp [literal_anchor, hd]

theorem exists_grow_plain (d : Draft) (ts : List Token) (hs : .star ∉ ts) (hd : d.anchor = none) :
    ∃ e, d.grow ts = some e := by
  induction ts generalizing d with
  | nil => exact ⟨d, rfl⟩
  | cons t ts ih =>
    have hts : .star ∉ ts := fun h => hs (by simp [h])
    cases t with
    | star => simp at hs
    | one => simpa [grow, hd] using ih d.any hts hd
    | literal a => exact ih (d.literal a) hts (by simp [literal_anchor, hd])

end Draft

namespace Stands

variable {ts lead past left : List Token} {e : Draft}

theorem step (h : Stands ts lead past left) (he : Draft.empty.grow ts = some e) :
    ∃ m, Draft.empty.grow (lead ++ past) = some m ∧
      ∀ c, e.finish.step ((solid lead).length + past.length) c =
        if left.head?.any (·.fits c) then some ((solid lead).length + past.length + 1)
        else m.resume c := by
  rw [h.split] at he
  obtain ⟨m, hm, -, hs⟩ := step_of_split (lead ++ past) left he h.next
  rw [h.place] at hs
  exact ⟨m, hm, hs⟩

/-- Before the first star no character is forgiven. -/
theorem resume_plain {past : List Token} {m : Draft} (hp : .star ∉ past)
    (hm : Draft.empty.grow past = some m) (c : Char) : m.resume c = none := by
  simp [Draft.resume, Draft.grow_anchor_none _ m past hp hm rfl]

theorem grow_lead {before past : List Token} {m : Draft}
    (hm : Draft.empty.grow (before ++ [.star] ++ past) = some m) :
    ∃ d : Draft, d.current = (solid before).length ∧ d.star.grow past = some m := by
  rw [List.append_assoc] at hm
  obtain ⟨d, hd, hg⟩ := (Draft.grow_append_eq_some _ m _ _).mp hm
  exact ⟨d, current_of_grow before hd, hg⟩

theorem resume_lead {before past : List Token} {m : Draft} (hp : .star ∉ past)
    (hm : Draft.empty.grow (before ++ [.star] ++ past) = some m) (c : Char) :
    ∃ j ≤ past.length, m.resume c = some ((solid before).length + j) := by
  obtain ⟨d, hd, hg⟩ := grow_lead hm
  obtain ⟨y, hy, hb, hc⟩ := (Draft.grow_stays past hg d.star_stays).window.resume c
  rw [Draft.grow_current _ m past hg, Draft.star_current, solid_of_plain past hp] at hc
  exact ⟨y - d.current, by omega, by rw [hy, ← hd]; congr 1; omega⟩

theorem resume_le {m : Draft} (h : Stands ts lead past left)
    (hm : Draft.empty.grow (lead ++ past) = some m) (c : Char) (y : Nat)
    (hy : m.resume c = some y) : y ≤ (solid lead).length + past.length := by
  rcases h.led with rfl | ⟨before, rfl⟩
  · rw [resume_plain h.plain hm] at hy
    cases hy
  · obtain ⟨j, hj, hres⟩ := resume_lead h.plain hm c
    rw [hres] at hy
    cases hy
    simpa using hj

end Stands

theorem step_beyond {ts : List Token} {e : Draft} (he : Draft.empty.grow ts = some e) (x : Nat)
    (hx : (solid ts).length < x) (c : Char) : e.finish.step x c = none := by
  have hcur := current_of_grow ts he
  rw [step_finish, if_neg (by omega), if_neg (by omega)]

/-- A state leads on to the next one by its own token only. -/
theorem step_forward {ts : List Token} {e : Draft} (he : Draft.empty.grow ts = some e) (x : Nat)
    (c : Char) :
    if (solid ts)[x]?.any (·.fits c) then e.finish.step x c = some (x+1)
    else ∀ y, e.finish.step x c = some y → y ≤ x := by
  by_cases hx : x ≤ (solid ts).length
  · obtain ⟨lead, past, left, hs, rfl⟩ := exists_stands ts x hx
    obtain ⟨m, hm, hall⟩ := hs.step he
    rw [hs.token_next, hall c]
    split
    · rfl
    · exact hs.resume_le hm c
  · rw [List.getElem?_eq_none (Nat.le_of_not_le hx), step_beyond he x (Nat.lt_of_not_le hx)]
    simp

theorem step_le {ts : List Token} {e : Draft} (he : Draft.empty.grow ts = some e) (x y : Nat)
    (c : Char) (h : e.finish.step x c = some y) : y ≤ x + 1 := by
  have hstep := step_forward he x c
  split at hstep
  · rw [h] at hstep
    cases hstep
    exact Nat.le_refl _
  · exact Nat.le_succ_of_le (hstep y h)

end PageLookup.Glob
