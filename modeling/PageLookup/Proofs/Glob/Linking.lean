import PageLookup.Glob.Link
import PageLookup.Proofs.Glob.Window

/-!
# A table read off its links

A state copies its answers from the anchor when it is finished, and the anchor
is then a finished state itself, or the very state where a star stands. So the
links lead down, and what a state answers is its own token or what the state at
the end of its link answers: the table holds no more than the tokens and the
links do.
-/

set_option autoImplicit false

namespace PageLookup.Glob

namespace Draft

theorem anchor_any_lt {d : Draft} {b : Nat} (h : d.Window b) :
    ∃ x, d.any.anchor = some x ∧ x < d.any.current := by
  obtain ⟨x, hx, -, hc⟩ := h.anchored
  exact ⟨x, hx, by rw [any_current]; omega⟩

theorem anchor_literal_lt {d : Draft} {b : Nat} (h : d.Window b) (a : Char) :
    ∃ x, (d.literal a).anchor = some x ∧ x < (d.literal a).current := by
  obtain ⟨x, hx, -, -⟩ := h.anchored
  obtain ⟨y, hy, -, hc⟩ := h.resume a
  rw [resume, hx, Option.bind_some] at hy
  exact ⟨y, by simp [literal_anchor, hx, hy], by rw [literal_current]; omega⟩

/-- Behind a star the anchor is a finished state, unless nothing is built behind the star yet. -/
theorem anchor_behind_star (d m : Draft) (past : List Token) (hp : .star ∉ past)
    (hm : d.star.grow past = some m) :
    ∃ x, m.anchor = some x ∧ x ≤ m.current ∧ (x = m.current ↔ past = []) := by
  rcases List.eq_nil_or_concat past with rfl | ⟨ts, t, rfl⟩
  · cases hm
    exact ⟨d.current, rfl, Nat.le_refl _, by simp⟩
  · rw [List.concat_eq_append] at hp hm ⊢
    obtain ⟨m', hm', ht⟩ := (grow_append_eq_some _ _ ts [t]).mp hm
    have hw := (grow_stays ts hm' d.star_stays).window
    obtain ⟨x, hx, hlt⟩ : ∃ x, m.anchor = some x ∧ x < m.current := by
      cases t with
      | star => simp at hp
      | one =>
        simp only [grow] at ht
        split at ht
        · cases ht
        · cases ht
          exact anchor_any_lt hw
      | literal a =>
        cases ht
        exact anchor_literal_lt hw a
    exact ⟨x, hx, Nat.le_of_lt hlt, by simp; omega⟩

section Links

variable {d m e : Draft}

theorem links_cons (s : Symbol) (rest : List Symbol) (h : d.add s = .ok m) :
    d.links (s :: rest) = if s.token = .star then m.links rest else d.anchor :: m.links rest := by
  rw [links, h]

theorem add_of_addAll_cons (s : Symbol) (rest : List Symbol)
    (h : d.addAll (s :: rest) = .ok e) : ∃ m, d.add s = .ok m ∧ m.addAll rest = .ok e := by
  rw [addAll] at h
  cases hs : d.add s with
  | error err => simp [hs] at h
  | ok m => exact ⟨m, rfl, by simpa [hs] using h⟩

theorem links_length (symbols : List Symbol) (h : d.addAll symbols = .ok e) :
    (d.links symbols).length = (solid (symbols.map (·.token))).length + 1 := by
  induction symbols generalizing d with
  | nil => rfl
  | cons s rest ih =>
    obtain ⟨m, hs, hrest⟩ := add_of_addAll_cons s rest h
    rw [links_cons s rest hs, List.map_cons]
    by_cases ht : s.token = .star
    · simp [ht, ih hrest]
    · simp [ht, ih hrest, solid_cons_of_ne]

/-- The link of a state is the anchor that the symbols before the state leave. -/
theorem links_getElem? (xs ys : List Symbol) (hx : d.addAll xs = .ok m) (hy : m.addAll ys = .ok e)
    (hs : (ys.map (·.token)).head? ≠ some .star) :
    (d.links (xs ++ ys))[(solid (xs.map (·.token))).length]? = some m.anchor := by
  induction xs generalizing d with
  | nil =>
    cases hx
    cases ys with
    | nil => rfl
    | cons s rest =>
      obtain ⟨d', hd, -⟩ := add_of_addAll_cons s rest hy
      have ht : s.token ≠ .star := by simpa using hs
      rw [List.nil_append, links_cons s rest hd, if_neg ht]
      rfl
  | cons s xs ih =>
    obtain ⟨d', hd, hrest⟩ := add_of_addAll_cons s xs hx
    rw [List.cons_append, links_cons s (xs ++ ys) hd, List.map_cons]
    by_cases ht : s.token = .star
    · simpa [ht] using ih hrest
    · simpa [ht, solid_cons_of_ne] using ih hrest

end Links

end Draft

namespace Stands

variable {ts lead past left : List Token} {m : Draft}

theorem starred_iff (h : Stands ts lead past left) :
    Starred ts ((solid lead).length + past.length) ↔ lead ≠ [] ∧ past = [] := by
  constructor
  · intro hs
    obtain ⟨before, rfl, hle⟩ := h.starred_le _ hs (Nat.le_refl _)
    have hlead : (solid (before ++ [.star])).length = (solid before).length := by simp
    exact ⟨by simp, List.length_eq_zero_iff.mp (by omega)⟩
  · rintro ⟨hlead, rfl⟩
    obtain ⟨before, rfl⟩ := h.led.resolve_left hlead
    exact ⟨before, left, by simp [h.split], by simp⟩

theorem unstarred_iff (h : Stands ts lead past left) :
    (∀ x ≤ (solid lead).length + past.length, ¬Starred ts x) ↔ lead = [] := by
  constructor
  · intro hs
    refine h.led.resolve_right ?_
    rintro ⟨before, rfl⟩
    exact hs (solid before).length (by simp) h.starred
  · rintro rfl x hx hs
    obtain ⟨before, hb, -⟩ := h.starred_le x hs hx
    simp at hb

theorem anchor_none_iff (h : Stands ts lead past left)
    (hm : Draft.empty.grow (lead ++ past) = some m) : m.anchor = none ↔ lead = [] := by
  constructor
  · intro ha
    refine h.led.resolve_right ?_
    rintro ⟨before, rfl⟩
    obtain ⟨d, -, hg⟩ := grow_lead hm
    obtain ⟨x, hx, -⟩ := Draft.anchor_behind_star d m past h.plain hg
    rw [ha] at hx
    cases hx
  · rintro rfl
    exact Draft.grow_anchor_none _ m past h.plain hm rfl

theorem anchor_le (h : Stands ts lead past left)
    (hm : Draft.empty.grow (lead ++ past) = some m) (x : Nat) (hx : m.anchor = some x) :
    x ≤ m.current ∧ (x = m.current ↔ lead ≠ [] ∧ past = []) := by
  have hlead : lead ≠ [] := mt (h.anchor_none_iff hm).mpr (by simp [hx])
  obtain ⟨before, rfl⟩ := h.led.resolve_left hlead
  obtain ⟨d, -, hg⟩ := grow_lead hm
  obtain ⟨x', hx', hle, hiff⟩ := Draft.anchor_behind_star d m past h.plain hg
  obtain rfl : x' = x := by simpa [hx'] using hx
  exact ⟨hle, by simp [hiff]⟩

end Stands

namespace Linked

variable {l : Linked} {s : Nat} {c : Char}

theorem step_own {u : Nat} (ho : l.own? s c = some u) : l.step s c = some u := by
  rw [step, ho]

theorem step_unlinked (ho : l.own? s c = none) (hl : l.links[s]?.join = none) :
    l.step s c = none := by
  rw [step, ho, hl]

theorem step_linked {x : Nat} (ho : l.own? s c = none) (hl : l.links[s]?.join = some x) :
    l.step s c = if x < s then l.step x c else some s := by
  rw [step, ho, hl]

end Linked

section Table

variable {symbols : List Symbol} {e : Draft}

/-- The link of a state is the anchor of the draft that finished it. -/
theorem link_of_append (he : Draft.empty.addAll symbols = .ok e) (xs ys : List Symbol)
    (hs : symbols = xs ++ ys) (hy : (ys.map (·.token)).head? ≠ some .star) :
    ∃ m, Draft.empty.addAll xs = .ok m ∧
      (Linked.ofSymbols symbols).links[(solid (xs.map (·.token))).length]? = some m.anchor := by
  subst hs
  rw [Draft.addAll_eq_ok, List.map_append, Draft.grow_append_eq_some] at he
  obtain ⟨m, hm, hg⟩ := he
  have hx := (Draft.addAll_eq_ok .empty m xs).mpr hm
  exact ⟨m, hx, Draft.links_getElem? xs ys hx ((Draft.addAll_eq_ok m e ys).mpr hg) hy⟩

theorem link_ofSymbols (he : Draft.empty.addAll symbols = .ok e) {lead past left : List Token}
    {m : Draft} (h : Stands (symbols.map (·.token)) lead past left)
    (hm : Draft.empty.grow (lead ++ past) = some m) :
    (Linked.ofSymbols symbols).links[(solid lead).length + past.length]? = some m.anchor := by
  obtain ⟨xs, ys, hs, hxs, rfl⟩ := List.map_eq_append_iff.mp h.split
  obtain ⟨m', hx, hl⟩ := link_of_append he xs ys hs h.next
  rw [Draft.addAll_eq_ok, hxs, hm] at hx
  obtain rfl : m = m' := Option.some.inj hx
  rwa [hxs, h.place] at hl

theorem own?_ofSymbols (symbols : List Symbol) (s : Nat) (c : Char) :
    (Linked.ofSymbols symbols).own? s c =
      if (solid (symbols.map (·.token)))[s]?.any (·.fits c) then some (s+1) else none := by
  have ht : (Linked.ofSymbols symbols).tokens[s]? = (solid (symbols.map (·.token)))[s]? := rfl
  rw [Linked.own?, ht]
  cases hs : (solid (symbols.map (·.token)))[s]? with
  | none => rfl
  | some t =>
    cases t with
    | star => exact absurd (List.mem_of_getElem? hs) (star_not_mem_solid _)
    | one => rfl
    | literal a => simp [Token.fits]

/-- Where a state resumes is what the state at its anchor answers in the whole table. -/
theorem resume_eq_step {ts lead past left : List Token} {m : Draft}
    (h : Stands ts lead past left) (he : Draft.empty.grow ts = some e)
    (hm : Draft.empty.grow (lead ++ past) = some m) {x : Nat} (hx : m.anchor = some x) (c : Char) :
    m.resume c = if x < (solid lead).length + past.length then e.finish.step x c
      else some ((solid lead).length + past.length) := by
  have hc : m.current = (solid lead).length + past.length := (current_of_grow _ hm).trans h.place
  have hle := (h.anchor_le hm x hx).1
  rw [Draft.resume, hx, Option.bind_some, ← hc]
  rw [h.split, Draft.grow_append_eq_some] at he
  obtain ⟨m', hm', hg⟩ := he
  obtain rfl : m = m' := by simpa [hm] using hm'
  split
  · rename_i hlt
    rw [step_finish, if_pos (by rw [Draft.grow_current m e left hg]; omega),
      Draft.grow_next m e left hg x hlt c]
  · obtain rfl : x = m.current := by omega
    exact Draft.next_current m c

theorem links_le (he : Draft.empty.addAll symbols = .ok e) (s : Nat)
    (hs : s ≤ (solid (symbols.map (·.token))).length) :
    ∃ link, (Linked.ofSymbols symbols).links[s]? = some link ∧
      (link = none ↔ ∀ x ≤ s, ¬Starred (symbols.map (·.token)) x) ∧
      ∀ x, link = some x → x ≤ s ∧ (x = s ↔ Starred (symbols.map (·.token)) s) := by
  obtain ⟨lead, past, left, h, rfl⟩ := exists_stands _ s hs
  obtain ⟨m, hm, -⟩ := h.step ((Draft.addAll_eq_ok _ e _).mp he)
  refine ⟨m.anchor, link_ofSymbols he h hm, ?_, fun x hx => ?_⟩
  · rw [h.anchor_none_iff hm, h.unstarred_iff]
  · have hc : m.current = (solid lead).length + past.length := (current_of_grow _ hm).trans h.place
    rw [h.starred_iff, ← hc]
    exact h.anchor_le hm x hx

theorem beyond_ofSymbols (he : Draft.empty.addAll symbols = .ok e) (s : Nat)
    (hs : (solid (symbols.map (·.token))).length < s) (c : Char) :
    e.finish.step s c = none ∧ (Linked.ofSymbols symbols).step s c = none := by
  constructor
  · exact step_beyond ((Draft.addAll_eq_ok _ e _).mp he) s hs c
  · have ht : (Linked.ofSymbols symbols).tokens[s]? = none :=
      List.getElem?_eq_none (Nat.le_of_lt hs)
    have hl : (Linked.ofSymbols symbols).links[s]? = none :=
      List.getElem?_eq_none ((Draft.links_length symbols he).trans_le hs)
    exact Linked.step_unlinked (by rw [Linked.own?, ht]) (by rw [hl, Option.join_none])

/-- The links say of every state where the table resumes from it. -/
theorem step_ofSymbols (he : Draft.empty.addAll symbols = .ok e) (s : Nat) (c : Char) :
    e.finish.step s c = (Linked.ofSymbols symbols).step s c := by
  have hg := (Draft.addAll_eq_ok _ e _).mp he
  induction s using Nat.strong_induction_on with
  | _ s ih =>
    by_cases hs : s ≤ (solid (symbols.map (·.token))).length
    · obtain ⟨lead, past, left, h, rfl⟩ := exists_stands _ s hs
      obtain ⟨m, hm, hstep⟩ := h.step hg
      have hlink := link_ofSymbols he h hm
      rw [hstep c]
      have ho := own?_ofSymbols symbols ((solid lead).length + past.length) c
      rw [h.token_next] at ho
      split at ho
      · rw [if_pos ‹_›, Linked.step_own ho]
      · rw [if_neg ‹_›]
        cases hx : m.anchor with
        | none =>
          rw [Linked.step_unlinked ho (by rw [hlink, hx, Option.join_some]), Draft.resume, hx,
            Option.bind_none]
        | some x =>
          -- both sides now go to the anchor, which stands lower or is the state itself
          rw [Linked.step_linked ho (by rw [hlink, hx, Option.join_some]),
            resume_eq_step h hg hm hx c]
          split
          · exact ih x ‹_›
          · rfl
    · obtain ⟨htable, hlinked⟩ := beyond_ofSymbols he s (by omega) c
      rw [htable, hlinked]

/-- The recursion needs no other guard than a link to the state itself. -/
theorem step_ofSymbols_eq (he : Draft.empty.addAll symbols = .ok e) (s : Nat) (c : Char) :
    (Linked.ofSymbols symbols).step s c =
      if (solid (symbols.map (·.token)))[s]?.any (·.fits c) then some (s+1)
      else match (Linked.ofSymbols symbols).links[s]?.join with
        | none => none
        | some x => if x = s then some s else (Linked.ofSymbols symbols).step x c := by
  have ho := own?_ofSymbols symbols s c
  split at ho
  · rw [if_pos ‹_›, Linked.step_own ho]
  · rw [if_neg ‹_›]
    cases hl : (Linked.ofSymbols symbols).links[s]?.join with
    | none => exact Linked.step_unlinked ho hl
    | some x =>
      have hsome := Option.join_eq_some_iff.mp hl
      obtain ⟨hs, -⟩ := List.getElem?_eq_some_iff.mp hsome
      have hs : s < (Draft.empty.links symbols).length := hs
      rw [Draft.links_length symbols he] at hs
      obtain ⟨link, hlink, -, hle⟩ := links_le he s (by omega)
      obtain rfl : link = some x := Option.some.inj (hlink.symm.trans hsome)
      obtain ⟨hx, -⟩ := hle x rfl
      rw [Linked.step_linked ho hl]
      by_cases hxs : x = s
      · simp [hxs]
      · simp [hxs, Nat.lt_of_le_of_ne hx hxs]

theorem run_ofSymbols (he : Draft.empty.addAll symbols = .ok e) (s : Nat) (text : List Char) :
    e.finish.run s text = (Linked.ofSymbols symbols).run s text := by
  induction text generalizing s with
  | nil => rfl
  | cons c text ih =>
    rw [Table.run, Linked.run, step_ofSymbols he s c]
    cases (Linked.ofSymbols symbols).step s c with
    | none => rfl
    | some u => exact ih u

end Table

/-- A table answers in every state as its links do, and no link leads up. -/
theorem Table.follows_links (symbols : List Symbol) (t : Table)
    (ht : Table.build symbols = .ok t) :
    let l := Linked.ofSymbols symbols
    let ts := symbols.map (·.token)
    let k := (solid ts).length
    t.states.size = k + 1 ∧ l.links.length = k + 1 ∧
      (∀ xs ys, symbols = xs ++ ys → (ys.map (·.token)).head? ≠ some .star →
        ∃ d, Draft.empty.addAll xs = .ok d ∧
          l.links[(solid (xs.map (·.token))).length]? = some d.anchor) ∧
      (∀ s ≤ k, ∃ link, l.links[s]? = some link ∧
        (link = none ↔ ∀ x ≤ s, ¬Starred ts x) ∧
        ∀ x, link = some x → x ≤ s ∧ (x = s ↔ Starred ts s)) ∧
      (∀ s c, l.step s c =
        if (solid ts)[s]?.any (·.fits c) then some (s+1)
        else match l.links[s]?.join with
          | none => none
          | some x => if x = s then some s else l.step x c) ∧
      (∀ s c, t.step s c = l.step s c) ∧
      ∀ text, t.run 0 text = l.run 0 text ∧ (t.accepts text = true ↔ l.run 0 text = some k) := by
  intro l ts k
  obtain ⟨e, he, rfl⟩ : ∃ e, Draft.empty.addAll symbols = .ok e ∧ t = e.finish := by
    unfold Table.build at ht
    cases he : Draft.empty.addAll symbols with
    | error err => simp [he] at ht
    | ok e => exact ⟨e, rfl, by simpa [he] using ht.symm⟩
  have hg := (Draft.addAll_eq_ok _ e _).mp he
  have hsize : e.finish.states.size = k + 1 := by
    rw [Draft.finish, Array.size_push]
    exact congrArg (· + 1) (current_of_grow ts hg)
  refine ⟨hsize, Draft.links_length symbols he, link_of_append he, links_le he,
    step_ofSymbols_eq he, step_ofSymbols he, fun text => ⟨run_ofSymbols he 0 text, ?_⟩⟩
  rw [accepts_iff_run ts hg, run_ofSymbols he 0 text]

/-- After two letters `a` a third one goes the way of the second and leaves the run where it is. -/
theorem Table.follows_links_of_repeated_letter :
    ∃ t, Table.build (symbolsFrom 0 "x*aab".toList) = .ok t ∧
      (Linked.ofSymbols (symbolsFrom 0 "x*aab".toList)).links =
        [none, some 1, some 1, some 2, some 1] ∧
      t.step 3 'a' = (Linked.ofSymbols (symbolsFrom 0 "x*aab".toList)).step 3 'a' ∧
      t.step 3 'a' = some 3 ∧
      ∀ text, t.accepts text = true ↔
        (Linked.ofSymbols (symbolsFrom 0 "x*aab".toList)).run 0 text = some 4 := by
  refine ⟨_, rfl, by decide, ?_, by decide, fun text => ?_⟩
  · exact (Table.follows_links (symbolsFrom 0 "x*aab".toList) _ rfl).2.2.2.2.2.1 3 'a'
  · exact ((Table.follows_links (symbolsFrom 0 "x*aab".toList) _ rfl).2.2.2.2.2.2 text).2

end PageLookup.Glob
