import PageLookup.Glob.Checked
import PageLookup.Proofs.Glob.Compiled
import PageLookup.Proofs.Glob.Staying
import PageLookup.Proofs.Halving

/-!
# Nothing is ever missing

The checked steps never fault, whatever the raw pattern, the symbols and the
text are, and they do what the unchecked ones do. A backslash that waits is
never the first character. A state under construction, while a draft grows, is
dead or right behind a star, and all arcs are in order and lead into the
table.
-/

set_option autoImplicit false

namespace PageLookup.Glob

theorem Draft.bounded_and_ordered {e : Draft} (ts : List Token)
    (he : Draft.empty.grow ts = some e) : e.Bounded 0 ∧ e.Ordered :=
  ⟨grow_bounded ts he empty_bounded, grow_ordered ts he empty_ordered⟩

namespace Checked

section Arcs

variable (s : State) (ha : Ascending s.arcs) (c : Char)

include ha

theorem next_ok : next s c = .ok (s.next c) := by
  obtain ⟨place, hspot, hplaced⟩ := Ascending.spot_placed s.arcs ha c
  cases hplaced with
  | found before later target harcs =>
    rw [harcs] at ha hspot
    have hlookup := (Ascending.lookup_eq_some_iff _ ha c target).mpr (by simp)
    simp [next, State.next, harcs, hspot, hlookup]
  | gap before later harcs hb hl =>
    have hnot := harcs ▸ Ascending.not_mem_gap before later c hb hl
    have hlookup : s.arcs.lookup c = none := by
      rw [List.lookup_eq_none_iff]
      intro e he
      apply bne_iff_ne.mpr
      rintro rfl
      exact hnot (List.mem_map_of_mem he)
    simp [next, hspot, State.next, hlookup]

theorem set_ok (target : Nat) : set s c target = .ok (s.set c target) := by
  obtain ⟨place, hspot, hplaced⟩ := Ascending.spot_placed s.arcs ha c
  cases hplaced with
  | found before later v harcs =>
    rw [harcs] at ha hspot
    simp [set, State.set, harcs, hspot, Ascending.put_found before later c target v ha]
  | gap before later harcs hb hl =>
    rw [harcs] at hspot
    simp [set, State.set, harcs, hspot, Ascending.put_gap before later c target hb hl,
      Ascending.insertIdx_length_append]

end Arcs

section Reading

theorem symbolsFrom_ok (n : Nat) (cs : List Char) :
    symbolsFrom false n cs = .ok (Glob.symbolsFrom n cs) := by
  induction n, cs using Glob.symbolsFrom.induct with
  | case1 n => rfl
  | case2 n => rfl
  | case3 n c hc => simp [symbolsFrom, Glob.symbolsFrom, hc]
  | case4 n d rest hd ih => simp [symbolsFrom, Glob.symbolsFrom, hd, ih]
  | case5 n d rest hd ih =>
    have hbare := (plain_of_not_special d (by simpa using hd)).2
    simp [symbolsFrom, Glob.symbolsFrom, hd, ih, hbare, Fault.pred]
  | case6 n c d rest hc ih =>
    rw [symbolsFrom, Glob.symbolsFrom, ih]
    simp [hc]

theorem reading_ok (raw : String) : reading raw = .ok (Reading.ofRaw raw) := by
  unfold reading Reading.ofRaw
  rw [symbolsFrom_ok]
  simp only [Fault.ok_bind, Fault.pure_eq]
  split
  · split <;> rfl
  · rfl

end Reading

def pending (d : Draft) : State :=
  if d.anchor = some d.current then .always d.current else .dead

namespace Builder

def ofDraft (d : Draft) : Builder :=
  ⟨d.states.push (pending d), d.anchor, decide (d.anchor = some d.current)⟩

section Push

variable (d : Draft) (s : State) (a : Option Nat) (f : Bool)

@[simp] theorem current_push : (⟨d.states.push s, a, f⟩ : Builder).current = .ok d.current := by
  simp [current, Fault.pred, Draft.current]

@[simp] theorem state_push : (⟨d.states.push s, a, f⟩ : Builder).state d.current = .ok s := by
  simp [state, Draft.current]

theorem state_push_of_lt (x : Nat) (hx : x < d.current) :
    (⟨d.states.push s, a, f⟩ : Builder).state x = .ok (d.stateAt x) := by
  have hsize : x < d.states.size := hx
  have hne : x ≠ d.states.size := Nat.ne_of_lt hx
  rw [state, Array.getElem?_push, if_neg hne, Draft.stateAt, Array.getElem?_eq_getElem hsize]
  rfl

@[simp] theorem write_push (u : State) :
    (⟨d.states.push s, a, f⟩ : Builder).write d.current u = .ok ⟨d.states.push u, a, f⟩ := by
  have hset : (d.states.push s).setIfInBounds d.states.size u = d.states.push u := by
    apply Array.ext'
    simp
  simp [write, hset, Draft.current]

/-- A state right behind a finished one has no star before it. -/
theorem ofDraft_push (h : ∀ x, a = some x → x ≤ d.current) :
    ofDraft ⟨d.states.push s, a⟩ = advance ⟨d.states.push s, a, false⟩ := by
  have hne : a ≠ some (d.states.size + 1) := by
    intro ha
    exact absurd (h _ ha) (Nat.not_succ_le_self _)
  simp [ofDraft, advance, pending, Draft.current, hne]

end Push

theorem start_eq : start = ofDraft .empty := rfl

variable {d : Draft}

theorem current_ofDraft : (ofDraft d).current = .ok d.current := by
  rw [ofDraft, current_push]

theorem write_ofDraft (u : State) :
    (ofDraft d).write d.current u =
      .ok ⟨d.states.push u, d.anchor, decide (d.anchor = some d.current)⟩ := by
  rw [ofDraft, write_push]

/-- The anchor is a state that stands, the one under construction right behind a star. -/
theorem state_ofDraft (x : Nat) (hx : d.anchor = some x) (hle : x ≤ d.current) :
    (ofDraft d).state x = .ok (d.stateAt x) := by
  unfold ofDraft
  rcases Nat.lt_or_eq_of_le hle with hlt | rfl
  · exact state_push_of_lt d _ _ _ x hlt
  · rw [state_push, pending, if_pos hx, d.stateAt_beyond _ (Nat.le_refl _)]

theorem star_ok : (ofDraft d).star = .ok (ofDraft d.star) := by
  rw [star, current_ofDraft, Fault.ok_bind, write_ofDraft]
  simp [ofDraft, pending, Draft.star, Draft.current]

theorem one_ok (h : d.Bounded 0) (p : Nat) :
    (ofDraft d).one p = .ok ((d.one p).map ofDraft) := by
  have hfresh : ((ofDraft d).anchor.isSome && (ofDraft d).fresh) =
      decide (d.anchor = some d.current) := by
    cases ha : d.anchor <;> simp [ofDraft, ha]
  rw [one, Draft.one, hfresh, current_ofDraft, Fault.ok_bind, write_ofDraft, Fault.ok_bind]
  by_cases hs : d.anchor = some d.current
  · simp [hs, Except.map]
  · have hpush := ofDraft_push d (.always (d.current+1)) d.anchor fun x hx => (h.anchor x hx).2
    simp [hs, Except.map, hpush]

/-- A state that is not the anchor is finished as a copy of it. -/
theorem resume_ok (h : d.Bounded 0) (ho : d.Ordered) (c : Char) :
    (ofDraft d).resume d.current c =
      .ok ⟨d.states.push d.last, (d.literal c).anchor, decide (d.anchor = some d.current)⟩ := by
  rw [resume]
  cases ha : d.anchor with
  | none =>
    have hanchor : (ofDraft d).anchor = none := ha
    simp only [hanchor]
    rw [write_ofDraft, Draft.last, Draft.literal_anchor, ha]
    rfl
  | some x =>
    have hle := (h.anchor x ha).2
    have hanchor : (ofDraft d).anchor = some x := ha
    have hlast := d.last_of_anchor x ha
    simp only [hanchor]
    rw [state_ofDraft x ha hle, Fault.ok_bind, next_ok _ (ho x), Fault.ok_bind, Draft.literal, ha]
    dsimp only
    by_cases hx : x = d.current
    · subst hx
      rw [if_pos rfl, Fault.ok_bind, hlast, d.stateAt_beyond _ (Nat.le_refl _), ofDraft, pending,
        if_pos ha]
      simp [ha]
    · rw [if_neg hx, write_ofDraft, Fault.ok_bind, hlast, ha]
      rfl

theorem literal_ok (h : d.Bounded 0) (ho : d.Ordered) (c : Char) :
    (ofDraft d).literal c = .ok (ofDraft (d.literal c)) := by
  have hliteral :
      d.literal c = ⟨d.states.push (d.last.set c (d.current+1)), (d.literal c).anchor⟩ := by
    rw [Draft.literal_eq]
  rw [literal, current_ofDraft, Fault.ok_bind, resume_ok h ho, Fault.ok_bind, state_push,
    Fault.ok_bind, set_ok _ ho.last, Fault.ok_bind, write_push, Fault.ok_bind, hliteral,
    ofDraft_push d _ _ fun x hx => (h.literal_anchor c x hx).2]
  rfl

theorem add_ok (h : d.Bounded 0) (ho : d.Ordered) (s : Symbol) :
    (ofDraft d).add s = .ok ((d.add s).map ofDraft) := by
  obtain ⟨t, p⟩ := s
  cases t with
  | star => simp [add, star_ok, Draft.add, Except.map]
  | one => exact one_ok h p
  | literal c => simp [add, literal_ok h ho c, Draft.add, Except.map]

theorem addAll_ok (h : d.Bounded 0) (ho : d.Ordered) (symbols : List Symbol) :
    (ofDraft d).addAll symbols = .ok ((d.addAll symbols).map ofDraft) := by
  induction symbols generalizing d with
  | nil => rfl
  | cons s rest ih =>
    rw [addAll, Draft.addAll, add_ok h ho]
    cases he : d.add s with
    | error err => rfl
    | ok e =>
      have hgrow := (d.addAll_eq_ok e [s]).mp (by simp [Draft.addAll, he])
      exact ih (Draft.grow_bounded _ hgrow h) (Draft.grow_ordered _ hgrow ho)

theorem finish_ok (h : d.Bounded 0) : (ofDraft d).finish = .ok d.finish := by
  rw [finish, current_ofDraft, Fault.ok_bind]
  cases ha : d.anchor with
  | none =>
    have hanchor : (ofDraft d).anchor = none := ha
    simp only [hanchor]
    simp [ofDraft, pending, Draft.finish, Draft.last, ha]
  | some x =>
    have hle := (h.anchor x ha).2
    have hanchor : (ofDraft d).anchor = some x := ha
    have hlast := d.last_of_anchor x ha
    simp only [hanchor]
    rw [Draft.finish, hlast]
    by_cases hx : x = d.current
    · subst hx
      rw [if_pos rfl, d.stateAt_beyond _ (Nat.le_refl _), ofDraft, pending, if_pos ha]
      rfl
    · rw [if_neg hx, state_ofDraft x ha hle, Fault.ok_bind, write_ofDraft]
      rfl

end Builder

section Match

variable {e : Draft} (h : e.Bounded 0) (ho : e.Ordered)

include h ho

theorem run_ok (x : Nat) (hx : x ≤ e.current) (text : List Char) :
    run e.finish x text = .ok (e.finish.run x text) := by
  induction text generalizing x with
  | nil => rfl
  | cons c rest ih =>
    obtain ⟨s, hs⟩ := e.exists_finished x hx
    have hstep : e.finish.step x c = s.next c := by rw [Table.step, hs, Option.bind_some]
    have hmem := step_mem_targets s x hs c
    rw [run, Table.run, hs, Fault.demand_some, Fault.ok_bind, next_ok s (ho.finish hs),
      Fault.ok_bind, ← hstep]
    cases hy : e.finish.step x c with
    | none => rfl
    | some y =>
      rw [hy] at hmem
      exact ih y (h.finish hs (Nat.zero_le x) y hmem).2.2

theorem tableAccepts_ok (text : List Char) :
    tableAccepts e.finish text = .ok (e.finish.accepts text) := by
  have hsize : Fault.pred e.finish.states.size = .ok e.finish.accepting := by
    rw [size_finish, accepting_finish, Fault.pred]
  rw [tableAccepts, run_ok h ho 0 (Nat.zero_le _), Fault.ok_bind, hsize, Table.accepts]
  cases e.finish.run 0 text <;> rfl

end Match

theorem build_ok (symbols : List Symbol) : build symbols = .ok (Table.build symbols) := by
  have hadd := Builder.addAll_ok Draft.empty_bounded Draft.empty_ordered symbols
  rw [build, Builder.start_eq, hadd, Table.build]
  cases he : Draft.empty.addAll symbols with
  | error err => rfl
  | ok e =>
    obtain ⟨hbounded, -⟩ := Draft.bounded_and_ordered _ ((Draft.addAll_eq_ok .empty e symbols).mp he)
    simp [Except.map, Builder.finish_ok hbounded]

theorem compile_ok (raw : String) : compile raw = .ok (Pattern.compile raw) := by
  rw [compile, reading_ok, Fault.ok_bind, Pattern.compile]
  cases Reading.ofRaw raw with
  | literal text => rfl
  | symbols list =>
    simp only [build_ok, Fault.ok_bind]
    cases Table.build list <;> rfl

theorem accepts_ok (raw : String) (p : Pattern) (hp : Pattern.compile raw = .ok p) (text : String) :
    accepts p text = .ok (p.accepts text) := by
  obtain ⟨e, he, hmatcher, -⟩ := table_of_compile raw p hp
  obtain ⟨hbounded, hordered⟩ := Draft.bounded_and_ordered _ he
  unfold accepts Pattern.accepts
  rcases hmatcher with hm | ⟨⟨literal, hm⟩, -⟩
  · rw [hm]
    exact tableAccepts_ok hbounded hordered text.toList
  · rw [hm]

section Sound

variable {e : Draft} (h : e.Bounded 0) (ho : e.Ordered)

include h ho

theorem sound_ofDraft (s : State) (hs : s ∈ (Builder.ofDraft e).states) :
    s.Sound (Builder.ofDraft e).states.size := by
  have hsize : (Builder.ofDraft e).states.size = e.current + 1 := by
    simp [Builder.ofDraft, Draft.current]
  rw [hsize]
  rcases Array.mem_push.mp hs with hs | rfl
  · obtain ⟨x, hx, rfl⟩ := Array.mem_iff_getElem.mp hs
    have hstate : e.stateAt x = e.states[x] := by
      rw [Draft.stateAt, Array.getElem?_eq_getElem hx]
    refine ⟨hstate ▸ ho x, fun y hy => ?_⟩
    have hy := (h.targets x y (Nat.zero_le x) (hstate ▸ hy)).2
    have hx : x < e.current := hx
    omega
  · unfold pending
    split
    · exact ⟨.nil, by simp⟩
    · exact ⟨.nil, by simp⟩

theorem sound_finish (s : State) (hs : s ∈ e.finish.states) : s.Sound e.finish.states.size := by
  obtain ⟨x, hx⟩ := Array.mem_iff_getElem?.mp hs
  refine ⟨ho.finish hx, fun y hy => ?_⟩
  rw [size_finish, Nat.lt_succ_iff]
  exact (h.finish hx (Nat.zero_le x) y hy).2.2

end Sound

end Checked

theorem mem_arcs_set (s : State) (hs : Ascending s.arcs) (c : Char) (y : Nat) (d : Char) (z : Nat) :
    (d, z) ∈ (s.set c y).arcs ↔ if d = c then z = y else (d, z) ∈ s.arcs := by
  have hput := Ascending.put_ascending c y s.arcs hs
  rw [← Ascending.lookup_eq_some_iff s.arcs hs, State.set,
    ← Ascending.lookup_eq_some_iff (Ascending.put c y s.arcs) hput]
  by_cases hd : d = c
  · simp [hd, Ascending.lookup_put_self, eq_comm]
  · simp [hd, Ascending.lookup_put_of_ne c y s.arcs d hd]

/-- Reading, building and matching never fault. The table has one state more than there are tokens
that take a character, and all states fit into it, as they do at any time while it is built. In
such a state an arc is found exactly where it stands, and setting one keeps all others and the
order. -/
theorem never_faults (raw : String) (symbols : List Symbol) :
    (Checked.reading raw = .ok (Reading.ofRaw raw) ∧
      Checked.compile raw = .ok (Pattern.compile raw) ∧
      ∀ p, Pattern.compile raw = .ok p → ∀ text, Checked.accepts p text = .ok (p.accepts text)) ∧
    (Checked.build symbols = .ok (Table.build symbols) ∧
      ∀ b, Checked.Builder.start.addAll symbols = .ok (.ok b) →
        ∀ s ∈ b.states, s.Sound b.states.size) ∧
    (∀ t, Table.build symbols = .ok t →
      t.states.size = (solid (symbols.map (·.token))).length + 1 ∧
      (∀ s ∈ t.states, s.Sound t.states.size) ∧
      ∀ text, Checked.tableAccepts t text = .ok (t.accepts text)) ∧
    ∀ (s : State) (size : Nat), s.Sound size → ∀ c,
      (∀ i, Ascending.spot s.arcs c = .ok (.found i) ↔ ∃ y, s.arcs[i]? = some (c, y)) ∧
      Checked.next s c = .ok (s.next c) ∧
      ∀ y, Checked.set s c y = .ok (s.set c y) ∧ Ascending (s.set c y).arcs ∧
        ∀ d z, (d, z) ∈ (s.set c y).arcs ↔ if d = c then z = y else (d, z) ∈ s.arcs := by
  refine ⟨⟨Checked.reading_ok raw, Checked.compile_ok raw, Checked.accepts_ok raw⟩,
    ⟨Checked.build_ok symbols, ?_⟩, ?_, ?_⟩
  · intro b hb
    rw [Checked.Builder.start_eq,
      Checked.Builder.addAll_ok Draft.empty_bounded Draft.empty_ordered] at hb
    cases he : Draft.empty.addAll symbols with
    | error err => simp [he, Except.map] at hb
    | ok e =>
      obtain rfl : Checked.Builder.ofDraft e = b := by simpa [he, Except.map] using hb
      obtain ⟨hbounded, hordered⟩ :=
        Draft.bounded_and_ordered _ ((Draft.addAll_eq_ok .empty e symbols).mp he)
      exact Checked.sound_ofDraft hbounded hordered
  · intro t ht
    obtain ⟨e, he, rfl⟩ := (build_eq_ok_iff symbols t).mp ht
    obtain ⟨hbounded, hordered⟩ := Draft.bounded_and_ordered _ he
    exact ⟨current_of_grow _ he ▸ size_finish, Checked.sound_finish hbounded hordered,
      Checked.tableAccepts_ok hbounded hordered⟩
  · intro s size hs c
    refine ⟨Ascending.spot_eq_found_iff s.arcs hs.arcs c, Checked.next_ok s hs.arcs c, fun y => ?_⟩
    exact ⟨Checked.set_ok s hs.arcs c y, Ascending.put_ascending c y s.arcs hs.arcs,
      mem_arcs_set s hs.arcs c y⟩

/-- A backslash that stands for itself, and a state with two arcs that gets one between. -/
theorem never_faults_escaped_letter :
    (∃ p, Pattern.compile "*a\\cb" = .ok p ∧
      Checked.compile "*a\\cb" = .ok (.ok p) ∧
      Checked.accepts p "xa\\cb" = .ok true ∧
      ∀ text, Checked.accepts p text = .ok (p.accepts text)) ∧
    (∃ b, Checked.Builder.start.addAll (symbolsFrom 0 "*acb".toList) = .ok (.ok b) ∧
      ∀ s ∈ b.states, s.Sound 4) ∧
    (∃ t, Table.build (symbolsFrom 0 "*acb".toList) = .ok t ∧ t.states.size = 4 ∧
      (∀ s ∈ t.states, s.Sound 4) ∧ ∀ text, Checked.tableAccepts t text = .ok (t.accepts text)) ∧
    Ascending.spot [('a', 1), ('c', 2)] 'c' = .ok (.found 1) ∧
    Checked.set ⟨[('a', 1), ('c', 2)], some 0⟩ 'b' 3 =
      .ok ⟨[('a', 1), ('b', 3), ('c', 2)], some 0⟩ := by
  obtain ⟨⟨-, hcompile, haccepts⟩, ⟨-, hbuilder⟩, htable, harcs⟩ :=
    never_faults "*a\\cb" (symbolsFrom 0 "*acb".toList)
  have hsound : State.Sound ⟨[('a', 1), ('c', 2)], some 0⟩ 4 := by
    refine ⟨by simp [Ascending], fun y hy => ?_⟩
    have hy : y = 0 ∨ y = 1 ∨ y = 2 := by simpa [State.targets] using hy
    omega
  have hadd := Checked.Builder.addAll_ok Draft.empty_bounded Draft.empty_ordered
    (symbolsFrom 0 "*acb".toList)
  refine ⟨⟨_, rfl, hcompile, ?_, haccepts _ rfl⟩, ⟨_, hadd, hbuilder _ hadd⟩,
    ⟨_, rfl, htable _ rfl⟩, ((harcs _ 4 hsound 'c').1 1).mpr ⟨2, rfl⟩, ?_⟩
  · exact (haccepts _ rfl "xa\\cb").trans (congrArg _ (by decide))
  · exact ((harcs _ 4 hsound 'b').2.2 3).1.trans (congrArg _ (by decide))

end PageLookup.Glob
