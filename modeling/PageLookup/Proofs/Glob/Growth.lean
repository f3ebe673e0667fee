import PageLookup.Proofs.Glob.Standing
import PageLookup.Glob.Pattern

/-!
# How a draft grows

A draft answers a character in every state it has finished, and the state under
construction stays where it is. A token that takes a character finishes one
state and leaves all earlier answers alone. So each state of a table answers
its own token with the next state, and any other character as the anchor did
at the time the state was finished: `step_of_split` says this of every state
at once, the accepting one included.
-/

set_option autoImplicit false

namespace PageLookup.Glob

namespace State

@[simp] theorem next_dead (c : Char) : dead.next c = none := rfl

@[simp] theorem next_always (target : Nat) (c : Char) : (always target).next c = some target := rfl

theorem next_set (s : State) (c : Char) (target : Nat) (e : Char) :
    (s.set c target).next e = if e = c then some target else s.next e := by
  unfold next set
  split
  · rename_i h
    subst h
    simp [Ascending.lookup_put_self]
  · rename_i h
    simp [Ascending.lookup_put_of_ne c target s.arcs e h]

end State

namespace Draft

def next (d : Draft) (x : Nat) (c : Char) : Option Nat := (d.stateAt x).next c

def resume (d : Draft) (c : Char) : Option Nat := d.anchor.bind (d.next · c)

def any (d : Draft) : Draft := { d with states := d.states.push (.always (d.current+1)) }

/-- The draft after some tokens, unless a question mark stands right after a star. -/
def grow (d : Draft) : List Token → Option Draft
  | [] => some d
  | .star :: ts => d.star.grow ts
  | .one :: ts => if d.anchor = some d.current then none else d.any.grow ts
  | .literal c :: ts => (d.literal c).grow ts

theorem grow_append (d : Draft) (xs ys : List Token) :
    d.grow (xs ++ ys) = (d.grow xs).bind (·.grow ys) := by
  induction xs generalizing d with
  | nil => rfl
  | cons t xs ih =>
    cases t with
    | star => exact ih d.star
    | one =>
      simp only [List.cons_append, grow]
      split
      · rfl
      · exact ih d.any
    | literal c => exact ih (d.literal c)

theorem grow_append_eq_some (d e : Draft) (xs ys : List Token) :
    d.grow (xs ++ ys) = some e ↔ ∃ m, d.grow xs = some m ∧ m.grow ys = some e := by
  rw [grow_append, Option.bind_eq_some_iff]

/-- What no token can break holds of a draft however far it grows. -/
theorem grow_preserves (P : Draft → Prop) (ts : List Token)
    (hstar : ∀ d, .star ∈ ts → P d → P d.star) (hany : ∀ d, P d → P d.any)
    (hlit : ∀ d a, .literal a ∈ ts → P d → P (d.literal a))
    (d e : Draft) (h : d.grow ts = some e) (hd : P d) : P e := by
  induction ts generalizing d with
  | nil =>
    cases h
    exact hd
  | cons t ts ih =>
    have hstars : ∀ d, .star ∈ ts → P d → P d.star := by
      intro d hs
      exact hstar d (by simp [hs])
    have hrest : ∀ d a, .literal a ∈ ts → P d → P (d.literal a) := by
      intro d a ha
      exact hlit d a (by simp [ha])
    cases t with
    | star => exact ih hstars hrest d.star h (hstar d (by simp) hd)
    | one =>
      simp only [grow] at h
      split at h
      · cases h
      · exact ih hstars hrest d.any h (hany d hd)
    | literal a => exact ih hstars hrest (d.literal a) h (hlit d a (by simp) hd)

theorem addAll_toOption (d : Draft) (symbols : List Symbol) :
    (d.addAll symbols).toOption = d.grow (symbols.map (·.token)) := by
  induction symbols generalizing d with
  | nil => rfl
  | cons s rest ih =>
    obtain ⟨t, n⟩ := s
    cases t with
    | star => exact ih d.star
    | one =>
      by_cases h : d.anchor = some d.current
      · simp [addAll, add, one, grow, h, Except.toOption]
      · simpa [addAll, add, one, grow, h, any] using ih d.any
    | literal c => exact ih (d.literal c)

theorem addAll_eq_ok (d e : Draft) (symbols : List Symbol) :
    d.addAll symbols = .ok e ↔ d.grow (symbols.map (·.token)) = some e := by
  rw [← addAll_toOption]
  cases d.addAll symbols <;> simp [Except.toOption]

section Stand

variable (d : Draft)

theorem stateAt_beyond (x : Nat) (hx : d.current ≤ x) : d.stateAt x = .always x := by
  rw [stateAt, Array.getElem?_eq_none hx]

theorem stateAt_push (s : State) (a : Option Nat) (x : Nat) :
    (⟨d.states.push s, a⟩ : Draft).stateAt x = if x = d.current then s else d.stateAt x := by
  unfold stateAt current
  rw [Array.getElem?_push]
  by_cases hx : x = d.states.size
  · simp [hx]
  · simp only [if_neg hx]

theorem last_next (c : Char) : d.last.next c = d.resume c := by
  unfold last resume
  cases d.anchor <;> rfl

theorem last_of_anchor (x : Nat) (hx : d.anchor = some x) : d.last = d.stateAt x := by
  rw [last, hx]

/-- A literal is finished as the accepting state would be, with an arc of its own. -/
theorem literal_eq (a : Char) :
    d.literal a = ⟨d.states.push (d.last.set a (d.current+1)),
      d.anchor.map fun x => (d.next x a).getD x⟩ := by
  unfold literal last
  cases d.anchor with
  | none => rfl
  | some x => cases h : (d.stateAt x).next a <;> simp [next, h]

theorem star_stateAt (x : Nat) : d.star.stateAt x = d.stateAt x := rfl

theorem any_stateAt (x : Nat) :
    d.any.stateAt x = if x = d.current then .always (d.current+1) else d.stateAt x :=
  stateAt_push d _ _ x

theorem literal_stateAt (a : Char) (x : Nat) :
    (d.literal a).stateAt x =
      if x = d.current then d.last.set a (d.current+1) else d.stateAt x := by
  rw [literal_eq, stateAt_push]

theorem finish_getElem? (x : Nat) :
    d.finish.states[x]? =
      if x < d.current then some (d.stateAt x)
      else if x = d.current then some d.last else none := by
  unfold finish stateAt current
  rw [Array.getElem?_push]
  by_cases hx : x = d.states.size
  · simp [hx]
  · by_cases hl : x < d.states.size
    · simp [hx, hl]
    · simp [hx, hl]

@[simp] theorem star_current : d.star.current = d.current := rfl

@[simp] theorem any_current : d.any.current = d.current + 1 := by
  simp [any, current]

@[simp] theorem literal_current (a : Char) : (d.literal a).current = d.current + 1 := by
  rw [literal_eq]
  simp [current]

@[simp] theorem star_anchor : d.star.anchor = some d.current := rfl

theorem literal_anchor (a : Char) :
    (d.literal a).anchor = d.anchor.map fun x => (d.next x a).getD x := by
  rw [literal_eq]

end Stand

section Next

@[simp] theorem next_current (d : Draft) (c : Char) : d.next d.current c = some d.current := by
  rw [next, stateAt_beyond d _ (Nat.le_refl _), State.next_always]

@[simp] theorem star_next (d : Draft) (x : Nat) (c : Char) : d.star.next x c = d.next x c := rfl

theorem any_next (d : Draft) (x : Nat) (c : Char) :
    d.any.next x c = if x = d.current then some (d.current+1) else d.next x c := by
  rw [next, any_stateAt]
  split <;> rfl

theorem literal_next (d : Draft) (a : Char) (x : Nat) (c : Char) :
    (d.literal a).next x c =
      if x = d.current then if c = a then some (d.current+1) else d.resume c else d.next x c := by
  rw [next, literal_stateAt]
  split
  · rw [State.next_set, last_next]
  · rfl

end Next

theorem grow_current (d e : Draft) (ts : List Token) (h : d.grow ts = some e) :
    e.current = d.current + (solid ts).length := by
  induction ts generalizing d with
  | nil =>
    cases h
    rfl
  | cons t ts ih =>
    cases t with
    | star => simpa using ih d.star h
    | one =>
      simp only [grow] at h
      split at h
      · cases h
      · rw [ih d.any h, solid_cons_of_ne .one (by simp), any_current, List.length_cons]
        omega
    | literal a =>
      rw [ih (d.literal a) h, solid_cons_of_ne (.literal a) (by simp), literal_current,
        List.length_cons]
      omega

/-- A finished state never changes again. -/
theorem grow_stateAt (d e : Draft) (ts : List Token) (h : d.grow ts = some e) (x : Nat)
    (hx : x < d.current) : e.stateAt x = d.stateAt x := by
  induction ts generalizing d with
  | nil =>
    cases h
    rfl
  | cons t ts ih =>
    cases t with
    | star => exact ih d.star h hx
    | one =>
      simp only [grow] at h
      split at h
      · cases h
      · rw [ih d.any h (by simp; omega), any_stateAt, if_neg (by omega)]
    | literal a =>
      rw [ih (d.literal a) h (by simp; omega), literal_stateAt, if_neg (by omega)]

theorem grow_next (d e : Draft) (ts : List Token) (h : d.grow ts = some e) (x : Nat)
    (hx : x < d.current) (c : Char) : e.next x c = d.next x c := by
  rw [next, grow_stateAt d e ts h x hx, next]

theorem grow_cons_next (d e : Draft) (t : Token) (ht : t ≠ .star) (ts : List Token)
    (h : d.grow (t :: ts) = some e) (c : Char) :
    e.next d.current c = if t.fits c then some (d.current+1) else d.resume c := by
  cases t with
  | star => exact absurd rfl ht
  | one =>
    simp only [grow] at h
    split at h
    · cases h
    · rw [grow_next d.any e ts h d.current (by simp) c, any_next, if_pos rfl]
      rfl
  | literal a =>
    rw [grow_next (d.literal a) e ts h d.current (by simp) c, literal_next, if_pos rfl]
    simp only [Token.fits, beq_iff_eq, eq_comm (a := c)]

end Draft

section Step

variable {e : Draft}

theorem step_finish (x : Nat) (c : Char) :
    e.finish.step x c =
      if x < e.current then e.next x c else if x = e.current then e.resume c else none := by
  rw [Table.step, Draft.finish_getElem?]
  split
  · rfl
  · split
    · exact e.last_next c
    · rfl

theorem build_eq_ok_iff (symbols : List Symbol) (t : Table) :
    Table.build symbols = .ok t ↔
      ∃ e, Draft.empty.grow (symbols.map (·.token)) = some e ∧ e.finish = t := by
  simp only [← Draft.addAll_eq_ok, Table.build]
  cases Draft.empty.addAll symbols <;> simp

theorem size_finish : e.finish.states.size = e.current + 1 := by
  simp [Draft.finish, Draft.current]

theorem accepting_finish : e.finish.accepting = e.current := by
  rw [Table.accepting, size_finish, Nat.add_sub_cancel]

theorem current_of_grow (ts : List Token) (he : Draft.empty.grow ts = some e) :
    e.current = (solid ts).length := by
  simpa [Draft.empty, Draft.current] using Draft.grow_current _ e ts he

theorem accepts_iff_run (ts : List Token) (he : Draft.empty.grow ts = some e) (text : List Char) :
    e.finish.accepts text = true ↔ e.finish.run 0 text = some (solid ts).length := by
  rw [Table.accepts, accepting_finish, current_of_grow ts he, beq_iff_eq]

/-- What a state of a finished table does with a character: its own token leads to the next
state, everything else goes where the draft before the state resumes. -/
theorem step_of_split (xs ys : List Token) (he : Draft.empty.grow (xs ++ ys) = some e)
    (hy : ys.head? ≠ some .star) :
    ∃ m, Draft.empty.grow xs = some m ∧ m.current = (solid xs).length ∧
      ∀ c, e.finish.step (solid xs).length c =
        if ys.head?.any (·.fits c) then some ((solid xs).length + 1) else m.resume c := by
  obtain ⟨m, hm, hg⟩ := (Draft.grow_append_eq_some _ e xs ys).mp he
  have hc := current_of_grow xs hm
  refine ⟨m, hm, hc, fun c => ?_⟩
  cases ys with
  | nil =>
    cases hg
    simp [step_finish, hc]
  | cons t ys =>
    have ht : t ≠ .star := fun h => hy (by simp [h])
    have hlt : (solid xs).length < e.current := by
      rw [Draft.grow_current m e _ hg, hc, solid_cons_of_ne t ht]
      simp
    rw [step_finish, if_pos hlt, ← hc, Draft.grow_cons_next m e t ht ys hg c]
    rfl

end Step

end PageLookup.Glob
