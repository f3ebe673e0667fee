import PageLookup.Glob.Place
import PageLookup.Proofs.Glob.Compiled

/-!
# Building behind what is built

A raw pattern can be read in two parts wherever no backslash reaches over the
cut. At a star a draft forgets what stands before it: from there on it grows
like a draft that begins with the star, only that its states and the positions
of its symbols are counted from further on.
-/

set_option autoImplicit false

namespace PageLookup.Glob

section Reading

/-- An even run of backslashes before a cut does not matter to the places behind it. -/
theorem backslashesBefore_append (p cs : List Char) (hp : backslashesBefore p p.length % 2 = 0)
    (i : Nat) : backslashesBefore (p ++ cs) (p.length + i) % 2 = backslashesBefore cs i % 2 := by
  rw [backslashesBefore, List.take_length] at hp
  rw [backslashesBefore, backslashesBefore, List.take_length_add_append, List.reverse_append,
    List.takeWhile_append]
  split
  · rename_i h
    rw [List.length_append, h]
    omega
  · rfl

theorem backslashes_cons (c : Char) (hc : c ≠ '\\') (cs : List Char) :
    backslashesBefore (c :: cs) (cs.length + 1) % 2 = backslashesBefore cs cs.length % 2 := by
  have h : backslashesBefore [c] [c].length % 2 = 0 := by simp [backslashesBefore, hc]
  rw [Nat.add_comm]
  exact backslashesBefore_append [c] cs h cs.length

theorem backslashes_pair (d : Char) (cs : List Char) :
    backslashesBefore ('\\' :: d :: cs) (cs.length + 2) % 2 =
      backslashesBefore cs cs.length % 2 := by
  have h : backslashesBefore ['\\', d] ['\\', d].length % 2 = 0 := by
    by_cases hd : d = '\\' <;> simp [backslashesBefore, hd]
  rw [Nat.add_comm]
  exact backslashesBefore_append ['\\', d] cs h cs.length

/-- Where the first part does not end in a backslash that acts the parts are read on their own. -/
theorem symbolsFrom_append (n : Nat) (cs ds : List Char)
    (h : backslashesBefore cs cs.length % 2 = 0) :
    symbolsFrom n (cs ++ ds) = symbolsFrom n cs ++ symbolsFrom (n + cs.length) ds := by
  induction n, cs using symbolsFrom.induct with
  | case1 n => simp [symbolsFrom]
  | case2 n => simp [backslashesBefore] at h
  | case3 n c hc => simpa [symbolsFrom, hc] using symbolsFrom_cons n c hc ds
  | case4 n d cs hd ih =>
    have hcs := (backslashes_pair d cs).symm.trans h
    have hlen : n + ('\\' :: d :: cs).length = n + 2 + cs.length := by
      simp only [List.length_cons]
      omega
    rw [hlen]
    simpa [symbolsFrom, hd] using ih hcs
  | case5 n d cs hd ih =>
    have hcs := (backslashes_pair d cs).symm.trans h
    have hlen : n + ('\\' :: d :: cs).length = n + 2 + cs.length := by
      simp only [List.length_cons]
      omega
    rw [hlen]
    simpa [symbolsFrom, hd] using ih hcs
  | case6 n c d cs hc ih =>
    have hcs := (backslashes_cons c hc (d :: cs)).symm.trans h
    have hlen : n + (c :: d :: cs).length = n + 1 + (d :: cs).length := by
      simp only [List.length_cons]
      omega
    rw [hlen]
    simpa [symbolsFrom, hc] using ih hcs

def Symbol.shift (k : Nat) (s : Symbol) : Symbol := ⟨s.token, k + s.position⟩

theorem symbolsFrom_shift (k n : Nat) (cs : List Char) :
    symbolsFrom (k + n) cs = (symbolsFrom n cs).map (.shift k) := by
  induction n, cs using symbolsFrom.induct with
  | case1 n => rfl
  | case2 n => rfl
  | case3 n c hc => simp [symbolsFrom, hc, Symbol.shift]
  | case4 n d cs hd ih => simpa [symbolsFrom, hd, Symbol.shift, Nat.add_assoc] using ih
  | case5 n d cs hd ih => simpa [symbolsFrom, hd, Symbol.shift, Nat.add_assoc] using ih
  | case6 n c d cs hc ih => simpa [symbolsFrom, hc, Symbol.shift, Nat.add_assoc] using ih

end Reading

namespace Draft

theorem addAll_append (d : Draft) (xs ys : List Symbol) :
    d.addAll (xs ++ ys) = (d.addAll xs).bind (·.addAll ys) := by
  induction xs generalizing d with
  | nil => rfl
  | cons s xs ih =>
    simp only [List.cons_append, addAll]
    cases d.add s with
    | ok d' => exact ih d'
    | error e => rfl

theorem addAll_star_cons (d : Draft) (n : Nat) (symbols : List Symbol) :
    d.addAll (⟨.star, n⟩ :: symbols) = d.star.addAll symbols := rfl

/-- A draft that from state `b` on is the other draft, with all its states counted from `b`. -/
structure Follows (b : Nat) (d e : Draft) : Prop where
  current : e.current = b + d.current
  anchor : e.anchor = d.anchor.map (b + ·)
  next : ∀ x c, e.next (b + x) c = (d.next x c).map (b + ·)

variable {b : Nat} {d e : Draft}

theorem star_forgets (d : Draft) : Follows d.current Draft.empty.star d.star where
  current := rfl
  anchor := rfl
  next := by
    intro x c
    have hempty : Draft.empty.next x c = some x := rfl
    have hd : d.next (d.current + x) c = some (d.current + x) := by
      simp [Draft.next, stateAt, current]
    rw [star_next, star_next, hempty, hd]
    rfl

theorem Follows.resume (h : Follows b d e) (c : Char) :
    e.resume c = (d.resume c).map (b + ·) := by
  unfold Draft.resume
  rw [h.anchor]
  cases d.anchor with
  | none => rfl
  | some x => exact h.next x c

theorem Follows.star (h : Follows b d e) : Follows b d.star e.star where
  current := h.current
  anchor := congrArg some h.current
  next := h.next

theorem Follows.any (h : Follows b d e) : Follows b d.any e.any where
  current := by rw [any_current, any_current, h.current, Nat.add_assoc]
  anchor := h.anchor
  next := by
    intro x c
    rw [any_next, any_next, h.current, h.next]
    by_cases hx : x = d.current
    · simp [hx, Nat.add_assoc]
    · simp [hx]

theorem Follows.literal (h : Follows b d e) (a : Char) :
    Follows b (d.literal a) (e.literal a) where
  current := by rw [literal_current, literal_current, h.current, Nat.add_assoc]
  anchor := by
    rw [literal_anchor, literal_anchor, h.anchor]
    cases d.anchor with
    | none => rfl
    | some x =>
      simp only [Option.map_some, h.next]
      cases d.next x a <;> rfl
  next := by
    intro x c
    rw [literal_next, literal_next, h.current, h.next, h.resume]
    by_cases hx : x = d.current
    · by_cases hc : c = a
      · simp [hx, hc, Nat.add_assoc]
      · simp [hx, hc]
    · simp [hx]

/-- Symbols read further on build the same states further on, or fail further on. -/
theorem Follows.addAll (h : Follows b d e) (k : Nat) (symbols : List Symbol) :
    match d.addAll symbols with
    | .ok d' => ∃ e', e.addAll (symbols.map (.shift k)) = .ok e' ∧ Follows b d' e'
    | .error (.oneAfterStar r) =>
      e.addAll (symbols.map (.shift k)) = .error (.oneAfterStar (k + r)) := by
  induction symbols generalizing d e with
  | nil => exact ⟨e, rfl, h⟩
  | cons s symbols ih =>
    obtain ⟨t, n⟩ := s
    cases t with
    | star => exact ih h.star
    | literal a => exact ih (h.literal a)
    | one =>
      have hiff : e.anchor = some e.current ↔ d.anchor = some d.current := by
        rw [h.anchor, h.current]
        cases d.anchor <;> simp
      by_cases hd : d.anchor = some d.current
      · simp [Draft.addAll, add, one, Symbol.shift, hd, hiff.mpr hd]
      · simpa [Draft.addAll, add, one, Draft.any, Symbol.shift, hd, hiff.not.mpr hd] using ih h.any

end Draft

end PageLookup.Glob
