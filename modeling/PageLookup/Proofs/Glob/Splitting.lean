import PageLookup.Proofs.Glob.Shift

/-!
# A star splits a pattern

The table of a pattern with a star in it is the table of what stands before
the star, and behind it the table of the rest. A run leaves the first part
where that part accepts for the first time, and it never comes back.
-/

set_option autoImplicit false

namespace PageLookup.Glob

namespace Table

/-- A text cut behind the shortest part of it that takes a run to the accepting state. -/
structure Cuts (t : Table) (x : Nat) (u v : List Char) : Prop where
  accepted : t.run x u = some t.accepting
  shortest : ∀ u' v', u ++ v = u' ++ v' → t.run x u' = some t.accepting → u.length ≤ u'.length

theorem cuts_accepting_iff (t : Table) (u v : List Char) : t.Cuts t.accepting u v ↔ u = [] := by
  constructor
  · intro h
    exact List.length_eq_zero_iff.mp (Nat.le_zero.mp (h.shortest [] (u ++ v) rfl rfl))
  · intro h
    subst h
    exact ⟨rfl, fun u' _ _ _ => Nat.zero_le u'.length⟩

theorem not_cuts_nil (t : Table) (x : Nat) (hx : x ≠ t.accepting) (v : List Char) :
    ¬t.Cuts x [] v := by
  intro h
  exact hx (Option.some.inj h.accepted)

theorem cuts_cons_iff (t : Table) (x : Nat) (hx : x ≠ t.accepting) (c : Char)
    (u v : List Char) : t.Cuts x (c :: u) v ↔ ∃ y, t.step x c = some y ∧ t.Cuts y u v := by
  constructor
  · intro h
    have hacc := h.accepted
    rw [run_cons, Option.bind_eq_some_iff] at hacc
    obtain ⟨y, hy, hu⟩ := hacc
    refine ⟨y, hy, hu, ?_⟩
    intro u' v' huv hu'
    have hcons : c :: u ++ v = c :: u' ++ v' := congrArg (c :: ·) huv
    rw [← Option.bind_some y (t.run · u'), ← hy, ← run_cons] at hu'
    exact Nat.le_of_succ_le_succ (h.shortest (c :: u') v' hcons hu')
  · rintro ⟨y, hy, h⟩
    refine ⟨by rw [run_cons, hy]; exact h.accepted, ?_⟩
    intro u' v' huv hu'
    cases u' with
    | nil => exact absurd (Option.some.inj hu') hx
    | cons d u' =>
      obtain ⟨rfl, htail⟩ := List.cons.inj huv
      rw [run_cons, hy] at hu'
      exact Nat.succ_le_succ (h.shortest u' v' htail hu')

theorem exists_cuts_cons_iff (t : Table) (x : Nat) (hx : x ≠ t.accepting) (c : Char)
    (rest : List Char) (Q : List Char → Prop) :
    (∃ u v, c :: rest = u ++ v ∧ t.Cuts x u v ∧ Q v) ↔
      ∃ y, t.step x c = some y ∧ ∃ u v, rest = u ++ v ∧ t.Cuts y u v ∧ Q v := by
  constructor
  · rintro ⟨u, v, huv, hcut, hv⟩
    cases u with
    | nil => exact absurd hcut (not_cuts_nil t x hx v)
    | cons d u =>
      obtain ⟨rfl, hrest⟩ := List.cons.inj huv
      obtain ⟨y, hy, hcut⟩ := (cuts_cons_iff t x hx c u v).mp hcut
      exact ⟨y, hy, u, v, hrest, hcut, hv⟩
  · rintro ⟨y, hy, u, v, rfl, hcut, hv⟩
    exact ⟨c :: u, v, rfl, (cuts_cons_iff t x hx c u v).mpr ⟨y, hy, hcut⟩, hv⟩

/-- A table that runs one table and goes on with another where the first one accepts. -/
structure Chains (f g t : Table) : Prop where
  before : ∀ x < f.accepting, ∀ c, t.step x c = f.step x c
  near : ∀ x < f.accepting, ∀ c y, f.step x c = some y → y ≤ f.accepting
  behind : ∀ x c, t.step (f.accepting + x) c = (g.step x c).map (f.accepting + ·)
  accepting : t.accepting = f.accepting + g.accepting

namespace Chains

variable {f g t : Table}

theorem run_behind (h : Chains f g t) (x : Nat) (text : List Char) :
    t.run (f.accepting + x) text = (g.run x text).map (f.accepting + ·) := by
  induction text generalizing x with
  | nil => rfl
  | cons c rest ih =>
    simp only [run, h.behind]
    cases g.step x c with
    | none => rfl
    | some y => exact ih y

theorem run_behind_iff (h : Chains f g t) (text : List Char) :
    t.run f.accepting text = some t.accepting ↔ g.accepts text = true := by
  have hrun := h.run_behind 0 text
  rw [Nat.add_zero] at hrun
  rw [hrun, h.accepting, accepts, beq_iff_eq]
  cases g.run 0 text <;> simp

theorem run_iff (h : Chains f g t) (x : Nat) (hx : x ≤ f.accepting) (text : List Char) :
    t.run x text = some t.accepting ↔
      ∃ u v, text = u ++ v ∧ f.Cuts x u v ∧ g.accepts v = true := by
  induction text generalizing x with
  | nil =>
    by_cases he : x = f.accepting
    · subst he
      simp [h.run_behind_iff, cuts_accepting_iff]
    · have hne : x ≠ t.accepting := by
        have := h.accepting
        omega
      simp [run, hne, not_cuts_nil f x he]
  | cons c rest ih =>
    by_cases he : x = f.accepting
    · subst he
      simp [h.run_behind_iff, cuts_accepting_iff]
    · have hlt := Nat.lt_of_le_of_ne hx he
      rw [run, h.before x hlt c, exists_cuts_cons_iff f x he]
      cases hstep : f.step x c with
      | none => simp
      | some y => simpa using ih y (h.near x hlt c y hstep)

end Chains

end Table

theorem Draft.Follows.chains {xs ys : List Token} {d g e : Draft}
    (h : Follows d.current g e) (hd : Draft.empty.grow xs = some d)
    (he : d.grow ys = some e) : Table.Chains d.finish g.finish e.finish where
  before := by
    intro x hx c
    rw [accepting_finish] at hx
    have hlt : x < e.current := by
      rw [h.current]
      omega
    rw [step_finish, step_finish, if_pos hx, if_pos hlt, grow_next d e ys he x hx c]
  near := by
    intro x hx c y hy
    rw [accepting_finish] at hx ⊢
    exact Nat.le_trans (step_le hd x y c hy) hx
  behind := by
    intro x c
    rw [accepting_finish, step_finish, step_finish, h.current, h.next, h.resume]
    by_cases hlt : x < g.current
    · simp [hlt]
    · by_cases heq : x = g.current
      · simp [heq]
      · simp [hlt, heq]
  accepting := by
    rw [accepting_finish, accepting_finish, accepting_finish, h.current]

section Compile

theorem symbolsFrom_around_star (p q : String)
    (hp : backslashesBefore p.toList p.toList.length % 2 = 0) :
    symbolsFrom 0 (p ++ "*" ++ q).toList = symbolsFrom 0 p.toList ++
      (symbolsFrom 0 ("*" ++ q).toList).map (.shift p.length) := by
  have hcs : (p ++ "*" ++ q).toList = p.toList ++ ("*" ++ q).toList := by simp
  rw [hcs, symbolsFrom_append 0 _ _ hp, ← symbolsFrom_shift, Nat.zero_add, Nat.add_zero,
    String.length_toList]

theorem symbolsFrom_star_cons (q : String) :
    symbolsFrom 0 ("*" ++ q).toList = ⟨.star, 0⟩ :: symbolsFrom 1 q.toList := by
  have hcs : ("*" ++ q).toList = '*' :: q.toList := by simp
  rw [hcs, symbolsFrom_cons 0 '*' (by decide)]
  rfl

structure Pattern.Cuts (f : Pattern) (u v : String) : Prop where
  accepted : f.accepts u = true
  shortest : ∀ u' v', u ++ v = u' ++ v' → f.accepts u' = true → u.length ≤ u'.length

theorem pattern_cuts_iff (f : Pattern) (e : Draft)
    (hf : ∀ text, f.accepts text = e.finish.accepts text.toList) (u v : List Char) :
    f.Cuts (String.ofList u) (String.ofList v) ↔ e.finish.Cuts 0 u v := by
  have hrun (w : List Char) :
      f.accepts (String.ofList w) = true ↔ e.finish.run 0 w = some e.finish.accepting := by
    rw [hf, String.toList_ofList, Table.accepts, beq_iff_eq]
  constructor
  · intro h
    refine ⟨(hrun u).mp h.accepted, ?_⟩
    intro u' v' huv hu'
    have happ : String.ofList u ++ String.ofList v = String.ofList u' ++ String.ofList v' := by
      rw [← String.ofList_append, huv, String.ofList_append]
    have hle := h.shortest (String.ofList u') (String.ofList v') happ ((hrun u').mpr hu')
    rwa [String.length_ofList, String.length_ofList] at hle
  · intro h
    refine ⟨(hrun u).mpr h.accepted, ?_⟩
    intro u' v' huv hu'
    rw [← String.ofList_toList (s := u')] at hu'
    have hle := h.shortest u'.toList v'.toList (by simpa using congrArg String.toList huv)
      ((hrun u'.toList).mp hu')
    rwa [String.length_ofList, ← String.length_toList]

theorem addAll_around_star (p q : String)
    (hp : backslashesBefore p.toList p.toList.length % 2 = 0) (d : Draft)
    (hd : Draft.empty.addAll (symbolsFrom 0 p.toList) = .ok d) :
    match Draft.empty.addAll (symbolsFrom 0 ("*" ++ q).toList) with
    | .ok g => ∃ e, Draft.empty.addAll (symbolsFrom 0 (p ++ "*" ++ q).toList) = .ok e ∧
        Table.Chains d.finish g.finish e.finish
    | .error (.oneAfterStar r) =>
      Draft.empty.addAll (symbolsFrom 0 (p ++ "*" ++ q).toList) =
        .error (.oneAfterStar (p.length + r)) := by
  have hbuild := (Draft.star_forgets d).addAll p.length (symbolsFrom 1 q.toList)
  rw [symbolsFrom_around_star p q hp, symbolsFrom_star_cons, Draft.addAll_append, hd]
  simp only [List.map_cons, Symbol.shift, Except.bind, Draft.addAll_star_cons] at hbuild ⊢
  cases hg : Draft.empty.star.addAll (symbolsFrom 1 q.toList) with
  | error err => simpa [hg] using hbuild
  | ok g =>
    simp only [hg] at hbuild ⊢
    obtain ⟨e, he, hfollows⟩ := hbuild
    have hgrow : d.grow (.star :: _) = some e := (Draft.addAll_eq_ok d.star e _).mp he
    exact ⟨e, he, hfollows.chains ((Draft.addAll_eq_ok _ d _).mp hd) hgrow⟩

theorem compile_error_before_star (p q : String)
    (hp : backslashesBefore p.toList p.toList.length % 2 = 0) (err : CompileError)
    (hf : Pattern.compile p = .error err) : Pattern.compile (p ++ "*" ++ q) = .error err := by
  rw [compile_error_iff] at hf ⊢
  rw [symbolsFrom_around_star p q hp, Draft.addAll_append, hf]
  rfl

theorem compile_error_behind_star (p q : String)
    (hp : backslashesBefore p.toList p.toList.length % 2 = 0) (f : Pattern) (r : Nat)
    (hf : Pattern.compile p = .ok f) (hg : Pattern.compile ("*" ++ q) = .error (.oneAfterStar r)) :
    Pattern.compile (p ++ "*" ++ q) = .error (.oneAfterStar (p.length + r)) := by
  obtain ⟨d, hd, -⟩ := addAll_of_compile p f hf
  rw [compile_error_iff] at hg ⊢
  have haround := addAll_around_star p q hp d hd
  rwa [hg] at haround

theorem accepts_around_star (p q : String)
    (hp : backslashesBefore p.toList p.toList.length % 2 = 0) (f g : Pattern)
    (hf : Pattern.compile p = .ok f) (hg : Pattern.compile ("*" ++ q) = .ok g) :
    ∃ h, Pattern.compile (p ++ "*" ++ q) = .ok h ∧ ∀ text, h.accepts text = true ↔
      ∃ u v, text = u ++ v ∧ f.Cuts u v ∧ g.accepts v = true := by
  obtain ⟨d, hd, hfacc⟩ := addAll_of_compile p f hf
  obtain ⟨m, hm, hgacc⟩ := addAll_of_compile ("*" ++ q) g hg
  have haround := addAll_around_star p q hp d hd
  rw [hm] at haround
  obtain ⟨e, he, hchains⟩ := haround
  obtain ⟨h, hh, hacc⟩ := compile_of_addAll (p ++ "*" ++ q) e he
  refine ⟨h, hh, ?_⟩
  intro text
  rw [hacc, Table.accepts, beq_iff_eq, hchains.run_iff 0 (Nat.zero_le _)]
  constructor
  · rintro ⟨u, v, huv, hcut, hv⟩
    refine ⟨String.ofList u, String.ofList v, ?_, (pattern_cuts_iff f d hfacc u v).mpr hcut, ?_⟩
    · rw [← String.ofList_append, ← huv, String.ofList_toList]
    · rw [hgacc, String.toList_ofList, hv]
  · rintro ⟨u, v, rfl, hcut, hv⟩
    refine ⟨u.toList, v.toList, String.toList_append, ?_, hgacc v ▸ hv⟩
    rw [← pattern_cuts_iff f d hfacc, String.ofList_toList, String.ofList_toList]
    exact hcut

end Compile

/-- A pattern with a star compiles if both parts do, a failure of the second part counted behind
the first, and it accepts a text if behind the shortest part that the first pattern accepts the
second one accepts the rest. -/
theorem star_splits_pattern (p q : String)
    (hp : backslashesBefore p.toList p.toList.length % 2 = 0) :
    ((∃ h, Pattern.compile (p ++ "*" ++ q) = .ok h) ↔
      (∃ f, Pattern.compile p = .ok f) ∧ ∃ g, Pattern.compile ("*" ++ q) = .ok g) ∧
    (∀ err, Pattern.compile p = .error err → Pattern.compile (p ++ "*" ++ q) = .error err) ∧
    (∀ f r, Pattern.compile p = .ok f → Pattern.compile ("*" ++ q) = .error (.oneAfterStar r) →
      Pattern.compile (p ++ "*" ++ q) = .error (.oneAfterStar (p.length + r))) ∧
    ∀ f g h, Pattern.compile p = .ok f → Pattern.compile ("*" ++ q) = .ok g →
      Pattern.compile (p ++ "*" ++ q) = .ok h → ∀ text, h.accepts text = true ↔
        ∃ u v, text = u ++ v ∧ f.Cuts u v ∧ g.accepts v = true := by
  refine ⟨?_, compile_error_before_star p q hp, compile_error_behind_star p q hp, ?_⟩
  · constructor
    · rintro ⟨h, hh⟩
      cases hf : Pattern.compile p with
      | error err => simp [compile_error_before_star p q hp err hf] at hh
      | ok f =>
        cases hg : Pattern.compile ("*" ++ q) with
        | error err =>
          obtain ⟨r⟩ := err
          simp [compile_error_behind_star p q hp f r hf hg] at hh
        | ok g => exact ⟨⟨f, rfl⟩, g, rfl⟩
    · rintro ⟨⟨f, hf⟩, g, hg⟩
      obtain ⟨h, hh, -⟩ := accepts_around_star p q hp f g hf hg
      exact ⟨h, hh⟩
  · intro f g h hf hg hh
    obtain ⟨h', hh', hacc⟩ := accepts_around_star p q hp f g hf hg
    rw [hh] at hh'
    cases hh'
    exact hacc

theorem star_splits_behind_any_two :
    (∃ f g, Pattern.compile "a?" = .ok f ∧ Pattern.compile ("*" ++ "b?a") = .ok g ∧
      ∃ u v, "axxbya" = u ++ v ∧ f.Cuts u v ∧ g.accepts v = true) ∧
      Pattern.compile ("a?" ++ "*" ++ "b*?") = .error (.oneAfterStar 5) := by
  have h₁ := star_splits_pattern "a?" "b?a" (by decide)
  have h₂ := star_splits_pattern "a?" "b*?" (by decide)
  refine ⟨⟨_, _, rfl, rfl, ?_⟩, h₂.2.2.1 _ 3 rfl rfl⟩
  exact (h₁.2.2.2 _ _ _ rfl rfl rfl "axxbya").mp (by decide)

end PageLookup.Glob
