import PageLookup.Proofs.Glob.Compiled

/-!
# Characters under other names

A pattern tells a character only from those it names itself. If the characters
of a pattern and of a text are replaced alike, no two that the pattern tells
apart by the same one, a draft fails at the same place or grows the same states
with arcs for the new names, and a run goes the same way.
-/

set_option autoImplicit false

namespace PageLookup.Glob

/-- A map of characters that leaves the special ones and nothing else special, and that gives no
other character the name of one of these. -/
structure Renames (f : Char → Char) (cs : List Char) : Prop where
  special : ∀ c, isSpecial c = true → f c = c
  ordinary : ∀ c, isSpecial c = false → isSpecial (f c) = false
  apart : ∀ c ∈ cs, ∀ d, f d = f c → d = c

def Token.rename (f : Char → Char) : Token → Token
  | .literal c => .literal (f c)
  | .one => .one
  | .star => .star

def Symbol.rename (f : Char → Char) (s : Symbol) : Symbol := ⟨s.token.rename f, s.position⟩

section Reading

variable {f : Char → Char} {cs : List Char}

theorem Renames.isSpecial_eq (h : Renames f cs) (c : Char) : isSpecial (f c) = isSpecial c := by
  cases hc : isSpecial c with
  | true => rw [h.special c hc, hc]
  | false => exact h.ordinary c hc

/-- A special character is the only one with its name. -/
theorem Renames.eq_special_iff (h : Renames f cs) (s : Char) (hs : isSpecial s = true) (c : Char) :
    f c = s ↔ c = s := by
  constructor
  · rintro rfl
    rw [h.isSpecial_eq] at hs
    exact (h.special c hs).symm
  · rintro rfl
    exact h.special c hs

theorem Renames.bare (h : Renames f cs) (c : Char) :
    Token.bare (f c) = (Token.bare c).rename f := by
  simp only [Token.bare, h.eq_special_iff '*' rfl, h.eq_special_iff '?' rfl]
  split_ifs <;> rfl

theorem Renames.symbolsFrom_map (h : Renames f cs) (n : Nat) (raw : List Char) :
    symbolsFrom n (raw.map f) = (symbolsFrom n raw).map (.rename f) := by
  have hback := h.eq_special_iff '\\' rfl
  induction n, raw using symbolsFrom.induct with
  | case1 n => rfl
  | case2 n => simp [symbolsFrom, hback]
  | case3 n c hc => simp [symbolsFrom, hback, hc, h.bare, Symbol.rename]
  | case4 n d raw hd ih =>
    simpa [symbolsFrom, hback, h.isSpecial_eq, hd, Symbol.rename, Token.rename] using ih
  | case5 n d raw hd ih =>
    simpa [symbolsFrom, hback, h.isSpecial_eq, hd, Symbol.rename, Token.rename] using ih
  | case6 n c d raw hc ih => simpa [symbolsFrom, hback, hc, h.bare, Symbol.rename] using ih

theorem eq_of_bare_literal (c a : Char) (h : Token.bare c = .literal a) : a = c := by
  unfold Token.bare at h
  split_ifs at h
  exact (Token.literal.inj h).symm

/-- No literal comes from anywhere but the raw pattern. -/
theorem mem_of_literal (n : Nat) (raw : List Char) (a : Char)
    (h : .literal a ∈ (symbolsFrom n raw).map (·.token)) : a ∈ raw := by
  induction n, raw using symbolsFrom.induct with
  | case1 n => simp [symbolsFrom] at h
  | case2 n => simp [symbolsFrom] at h
  | case3 n c hc =>
    have hbare : .literal a = Token.bare c := by simpa [symbolsFrom, hc] using h
    simp [eq_of_bare_literal c a hbare.symm]
  | case4 n d raw hd ih =>
    simp only [symbolsFrom, if_pos hd, ↓reduceIte, List.map_cons, List.mem_cons] at h
    rcases h with he | hmem
    · simp [Token.literal.inj he]
    · simp [ih hmem]
  | case5 n d raw hd ih =>
    simp only [symbolsFrom, if_neg hd, ↓reduceIte, List.map_cons, List.mem_cons] at h
    rcases h with he | he | hmem
    · simp [Token.literal.inj he]
    · simp [Token.literal.inj he]
    · simp [ih hmem]
  | case6 n c d raw hc ih =>
    simp only [symbolsFrom, if_neg hc, List.map_cons, List.mem_cons] at h
    rcases h with he | hmem
    · simp [eq_of_bare_literal c a he.symm]
    · exact List.mem_cons_of_mem c (ih (by simpa using hmem))

end Reading

namespace Draft

/-- A draft that answers the new name of a character as the other one does the old name. -/
structure Mirrors (f : Char → Char) (d e : Draft) : Prop where
  current : e.current = d.current
  anchor : e.anchor = d.anchor
  next : ∀ x c, e.next x (f c) = d.next x c

variable {f : Char → Char} {d e : Draft}

theorem empty_mirrors (f : Char → Char) : Mirrors f Draft.empty Draft.empty where
  current := rfl
  anchor := rfl
  next := by
    intro x c
    rfl

theorem Mirrors.resume (h : Mirrors f d e) (c : Char) : e.resume (f c) = d.resume c := by
  unfold Draft.resume
  rw [h.anchor]
  cases d.anchor with
  | none => rfl
  | some x => exact h.next x c

theorem Mirrors.star (h : Mirrors f d e) : Mirrors f d.star e.star where
  current := h.current
  anchor := congrArg some h.current
  next := h.next

theorem Mirrors.any (h : Mirrors f d e) : Mirrors f d.any e.any where
  current := by rw [any_current, any_current, h.current]
  anchor := h.anchor
  next := by
    intro x c
    rw [any_next, any_next, h.current, h.next]

/-- The arc of a literal answers the literal's new name and no other character's. -/
theorem Mirrors.literal (h : Mirrors f d e) (a : Char) (ha : ∀ c, f c = f a → c = a) :
    Mirrors f (d.literal a) (e.literal (f a)) where
  current := by rw [literal_current, literal_current, h.current]
  anchor := by
    rw [literal_anchor, literal_anchor, h.anchor]
    cases d.anchor with
    | none => rfl
    | some x => simp only [Option.map_some, h.next]
  next := by
    intro x c
    have hiff : f c = f a ↔ c = a := ⟨ha c, congrArg f⟩
    simp only [literal_next, h.current, h.next, h.resume, hiff]

/-- Renamed symbols build a draft that mirrors the other, or fail at the same place. -/
theorem Mirrors.addAll (h : Mirrors f d e) (symbols : List Symbol)
    (hs : ∀ s ∈ symbols, ∀ a, s.token = .literal a → ∀ c, f c = f a → c = a) :
    match d.addAll symbols with
    | .ok d' => ∃ e', e.addAll (symbols.map (.rename f)) = .ok e' ∧ Mirrors f d' e'
    | .error err => e.addAll (symbols.map (.rename f)) = .error err := by
  induction symbols generalizing d e with
  | nil => exact ⟨e, rfl, h⟩
  | cons s symbols ih =>
    obtain ⟨t, n⟩ := s
    have hrest : ∀ s ∈ symbols, ∀ a, s.token = .literal a → ∀ c, f c = f a → c = a := by
      intro s hmem
      exact hs s (List.mem_cons_of_mem _ hmem)
    cases t with
    | star => exact ih h.star hrest
    | literal a => exact ih (h.literal a (hs _ List.mem_cons_self a rfl)) hrest
    | one =>
      by_cases hd : d.anchor = some d.current
      · simp [Draft.addAll, add, one, Symbol.rename, Token.rename, h.anchor, h.current, hd]
      · simpa [Draft.addAll, add, one, Draft.any, Symbol.rename, Token.rename, h.anchor, h.current,
          hd] using ih h.any hrest

end Draft

section Run

variable {f : Char → Char} {d e : Draft}

theorem Draft.Mirrors.step (h : Mirrors f d e) (x : Nat) (c : Char) :
    e.finish.step x (f c) = d.finish.step x c := by
  rw [step_finish, step_finish, h.current, h.next, h.resume]

theorem Draft.Mirrors.run (h : Mirrors f d e) (x : Nat) (text : List Char) :
    e.finish.run x (text.map f) = d.finish.run x text := by
  induction text generalizing x with
  | nil => rfl
  | cons c text ih =>
    rw [List.map_cons, Table.run, Table.run, h.step]
    cases d.finish.step x c with
    | none => rfl
    | some y => exact ih y

theorem Draft.Mirrors.accepts (h : Mirrors f d e) (text : List Char) :
    e.finish.accepts (text.map f) = d.finish.accepts text := by
  rw [Table.accepts, Table.accepts, h.run, accepting_finish, accepting_finish, h.current]

end Run

section Compile

variable {f : Char → Char} {raw : String}

theorem Renames.addAll (h : Renames f raw.toList) :
    match Draft.empty.addAll (symbolsFrom 0 raw.toList) with
    | .ok d => ∃ e, Draft.empty.addAll (symbolsFrom 0 (raw.map f).toList) = .ok e ∧
        Draft.Mirrors f d e
    | .error err => Draft.empty.addAll (symbolsFrom 0 (raw.map f).toList) = .error err := by
  rw [String.toList_map, h.symbolsFrom_map]
  apply (Draft.empty_mirrors f).addAll
  intro s hs a ha
  exact h.apart a (mem_of_literal 0 raw.toList a (ha ▸ List.mem_map_of_mem hs))

theorem Renames.compile_error (h : Renames f raw.toList) (err : CompileError)
    (hp : Pattern.compile raw = .error err) : Pattern.compile (raw.map f) = .error err := by
  rw [compile_error_iff] at hp ⊢
  have hadd := h.addAll
  rwa [hp] at hadd

theorem Renames.compile_ok (h : Renames f raw.toList) (p : Pattern)
    (hp : Pattern.compile raw = .ok p) :
    ∃ q, Pattern.compile (raw.map f) = .ok q ∧
      ∀ text : String, q.accepts (text.map f) = p.accepts text := by
  obtain ⟨d, hd, hpacc⟩ := addAll_of_compile raw p hp
  have hadd := h.addAll
  rw [hd] at hadd
  obtain ⟨e, he, hmirrors⟩ := hadd
  obtain ⟨q, hq, hqacc⟩ := compile_of_addAll (raw.map f) e he
  refine ⟨q, hq, fun text => ?_⟩
  rw [hqacc, hpacc, String.toList_map, hmirrors.accepts]

end Compile

/-- A pattern with other names for its characters fails where the first one does, and otherwise
accepts a text with the new names if the first pattern accepts the text with the old ones. -/
theorem compile_renamed (f : Char → Char) (raw : String) (hf : Renames f raw.toList) :
    (∀ err, Pattern.compile (raw.map f) = .error err ↔ Pattern.compile raw = .error err) ∧
    ((∃ q, Pattern.compile (raw.map f) = .ok q) ↔ ∃ p, Pattern.compile raw = .ok p) ∧
    ∀ p q, Pattern.compile raw = .ok p → Pattern.compile (raw.map f) = .ok q →
      ∀ text : String, q.accepts (text.map f) = true ↔ p.accepts text = true := by
  cases hp : Pattern.compile raw with
  | error err =>
    have hq := hf.compile_error err hp
    simp [hq]
  | ok p =>
    obtain ⟨q, hq, hacc⟩ := hf.compile_ok p hp
    simp [hq, hacc]

/-- The first letter comes to stand behind the second one in order, and two characters that the
pattern does not name become one. -/
theorem compile_renamed_out_of_order :
    let f : Char → Char := fun c => if c = 'a' then 'z' else if c = 'z' then 'm' else c
    Renames f "*aab".toList ∧ Renames f "a*?".toList ∧
      (∃ p q, Pattern.compile "*aab" = .ok p ∧ Pattern.compile "*zzb" = .ok q ∧
        p.accepts "zmaaab" = true ∧ q.accepts "mmzzzb" = true) ∧
      Pattern.compile "z*?" = .error (.oneAfterStar 2) := by
  intro f
  have hspecial (c : Char) (hc : isSpecial c = true) : f c = c := by
    have hne : c ≠ 'a' ∧ c ≠ 'z' := by
      constructor <;> rintro rfl <;> cases hc
    simp only [f, if_neg hne.1, if_neg hne.2]
  have hordinary (c : Char) (hc : isSpecial c = false) : isSpecial (f c) = false := by
    simp only [f]
    split_ifs
    · rfl
    · rfl
    · exact hc
  have hapart (c : Char) (hc : c ≠ 'z' ∧ c ≠ 'm') (d : Char) (hd : f d = f c) : d = c := by
    simp only [f, if_neg hc.1] at hd
    split_ifs at hd with hda hca hdz hca hca
    · rw [hda, hca]
    · exact absurd hd.symm hc.1
    · cases hd
    · exact absurd hd.symm hc.2
    · exact absurd hd hdz
    · exact hd
  have hletters : ∀ c ∈ "*aab".toList ++ "a*?".toList, c ≠ 'z' ∧ c ≠ 'm' := by simp
  have hfirst : Renames f "*aab".toList :=
    ⟨hspecial, hordinary, fun c hc => hapart c (hletters c (List.mem_append_left _ hc))⟩
  have hsecond : Renames f "a*?".toList :=
    ⟨hspecial, hordinary, fun c hc => hapart c (hletters c (List.mem_append_right _ hc))⟩
  have hmap (s t : String) (h : s.toList.map f = t.toList) : s.map f = t :=
    String.toList_inj.mp (String.toList_map.trans h)
  refine ⟨hfirst, hsecond, ⟨_, _, rfl, rfl, by decide, ?_⟩, ?_⟩
  · have h := compile_renamed f "*aab" hfirst
    rw [hmap "*aab" "*zzb" (by decide)] at h
    have hiff := h.2.2 _ _ rfl rfl "zmaaab"
    rw [hmap "zmaaab" "mmzzzb" (by decide)] at hiff
    exact hiff.mpr (by decide)
  · have h := compile_renamed f "a*?" hsecond
    rw [hmap "a*?" "z*?" (by decide)] at h
    exact (h.1 _).mpr (by decide)

end PageLookup.Glob
