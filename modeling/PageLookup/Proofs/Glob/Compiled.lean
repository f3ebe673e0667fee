import PageLookup.Proofs.Glob.Window

/-!
# One table for every pattern

A pattern without wildcards is compared with its text and has no table, yet the
table its tokens build would accept that text and no other. So every compiled
pattern accepts what the table of its tokens accepts, and compiling fails
exactly where building that table fails.
-/

set_option autoImplicit false

namespace PageLookup.Glob

section Plain

variable {e : Draft}

theorem step_plain (xs ys : List Token) (hx : .star ∉ xs) (hy : ys.head? ≠ some .star)
    (he : Draft.empty.grow (xs ++ ys) = some e) (c : Char) :
    e.finish.step xs.length c = if ys.head?.any (·.fits c) then some (xs.length + 1) else none := by
  obtain ⟨m, hm, -, hstep⟩ := step_of_split xs ys he hy
  rw [solid_of_plain xs hx] at hstep
  rw [hstep c, Stands.resume_plain hx hm]

theorem run_plain (xs ys : List Token) (hs : .star ∉ xs ++ ys)
    (he : Draft.empty.grow (xs ++ ys) = some e) (text : List Char) :
    e.finish.run xs.length text = some (xs ++ ys).length ↔ FitsEach ys text := by
  induction ys generalizing xs text with
  | nil =>
    have hx : .star ∉ xs := by simpa using hs
    rw [fitsEach_nil_iff]
    cases text with
    | nil => simp [Table.run]
    | cons c rest => simp [Table.run, step_plain xs [] hx (by simp) he c]
  | cons t ys ih =>
    have hx : .star ∉ xs := fun h => hs (by simp [h])
    have hy : (t :: ys).head? ≠ some .star := fun h => hs (by simp [List.mem_of_mem_head? h])
    cases text with
    | nil => simp [Table.run, fitsEach_cons_iff]
    | cons c rest =>
      rw [fitsEach_cons_iff, Table.run, step_plain xs (t :: ys) hx hy he c]
      by_cases ht : t.fits c = true
      · rw [show xs ++ t :: ys = (xs ++ [t]) ++ ys by simp] at hs he
        have hrec := ih (xs ++ [t]) hs he rest
        simpa [ht] using hrec
      · simp [ht]

theorem accepts_plain_iff (ts : List Token) (hs : .star ∉ ts)
    (he : Draft.empty.grow ts = some e) (text : List Char) :
    e.finish.accepts text = true ↔ FitsEach ts text := by
  rw [accepts_iff_run ts he, solid_of_plain ts hs]
  exact run_plain [] ts hs he text

end Plain

section Reading

theorem plain_of_not_special (c : Char) (h : isSpecial c = false) :
    c ≠ '\\' ∧ Token.bare c = .literal c := by
  simp only [isSpecial, Bool.or_eq_false_iff, beq_eq_false_iff_ne] at h
  obtain ⟨⟨hstar, hone⟩, hback⟩ := h
  exact ⟨hback, by simp [Token.bare, hstar, hone]⟩

theorem symbolsFrom_cons (n : Nat) (c : Char) (hc : c ≠ '\\') (cs : List Char) :
    symbolsFrom n (c :: cs) = ⟨.bare c, n⟩ :: symbolsFrom (n+1) cs := by
  cases cs <;> simp [symbolsFrom, hc]

theorem symbolsFrom_plain (cs : List Char) (n : Nat) (h : cs.any isSpecial = false) :
    (symbolsFrom n cs).map (·.token) = cs.map .literal := by
  induction cs generalizing n with
  | nil => rfl
  | cons c cs ih =>
    rw [List.any_cons, Bool.or_eq_false_iff] at h
    obtain ⟨hback, hbare⟩ := plain_of_not_special c h.1
    rw [symbolsFrom_cons n c hback, List.map_cons, ih (n+1) h.2, hbare, List.map_cons]

theorem any_isWild (list : List Symbol) :
    list.any (·.token.isWild) = (list.map (·.token)).any (·.isWild) := by
  rw [List.any_map, Function.comp_def]

theorem token_eq_literal (list : List Symbol) (h : list.any (·.token.isWild) = false) :
    list.map (·.token) = (list.filterMap (·.token.char?)).map .literal := by
  induction list with
  | nil => rfl
  | cons s list ih =>
    obtain ⟨t, n⟩ := s
    cases t <;> simp_all [Token.isWild, Token.char?]

/-- Reading a text without special characters would find its own characters. -/
theorem ofRaw_eq (raw : String) :
    Reading.ofRaw raw =
      if (symbolsFrom 0 raw.toList).any (·.token.isWild) then .symbols (symbolsFrom 0 raw.toList)
      else .literal (String.ofList ((symbolsFrom 0 raw.toList).filterMap (·.token.char?))) := by
  by_cases hs : raw.toList.any isSpecial = true
  · rw [Reading.ofRaw, if_pos hs]
  · have hplain := symbolsFrom_plain raw.toList 0 (by simpa using hs)
    have hwild : (symbolsFrom 0 raw.toList).any (·.token.isWild) = false := by
      rw [any_isWild, hplain]
      simp [Token.isWild]
    have hchars : (symbolsFrom 0 raw.toList).filterMap (·.token.char?) = raw.toList := by
      calc (symbolsFrom 0 raw.toList).filterMap (·.token.char?)
          = ((symbolsFrom 0 raw.toList).map (·.token)).filterMap Token.char? := by
            rw [List.filterMap_map, Function.comp_def]
        _ = raw.toList := by simp [hplain, Function.comp_def, Token.char?]
    rw [Reading.ofRaw, if_neg hs, hwild, hchars, String.ofList_toList]
    rfl

theorem ofRaw_tokens (raw : String) :
    (∃ text, Reading.ofRaw raw = .literal text ∧ tokens raw = text.toList.map .literal) ∨
      Reading.ofRaw raw = .symbols (symbolsFrom 0 raw.toList) := by
  rw [ofRaw_eq]
  by_cases hw : (symbolsFrom 0 raw.toList).any (·.token.isWild) = true
  · exact .inr (if_pos hw)
  · refine .inl ⟨_, if_neg hw, ?_⟩
    rw [tokens, token_eq_literal _ (by simpa using hw), String.toList_ofList]

end Reading

/-- A compiled pattern accepts what the table of its tokens accepts, and it has that table unless
it is a fixed text. -/
theorem table_of_compile (raw : String) (p : Pattern) (hp : Pattern.compile raw = .ok p) :
    ∃ e, Draft.empty.grow (tokens raw) = some e ∧
      (p.matcher = .table e.finish ∨ (∃ text, p.matcher = .text text) ∧ .star ∉ tokens raw) ∧
      ∀ text, p.accepts text = e.finish.accepts text.toList := by
  unfold Pattern.compile at hp
  rcases ofRaw_tokens raw with ⟨text, hr, ht⟩ | hr
  · rw [hr] at hp
    cases hp
    have hs : .star ∉ tokens raw := ht ▸ star_not_mem_literals text.toList
    obtain ⟨e, he⟩ := Draft.exists_grow_plain .empty (tokens raw) hs rfl
    refine ⟨e, he, .inr ⟨⟨text, rfl⟩, hs⟩, fun t => ?_⟩
    rw [Bool.eq_iff_iff, accepts_plain_iff _ hs he, ht, fitsEach_literals_iff]
    simp only [Pattern.accepts, beq_iff_eq, String.toList_inj, eq_comm (a := text)]
  · rw [hr] at hp
    simp only [Table.build] at hp
    cases hb : Draft.empty.addAll (symbolsFrom 0 raw.toList) with
    | error err => simp [hb] at hp
    | ok e =>
      simp only [hb, Except.ok.injEq] at hp
      subst hp
      exact ⟨e, (Draft.addAll_eq_ok _ e _).mp hb, .inl rfl, fun t => rfl⟩

theorem compile_error_iff (raw : String) (err : CompileError) :
    Pattern.compile raw = .error err ↔
      Draft.empty.addAll (symbolsFrom 0 raw.toList) = .error err := by
  rcases ofRaw_tokens raw with ⟨text, hr, ht⟩ | hr
  · have hs : .star ∉ tokens raw := ht ▸ star_not_mem_literals text.toList
    obtain ⟨e, he⟩ := Draft.exists_grow_plain .empty (tokens raw) hs rfl
    have hb := (Draft.addAll_eq_ok .empty e (symbolsFrom 0 raw.toList)).mpr he
    simp [Pattern.compile, hr, hb]
  · simp only [Pattern.compile, hr, Table.build]
    cases Draft.empty.addAll (symbolsFrom 0 raw.toList) <;> simp

theorem addAll_of_compile (raw : String) (p : Pattern) (hp : Pattern.compile raw = .ok p) :
    ∃ e, Draft.empty.addAll (symbolsFrom 0 raw.toList) = .ok e ∧
      ∀ text, p.accepts text = e.finish.accepts text.toList := by
  obtain ⟨e, he, -, hacc⟩ := table_of_compile raw p hp
  exact ⟨e, (Draft.addAll_eq_ok _ e _).mpr he, hacc⟩

theorem compile_of_addAll (raw : String) (e : Draft)
    (he : Draft.empty.addAll (symbolsFrom 0 raw.toList) = .ok e) :
    ∃ p, Pattern.compile raw = .ok p ∧ ∀ text, p.accepts text = e.finish.accepts text.toList := by
  cases hp : Pattern.compile raw with
  | error err =>
    rw [compile_error_iff, he] at hp
    cases hp
  | ok p =>
    obtain ⟨e', he', hacc⟩ := addAll_of_compile raw p hp
    rw [he] at he'
    cases he'
    exact ⟨p, rfl, hacc⟩

end PageLookup.Glob
