import PageLookup.Proofs.Glob.Placing

/-!
# Patterns that say the same

What a pattern is matched by depends on its tokens alone, and a run of stars
counts as one: a second star finds the anchor where it would put it. So two
spellings of the same tokens share their text or their table. A spelling
without wildcards has a text, the characters that are left when all backslashes
that act are gone, and its table would accept that text only.
-/

set_option autoImplicit false

namespace PageLookup.Glob

section Merge

/-- What a second star does not change, and what goes on alike behind the same token, is the same
once runs of stars are merged. -/
theorem mergeStars_invariant {α : Type} (f : List Token → α)
    (hstar : ∀ ts, f (.star :: .star :: ts) = f (.star :: ts))
    (hcons : ∀ t ts us, f ts = f us → f (t :: ts) = f (t :: us)) (ts : List Token) :
    f (mergeStars ts) = f ts := by
  induction ts using mergeStars.induct with
  | case1 => rfl
  | case2 t => rfl
  | case3 t u ts h ih =>
    obtain ⟨rfl, rfl⟩ := h
    rw [mergeStars, if_pos ⟨rfl, rfl⟩, ih, hstar]
  | case4 t u ts h ih => rw [mergeStars, if_neg h, hcons t _ _ ih]

/-- The second star puts the anchor where it is. -/
theorem grow_mergeStars (d : Draft) (ts : List Token) : d.grow (mergeStars ts) = d.grow ts := by
  apply congrFun (mergeStars_invariant (fun ts (d : Draft) => d.grow ts) _ _ ts) d
  · intro ts
    rfl
  · intro t ts us h
    funext d
    cases t with
    | star => exact congrFun h d.star
    | one => simp only [Draft.grow, congrFun h d.any]
    | literal c => exact congrFun h (d.literal c)

theorem any_isWild_mergeStars (ts : List Token) :
    (mergeStars ts).any (·.isWild) = ts.any (·.isWild) := by
  apply mergeStars_invariant (·.any (·.isWild))
  · intro ts
    rfl
  · intro t ts us h
    simp only [List.any_cons, h]

theorem chars_mergeStars (ts : List Token) :
    (mergeStars ts).filterMap (·.char?) = ts.filterMap (·.char?) := by
  apply mergeStars_invariant (·.filterMap (·.char?))
  · intro ts
    rfl
  · intro t ts us h
    simp only [List.filterMap_cons, h]

end Merge

section Matcher

def matcherOf (ts : List Token) : Option Matcher :=
  if ts.any (·.isWild) then (Draft.empty.grow ts).map fun e => .table e.finish
  else some (.text (String.ofList (ts.filterMap (·.char?))))

theorem matcherOf_mergeStars (ts : List Token) : matcherOf (mergeStars ts) = matcherOf ts := by
  rw [matcherOf, matcherOf, any_isWild_mergeStars, grow_mergeStars, chars_mergeStars]

theorem compile_matcher (raw : String) :
    (Pattern.compile raw).toOption.map (·.matcher) = matcherOf (tokens raw) := by
  have hgrow := Draft.addAll_toOption .empty (symbolsFrom 0 raw.toList)
  rw [Pattern.compile, ofRaw_eq, any_isWild, matcherOf, tokens, ← hgrow]
  by_cases hw : ((symbolsFrom 0 raw.toList).map (·.token)).any (·.isWild) = true
  · simp only [if_pos hw, Table.build]
    cases Draft.empty.addAll (symbolsFrom 0 raw.toList) <;> rfl
  · simp only [if_neg hw, List.filterMap_map]
    rfl

theorem matcher_of_compile (raw : String) (p : Pattern) (hp : Pattern.compile raw = .ok p) :
    matcherOf (tokens raw) = some p.matcher := by
  rw [← compile_matcher, hp]
  rfl

theorem matcher_of_failure (raw : String) (err : CompileError)
    (hp : Pattern.compile raw = .error err) : matcherOf (tokens raw) = none := by
  rw [← compile_matcher, hp]
  rfl

end Matcher

/-- Two raw patterns whose tokens are the same once runs of stars are merged both fail, or they
have the same text or the same table, and so they accept the same texts. -/
theorem compile_congr_of_mergeStars (raw₁ raw₂ : String)
    (h : mergeStars (tokens raw₁) = mergeStars (tokens raw₂)) :
    ((∃ err, Pattern.compile raw₁ = .error err) ∧ ∃ err, Pattern.compile raw₂ = .error err) ∨
      ∃ p q, Pattern.compile raw₁ = .ok p ∧ Pattern.compile raw₂ = .ok q ∧
        p.matcher = q.matcher ∧ ∀ text, p.accepts text = q.accepts text := by
  have hmatcher : matcherOf (tokens raw₁) = matcherOf (tokens raw₂) := by
    rw [← matcherOf_mergeStars, h, matcherOf_mergeStars]
  cases hp : Pattern.compile raw₁ with
  | error e₁ =>
    rw [matcher_of_failure raw₁ e₁ hp] at hmatcher
    cases hq : Pattern.compile raw₂ with
    | error e₂ => exact .inl ⟨⟨e₁, rfl⟩, e₂, rfl⟩
    | ok q =>
      rw [matcher_of_compile raw₂ q hq] at hmatcher
      cases hmatcher
  | ok p =>
    rw [matcher_of_compile raw₁ p hp] at hmatcher
    cases hq : Pattern.compile raw₂ with
    | error e₂ =>
      rw [matcher_of_failure raw₂ e₂ hq] at hmatcher
      cases hmatcher
    | ok q =>
      rw [matcher_of_compile raw₂ q hq] at hmatcher
      have heq : p.matcher = q.matcher := Option.some.inj hmatcher
      refine .inr ⟨p, q, rfl, rfl, heq, fun text => ?_⟩
      rw [Pattern.accepts, Pattern.accepts, heq]

/-- Backslashes written twice or once, stars repeated, and a backslash that is dropped. -/
theorem compile_congr_spellings :
    mergeStars (tokens "\\\\x**b") = mergeStars (tokens "\\x*b\\") ∧
      ∃ p q, Pattern.compile "\\\\x**b" = .ok p ∧ Pattern.compile "\\x*b\\" = .ok q ∧
        p.stateCount = some 4 ∧ p.matcher = q.matcher ∧
        ∀ text, p.accepts text = q.accepts text := by
  have hmerged : mergeStars (tokens "\\\\x**b") = mergeStars (tokens "\\x*b\\") := by decide
  refine ⟨hmerged, ?_⟩
  rcases compile_congr_of_mergeStars _ _ hmerged with ⟨⟨err, herr⟩, -⟩ | ⟨p, q, hp, hq, heq, hacc⟩
  · cases herr
  · refine ⟨p, q, hp, hq, ?_, heq, hacc⟩
    cases hp
    rfl

section Resolved

variable (cs : List Char) (h : ∀ i < cs.length, wildcardAt cs i = false)

include h

theorem no_wild_symbol : (symbolsByPlace cs).any (·.token.isWild) = false := by
  rw [List.any_eq_false]
  intro s hs hwild
  have hplace := (mem_symbolsByPlace_iff cs s).mp hs
  have hlt := (place_of_symbolAt? cs _ s hplace).1
  obtain ⟨c, hc, hbare, heven⟩ := (wildAt_iff cs s.position s.token hwild).mp hplace
  have hchar : c = '*' ∨ c = '?' := by
    obtain ⟨hspecial, hne⟩ := special_of_wild c (hbare ▸ hwild)
    simpa [isSpecial, hne] using hspecial
  have hnot := h s.position hlt
  rcases hchar with rfl | rfl <;> simp [wildcardAt, hc, heven] at hnot

theorem char_symbolAt? (i : Nat) (hi : i < cs.length) :
    (symbolAt? cs i).bind (·.token.char?) = if acts cs i then none else cs[i]? := by
  have hget := List.getElem?_eq_getElem hi
  rw [symbolAt?, hget]
  dsimp only
  by_cases hwild : cs[i] = '*' ∨ cs[i] = '?'
  · -- an odd run of backslashes stands before the character
    have hodd : backslashesBefore cs i % 2 = 1 := by
      have hnot := h i hi
      rcases hwild with hc | hc <;> simpa [wildcardAt, hget, hc] using hnot
    have hon : actedOn cs i = true := by
      rw [actedOn_eq cs i cs[i] hget, hodd]
      rcases hwild with hc | hc <;> rw [hc] <;> rfl
    rw [if_pos hon]
    split_ifs <;> rfl
  · have hbare : Token.bare cs[i] = .literal cs[i] := by
      obtain ⟨hstar, hone⟩ := not_or.mp hwild
      rw [Token.bare, if_neg hstar, if_neg hone]
    rw [hbare]
    split_ifs <;> rfl

theorem chars_symbolsByPlace : (symbolsByPlace cs).filterMap (·.token.char?) = resolved cs := by
  rw [symbolsByPlace, List.filterMap_filterMap, resolved]
  apply List.filterMap_congr
  intro i hi
  exact char_symbolAt? cs h i (List.mem_range.mp hi)

end Resolved

/-- A raw pattern without a wildcard is the text that is left of it, and the table of that text's
characters can be built and accepts what the comparison with the text does. -/
theorem literal_agrees_with_table (raw : String)
    (h : ∀ i < raw.toList.length, wildcardAt raw.toList i = false) :
    let text := String.ofList (resolved raw.toList)
    Reading.ofRaw raw = .literal text ∧ tokens raw = text.toList.map .literal ∧
      ∃ p, Pattern.compile raw = .ok p ∧ p.matcher = .text text ∧
        ∀ symbols : List Symbol, symbols.map (·.token) = text.toList.map .literal →
          ∃ t, Table.build symbols = .ok t ∧ ∀ candidate : String,
            t.accepts candidate.toList = p.accepts candidate ∧
              (p.accepts candidate = true ↔ candidate = text) := by
  intro text
  have hzero := symbolsFrom_zero raw.toList
  have hwild := no_wild_symbol raw.toList h
  have hchars := chars_symbolsByPlace raw.toList h
  have hread : Reading.ofRaw raw = .literal text := by
    rw [ofRaw_eq, hzero, hwild, hchars]
    rfl
  have htokens : tokens raw = text.toList.map .literal := by
    rw [tokens, hzero, token_eq_literal _ hwild, hchars, String.toList_ofList]
  refine ⟨hread, htokens, ⟨raw, .text text⟩, by simp only [Pattern.compile, hread], rfl, ?_⟩
  intro symbols hsymbols
  have hs := star_not_mem_literals text.toList
  obtain ⟨e, he⟩ := Draft.exists_grow_plain .empty (text.toList.map .literal) hs rfl
  refine ⟨e.finish, (build_eq_ok_iff symbols _).mpr ⟨e, hsymbols ▸ he, rfl⟩, fun candidate => ?_⟩
  have hfits : e.finish.accepts candidate.toList = true ↔ candidate = text := by
    rw [accepts_plain_iff _ hs he, fitsEach_literals_iff, String.toList_inj]
  have hequal : Pattern.accepts ⟨raw, .text text⟩ candidate = true ↔ candidate = text := by
    simp only [Pattern.accepts, beq_iff_eq, eq_comm (a := text)]
  exact ⟨Bool.eq_iff_iff.mpr (hfits.trans hequal.symm), hequal⟩

/-- A backslash makes a star ordinary and a last one is dropped; and an empty pattern. -/
theorem literal_agrees_with_table_dropped :
    (∀ i < "a\\*b\\".toList.length, wildcardAt "a\\*b\\".toList i = false) ∧
      (∃ p, Pattern.compile "a\\*b\\" = .ok p ∧
        ∃ t, Table.build [⟨.literal 'a', 0⟩, ⟨.literal '*', 2⟩, ⟨.literal 'b', 3⟩] = .ok t ∧
          ∀ candidate : String, t.accepts candidate.toList = p.accepts candidate ∧
            (p.accepts candidate = true ↔ candidate = "a*b")) ∧
      ∃ p, Pattern.compile "" = .ok p ∧ ∃ t, Table.build [] = .ok t ∧
        ∀ candidate : String, t.accepts candidate.toList = p.accepts candidate ∧
          (p.accepts candidate = true ↔ candidate = "") := by
  have hnone : ∀ i < "a\\*b\\".toList.length, wildcardAt "a\\*b\\".toList i = false := by decide
  refine ⟨hnone, ?_, ?_⟩
  · obtain ⟨-, -, p, hp, -, htable⟩ := literal_agrees_with_table "a\\*b\\" hnone
    exact ⟨p, hp, htable _ rfl⟩
  · obtain ⟨-, -, p, hp, -, htable⟩ := literal_agrees_with_table "" (by decide)
    exact ⟨p, hp, htable [] rfl⟩

end PageLookup.Glob
