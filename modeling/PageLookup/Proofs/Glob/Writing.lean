import PageLookup.Glob.Written
import PageLookup.Proofs.Glob.Compiled

/-!
# Written tokens are read back

A written token ends where no backslash is waiting, so it is read as itself
whatever stands behind it. A list is then read back token by token, and an
escaped text is a pattern that matches this text and no other.
-/

set_option autoImplicit false

namespace PageLookup.Glob

/-- A written token is read at its last character. -/
theorem symbolsFrom_written (n : Nat) (t : Token) (cs : List Char) :
    symbolsFrom n (t.written ++ cs) =
      ⟨t, n + t.written.length - 1⟩ :: symbolsFrom (n + t.written.length) cs := by
  cases t with
  | one => exact symbolsFrom_cons n '?' (by decide) cs
  | star => exact symbolsFrom_cons n '*' (by decide) cs
  | literal c =>
    rw [Token.written]
    cases hc : isSpecial c with
    | true => simp [symbolsFrom, hc]
    | false =>
      obtain ⟨hback, hbare⟩ := plain_of_not_special c hc
      simpa [hbare] using symbolsFrom_cons n c hback cs

theorem tokens_written (n : Nat) (ts : List Token) :
    (symbolsFrom n (ts.flatMap (·.written))).map (·.token) = ts := by
  induction ts generalizing n with
  | nil => rfl
  | cons t ts ih => rw [List.flatMap_cons, symbolsFrom_written, List.map_cons, ih]

/-- The reading of a written list has its tokens, and is literal if no wildcard is among them. -/
theorem ofRaw_written (ts : List Token) :
    if ts.any (·.isWild) then
      ∃ list, Reading.ofRaw (written ts) = .symbols list ∧ list.map (·.token) = ts
    else ∃ text, Reading.ofRaw (written ts) = .literal text ∧ text.toList.map .literal = ts := by
  have hread : (symbolsFrom 0 (written ts).toList).map (·.token) = ts := by
    rw [written, String.toList_ofList, tokens_written]
  have hwild : (symbolsFrom 0 (written ts).toList).any (·.token.isWild) = ts.any (·.isWild) := by
    rw [any_isWild, hread]
  rw [ofRaw_eq, hwild]
  cases hw : ts.any (·.isWild) with
  | true => exact ⟨_, rfl, hread⟩
  | false =>
    refine ⟨_, rfl, ?_⟩
    rw [String.toList_ofList, ← token_eq_literal _ (hwild.trans hw), hread]

theorem compile_escaped (text : String) :
    Pattern.compile (escaped text) = .ok ⟨escaped text, .text text⟩ := by
  have hread := ofRaw_written (text.toList.map .literal)
  have hplain : (text.toList.map Token.literal).any (·.isWild) = false := by
    simp [Token.isWild]
  rw [hplain] at hread
  obtain ⟨text', hread, hchars⟩ := hread
  have hinj : Function.Injective Token.literal := fun _ _ => Token.literal.inj
  obtain rfl : text' = text := String.toList_inj.mp (List.map_injective_iff.mpr hinj hchars)
  rw [Pattern.compile, escaped, hread]

/-- Written tokens are read back, and the pattern of an escaped text is literal and matches this
text and no other. -/
theorem written_reads_back (ts : List Token) (text : String) :
    (if ts.any (·.isWild) then
      ∃ list, Reading.ofRaw (written ts) = .symbols list ∧ list.map (·.token) = ts
    else ∃ plain, Reading.ofRaw (written ts) = .literal plain ∧ plain.toList.map .literal = ts) ∧
    ∃ p, Pattern.compile (escaped text) = .ok p ∧ p.isLiteral = true ∧
      ∀ candidate, p.accepts candidate = true ↔ candidate = text := by
  refine ⟨ofRaw_written ts, _, compile_escaped text, rfl, ?_⟩
  intro candidate
  rw [Pattern.accepts, beq_iff_eq, eq_comm]

end PageLookup.Glob
