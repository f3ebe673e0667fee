import PageLookup.Proofs.Glob.Ground

/-!
# Texts that go astray

An arc that is not grounded makes the table accept a text outside the language:
along the tokens to the state of the arc, over the arc, and along the tokens
again to the end. A question mark on the way is given any character that is not
the state's own. The text holds the span nowhere: at its end since the arc is
not grounded, and further left since the letters cannot be matched, as there is
one letter too few in any stretch that has the length of the span's.
-/

set_option autoImplicit false

namespace PageLookup.Glob

def Token.sample (z : Char) : Token → Char
  | .literal c => c
  | .one => z
  | .star => z

theorem fitsEach_sample (z : Char) (ts : List Token) (hs : .star ∉ ts) :
    FitsEach ts (ts.map (·.sample z)) := by
  induction ts with
  | nil => exact .nil
  | cons t ts ih =>
    refine (fitsEach_cons_iff t ts _).mpr ⟨_, _, rfl, ?_, ih fun h => hs (by simp [h])⟩
    cases t with
    | literal d => simp [Token.fits, Token.sample]
    | one => rfl
    | star => simp at hs

theorem count_le_of_fitsEach (b : Char) (ts : List Token) (text : List Char)
    (h : FitsEach ts text) : ts.count (.literal b) ≤ text.count b := by
  induction ts generalizing text with
  | nil => simp
  | cons t ts ih =>
    obtain ⟨c, rest, rfl, hc, hr⟩ := (fitsEach_cons_iff t ts text).mp h
    have hle := ih rest hr
    by_cases ht : t = .literal b
    · subst ht
      obtain rfl : b = c := by simpa [Token.fits] using hc
      simpa using hle
    · rw [List.count_cons_of_ne ht]
      exact Nat.le_trans hle (List.count_le_count_cons)

theorem count_sample (b z : Char) (hz : z ≠ b) (ts : List Token) :
    (ts.map (·.sample z)).count b = ts.count (.literal b) := by
  induction ts with
  | nil => rfl
  | cons t ts ih =>
    rw [List.map_cons, List.count_cons, List.count_cons, ih]
    cases t <;> simp [Token.sample, hz]

/-- Turned round, the tokens before a literal leave no letter for it. -/
theorem not_fitsEach_turned (b c z : Char) (hc : c ≠ b) (hz : z ≠ b) (ts : List Token) (d : Nat) :
    ¬FitsEach (ts ++ [.literal b])
      ((ts.drop d).map (·.sample z) ++ [c] ++ (ts.take d).map (·.sample z)) := by
  intro h
  have hcount := count_le_of_fitsEach b _ _ h
  have hsplit : ts.count (.literal b) =
      (ts.take d).count (.literal b) + (ts.drop d).count (.literal b) := by
    rw [← List.count_append, List.take_append_drop]
  simp only [List.count_append, count_sample b z hz, List.count_singleton_self,
    List.count_cons_of_ne hc, List.count_nil] at hcount
  omega

/-- Tokens cover others as soon as they fit two samples of them that differ. -/
theorem covers_of_samples (y z : Char) (hyz : y ≠ z) (ts us : List Token)
    (hy : FitsEach ts (us.map (·.sample y))) (hz : FitsEach ts (us.map (·.sample z))) :
    Covers ts us := by
  induction ts generalizing us with
  | nil =>
    obtain rfl : us = [] := by simpa [fitsEach_nil_iff] using hy
    exact .nil
  | cons t ts ih =>
    obtain ⟨c, rest, hu, hc, hr⟩ := (fitsEach_cons_iff t ts _).mp hy
    obtain ⟨u, us, rfl⟩ : ∃ u us', us = u :: us' := by
      cases us with
      | nil => simp at hu
      | cons u us => exact ⟨u, us, rfl⟩
    obtain ⟨rfl, rfl⟩ := List.cons.inj hu
    obtain ⟨c', rest', hu', hc', hr'⟩ := (fitsEach_cons_iff t ts _).mp hz
    obtain ⟨rfl, rfl⟩ := List.cons.inj hu'
    refine .cons ?_ (ih us hr hr')
    cases t with
    | star => simp [Token.fits] at hc
    | one => exact .inl rfl
    | literal d =>
      cases u with
      | literal d' => simpa [Token.fits, Token.sample] using hc
      | one => simp_all [Token.fits, Token.sample]
      | star => simp_all [Token.fits, Token.sample]

theorem exists_two_chars (b : Char) : ∃ y z : Char, y ≠ z ∧ y ≠ b ∧ z ≠ b := by
  by_cases h0 : b = '0'
  · exact ⟨'1', '2', by decide, by subst h0; decide, by subst h0; decide⟩
  · by_cases h1 : b = '1'
    · exact ⟨'0', '2', by decide, by subst h1; decide, by subst h1; decide⟩
    · exact ⟨'0', '1', by decide, Ne.symm h0, Ne.symm h1⟩

/-- Along the tokens to a place, over a character, and along them again from another place. -/
def detour (z : Char) (past : List Token) (c : Char) (j : Nat) (rest : List Token) : List Char :=
  past.map (·.sample z) ++ [c] ++ (past.drop j ++ rest).map (·.sample z)

theorem detour_append (z : Char) (past : List Token) (c : Char) (j : Nat) (xs ys : List Token) :
    detour z past c j (xs ++ ys) = detour z past c j xs ++ ys.map (·.sample z) := by
  simp [detour]

theorem detour_length (z : Char) (past : List Token) (c : Char) (j : Nat) (hj : j ≤ past.length)
    (rest : List Token) :
    (detour z past c j rest).length = (past ++ rest).length + (past.length + 1 - j) := by
  simp [detour]
  omega

theorem lastRead_length (past : List Token) (c : Char) (j : Nat) (hj : j ≤ past.length) :
    (lastRead past c j).length = j := by
  simp [lastRead]
  omega

theorem detour_drop_end (z : Char) (past : List Token) (c : Char) (j : Nat) (rest : List Token) :
    (detour z past c j rest).drop (past.length + 1 - j) =
      (lastRead past c j).map (·.sample z) ++ (past.drop j ++ rest).map (·.sample z) := by
  rw [detour, List.drop_append_of_le_length (by simp), lastRead, List.map_drop]
  simp [Token.sample]

theorem fitsEach_end (z : Char) (past : List Token) (c : Char) (j : Nat) (hj : j ≤ past.length)
    (rest : List Token)
    (h : FitsEach (past ++ rest)
      (((detour z past c j rest).drop (past.length + 1 - j)).take (past ++ rest).length)) :
    FitsEach (past.take j) ((lastRead past c j).map (·.sample z)) := by
  have ht := h.take j
  rw [List.take_append_of_le_length hj, List.take_take, detour_drop_end,
    Nat.min_eq_left (by simp; omega)] at ht
  rwa [List.take_left' (by simp [lastRead_length past c j hj])] at ht

theorem detour_stretch (z : Char) (past : List Token) (c : Char) (j d : Nat)
    (hd : d + j ≤ past.length) (rest : List Token) :
    ((detour z past c j rest).drop (d + j)).take (past.length - j + 1) =
      ((past.drop j).drop d).map (·.sample z) ++ [c] ++
        ((past.drop j).take d).map (·.sample z) := by
  have hsplit : detour z past c j rest = past.map (·.sample z) ++
      ([c] ++ ((past.drop j).take d).map (·.sample z) ++
        ((past.drop j).drop d ++ rest).map (·.sample z)) := by
    rw [List.append_assoc [c], ← List.map_append, ← List.append_assoc (List.take d _),
      List.take_append_drop, detour, List.append_assoc]
  rw [hsplit, List.drop_append_of_le_length (by simpa using hd), ← List.append_assoc,
    List.take_left' (by simp; omega), ← List.append_assoc, List.map_drop, List.map_drop,
    List.drop_drop, Nat.add_comm j d]

/-- Before its end a detour does not hold the span, for want of the letter left out. -/
theorem not_fitsEach_early (z b c : Char) (hc : c ≠ b) (hz : z ≠ b) (past rest : List Token)
    (j d : Nat) (hd : d + j ≤ past.length) :
    ¬FitsEach (past ++ .literal b :: rest)
      (((detour z past c j (.literal b :: rest)).drop d).take (past ++ .literal b :: rest).length) := by
  intro h
  -- the stretch of the span from place `j` up to its letter `b`
  have hmid := (h.drop j).take (past.length - j + 1)
  have hleft : ((past ++ .literal b :: rest).drop j).take (past.length - j + 1) =
      past.drop j ++ [.literal b] := by
    rw [show past ++ .literal b :: rest = past ++ ([.literal b] ++ rest) from rfl,
      List.drop_append_of_le_length (by omega), ← List.append_assoc, List.take_left' (by simp)]
  rw [hleft, List.drop_take, List.take_take, List.drop_drop, Nat.min_eq_left (by simp; omega),
    detour_stretch z past c j d hd] at hmid
  exact not_fitsEach_turned b c z hc hz (past.drop j) d hmid

end PageLookup.Glob
