import PageLookup.Proofs.Glob.Shift

/-!
# Reading place by place

Behind a part of a raw pattern that does not end in a backslash that acts every
place stands for what it stands for in the rest alone. So the symbols found by
reading from left to right are the symbols of the places: they come in the order
of their places, none is passed over, and a wildcard is a place behind an even
run of backslashes.
-/

set_option autoImplicit false

namespace PageLookup.Glob

section Backslashes

theorem backslashesBefore_succ (cs : List Char) (i : Nat) (c : Char) (h : cs[i]? = some c) :
    backslashesBefore cs (i+1) = if c = '\\' then backslashesBefore cs i + 1 else 0 := by
  rw [backslashesBefore, List.take_add_one, h, Option.toList_some, List.reverse_concat]
  by_cases hc : c = '\\'
  · simp [backslashesBefore, hc]
  · simp [hc]

theorem getElem?_append_place (p cs : List Char) (i : Nat) : (p ++ cs)[p.length + i]? = cs[i]? := by
  rw [List.getElem?_append_right (Nat.le_add_right _ _), Nat.add_sub_cancel_left]

theorem acts_append (p cs : List Char) (hp : backslashesBefore p p.length % 2 = 0) (i : Nat) :
    acts (p ++ cs) (p.length + i) = acts cs i := by
  rw [acts, acts, backslashesBefore_append p cs hp i, Nat.add_assoc, getElem?_append_place,
    getElem?_append_place]

/-- A special character is acted on behind an odd run of backslashes, and no other ever is. -/
theorem actedOn_eq (cs : List Char) (i : Nat) (c : Char) (h : cs[i]? = some c) :
    actedOn cs i = (isSpecial c && backslashesBefore cs i % 2 == 1) := by
  cases i with
  | zero => simp [actedOn, backslashesBefore]
  | succ j =>
    have hj : j < cs.length := by
      have := (List.getElem?_eq_some_iff.mp h).1
      omega
    have hget := List.getElem?_eq_getElem hj
    rw [backslashesBefore_succ cs j cs[j] hget, actedOn, acts, h, hget]
    by_cases hd : cs[j] = '\\'
    · have hparity :
          (backslashesBefore cs j % 2 == 0) = ((backslashesBefore cs j + 1) % 2 == 1) := by
        rw [Bool.eq_iff_iff, beq_iff_eq, beq_iff_eq]
        omega
      simp [hd, hparity, Bool.and_comm]
    · simp [hd]

end Backslashes

section Places

variable (cs : List Char)

theorem symbolAt?_append (p cs : List Char) (hp : backslashesBefore p p.length % 2 = 0) (i : Nat) :
    symbolAt? (p ++ cs) (p.length + i) = (symbolAt? cs i).map (.shift p.length) := by
  have hget := getElem?_append_place p cs i
  rw [symbolAt?, symbolAt?, hget, acts_append p cs hp i]
  cases hc : cs[i]? with
  | none => rfl
  | some c =>
    rw [actedOn_eq (p ++ cs) (p.length + i) c (hget.trans hc), actedOn_eq cs i c hc,
      backslashesBefore_append p cs hp i]
    dsimp only
    split_ifs <;> rfl

theorem symbolsByPlace_append (p cs : List Char) (hp : backslashesBefore p p.length % 2 = 0) :
    symbolsByPlace (p ++ cs) = (List.range p.length).filterMap (symbolAt? (p ++ cs)) ++
      (symbolsByPlace cs).map (.shift p.length) := by
  rw [symbolsByPlace, List.length_append, List.range_add, List.filterMap_append,
    List.filterMap_map, symbolsByPlace, List.map_filterMap]
  congr 1
  apply List.filterMap_congr
  intro i _
  exact symbolAt?_append p cs hp i

theorem symbolsByPlace_cons (c : Char) (hc : c ≠ '\\') (cs : List Char) :
    symbolsByPlace (c :: cs) = ⟨.bare c, 0⟩ :: (symbolsByPlace cs).map (.shift 1) := by
  have h : symbolAt? (c :: cs) 0 = some ⟨.bare c, 0⟩ := by simp [symbolAt?, acts, actedOn, hc]
  have happ := symbolsByPlace_append [c] cs (backslashes_cons c hc [])
  simpa [List.range_succ, h] using happ

theorem symbolsByPlace_pair (d : Char) (cs : List Char) :
    symbolsByPlace ('\\' :: d :: cs) =
      (if isSpecial d then [⟨.literal d, 1⟩] else [⟨.literal '\\', 0⟩, ⟨.literal d, 1⟩]) ++
        (symbolsByPlace cs).map (.shift 2) := by
  have hfirst : symbolAt? ('\\' :: d :: cs) 0 =
      if isSpecial d then none else some ⟨.literal '\\', 0⟩ := by
    simp [symbolAt?, acts, actedOn, backslashesBefore, Token.bare]
  have hsecond : symbolAt? ('\\' :: d :: cs) 1 = some ⟨.literal d, 1⟩ := by
    cases hd : isSpecial d with
    | true => simp [symbolAt?, acts, actedOn, backslashesBefore, hd]
    | false =>
      obtain ⟨-, hbare⟩ := plain_of_not_special d hd
      simp [symbolAt?, acts, actedOn, backslashesBefore, hd, hbare]
  have happ := symbolsByPlace_append ['\\', d] cs (backslashes_pair d [])
  by_cases hd : isSpecial d = true <;>
    simpa [List.range_succ, hfirst, hsecond, hd] using happ

/-- Reading from left to right finds the symbols of the places. -/
theorem symbolsFrom_eq (n : Nat) (cs : List Char) :
    symbolsFrom n cs = (symbolsByPlace cs).map (.shift n) := by
  induction n, cs using symbolsFrom.induct with
  | case1 n => rfl
  | case2 n => rfl
  | case3 n c hc =>
    rw [symbolsFrom, symbolsByPlace_cons c hc]
    simp [hc, Symbol.shift, symbolsByPlace]
  | case4 n d cs hd ih =>
    rw [symbolsFrom, symbolsByPlace_pair, ih]
    simp [hd, Symbol.shift, Nat.add_assoc]
  | case5 n d cs hd ih =>
    rw [symbolsFrom, symbolsByPlace_pair, ih]
    simp [hd, Symbol.shift, Nat.add_assoc]
  | case6 n c d cs hc ih =>
    rw [symbolsFrom, symbolsByPlace_cons c hc, ih]
    simp [hc, Symbol.shift, Nat.add_assoc]

theorem symbolsFrom_zero (cs : List Char) : symbolsFrom 0 cs = symbolsByPlace cs := by
  have hshift (s : Symbol) : s.shift 0 = s := by simp [Symbol.shift]
  rw [symbolsFrom_eq, List.map_id'' hshift]

theorem position_symbolAt? (i : Nat) (hi : i < cs.length) :
    (symbolAt? cs i).map (·.position) = if acts cs i then none else some i := by
  rw [symbolAt?, List.getElem?_eq_getElem hi]
  dsimp only
  split_ifs <;> rfl

theorem place_of_symbolAt? (i : Nat) (s : Symbol) (h : symbolAt? cs i = some s) :
    i < cs.length ∧ s.position = i := by
  have hi : i < cs.length := by
    apply Nat.lt_of_not_le
    intro hle
    simp [symbolAt?, List.getElem?_eq_none hle] at h
  have hmap := position_symbolAt? cs i hi
  rw [h, Option.map_some] at hmap
  split at hmap
  · cases hmap
  · exact ⟨hi, Option.some.inj hmap⟩

/-- The places whose character does not act carry one symbol each. -/
theorem positions_symbolsByPlace :
    (symbolsByPlace cs).map (·.position) = (List.range cs.length).filter (!acts cs ·) := by
  rw [symbolsByPlace, List.map_filterMap, ← List.filterMap_eq_filter]
  apply List.filterMap_congr
  intro i hi
  rw [position_symbolAt? cs i (List.mem_range.mp hi)]
  cases h : acts cs i <;> simp [Option.guard, h]

theorem mem_symbolsByPlace_iff (s : Symbol) :
    s ∈ symbolsByPlace cs ↔ symbolAt? cs s.position = some s := by
  rw [symbolsByPlace, List.mem_filterMap]
  constructor
  · rintro ⟨i, -, h⟩
    rwa [(place_of_symbolAt? cs i s h).2]
  · intro h
    exact ⟨s.position, List.mem_range.mpr (place_of_symbolAt? cs _ s h).1, h⟩

theorem positions_ascend : (symbolsByPlace cs).Pairwise (·.position < ·.position) := by
  have h : ((symbolsByPlace cs).map (·.position)).Pairwise (· < ·) := by
    rw [positions_symbolsByPlace]
    exact List.Pairwise.filter _ List.pairwise_lt_range
  exact List.pairwise_map.mp h

/-- A place whose character does not act is not passed over. -/
theorem next_place (us ys : List Symbol) (s t : Symbol) (b : Nat)
    (h : symbolsByPlace cs = us ++ s :: t :: ys) (ht : t.position = b + 1)
    (hb : acts cs b = false) : s.position = b := by
  have hascend := positions_ascend cs
  rw [h, List.pairwise_append] at hascend
  simp only [List.pairwise_cons, List.mem_cons, forall_eq_or_imp] at hascend
  obtain ⟨-, ⟨⟨hst, -⟩, hys, -⟩, hus⟩ := hascend
  have hlen : b + 1 < cs.length := by
    rw [← ht]
    exact (place_of_symbolAt? cs _ t ((mem_symbolsByPlace_iff cs t).mp (by simp [h]))).1
  obtain ⟨z, hz, rfl⟩ : ∃ z ∈ symbolsByPlace cs, z.position = b := by
    apply List.mem_map.mp
    rw [positions_symbolsByPlace, List.mem_filter, List.mem_range, hb]
    exact ⟨Nat.lt_of_succ_lt hlen, rfl⟩
  rw [h] at hz
  simp only [List.mem_append, List.mem_cons] at hz
  rcases hz with hz | rfl | rfl | hz
  · have := (hus z hz).1
    omega
  · rfl
  · omega
  · have := hys z hz
    omega

end Places

section Wildcards

variable (cs : List Char)

theorem bare_eq_star_iff (c : Char) : Token.bare c = .star ↔ c = '*' := by
  unfold Token.bare
  split_ifs <;> simp_all

theorem bare_eq_one_iff (c : Char) : Token.bare c = .one ↔ c = '?' := by
  unfold Token.bare
  split_ifs <;> simp_all

theorem special_of_wild (c : Char) (h : (Token.bare c).isWild = true) :
    isSpecial c = true ∧ c ≠ '\\' := by
  unfold Token.bare at h
  split_ifs at h <;> simp_all [isSpecial, Token.isWild]

/-- A wildcard is a place behind an even run of backslashes. -/
theorem wildAt_iff (i : Nat) (t : Token) (ht : t.isWild = true) :
    symbolAt? cs i = some ⟨t, i⟩ ↔
      ∃ c, cs[i]? = some c ∧ Token.bare c = t ∧ backslashesBefore cs i % 2 = 0 := by
  rw [symbolAt?]
  cases hc : cs[i]? with
  | none => simp
  | some c =>
    have hliteral : Token.literal c ≠ t := by
      intro h
      rw [← h] at ht
      cases ht
    by_cases hbare : Token.bare c = t
    · obtain ⟨hs, hne⟩ := special_of_wild c (hbare ▸ ht)
      have hacts : acts cs i = false := by simp [acts, hc, hne]
      have hon := actedOn_eq cs i c hc
      simp [hacts, hon, hs, hbare, hliteral]
    · dsimp only
      split_ifs <;> simp [hbare, hliteral]

theorem starAt_iff (i : Nat) :
    symbolAt? cs i = some ⟨.star, i⟩ ↔ cs[i]? = some '*' ∧ backslashesBefore cs i % 2 = 0 := by
  simp [wildAt_iff cs i .star rfl, bare_eq_star_iff]

theorem oneAt_iff (i : Nat) :
    symbolAt? cs i = some ⟨.one, i⟩ ↔ cs[i]? = some '?' ∧ backslashesBefore cs i % 2 = 0 := by
  simp [wildAt_iff cs i .one rfl, bare_eq_one_iff]

end Wildcards

/-- A raw pattern has one symbol for each place whose character does not act, and its reading is
these symbols or, without a wildcard among them, their text, even where nothing is read. -/
theorem reads_by_place (raw : String) :
    symbolsFrom 0 raw.toList = symbolsByPlace raw.toList ∧
      (symbolsFrom 0 raw.toList).map (·.position) =
        (List.range raw.length).filter (!acts raw.toList ·) ∧
      Reading.ofRaw raw =
        if (symbolsByPlace raw.toList).any (·.token.isWild)
        then .symbols (symbolsByPlace raw.toList)
        else .literal (String.ofList ((symbolsByPlace raw.toList).filterMap (·.token.char?))) := by
  have hread := symbolsFrom_zero raw.toList
  refine ⟨hread, ?_, ?_⟩
  · rw [hread, positions_symbolsByPlace, String.length_toList]
  · rw [ofRaw_eq, hread]

example : Reading.ofRaw "\\\\*\\*\\a" =
    .symbols [⟨.literal '\\', 1⟩, ⟨.star, 2⟩, ⟨.literal '*', 4⟩, ⟨.literal '\\', 5⟩,
      ⟨.literal 'a', 6⟩] := by decide

end PageLookup.Glob
