import PageLookup.Proofs.Glob.Detour
import PageLookup.Proofs.Glob.Exact
import PageLookup.Proofs.Glob.Shortest

/-!
# When only the language is accepted

A table accepts no text outside the language of its tokens exactly if all its
arcs back are grounded. Question marks among the literals behind a star can
leave an arc without ground: the anchor stays where it is while the place
moves on, and then a text is accepted that the tokens do not take.
-/

set_option autoImplicit false

namespace PageLookup.Glob

variable {e : Draft}

theorem run_along (xs ys zs : List Token) (he : Draft.empty.grow (xs ++ ys ++ zs) = some e)
    (text : List Char) (hf : FitsEach (solid ys) text) :
    e.finish.run (solid xs).length text = some ((solid xs).length + (solid ys).length) := by
  have hahead : ((solid (xs ++ ys ++ zs)).drop (solid xs).length).take text.length = solid ys := by
    rw [← hf.length_eq, solid_append, solid_append, List.append_assoc, List.drop_left,
      List.take_left]
  rw [hf.length_eq, run_straight_iff he, hahead]
  exact hf

section Detour

variable {ts before past left : List Token} {c : Char} {j : Nat}

theorem run_detour (hs : Stands ts (before ++ [.star]) past left)
    (he : Draft.empty.grow ts = some e) (hj : j ≤ past.length)
    (hstep : e.finish.step ((solid before).length + past.length) c =
      some ((solid before).length + j)) (z : Char) :
    e.finish.accepts ((solid before).map (·.sample z) ++ detour z past c j (solid left)) = true := by
  have hplain := solid_of_plain past hs.plain
  have hp : .star ∉ past.take j := fun h => hs.plain (List.mem_of_mem_take h)
  have hd : .star ∉ past.drop j := fun h => hs.plain (List.mem_of_mem_drop h)
  have hsplit := hs.split
  have hto := run_along [] (before ++ [.star] ++ past) left (by simpa [hsplit] using he)
    ((solid before ++ past).map (·.sample z))
    (by simpa [hplain] using fitsEach_sample z _ (star_not_mem_solid (before ++ past)))
  have hback := hs.split_take j
  have hfrom := run_along (before ++ [.star] ++ past.take j) (past.drop j ++ left) []
    (by simpa [hback] using he) ((past.drop j ++ solid left).map (·.sample z))
    (by simpa [solid_of_plain _ hd] using
      fitsEach_sample z _ (star_not_mem_solid (past.drop j ++ left)))
  have hend : (solid ts).length =
      (solid before).length + j + ((past.drop j).length + (solid left).length) := by
    have hlen := congrArg (fun l => (solid l).length) hback
    simp [solid_of_plain _ hp, solid_of_plain _ hd, Nat.min_eq_left hj] at hlen
    simp [hlen]
    omega
  simp only [solid_append, solid_star_cons, solid_nil, hplain, solid_of_plain _ hp,
    solid_of_plain _ hd, List.append_nil, List.length_append, List.length_nil, List.length_take,
    Nat.min_eq_left hj, Nat.zero_add] at hto hfrom
  rw [accepts_iff_run ts he, hend, detour, List.append_assoc (List.map _ past), ← List.append_assoc,
    ← List.map_append, Table.run_append, hto]
  simpa [Table.run, hstep] using hfrom

end Detour

/-- A text of the language holds each span in the stretch between what stands before the span
and after it. -/
theorem stretch_of_fits (before span later : List Token) (hs : .star ∉ span)
    (head core tail : List Char) (hh : head.length = (solid before).length)
    (ht : tail.length = (solid later).length)
    (h : Fits (before ++ [.star] ++ span ++ later) (head ++ core ++ tail)) :
    ∃ d, d + span.length ≤ core.length ∧ FitsEach span ((core.drop d).take span.length) ∧
      (later = [] → d + span.length = core.length) := by
  obtain ⟨uy, w, htext, huy, hw⟩ := (fits_append _ _ _).mp h
  obtain ⟨u, y, rfl, hu, hy⟩ := (fits_append _ _ _).mp huy
  have hy := (fits_plain_iff span hs y).mp hy
  have hul := length_of_fits _ u hu
  have hwl := length_of_fits _ w hw
  have hyl := hy.length_eq
  have hlen := congrArg List.length htext
  simp only [List.length_append, solid_append, solid_star_cons, solid_nil, List.length_nil] at hul hlen
  refine ⟨u.length - head.length, by omega, ?_, fun hl => ?_⟩
  · have hdrop := congrArg (List.drop u.length) htext
    rw [List.append_assoc, List.drop_append, List.drop_eq_nil_of_le (by omega), List.nil_append,
      List.drop_append_of_le_length (by omega), List.append_assoc, List.drop_left] at hdrop
    have htake := congrArg (List.take y.length) hdrop
    rw [List.take_append_of_le_length (by simp; omega), List.take_left] at htake
    rwa [hyl, htake]
  · subst hl
    rw [(fits_nil_iff w).mp hw] at hlen
    simp only [solid_nil, List.length_nil] at ht hlen
    omega

/-- If only the language is accepted, each detour has what was read last at the end of a span. -/
theorem fitsEach_lastRead {ts before past left : List Token} {c : Char} {j : Nat}
    (hs : Stands ts (before ++ [.star]) past left) (he : Draft.empty.grow ts = some e)
    (hj : j ≤ past.length)
    (hstep : e.finish.step ((solid before).length + past.length) c =
      some ((solid before).length + j))
    (hall : ∀ text, e.finish.accepts text = true → Fits ts text)
    (z : Char) (hz : ∀ b, left.head? = some (.literal b) → z ≠ b) :
    FitsEach (past.take j) ((lastRead past c j).map (·.sample z)) := by
  obtain ⟨span, later, rfl, hspan, hlater⟩ := exists_span left
  have hp : .star ∉ past ++ span := by simp [hs.plain, hspan]
  have hfit := hall _ (run_detour hs he hj hstep z)
  rw [solid_append, solid_of_plain span hspan, detour_append, ← List.append_assoc, hs.split,
    ← List.append_assoc, List.append_assoc _ past] at hfit
  obtain ⟨d, hd, hfd, hend⟩ := stretch_of_fits before (past ++ span) later hp _ _ _ (by simp)
    (by simp) hfit
  rw [detour_length z past c j hj] at hd hend
  by_cases hde : d = past.length + 1 - j
  · exact fitsEach_end z past c j hj span (hde ▸ hfd)
  · -- the detour is not at its end, so the span is not the last one and has a token to come
    have hl : later ≠ [] := fun h => hde (by have := hend h; omega)
    cases span with
    | nil => exact absurd (hlater hl) hs.next
    | cons t rest =>
      obtain ⟨m, -, hown⟩ := hs.step he
      have hc : t.fits c = false := by
        have hne := hown c
        simp only [solid_append, solid_star_cons, solid_nil, List.append_nil, hstep,
          List.cons_append, List.head?_cons, Option.any_some] at hne
        split at hne
        · simp at hne
          omega
        · simpa using ‹¬t.fits c = true›
      cases t with
      | star => simp at hspan
      | one => simp [Token.fits] at hc
      | literal b =>
        have hcb : c ≠ b := fun h => by simp [Token.fits, h] at hc
        exact absurd hfd (not_fitsEach_early z b c hcb (hz b rfl) past rest j d (by omega))

theorem grounded_of_language {ts : List Token} (he : Draft.empty.grow ts = some e)
    (hall : ∀ text, e.finish.accepts text = true → Fits ts text) : Grounded ts e.finish := by
  intro before past left c j hs hj hstep
  obtain ⟨b, hb⟩ : ∃ b, ∀ b', left.head? = some (.literal b') → b' = b := by
    cases h : left.head? with
    | none => exact ⟨'0', by simp⟩
    | some t =>
      cases t with
      | literal b => exact ⟨b, by simp [eq_comm]⟩
      | one => exact ⟨'0', by simp⟩
      | star => exact ⟨'0', by simp⟩
  obtain ⟨y, z, hyz, hy, hz⟩ := exists_two_chars b
  exact covers_of_samples y z hyz _ _
    (fitsEach_lastRead hs he hj hstep hall y fun b' h => hb b' h ▸ hy)
    (fitsEach_lastRead hs he hj hstep hall z fun b' h => hb b' h ▸ hz)

theorem grounded_iff {ts : List Token} (he : Draft.empty.grow ts = some e) :
    (∀ text, e.finish.accepts text = true → Fits ts text) ↔ Grounded ts e.finish := by
  refine ⟨grounded_of_language he, fun hg text h => ?_⟩
  rw [accepts_iff_run ts he] at h
  exact (reaches_end_iff ts text).mp (run_reaches he hg text _ h)

/-- Where the only star comes first, the arcs back of each prefix of the rest are to be grounded. -/
theorem grounded_of_prefixes (span : List Token) (hspan : .star ∉ span) (t : Table)
    (h : ∀ n ≤ span.length, ∀ j ≤ n, ∀ c, t.step n c = some j →
      Covers (span.take j) (lastRead (span.take n) c j)) : Grounded (.star :: span) t := by
  intro before past left c j hs hj hstep
  cases before with
  | cons u rest =>
    have hmem : Token.star ∈ rest ++ [Token.star] ++ past ++ left := by simp
    have hsplit := hs.split
    simp only [List.cons_append, List.cons.injEq] at hsplit
    exact absurd (hsplit.2 ▸ hmem) hspan
  | nil =>
    obtain rfl : span = past ++ left := by simpa using hs.split
    have hn : past.length ≤ (past ++ left).length := by simp
    have hback := h past.length hn j hj c (by simpa using hstep)
    rwa [List.take_left, List.take_append_of_le_length hj] at hback

/-- A compiled pattern stays within its language exactly if all arcs back of its table are
grounded. -/
theorem accepts_within_language_iff (raw : String) (p : Pattern)
    (hp : Pattern.compile raw = .ok p) :
    (∀ text, p.accepts text = true → Fits (tokens raw) text.toList) ↔
      ∀ t, p.matcher = .table t → Grounded (tokens raw) t := by
  obtain ⟨e, he, hm, hacc⟩ := table_of_compile raw p hp
  have hlang : (∀ text, p.accepts text = true → Fits (tokens raw) text.toList) ↔
      Grounded (tokens raw) e.finish := by
    rw [← grounded_iff he]
    constructor
    · intro h text ht
      have hfit := h (String.ofList text)
      rw [hacc, String.toList_ofList] at hfit
      exact hfit ht
    · intro h text ht
      rw [hacc text] at ht
      exact h text.toList ht
  rw [hlang]
  rcases hm with ht | ⟨⟨text, ht⟩, hs⟩
  · simp only [ht, Matcher.table.injEq, forall_eq']
  · -- without a star no state stands behind one
    simp only [ht, reduceCtorEq, false_implies, implies_true, iff_true]
    intro before past left c j hst
    exact absurd (by simp [hst.split]) hs

/-- Behind the question mark the anchor lags, but no arc along it skips a token. -/
theorem within_language_beyond_regular :
    ¬Regular (tokens "*a?b") ∧ ∃ p, Pattern.compile "*a?b" = .ok p ∧
      ∀ text, p.accepts text = true → Fits (tokens "*a?b") text.toList := by
  let table : Table := ⟨#[⟨[('a', 1)], some 0⟩, ⟨[], some 2⟩, ⟨[('a', 1), ('b', 3)], some 0⟩,
    ⟨[('a', 1)], some 0⟩]⟩
  have hcompile : Pattern.compile "*a?b" = .ok ⟨"*a?b", .table table⟩ := by decide
  have htokens : tokens "*a?b" = .star :: [.literal 'a', .one, .literal 'b'] := by decide
  refine ⟨by decide, _, hcompile, (accepts_within_language_iff "*a?b" _ hcompile).mpr ?_⟩
  intro t ht
  obtain rfl := Matcher.table.inj ht
  rw [htokens]
  refine grounded_of_prefixes _ (by decide) table fun n hn j hj c hstep => ?_
  have hcases : n = 0 ∨ n = 1 ∨ n = 2 ∨ n = 3 := by
    simp only [List.length_cons, List.length_nil] at hn
    omega
  -- an arc back leads to the start, or on the first letter behind it
  have hback : j = 0 ∨ j = 1 ∧ c = 'a' ∧ n ≠ 0 := by
    rcases hcases with rfl | rfl | rfl | rfl <;>
      simp only [table, Table.step, State.next, List.getElem?_toArray, List.getElem?_cons_zero,
        List.getElem?_cons_succ, Option.bind_some, List.lookup_cons, List.lookup_nil] at hstep <;>
      grind
  rcases hback with rfl | ⟨rfl, rfl, hne⟩
  · simp [Covers, lastRead]
  · rcases hcases with rfl | rfl | rfl | rfl
    · exact absurd rfl hne
    · simp [Covers, lastRead]
    · simp [Covers, lastRead]
    · simp [Covers, lastRead]

/-- After a question mark the anchor lags behind, and an arc along it can skip a token. -/
theorem accepts_outside_language :
    ∃ p, Pattern.compile "*aa?" = .ok p ∧ p.accepts "aabaa" = true ∧
      ¬Fits (tokens "*aa?") "aabaa".toList :=
  ⟨_, rfl, by decide, by decide⟩

end PageLookup.Glob
