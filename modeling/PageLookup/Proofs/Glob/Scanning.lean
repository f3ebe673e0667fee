import PageLookup.Glob.Scanner
import PageLookup.Proofs.Glob.Compiled

/-!
# A run is a scan

Where the first letter of a span does not come again in the span the anchor
stays at the star. A character that does not go on with the span then leads to
the star, or behind the first letter if it is that letter. This is what the
scanner does, and so a table accepts exactly what the scanner accepts.
-/

set_option autoImplicit false

namespace PageLookup.Glob

namespace Draft

structure Opens (d : Draft) (b : Nat) (a : Char) : Prop where
  anchor : d.anchor = some b
  behind : b < d.current
  next : ∀ c, d.next b c = some (if c = a then b + 1 else b)

variable {d : Draft} {b : Nat} {a : Char}

theorem Opens.resume (h : d.Opens b a) (c : Char) :
    d.resume c = some (if c = a then b + 1 else b) := by
  rw [Draft.resume, h.anchor, Option.bind_some, h.next]

theorem star_literal_opens (d : Draft) (a : Char) : (d.star.literal a).Opens d.current a where
  anchor := by
    rw [literal_anchor, star_anchor, Option.map_some, star_next, next_current, Option.getD_some]
  behind := by simp
  next := by
    intro c
    rw [literal_next, star_current, if_pos rfl]
    by_cases hc : c = a
    · simp [hc]
    · simp [hc, Draft.resume]

theorem any_opens (h : d.Opens b a) : d.any.Opens b a where
  anchor := h.anchor
  behind := by
    rw [any_current]
    exact Nat.lt_succ_of_lt h.behind
  next := by
    intro c
    rw [any_next, if_neg (Nat.ne_of_lt h.behind), h.next]

theorem literal_opens (h : d.Opens b a) (z : Char) (hz : z ≠ a) : (d.literal z).Opens b a where
  anchor := by
    rw [literal_anchor, h.anchor, Option.map_some, h.next, if_neg hz, Option.getD_some]
  behind := by
    rw [literal_current]
    exact Nat.lt_succ_of_lt h.behind
  next := by
    intro c
    rw [literal_next, if_neg (Nat.ne_of_lt h.behind), h.next]

theorem grow_opens {e : Draft} (ts : List Token) (hs : .star ∉ ts) (ha : .literal a ∉ ts)
    (hd : d.Opens b a) (h : d.grow ts = some e) : e.Opens b a := by
  apply grow_preserves (·.Opens b a) ts _ _ _ d e h hd
  · intro d hm
    exact absurd hm hs
  · intro d hd
    exact any_opens hd
  · intro d z hz hd
    exact literal_opens hd z fun he => ha (he ▸ hz)

end Draft

section Spans

theorem spans_append (xs ys : List Token) (hx : .star ∉ xs) :
    spans (xs ++ ys) = (xs ++ (spans ys).1, (spans ys).2) := by
  induction xs with
  | nil => rfl
  | cons t xs ih =>
    have hxs : .star ∉ xs := fun h => hx (by simp [h])
    cases t with
    | star => simp at hx
    | one => simp [spans, ih hxs]
    | literal c => simp [spans, ih hxs]

theorem spans_cons (t : Token) (ht : t ≠ .star) (ts : List Token) :
    spans (t :: ts) = (t :: (spans ts).1, (spans ts).2) :=
  spans_append [t] ts (by simpa using Ne.symm ht)

theorem span_mem (before ts : List Token) : (spans ts).1 ∈ (spans (before ++ .star :: ts)).2 := by
  induction before with
  | nil => simp [spans]
  | cons t before ih =>
    cases t with
    | star => simp [spans, ih]
    | one => simpa [spans] using ih
    | literal c => simpa [spans] using ih

instance (ts : List Token) : Decidable (OpensOnce ts) :=
  inferInstanceAs (Decidable (∀ span ∈ (spans ts).2, ∀ t ∈ span.head?, t ∉ span.tail))

theorem OpensOnce.not_mem {before past left : List Token} {t : Token}
    (h : OpensOnce (before ++ .star :: (t :: past) ++ left)) (hp : .star ∉ t :: past) :
    t ∉ past := by
  have hmem := span_mem before ((t :: past) ++ left)
  rw [spans_append _ left hp] at hmem
  intro ht
  refine h _ (by simpa using hmem) t rfl ?_
  simp [ht]

theorem scan_nil (t : Token) (ht : t ≠ .star) (ts : List Token) : scan (t :: ts) [] = false := by
  cases t with
  | star => exact absurd rfl ht
  | one => rfl
  | literal a => rfl

theorem scan_cons (t : Token) (ht : t ≠ .star) (ts : List Token) (c : Char) (text : List Char) :
    scan (t :: ts) (c :: text) = (t.fits c && scan ts text) := by
  cases t with
  | star => exact absurd rfl ht
  | one => rfl
  | literal a => rfl

end Spans

/-- A state behind a star and a scanner in the same place. -/
def Watches (ts : List Token) (x : Nat) (s : Scanner) : Prop :=
  ∃ before past left, Stands ts (before ++ [.star]) past left ∧
    x = (solid before).length + past.length ∧
    s = ⟨past ++ (spans left).1, (spans left).1, (spans left).2⟩

section Watch

theorem watches_atSpan (before ts : List Token) :
    Watches (before ++ .star :: ts) (solid before).length
      (Scanner.atSpan (spans ts).1 (spans ts).2) := by
  induction ts generalizing before with
  | nil =>
    have hs : Stands (before ++ [.star]) (before ++ [.star]) [] [] :=
      ⟨by simp, by simp, .inr ⟨before, rfl⟩, by simp⟩
    exact ⟨before, [], [], hs, rfl, rfl⟩
  | cons t ts ih =>
    by_cases ht : t = .star
    · subst ht
      have hrest := ih (before ++ [.star])
      simpa [spans, Scanner.atSpan] using hrest
    · have hs : Stands (before ++ .star :: t :: ts) (before ++ [.star]) [] (t :: ts) :=
        ⟨by simp, by simp, .inr ⟨before, rfl⟩, by simpa using ht⟩
      refine ⟨before, [], t :: ts, hs, rfl, ?_⟩
      rw [spans_cons t ht]
      cases (spans ts).2 <;> rfl

/-- A scanner that took some tokens of its span goes on behind the span where none is left. -/
theorem watches_withLeft (before past ts l : List Token) (hp : .star ∉ past) :
    Watches (before ++ .star :: (past ++ ts)) ((solid before).length + past.length)
      (Scanner.withLeft ⟨past ++ (spans ts).1, l, (spans ts).2⟩ (spans ts).1) := by
  by_cases hstar : ts.head? = some .star
  · obtain ⟨rest, rfl⟩ := List.head?_eq_some_iff.mp hstar
    have hnext := watches_atSpan (before ++ .star :: past) rest
    simpa [spans, Scanner.withLeft, solid_of_plain past hp] using hnext
  · have hs : Stands (before ++ .star :: (past ++ ts)) (before ++ [.star]) past ts :=
      ⟨by simp, hp, .inr ⟨before, rfl⟩, hstar⟩
    refine ⟨before, past, ts, hs, rfl, ?_⟩
    cases ts with
    | nil => rfl
    | cons t ts =>
      have ht : t ≠ .star := fun h => hstar (by simp [h])
      rw [spans_cons t ht]
      rfl

/-- In a span that opens once a character leads back to the star or behind the first token. -/
theorem resume_opening {before past left : List Token} {m : Draft}
    (ho : OpensOnce (before ++ .star :: (past ++ left))) (hp : .star ∉ past)
    (hm : Draft.empty.grow (before ++ [.star] ++ past) = some m) (c : Char) :
    m.resume c = some ((solid before).length + if past.head?.any (·.fits c) then 1 else 0) := by
  obtain ⟨d, hd, hg⟩ := Stands.grow_lead hm
  rw [← hd]
  cases past with
  | nil =>
    cases hg
    simp [Draft.resume]
  | cons t past =>
    have hpast : .star ∉ past := fun h => hp (by simp [h])
    cases t with
    | star => simp at hp
    | one => simp [Draft.grow] at hg
    | literal a =>
      have ha : .literal a ∉ past := OpensOnce.not_mem (by simpa using ho) hp
      have hopens := Draft.grow_opens past hpast ha (Draft.star_literal_opens d a) hg
      rw [hopens.resume c]
      by_cases hc : c = a
      · simp [hc, Token.fits]
      · simp [hc, Ne.symm hc, Token.fits]

variable {ts : List Token} {e : Draft}

theorem watches_restart {before past left : List Token} {m : Draft}
    (ho : OpensOnce ts) (hs : Stands ts (before ++ [.star]) past left)
    (hm : Draft.empty.grow (before ++ [.star] ++ past) = some m) (c : Char)
    (hl : ¬left.head?.any (·.fits c) = true) :
    ∃ y, m.resume c = some y ∧
      Watches ts y (Scanner.restart ⟨past ++ (spans left).1, (spans left).1, (spans left).2⟩ c) := by
  have hts : ts = before ++ .star :: (past ++ left) := by simpa using hs.split
  refine ⟨_, resume_opening (hts ▸ ho) hs.plain hm c, ?_⟩
  cases past with
  | nil =>
    -- the span has not begun, and its first token does not take the character
    have hstay : Watches ts (solid before).length ⟨(spans left).1, (spans left).1, (spans left).2⟩ :=
      ⟨before, [], left, hs, rfl, rfl⟩
    cases left with
    | nil => exact hstay
    | cons t left =>
      have ht := hs.head_ne
      have hc : t.fits c = false := by simpa using hl
      rw [spans_cons t ht] at hstay ⊢
      simpa [Scanner.restart, hc] using hstay
  | cons t past =>
    have hp : .star ∉ past := fun h => hs.plain (by simp [h])
    have ht : .star ∉ [t] := fun h => hs.plain (by simp [List.mem_singleton.mp h])
    have hspan := spans_append past left hp
    rw [List.head?_cons, Option.any_some, List.cons_append, Scanner.restart]
    by_cases hc : t.fits c = true
    · have hnext := watches_withLeft before [t] (past ++ left) (spans left).1 ht
      rw [hspan, ← List.append_assoc, List.singleton_append, List.cons_append] at hnext
      simpa [hc, hts] using hnext
    · have hback : Stands ts (before ++ [.star]) [] (t :: past ++ left) :=
        ⟨by simp [hts], by simp, hs.led, by simpa using Ne.symm (fun h => ht (by simp [h]))⟩
      refine ⟨before, [], t :: past ++ left, hback, by simp [hc], ?_⟩
      have hall := spans_append (t :: past) left hs.plain
      rw [hall]
      simp [hc]

theorem watches_step (ho : OpensOnce ts) (he : Draft.empty.grow ts = some e) (x : Nat)
    (s : Scanner) (h : Watches ts x s) (c : Char) :
    ∃ y, e.finish.step x c = some y ∧ Watches ts y (s.read c) := by
  obtain ⟨before, past, left, hs, rfl, rfl⟩ := h
  obtain ⟨m, hm, hall⟩ := hs.step he
  have hplace : (solid (before ++ [.star])).length = (solid before).length := by simp
  have hstep := hall c
  rw [hplace] at hstep
  rw [hstep]
  by_cases hl : left.head?.any (·.fits c) = true
  · obtain ⟨t, ht, hc⟩ := (Option.any_eq_true _ _).mp hl
    obtain ⟨rest, rfl⟩ := List.head?_eq_some_iff.mp ht
    have hstar := hs.head_ne
    have hp : .star ∉ past ++ [t] := by simpa [hs.plain] using Ne.symm hstar
    have hnext := watches_withLeft before (past ++ [t]) rest (t :: (spans rest).1) hp
    refine ⟨_, if_pos hl, ?_⟩
    rw [spans_cons t hstar]
    simpa [Scanner.read, hc, hs.split, Nat.add_assoc] using hnext
  · obtain ⟨y, hy, hw⟩ := watches_restart ho hs hm c hl
    refine ⟨y, by rw [if_neg hl, hy], ?_⟩
    cases left with
    | nil => exact hw
    | cons t rest =>
      have hstar := hs.head_ne
      have hc : t.fits c = false := by simpa using hl
      rw [spans_cons t hstar] at hw ⊢
      simpa [Scanner.read, hc] using hw

theorem watches_run (ho : OpensOnce ts) (he : Draft.empty.grow ts = some e) (text : List Char)
    (x : Nat) (s : Scanner) (h : Watches ts x s) :
    ∃ y, e.finish.run x text = some y ∧ Watches ts y (text.foldl Scanner.read s) := by
  induction text generalizing x s with
  | nil => exact ⟨x, rfl, h⟩
  | cons c rest ih =>
    obtain ⟨y, hy, hw⟩ := watches_step ho he x s h c
    rw [Table.run, hy]
    exact ih y (s.read c) hw

theorem watches_done (x : Nat) (s : Scanner) (h : Watches ts x s) :
    s.done = true ↔ x = (solid ts).length := by
  obtain ⟨before, past, left, hs, rfl, rfl⟩ := h
  rw [hs.split]
  cases left with
  | nil => simp [Scanner.done, spans, solid_of_plain past hs.plain]
  | cons t left =>
    have ht := hs.head_ne
    simp [Scanner.done, spans_cons t ht, solid_of_plain past hs.plain, solid_cons_of_ne t ht]

/-- The tokens before the first star are matched at the start of the text, and then a run goes on
like a scanner. -/
theorem run_scan (xs ys : List Token) (hx : .star ∉ xs) (ho : OpensOnce (xs ++ ys))
    (he : Draft.empty.grow (xs ++ ys) = some e) (text : List Char) :
    e.finish.run xs.length text = some (solid (xs ++ ys)).length ↔ scan ys text = true := by
  induction ys generalizing xs text with
  | nil =>
    have hs : .star ∉ xs ++ [] := by simpa using hx
    rw [solid_of_plain _ hs, run_plain xs [] hs he text, fitsEach_nil_iff]
    simp [scan]
  | cons t ys ih =>
    by_cases ht : t = .star
    · subst ht
      have hw := watches_atSpan xs ys
      rw [solid_of_plain xs hx] at hw
      obtain ⟨y, hy, hw⟩ := watches_run ho he text _ _ hw
      rw [hy, Option.some_inj, scan, Scanner.accepts, watches_done y _ hw]
    · have hx' : .star ∉ xs ++ [t] := by simpa [hx] using Ne.symm ht
      have hy : (t :: ys).head? ≠ some .star := by simpa using ht
      cases text with
      | nil =>
        have hne : xs.length ≠ (solid (xs ++ t :: ys)).length := by
          rw [solid_append, solid_of_plain xs hx, solid_cons_of_ne t ht]
          simp
        rw [Table.run, scan_nil t ht, Option.some_inj]
        exact iff_of_false hne Bool.false_ne_true
      | cons c rest =>
        rw [scan_cons t ht, Table.run, step_plain xs (t :: ys) hx hy he c]
        rw [show xs ++ t :: ys = (xs ++ [t]) ++ ys by simp] at ho he ⊢
        by_cases hc : t.fits c = true
        · have hrec := ih (xs ++ [t]) hx' ho he rest
          simpa [hc] using hrec
        · simp [hc]

end Watch

/-- Where no span begins with a letter that comes again in it a compiled pattern accepts what the
scanner accepts. -/
theorem accepts_eq_scan (raw : String) (p : Pattern) (hp : Pattern.compile raw = .ok p)
    (ho : OpensOnce (tokens raw)) (text : String) :
    p.accepts text = scan (tokens raw) text.toList := by
  obtain ⟨e, he, -, hacc⟩ := table_of_compile raw p hp
  rw [hacc, Bool.eq_iff_iff, accepts_iff_run (tokens raw) he]
  exact run_scan [] (tokens raw) (by simp) ho he text.toList

theorem scan_takes_fresh_openings_only :
    ∃ p, Pattern.compile "x*ab?c*d?" = .ok p ∧ OpensOnce (tokens "x*ab?c*d?") ∧
      p.accepts "xaabacdd" = true ∧ p.accepts "xababxcdd" = false := by
  have ho : OpensOnce (tokens "x*ab?c*d?") := by decide
  refine ⟨_, rfl, ho, ?_, ?_⟩
  · exact (accepts_eq_scan "x*ab?c*d?" _ rfl ho "xaabacdd").trans (by decide)
  · exact (accepts_eq_scan "x*ab?c*d?" _ rfl ho "xababxcdd").trans (by decide)

end PageLookup.Glob
