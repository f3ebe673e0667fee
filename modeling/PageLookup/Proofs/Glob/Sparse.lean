import Mathlib.Combinatorics.Enumerative.DoubleCounting
import PageLookup.Proofs.Glob.Arcs
import PageLookup.Proofs.Glob.Exact

/-!
# A letter pays for two arcs

A state copies all arcs of the anchor, and still a regular table has no more
than two arcs for each letter. A letter pays for the arc of its own state. An
arc back gives up the first of the letters read so far, and the last one given
up pays for it. No letter pays for two arcs back: the state further on would
have read the character of the other arc as its next letter.
-/

set_option autoImplicit false

namespace PageLookup.Glob

/-- Behind a star and the letters `w` an arc leads to the state behind the first `j` letters and
the next one, which is the arc's character and not the one that the pattern goes on with. -/
structure Returns (ts before : List Token) (w : List Char) (j : Nat) (a : Arc) : Prop where
  stands : ∃ left, Stands ts (before ++ [.star]) (w.map .literal) left
  source : a.source = (solid before).length + w.length
  target : a.target = (solid before).length + (j+1)
  border : w.take j <:+ w
  char : w[j]? = some a.char
  refused : (solid ts)[a.source]?.any (·.fits a.char) = false

/-- The last letter that an arc back gives up stands at place `o`. -/
def Pays (ts : List Token) (a : Arc) (o : Nat) : Prop :=
  ∃ before w j, Returns ts before w j a ∧ o + (j+1) = (solid before).length + w.length

section Words

variable {ts before before' : List Token} {w w' : List Char} {j j' o : Nat} {a a' : Arc}

theorem Returns.lt (h : Returns ts before w j a) : j < w.length := by
  obtain ⟨hj, -⟩ := List.getElem?_eq_some_iff.mp h.char
  exact hj

theorem Returns.letter (h : Returns ts before w j a) (i : Nat) (hi : i < w.length) :
    (solid ts)[(solid before).length + i]? = w[i]?.map .literal := by
  obtain ⟨left, hs⟩ := h.stands
  have htoken := hs.token_past i (by simpa using hi)
  rw [List.getElem?_map] at htoken
  simpa using htoken

theorem Returns.token_char (h : Returns ts before w j a) :
    (solid ts)[(solid before).length + j]? = some (.literal a.char) := by
  rw [h.letter j h.lt, h.char]
  rfl

/-- The letters before the last `j` are followed by the first `j` again. -/
theorem Returns.again (h : Returns ts before w j a) (i : Nat) (hi : i < j) :
    w[w.length - j + i]? = w[i]? := by
  have hdrop := List.suffix_iff_eq_drop.mp h.border
  rw [List.length_take, Nat.min_eq_left (Nat.le_of_lt h.lt)] at hdrop
  rw [← List.getElem?_drop, ← hdrop, List.getElem?_take_of_lt hi]

theorem Returns.starred (h : Returns ts before w j a) : Starred ts (solid before).length := by
  obtain ⟨left, hs⟩ := h.stands
  exact hs.starred

/-- No other star stands between the star of an arc and the letter that pays. -/
theorem Returns.star_le (h : Returns ts before w j a) (b : Nat) (hb : Starred ts b)
    (hle : b ≤ (solid before).length + w.length) : b ≤ (solid before).length := by
  obtain ⟨left, hs⟩ := h.stands
  obtain ⟨before', he, hb'⟩ := hs.starred_le b hb (by simpa using hle)
  rwa [List.append_cancel_right he]

theorem Returns.same_star (h : Returns ts before w j a) (h' : Returns ts before' w' j' a')
    (ho : o + (j+1) = (solid before).length + w.length)
    (ho' : o + (j'+1) = (solid before').length + w'.length) :
    (solid before).length = (solid before').length := by
  have hlt := h.lt
  have hlt' := h'.lt
  have hle := h.star_le _ h'.starred (by omega)
  have hge := h'.star_le _ h.starred (by omega)
  exact Nat.le_antisymm hge hle

/-- Of two arcs that give up the same letters none leaves a state further on. -/
theorem Returns.not_lt (h : Returns ts before w j a) (h' : Returns ts before' w' j' a')
    (hb : (solid before).length = (solid before').length)
    (hj : w.length - j = w'.length - j') : ¬w.length < w'.length := by
  intro hlt
  have hjlt := h.lt
  have hjlt' := h'.lt
  have hchar : w'[j]? = some a.char := by
    have hletter := h'.letter j (by omega)
    rw [← hb, h.token_char, eq_comm, Option.map_eq_some_iff] at hletter
    obtain ⟨c, hc, he⟩ := hletter
    rw [hc, Token.literal.inj he]
  have hagain := h'.again j (by omega)
  rw [hchar, ← hj, Nat.sub_add_cancel (Nat.le_of_lt hjlt)] at hagain
  -- so the longer word goes on behind the shorter one with the character that is refused there
  have hrefused := h.refused
  rw [h.source, hb, h'.letter _ hlt, hagain] at hrefused
  simp [Token.fits] at hrefused

theorem Returns.unique (h : Returns ts before w j a) (h' : Returns ts before' w' j' a')
    (ho : o + (j+1) = (solid before).length + w.length)
    (ho' : o + (j'+1) = (solid before').length + w'.length) : a = a' := by
  have hb := h.same_star h' ho ho'
  have hlt := h.lt
  have hlt' := h'.lt
  have hj : w.length - j = w'.length - j' := by omega
  have hlen : w.length = w'.length :=
    Nat.le_antisymm (Nat.le_of_not_lt (h'.not_lt h hb.symm hj.symm))
      (Nat.le_of_not_lt (h.not_lt h' hb hj))
  obtain rfl : j = j' := by omega
  have hchar : a.char = a'.char := by
    have htoken := h.token_char
    rw [hb, h'.token_char] at htoken
    exact (Token.literal.inj (Option.some.inj htoken)).symm
  exact Arc.ext (by rw [h.source, h'.source, hb, hlen]) hchar (by rw [h.target, h'.target, hb])

end Words

section Table

variable {ts : List Token} {e : Draft}

/-- An arc of a regular table that does not lead to the next state leads back along the longest
overlap of the letters behind a star. -/
theorem overlap_of_arc (hr : Regular ts) (he : Draft.empty.grow ts = some e) (a : Arc)
    (hstep : e.finish.step a.source a.char = some a.target)
    (hrefused : (solid ts)[a.source]?.any (·.fits a.char) = false) :
    ∃ before left, ∃ w : List Char, Stands ts (before ++ [.star]) (w.map .literal) left ∧
      a.source = (solid before).length + w.length ∧
      a.target = (solid before).length + overlap w (w ++ [a.char]).tail := by
  have hx : a.source ≤ (solid ts).length := by
    by_contra hx
    rw [step_beyond he _ (Nat.lt_of_not_le hx)] at hstep
    cases hstep
  obtain ⟨lead, past, left, hst, hsource⟩ := exists_stands ts a.source hx
  obtain ⟨m, hm, hall⟩ := hst.step he
  rw [hsource, hst.token_next] at hrefused
  rw [hsource, hall, hrefused, if_neg Bool.false_ne_true] at hstep
  rcases hst.led with rfl | ⟨before, rfl⟩
  · rw [Stands.resume_plain hst.plain hm] at hstep
    cases hstep
  · obtain ⟨w, rfl, hres⟩ := resume_overlap hr hst hm a.char hrefused
    rw [hres, Option.some.injEq] at hstep
    exact ⟨before, left, w, hst, by simpa using hsource, hstep.symm⟩

theorem exists_returns (hr : Regular ts) (he : Draft.empty.grow ts = some e) (a : Arc)
    (ha : a ∈ e.finish.arcs) (hf : a.target ≠ a.source + 1) :
    ∃ before w j, Returns ts before w j a := by
  obtain ⟨s, hs, harc⟩ := e.finish.state_of_arc a ha
  obtain ⟨hstep, hrefused⟩ := refused_of_arc he a ha hf
  obtain ⟨before, left, w, hst, hsource, htarget⟩ := overlap_of_arc hr he a hstep hrefused
  have hrise := (Draft.rising_of_starred ts he hst.starred).finish hs (by omega) _ _ harc
  obtain ⟨j, hj⟩ : ∃ j, overlap w (w ++ [a.char]).tail = j + 1 :=
    ⟨overlap w (w ++ [a.char]).tail - 1, by omega⟩
  have hle := overlap_le w (w ++ [a.char]).tail
  have hlt : j < w.length := by omega
  have hends := (take_overlap_suffix w (w ++ [a.char]).tail).trans (List.tail_suffix _)
  rw [hj, take_succ_suffix_concat w w _ j hlt] at hends
  obtain ⟨hborder, hchar⟩ := hends
  refine ⟨before, w, j, ⟨left, hst⟩, hsource, by rw [htarget, hj], hborder, ?_, hrefused⟩
  rw [List.getElem?_eq_getElem hlt, hchar]

def letters (ts : List Token) : Finset Nat :=
  ((solid ts).findIdxs fun t => !t.isWild).toFinset

theorem mem_letters_iff (ts : List Token) (x : Nat) :
    x ∈ letters ts ↔ ∃ c, (solid ts)[x]? = some (.literal c) := by
  rw [letters, List.mem_toFinset, List.mem_findIdxs_iff_exists_getElem_pos]
  constructor
  · rintro ⟨hx, ht⟩
    rw [List.getElem?_eq_getElem hx]
    cases hc : (solid ts)[x] with
    | literal c => exact ⟨c, rfl⟩
    | one => simp [hc, Token.isWild] at ht
    | star => simp [hc, Token.isWild] at ht
  · rintro ⟨c, hc⟩
    obtain ⟨hx, ht⟩ := List.getElem?_eq_some_iff.mp hc
    exact ⟨hx, by rw [ht]; rfl⟩

theorem card_letters (ts : List Token) : (letters ts).card = ts.countP (!·.isWild) := by
  rw [letters, List.toFinset_card_of_nodup List.nodup_findIdxs, List.length_findIdxs, solid,
    List.countP_filter]
  apply List.countP_congr
  intro t _
  cases t <;> simp [Token.isWild]

/-- A letter pays for the arc of its own state. -/
theorem card_forward_le (he : Draft.empty.grow ts = some e) :
    (e.finish.arcs.toFinset.filter fun a => a.target = a.source + 1).card ≤ (letters ts).card := by
  have htoken (a : Arc) (ha : a ∈ e.finish.arcs.toFinset.filter fun a => a.target = a.source + 1) :
      (solid ts)[a.source]? = some (.literal a.char) := by
    obtain ⟨hmem, hf⟩ := Finset.mem_filter.mp ha
    exact literal_of_forward_arc he a (List.mem_toFinset.mp hmem) hf
  apply Finset.card_le_card_of_injOn Arc.source
  · intro a ha
    exact (mem_letters_iff ts a.source).mpr ⟨a.char, htoken a ha⟩
  · intro a ha a' ha' hsource
    have hchar := htoken a ha
    rw [hsource, htoken a' ha', Option.some.injEq, Token.literal.injEq] at hchar
    have hf := (Finset.mem_filter.mp ha).2
    have hf' := (Finset.mem_filter.mp ha').2
    exact Arc.ext hsource hchar.symm (by rw [hf, hf', hsource])

/-- A letter pays for one arc back. -/
theorem card_back_le (hr : Regular ts) (he : Draft.empty.grow ts = some e) :
    (e.finish.arcs.toFinset.filter fun a => ¬a.target = a.source + 1).card ≤
      (letters ts).card := by
  apply Finset.card_le_card_of_forall_subsingleton (Pays ts)
  · intro a ha
    obtain ⟨hmem, hf⟩ := Finset.mem_filter.mp ha
    obtain ⟨before, w, j, h⟩ := exists_returns hr he a (List.mem_toFinset.mp hmem) hf
    have hlt := h.lt
    have hgiven : w.length - (j+1) < w.length := by omega
    have hletter := h.letter _ hgiven
    rw [List.getElem?_eq_getElem hgiven] at hletter
    refine ⟨(solid before).length + (w.length - (j+1)), ?_, before, w, j, h, by omega⟩
    exact (mem_letters_iff ts _).mpr ⟨_, hletter⟩
  · rintro o - a ⟨-, before, w, j, h, ho⟩ a' ⟨-, before', w', j', h', ho'⟩
    exact h.unique h' ho ho'

theorem arcs_le (hr : Regular ts) (he : Draft.empty.grow ts = some e) :
    e.finish.arcs.length ≤ 2 * ts.countP (!·.isWild) := by
  have hnodup := e.finish.arcs_nodup fun x s hs =>
    (Draft.grow_ordered ts he Draft.empty_ordered).finish hs
  have hforward := card_forward_le he
  have hback := card_back_le hr he
  have hall := Finset.card_filter_add_card_filter_not (s := e.finish.arcs.toFinset)
    (fun a => a.target = a.source + 1)
  rw [List.toFinset_card_of_nodup hnodup] at hall
  rw [card_letters] at hforward hback
  omega

end Table

/-- A table has at most two arcs for each letter of its pattern if question marks behind the first
star stand only where a star follows, whatever characters there are and however often a state
copies the arcs of another. -/
theorem arcs_le_twice_letters (raw : String) (p : Pattern) (t : Table)
    (hp : Pattern.compile raw = .ok p) (ht : p.matcher = .table t) (hr : Regular (tokens raw)) :
    (t.states.toList.map (·.arcs.length)).sum ≤ 2 * (tokens raw).countP (!·.isWild) := by
  obtain ⟨e, he, hmatcher, -⟩ := table_of_compile raw p hp
  rcases hmatcher with h | ⟨⟨text, h⟩, -⟩
  · rw [ht] at h
    cases h
    rw [← Table.arcs_length]
    exact arcs_le hr he
  · rw [ht] at h
    cases h

/-- Behind `aba` a state has three arcs, and all states together have as many as there may be. -/
theorem arcs_le_twice_letters_reached :
    ∃ p t, Pattern.compile "?*abac" = .ok p ∧ p.matcher = .table t ∧
      (t.states.toList.map (·.arcs.length)) = [0, 1, 2, 1, 3, 1] ∧
      (tokens "?*abac").countP (!·.isWild) = 4 ∧
      (t.states.toList.map (·.arcs.length)).sum ≤ 2 * (tokens "?*abac").countP (!·.isWild) := by
  refine ⟨_, _, rfl, rfl, by decide, by decide, ?_⟩
  exact arcs_le_twice_letters "?*abac" _ _ rfl rfl (by decide)

end PageLookup.Glob
