import PageLookup.Halving

/-!
# Halving finds the place of a key

Among entries in ascending key order the search never asks for an entry that
is not there. It ends at the entry of the key, or at the gap with all smaller
keys before it and all greater ones behind it. That is where `put` writes over
an entry or sets a new one in.
-/

set_option autoImplicit false

namespace PageLookup

namespace Ascending

variable {κ α : Type}

theorem split_at_index (entries : List (κ × α)) (i : Nat) (e : κ × α)
    (he : entries[i]? = some e) :
    entries = entries.take i ++ e :: entries.drop (i+1) ∧ (entries.take i).length = i := by
  obtain ⟨hi, rfl⟩ := List.getElem?_eq_some_iff.mp he
  refine ⟨?_, by simp; omega⟩
  rw [← List.drop_eq_getElem_cons hi, List.take_append_drop]

theorem insertIdx_length_append (before later : List (κ × α)) (e : κ × α) :
    (before ++ later).insertIdx before.length e = before ++ e :: later := by
  induction before with
  | nil => simp
  | cons x before ih => simp [ih]

theorem keys_around [LT κ] (before later : List (κ × α)) (e : κ × α)
    (ha : Ascending (before ++ e :: later)) :
    (∀ x ∈ before, x.1 < e.1) ∧ ∀ x ∈ later, e.1 < x.1 := by
  unfold Ascending at ha
  rw [List.map_append, List.map_cons, List.pairwise_append, List.pairwise_cons] at ha
  obtain ⟨-, ⟨hlater, -⟩, hbefore⟩ := ha
  constructor
  · intro x hx
    exact hbefore x.1 (List.mem_map_of_mem hx) e.1 List.mem_cons_self
  · intro x hx
    exact hlater x.1 (List.mem_map_of_mem hx)

theorem not_mem_gap [LT κ] [Std.Asymm (α := κ) (· < ·)] (before later : List (κ × α)) (k : κ)
    (hb : ∀ x ∈ before, x.1 < k) (hl : ∀ x ∈ later, k < x.1) :
    k ∉ (before ++ later).map Prod.fst := by
  intro hk
  obtain ⟨x, hx, rfl⟩ := List.mem_map.mp hk
  rcases List.mem_append.mp hx with hx | hx
  · exact Std.Asymm.asymm _ _ (hb x hx) (hb x hx)
  · exact Std.Asymm.asymm _ _ (hl x hx) (hl x hx)

section Narrow

variable [LT κ] [Trans (α := κ) (β := κ) (γ := κ) (· < ·) (· < ·) (· < ·)]

/-- A key below one of the entries is below all that stand behind it. -/
theorem lt_of_mem_drop (entries : List (κ × α)) (ha : Ascending entries) (k : κ) (i : Nat)
    (e : κ × α) (he : entries[i]? = some e) (hk : k < e.1) (x : κ × α) (hx : x ∈ entries.drop i) :
    k < x.1 := by
  obtain ⟨hsplit, -⟩ := split_at_index entries i e he
  obtain ⟨hi, rfl⟩ := List.getElem?_eq_some_iff.mp he
  rw [List.drop_eq_getElem_cons hi] at hx
  rcases List.mem_cons.mp hx with rfl | hx
  · exact hk
  · exact Trans.trans hk ((keys_around _ _ _ (hsplit ▸ ha)).2 x hx)

/-- The key does not stand before entry `i`, which is not above it unless it is the first one, and
not among the later entries. -/
structure Meets (entries : List (κ × α)) (k : κ) (i : Nat) (later : List (κ × α)) : Prop where
  low : i = 0 ∨ ∃ e, entries[i]? = some e ∧ ¬k < e.1
  high : ∀ e ∈ later, k < e.1

theorem narrow_meets [DecidableLT κ] (entries : List (κ × α)) (ha : Ascending entries) (k : κ)
    (base size : Nat) (hs : 0 < size) (hle : base + size ≤ entries.length)
    (hb : Meets entries k base (entries.drop (base + size))) :
    ∃ i e, narrow entries k base size = .ok i ∧ entries[i]? = some e ∧
      Meets entries k i (entries.drop (i+1)) := by
  induction base, size using narrow.induct entries k with
  | case1 base size h =>
    obtain rfl : size = 1 := by omega
    exact ⟨base, _, by rw [narrow, if_pos h], List.getElem?_eq_getElem (by omega), hb⟩
  | case2 base size h middle hm hk ih =>
    have hmiddle := (Fault.demand_eq_ok_iff _ _ middle).mp hm
    rw [narrow, if_neg h, hm]
    simp only [if_pos hk]
    apply ih (by omega) (by omega)
    refine ⟨hb.low, fun e he => ?_⟩
    -- all that is left out stands in the middle or behind it
    have hsplit : base + (size - size/2) = base + size/2 + (size - 2 * (size/2)) := by omega
    rw [hsplit, ← List.drop_drop] at he
    exact lt_of_mem_drop entries ha k _ middle hmiddle hk e (List.mem_of_mem_drop he)
  | case3 base size h middle hm hk ih =>
    have hmiddle := (Fault.demand_eq_ok_iff _ _ middle).mp hm
    have hend : base + size/2 + (size - size/2) = base + size := by omega
    rw [narrow, if_neg h, hm]
    simp only [if_neg hk]
    apply ih (by omega) (by omega)
    exact ⟨.inr ⟨middle, hmiddle, hk⟩, hend ▸ hb.high⟩
  | case4 base size h fault hm =>
    have hlt : base + size/2 < entries.length := by omega
    simp [List.getElem?_eq_getElem hlt, Fault.demand] at hm

end Narrow

section Spot

variable [LT κ]

/-- Where a search ends: at the entry of the key, or between the smaller and the greater keys. -/
inductive Placed (entries : List (κ × α)) (k : κ) : Spot → Prop where
  | found (before later : List (κ × α)) (v : α) :
    entries = before ++ (k, v) :: later → Placed entries k (.found before.length)
  | gap (before later : List (κ × α)) :
    entries = before ++ later → (∀ x ∈ before, x.1 < k) → (∀ x ∈ later, k < x.1) →
      Placed entries k (.gap before.length)

variable [DecidableLT κ] [Std.Trichotomous (α := κ) (· < ·)]
  [Trans (α := κ) (β := κ) (γ := κ) (· < ·) (· < ·) (· < ·)]

theorem spot_placed (entries : List (κ × α)) (ha : Ascending entries) (k : κ) :
    ∃ place, spot entries k = .ok place ∧ Placed entries k place := by
  by_cases hnil : entries = []
  · subst hnil
    exact ⟨.gap 0, rfl, .gap [] [] rfl (by simp) (by simp)⟩
  · have hpos := List.length_pos_iff.mpr hnil
    obtain ⟨i, e, hi, he, hmeets⟩ := narrow_meets entries ha k 0 entries.length hpos (by omega)
      ⟨.inl rfl, by simp⟩
    refine ⟨beside k e.1 i, by simp [spot, hnil, hi, he], ?_⟩
    obtain ⟨hsplit, hlen⟩ := split_at_index entries i e he
    obtain ⟨hbefore, -⟩ := keys_around _ _ _ (hsplit ▸ ha)
    unfold beside
    split
    · -- only the first entry may be above the key
      rename_i hlt
      rcases hmeets.low with rfl | ⟨e', he', hle⟩
      · refine .gap [] entries rfl (by simp) fun x hx => ?_
        exact lt_of_mem_drop entries ha k 0 e he hlt x (by simpa using hx)
      · rw [he, Option.some.injEq] at he'
        exact absurd (he' ▸ hlt) hle
    · split
      · rename_i hlt
        have hgap : Placed entries k (.gap (entries.take i ++ [e]).length) := by
          refine .gap _ (entries.drop (i+1)) (by simpa using hsplit) (fun x hx => ?_) hmeets.high
          rcases List.mem_append.mp hx with hx | hx
          · exact Trans.trans (hbefore x hx) hlt
          · rw [List.mem_singleton.mp hx]
            exact hlt
        simpa [hlen] using hgap
      · rename_i hnotlow hnothigh
        have hk : k = e.1 := Std.Trichotomous.trichotomous k e.1 hnotlow hnothigh
        have hfound : Placed entries k (.found (entries.take i).length) := by
          subst hk
          exact .found _ _ e.2 hsplit
        rwa [hlen] at hfound

/-- What is found is the only entry of the key, and it is always found. -/
theorem spot_eq_found_iff [Std.Asymm (α := κ) (· < ·)] (entries : List (κ × α))
    (ha : Ascending entries) (k : κ) (i : Nat) :
    spot entries k = .ok (.found i) ↔ ∃ v, entries[i]? = some (k, v) := by
  obtain ⟨place, hspot, hplaced⟩ := spot_placed entries ha k
  rw [hspot]
  cases hplaced with
  | found before later v h =>
    subst h
    obtain ⟨hbefore, hlater⟩ := keys_around before later (k, v) ha
    have hirrefl : ¬k < k := fun h => Std.Asymm.asymm _ _ h h
    constructor
    · intro h
      cases h
      exact ⟨v, by simp⟩
    · rintro ⟨w, hw⟩
      rcases Nat.lt_trichotomy i before.length with hlt | rfl | hgt
      · rw [List.getElem?_append_left hlt] at hw
        exact absurd (hbefore (k, w) (List.mem_of_getElem? hw)) hirrefl
      · rfl
      · obtain ⟨j, hj⟩ : ∃ j, i - before.length = j + 1 := ⟨i - before.length - 1, by omega⟩
        rw [List.getElem?_append_right (Nat.le_of_lt hgt), hj, List.getElem?_cons_succ] at hw
        exact absurd (hlater (k, w) (List.mem_of_getElem? hw)) hirrefl
  | gap before later h hb hl =>
    have hnot := h ▸ not_mem_gap before later k hb hl
    constructor
    · intro h
      cases h
    · rintro ⟨w, hw⟩
      exact absurd (List.mem_map_of_mem (List.mem_of_getElem? hw)) hnot

end Spot

section Put

variable [LT κ] [DecidableLT κ]

theorem put_of_lt (later : List (κ × α)) (k : κ) (v : α) (hl : ∀ x ∈ later, k < x.1) :
    put k v later = (k, v) :: later := by
  cases later with
  | nil => rfl
  | cons x later => rw [put, if_pos (hl x List.mem_cons_self)]

variable [Std.Asymm (α := κ) (· < ·)]

theorem put_append_of_lt (before later : List (κ × α)) (k : κ) (v : α)
    (hb : ∀ x ∈ before, x.1 < k) : put k v (before ++ later) = before ++ put k v later := by
  induction before with
  | nil => rfl
  | cons x before ih =>
    have hx := hb x List.mem_cons_self
    have hrest := ih fun y hy => hb y (List.mem_cons_of_mem x hy)
    rw [List.cons_append, put, if_neg (Std.Asymm.asymm _ _ hx), if_pos hx, hrest, List.cons_append]

/-- Where the entry of the key stands `put` writes over it. -/
theorem put_found (before later : List (κ × α)) (k : κ) (v w : α)
    (ha : Ascending (before ++ (k, w) :: later)) :
    put k v (before ++ (k, w) :: later) = before ++ (k, v) :: later := by
  have hirrefl : ¬k < k := fun h => Std.Asymm.asymm _ _ h h
  rw [put_append_of_lt _ _ _ _ (keys_around before later (k, w) ha).1, put, if_neg hirrefl,
    if_neg hirrefl]

/-- In a gap `put` sets the entry in. -/
theorem put_gap (before later : List (κ × α)) (k : κ) (v : α) (hb : ∀ x ∈ before, x.1 < k)
    (hl : ∀ x ∈ later, k < x.1) : put k v (before ++ later) = before ++ (k, v) :: later := by
  rw [put_append_of_lt _ _ _ _ hb, put_of_lt _ _ _ hl]

end Put

end Ascending

end PageLookup
