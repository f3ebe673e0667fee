/-!
# Entries in ascending key order

A list of keyed entries whose keys grow strictly has one entry a key and one
shape for each content. `put` keeps that order: it writes over the entry of
its key, or sets a new entry at its place.
-/

set_option autoImplicit false

namespace PageLookup

variable {κ α : Type}

def Ascending [LT κ] (entries : List (κ × α)) : Prop :=
  (entries.map Prod.fst).Pairwise (· < ·)

namespace Ascending

def put [LT κ] [DecidableLT κ] (k : κ) (v : α) : List (κ × α) → List (κ × α)
  | [] => [(k, v)]
  | (h, w) :: rest =>
    if k < h then (k, v) :: (h, w) :: rest
    else if h < k then (h, w) :: put k v rest
    else (k, v) :: rest

theorem mem_put [LT κ] [DecidableLT κ] (k : κ) (v : α) (entries : List (κ × α)) (e : κ × α)
    (h : e ∈ put k v entries) : e = (k, v) ∨ e ∈ entries := by
  induction entries with
  | nil => simpa [put] using h
  | cons first rest ih =>
    unfold put at h
    split at h
    · simpa using h
    · split at h
      · rcases List.mem_cons.mp h with rfl | h
        · simp
        · exact (ih h).imp_right (List.mem_cons_of_mem first)
      · exact (List.mem_cons.mp h).imp_right (List.mem_cons_of_mem first)

/-- In an ascending list no entry hides another one. -/
theorem lookup_eq_some_iff [LT κ] [Std.Irrefl (α := κ) (· < ·)] [BEq κ] [LawfulBEq κ]
    (entries : List (κ × α)) (ha : Ascending entries) (k : κ) (v : α) :
    entries.lookup k = some v ↔ (k, v) ∈ entries := by
  induction entries with
  | nil => simp
  | cons e rest ih =>
    obtain ⟨h, w⟩ := e
    obtain ⟨hmin, hrest⟩ := List.pairwise_cons.mp ha
    by_cases hk : k = h
    · subst hk
      have hnot : (k, v) ∉ rest := by
        intro hmem
        exact Std.Irrefl.irrefl k (hmin k (List.mem_map_of_mem hmem))
      simp [hnot, eq_comm]
    · have hne : (k == h) = false := beq_eq_false_iff_ne.mpr hk
      simp [List.lookup_cons, hk, hne, ih hrest]

section Lookup

variable [LT κ] [DecidableLT κ] [BEq κ] [LawfulBEq κ]

theorem lookup_put_self [Std.Irrefl (α := κ) (· < ·)] (k : κ) (v : α) (entries : List (κ × α)) :
    (put k v entries).lookup k = some v := by
  induction entries with
  | nil => simp [put]
  | cons e rest ih =>
    obtain ⟨h, w⟩ := e
    unfold put
    split
    · simp
    · split
      · rename_i hhk
        have hne : (k == h) = false := by
          apply beq_eq_false_iff_ne.mpr
          rintro rfl
          exact Std.Irrefl.irrefl _ hhk
        simp [List.lookup_cons, hne, ih]
      · simp

theorem lookup_put_of_ne [Std.Trichotomous (α := κ) (· < ·)] (k : κ) (v : α)
    (entries : List (κ × α)) (x : κ) (hx : x ≠ k) :
    (put k v entries).lookup x = entries.lookup x := by
  have hxk : (x == k) = false := beq_eq_false_iff_ne.mpr hx
  induction entries with
  | nil => simp [put, List.lookup_cons, hxk]
  | cons e rest ih =>
    obtain ⟨h, w⟩ := e
    unfold put
    split
    · simp [List.lookup_cons, hxk]
    · rename_i hkh
      split
      · simp only [List.lookup_cons, ih]
      · rename_i hhk
        rw [← Std.Trichotomous.trichotomous k h hkh hhk]
        simp [List.lookup_cons, hxk]

end Lookup

section Order

variable [LT κ] [DecidableLT κ] [Std.Trichotomous (α := κ) (· < ·)]

theorem mem_keys_put (k : κ) (v : α) (entries : List (κ × α)) (x : κ) :
    x ∈ (put k v entries).map Prod.fst ↔ x = k ∨ x ∈ entries.map Prod.fst := by
  induction entries with
  | nil => simp [put]
  | cons e rest ih =>
    obtain ⟨h, w⟩ := e
    unfold put
    split
    · simp
    · rename_i hkh
      split
      · simp only [List.map_cons, List.mem_cons, ih]
        exact or_left_comm
      · rename_i hhk
        simp [Std.Trichotomous.trichotomous k h hkh hhk]

theorem put_ascending [Trans (α := κ) (β := κ) (γ := κ) (· < ·) (· < ·) (· < ·)]
    (k : κ) (v : α) (entries : List (κ × α)) (ha : Ascending entries) :
    Ascending (put k v entries) := by
  induction entries with
  | nil => simp [put, Ascending]
  | cons e rest ih =>
    obtain ⟨h, w⟩ := e
    obtain ⟨hmin, hrest⟩ := List.pairwise_cons.mp ha
    unfold put
    split
    · rename_i hkh
      refine List.pairwise_cons.mpr ⟨fun x hx => ?_, ha⟩
      rcases List.mem_cons.mp hx with rfl | hx
      · exact hkh
      · exact Trans.trans hkh (hmin x hx)
    · rename_i hkh
      split
      · rename_i hhk
        refine List.pairwise_cons.mpr ⟨fun x hx => ?_, ih hrest⟩
        rcases (mem_keys_put k v rest x).mp hx with rfl | hx
        · exact hhk
        · exact hmin x hx
      · rename_i hhk
        rw [Std.Trichotomous.trichotomous k h hkh hhk]
        exact ha

end Order

end Ascending

end PageLookup
