import PageLookup.Proofs.Halving
import PageLookup.Proofs.Store.Emptiness

/-!
# What a search finds after an insert

An insert shows in a search as one more name in the part of its bucket, set in
at its place, if the name is new there and the pattern matches it. All other
parts stay as they are, and a search that failed for want of any page now finds
what there is.
-/

set_option autoImplicit false

namespace PageLookup

/-- A list gets one more name, behind all smaller names and before all greater ones. -/
inductive Entered (name : String) : List String → List String → Prop where
  | between (before behind : List String) :
    (∀ x ∈ before, x < name) → (∀ x ∈ behind, name < x) →
      Entered name (before ++ behind) (before ++ name :: behind)

theorem Entered.filter {name : String} {old new : List String} (h : Entered name old new)
    (p : String → Bool) (hp : p name = true) : Entered name (old.filter p) (new.filter p) := by
  cases h with
  | between before behind hb hl =>
    rw [List.filter_append, List.filter_append, List.filter_cons_of_pos hp]
    exact .between _ _ (fun x hx => hb x (List.mem_filter.mp hx).1)
      fun x hx => hl x (List.mem_filter.mp hx).1

theorem Entered.filter_eq {name : String} {old new : List String} (h : Entered name old new)
    (p : String → Bool) (hp : p name = false) : new.filter p = old.filter p := by
  cases h with
  | between before behind hb hl => simp [hp]

namespace Keyed

variable {α : Type} (m : Keyed α) (k : String) (v : α)

/-- A key that is there keeps its place. -/
theorem keys_insert_of_mem (h : k ∈ m.keys) : (m.insert k v).keys = m.keys := by
  obtain ⟨place, -, hplaced⟩ := Ascending.spot_placed m.entries m.ascending k
  cases hplaced with
  | found before later w he =>
    have hput := Ascending.put_found before later k v w (he ▸ m.ascending)
    simp only [keys, insert, he, hput, List.map_append, List.map_cons]
  | gap before later he hb hl =>
    rw [keys, he] at h
    exact absurd h (Ascending.not_mem_gap before later k hb hl)

theorem keys_insert_of_not_mem (h : k ∉ m.keys) : Entered k m.keys (m.insert k v).keys := by
  obtain ⟨place, -, hplaced⟩ := Ascending.spot_placed m.entries m.ascending k
  cases hplaced with
  | found before later w he =>
    rw [keys, he] at h
    simp at h
  | gap before later he hb hl =>
    have hput := Ascending.put_gap before later k v hb hl
    simp only [keys, insert, he, hput, List.map_append, List.map_cons]
    refine .between _ _ ?_ ?_
    · intro x hx
      obtain ⟨e, hmem, rfl⟩ := List.mem_map.mp hx
      exact hb e hmem
    · intro x hx
      obtain ⟨e, hmem, rfl⟩ := List.mem_map.mp hx
      exact hl e hmem

end Keyed

namespace Search

section Parts

variable (search : Search) (store : Store) (language platform name text : String)

theorem found_eq (bucket : String) :
    search.found store language bucket =
      ((store.bucket? language bucket).getD .empty).keys.filter search.pattern.accepts := by
  rw [found_eq_filter, Store.getD_pages]

theorem found_eq_nil (h : store.isEmpty = true) (bucket : String) :
    search.found store language bucket = [] := by
  rw [List.eq_nil_iff_forall_not_mem]
  intro name hmem
  obtain ⟨-, hpage⟩ := (search.mem_found_iff store language bucket name).mp hmem
  rw [store.isEmpty_iff.mp h] at hpage
  cases hpage

/-- The name shows in the part of its bucket, at its place. -/
theorem found_insert (hm : search.pattern.accepts name = true)
    (hnew : store.page language platform name = none) :
    Entered name (search.found store language platform)
      (search.found (store.insert language platform name text) language platform) := by
  rw [found_eq, found_eq, Store.bucket?_insert, if_pos ⟨rfl, rfl⟩, Option.getD_some]
  refine (Keyed.keys_insert_of_not_mem _ name text ?_).filter _ hm
  rw [← Keyed.get?_isSome_iff, Store.get?_bucket, hnew]
  simp

/-- Its own bucket's part stays if the name was there or is not one that the pattern matches. -/
theorem found_insert_unseen
    (h : search.pattern.accepts name = false ∨
      (store.page language platform name).isSome = true) :
    search.found (store.insert language platform name text) language platform =
      search.found store language platform := by
  rw [found_eq, found_eq, Store.bucket?_insert, if_pos ⟨rfl, rfl⟩, Option.getD_some]
  by_cases hmem : name ∈ ((store.bucket? language platform).getD .empty).keys
  · rw [Keyed.keys_insert_of_mem _ name text hmem]
  · have hnew := hmem
    rw [← Keyed.get?_isSome_iff, Store.get?_bucket] at hnew
    exact (Keyed.keys_insert_of_not_mem _ name text hmem).filter_eq _ (h.resolve_right hnew)

/-- Every other bucket's part stays. -/
theorem found_insert_elsewhere (l bucket : String) (h : ¬(l = language ∧ bucket = platform)) :
    search.found (store.insert language platform name text) l bucket =
      search.found store l bucket := by
  rw [found_eq, found_eq, Store.bucket?_insert, if_neg h]

theorem found_insert_stays (l bucket : String)
    (h : l ≠ language ∨ bucket ≠ platform ∨ search.pattern.accepts name = false ∨
      (store.page language platform name).isSome = true) :
    search.found (store.insert language platform name text) l bucket =
      search.found store l bucket := by
  by_cases hkey : l = language ∧ bucket = platform
  · obtain ⟨rfl, rfl⟩ := hkey
    refine search.found_insert_unseen store l bucket name text ?_
    exact (h.resolve_left (absurd rfl)).resolve_left (absurd rfl)
  · exact search.found_insert_elsewhere store language platform name text l bucket hkey

end Parts

section Run

variable (search : Search) (store : Store) (language platform : String)

theorem run_insert (name text l p : String) :
    search.run (store.insert language platform name text) l p =
      .ok (search.found (store.insert language platform name text) l common ++
        search.found (store.insert language platform name text) l p) := by
  apply run_of_page
  exact (Store.isEmpty_eq_false_iff _).mp (store.isEmpty_insert language platform name text)

/-- A search that fails has nothing in its parts. -/
theorem run_toOption :
    (search.run store language platform).toOption.getD [] =
      search.found store language common ++ search.found store language platform := by
  cases h : store.isEmpty with
  | true =>
    rw [(search.run_eq_emptyDatabase_iff store language platform).mpr h,
      found_eq_nil search store language h, found_eq_nil search store language h]
    rfl
  | false =>
    rw [search.run_of_page store language platform (store.isEmpty_eq_false_iff.mp h)]
    rfl

end Run

/-- After an insert a search succeeds. The new name stands in the part of its bucket, at its
place, if the pattern matches it; what the search goes through otherwise gives what it gave. -/
theorem run_after_insert (search : Search) (store : Store)
    (language platform name text l p : String) :
    let later := store.insert language platform name text
    (search.run store l p = .ok (search.found store l common ++ search.found store l p) ∨
      search.run store l p = .error .emptyDatabase ∧
        search.found store l common = [] ∧ search.found store l p = []) ∧
    (search.run store l p = .error .emptyDatabase ↔ ∀ l p n, store.page l p n = none) ∧
    search.run later l p = .ok (search.found later l common ++ search.found later l p) ∧
    (l ≠ language ∨ (platform ≠ common ∧ platform ≠ p) ∨ search.pattern.accepts name = false ∨
        (store.page language platform name).isSome = true →
      search.run later l p = .ok ((search.run store l p).toOption.getD [])) ∧
    (l = language → search.pattern.accepts name = true →
        store.page language platform name = none →
      ∀ bucket ∈ [common, p],
        (bucket = platform → Entered name (search.found store l bucket)
          (search.found later l bucket)) ∧
        (bucket ≠ platform → search.found later l bucket = search.found store l bucket)) := by
  intro later
  refine ⟨?_, ?_, search.run_insert store language platform name text l p, ?_, ?_⟩
  · cases h : store.isEmpty with
    | true =>
      exact .inr ⟨(search.run_eq_emptyDatabase_iff store l p).mpr h,
        search.found_eq_nil store l h common, search.found_eq_nil store l h p⟩
    | false => exact .inl (search.run_of_page store l p (store.isEmpty_eq_false_iff.mp h))
  · rw [run_eq_emptyDatabase_iff, Store.isEmpty_iff]
  · intro h
    have hstays : ∀ bucket, bucket = common ∨ bucket = p →
        search.found later l bucket = search.found store l bucket := by
      intro bucket hbucket
      refine search.found_insert_stays store language platform name text l bucket ?_
      refine h.imp_right (Or.imp_left ?_)
      rintro ⟨hcommon, hp⟩ rfl
      exact hbucket.elim hcommon hp
    rw [run_insert, hstays common (.inl rfl), hstays p (.inr rfl), run_toOption]
  · rintro rfl hm hnew bucket -
    constructor
    · rintro rfl
      exact search.found_insert store l bucket name text hm hnew
    · intro hne
      exact search.found_insert_stays store l platform name text l bucket (.inr (.inl hne))

theorem run_after_insert_into_common :
    let store := (Store.empty.insert "en" common "tmux" "shared").insert "en" common "tar" "shared"
    ∃ search, ofPattern "t*" = .ok search ∧
      search.run .empty "en" "linux" = .error .emptyDatabase ∧
      search.run (Store.empty.insert "de" common "tar" "text") "en" "linux" = .ok [] ∧
      search.run (store.insert "en" common "tar" "new") "en" common =
        .ok ["tar", "tmux", "tar", "tmux"] ∧
      (∀ bucket ∈ [common, common], bucket = common →
        Entered "tig" (search.found store "en" bucket)
          (search.found (store.insert "en" common "tig" "text") "en" bucket)) ∧
      ∀ bucket ∈ [common, "linux"], bucket ≠ common →
        search.found (store.insert "en" common "tig" "text") "en" bucket = [] := by
  intro store
  refine ⟨_, rfl, ?_, ?_, ?_, ?_, ?_⟩
  · exact (run_after_insert _ .empty "de" common "tar" "text" "en" "linux").2.1.mpr
      fun _ _ _ => rfl
  · exact (run_after_insert _ .empty "de" common "tar" "text" "en" "linux").2.2.2.1
      (.inl (by decide))
  · exact (run_after_insert _ store "en" common "tar" "new" "en" common).2.2.2.1
      (.inr (.inr (.inr (by decide))))
  · intro bucket hbucket
    exact ((run_after_insert _ store "en" common "tig" "text" "en" common).2.2.2.2 rfl
      (by decide) (by decide) bucket hbucket).1
  · intro bucket hbucket hne
    refine (((run_after_insert _ store "en" common "tig" "text" "en" "linux").2.2.2.2 rfl
      (by decide) (by decide) bucket hbucket).2 hne).trans ?_
    obtain rfl : bucket = "linux" := by simpa [hne] using hbucket
    decide

end Search

end PageLookup
