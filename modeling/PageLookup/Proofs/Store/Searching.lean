import PageLookup.Page
import PageLookup.Proofs.Store.Reading
import PageLookup.Search

/-!
# What a search finds

A search goes over listings and a lookup goes by key, and both see the same
pages: a bucket contributes a matching name once if it has a page of that name,
and nothing otherwise, be it missing, empty or the common one a second time.
-/

set_option autoImplicit false

namespace PageLookup

section Find

variable (store : Store) (language platform name : String)

theorem Page.exists_find_iff :
    (∃ text, Page.find store language platform name = .ok text) ↔
      (store.page language platform name).isSome = true ∨
        (store.page language common name).isSome = true := by
  unfold Page.find
  cases store.page language platform name <;> cases store.page language common name <;> simp

end Find

namespace Search

variable (search : Search) (store : Store) (language platform bucket : String)

/-- A bucket's part of a search is its listing without the names that do not match. -/
theorem found_eq_filter :
    search.found store language bucket =
      ((store.pages language bucket).getD []).filter search.pattern.accepts := by
  unfold found found?
  cases store.pages language bucket <;> rfl

theorem found_ascending : (search.found store language bucket).Pairwise (· < ·) := by
  rw [found_eq_filter, Store.getD_pages]
  exact (Keyed.keys_ascending _).filter search.pattern.accepts

theorem mem_found_iff (name : String) :
    name ∈ search.found store language bucket ↔
      search.pattern.accepts name = true ∧ (store.page language bucket name).isSome = true := by
  rw [found_eq_filter, List.mem_filter, Store.mem_getD_pages_iff, and_comm]

theorem count_found (name : String) :
    (search.found store language bucket).count name =
      if search.pattern.accepts name = true ∧ (store.page language bucket name).isSome = true
      then 1 else 0 := by
  have hnodup : (search.found store language bucket).Nodup := by
    refine (search.found_ascending store language bucket).imp ?_
    rintro a b hlt rfl
    exact String.lt_irrefl a hlt
  rw [hnodup.count]
  simp only [mem_found_iff]

theorem run_of_page (h : ∃ l p n, (store.page l p n).isSome = true) :
    search.run store language platform =
      .ok (search.found store language common ++ search.found store language platform) := by
  rw [run, store.isEmpty_eq_false_iff.mpr h]
  rfl

/-- A search lists a matching name once for each of its two buckets that has a page of that name,
first the common bucket's and then the platform's, so it finds what can be looked up. -/
theorem run_lists_pages (h : ∃ l p n, (store.page l p n).isSome = true) :
    ∃ shared own, search.run store language platform = .ok (shared ++ own) ∧
      shared.Pairwise (· < ·) ∧ own.Pairwise (· < ·) ∧
      (∀ name, name ∈ shared ↔ search.pattern.accepts name = true ∧
        (store.page language common name).isSome = true) ∧
      (∀ name, name ∈ own ↔ search.pattern.accepts name = true ∧
        (store.page language platform name).isSome = true) ∧
      (∀ name, (shared ++ own).count name =
        if search.pattern.accepts name = true then
          [common, platform].countP fun bucket => (store.page language bucket name).isSome
        else 0) ∧
      ∀ name, name ∈ shared ++ own ↔ search.pattern.accepts name = true ∧
        ∃ text, Page.find store language platform name = .ok text := by
  refine ⟨_, _, search.run_of_page store language platform h,
    search.found_ascending store language common, search.found_ascending store language platform,
    search.mem_found_iff store language common, search.mem_found_iff store language platform,
    ?_, ?_⟩
  · intro name
    rw [List.count_append, count_found, count_found]
    by_cases ha : search.pattern.accepts name = true
    · simp [ha, List.countP_cons, Nat.add_comm]
    · simp [ha]
  · intro name
    rw [List.mem_append, mem_found_iff, mem_found_iff, Page.exists_find_iff, ← and_or_left,
      or_comm]

theorem run_lists_page_of_both_buckets :
    let store := ((Store.insert ⟨Keyed.empty.insert "fr" .empty⟩ "en" common "tar" "shared").insert
      "en" "linux" "tar" "own").insert "en" "linux" "apt" "own"
    ∃ search, ofPattern "*a?" = .ok search ∧
      (∃ names, search.run store "en" "linux" = .ok names ∧ names.count "tar" = 2 ∧
        names.count "apt" = 0) ∧
      (∃ names, search.run store "en" common = .ok names ∧ names.count "tar" = 2) ∧
      ∃ names, search.run store "en" "osx" = .ok names ∧ names.count "tar" = 1 ∧
        ∃ text, Page.find store "en" "osx" "tar" = .ok text := by
  intro store
  have h : ∃ l p n, (store.page l p n).isSome = true := ⟨"en", "linux", "apt", by decide⟩
  refine ⟨_, rfl, ?_, ?_, ?_⟩
  · obtain ⟨shared, own, hrun, -, -, -, -, hcount, -⟩ := run_lists_pages _ store "en" "linux" h
    exact ⟨shared ++ own, hrun, (hcount "tar").trans (by decide), (hcount "apt").trans (by decide)⟩
  · obtain ⟨shared, own, hrun, -, -, -, -, hcount, -⟩ := run_lists_pages _ store "en" common h
    exact ⟨shared ++ own, hrun, (hcount "tar").trans (by decide)⟩
  · obtain ⟨shared, own, hrun, -, -, -, -, hcount, hfind⟩ := run_lists_pages _ store "en" "osx" h
    refine ⟨shared ++ own, hrun, (hcount "tar").trans (by decide), ((hfind "tar").mp ?_).2⟩
    exact List.count_pos_iff.mp ((hcount "tar").symm ▸ by decide)

end Search

end PageLookup
