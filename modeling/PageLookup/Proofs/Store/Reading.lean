import PageLookup.Store.Basic

/-!
# What the reads of a store have to do with each other

A listing names what a lookup finds: a language has a bucket for every platform
it lists, and a bucket has a page for every name it lists. A store is empty
when no page is to be found in it, however many languages and buckets it has.
One write changes what stands under its own key, and brings the levels above.
-/

set_option autoImplicit false

namespace PageLookup.Store

section Listings

variable (s : Store) (language platform : String)

theorem languages_ascending : s.languages.Pairwise (· < ·) := s.tree.keys_ascending

theorem platforms_ascending : (s.platforms language).Pairwise (· < ·) :=
  (s.buckets language).keys_ascending

theorem mem_platforms_iff :
    platform ∈ s.platforms language ↔ (s.bucket? language platform).isSome = true :=
  ((s.buckets language).get?_isSome_iff platform).symm

theorem pages_isSome_iff :
    (s.pages language platform).isSome = true ↔ platform ∈ s.platforms language := by
  rw [mem_platforms_iff, pages, Option.isSome_map]

variable {s language platform} {names : List String}

theorem pages_ascending (h : s.pages language platform = some names) :
    names.Pairwise (· < ·) := by
  obtain ⟨bucket, -, rfl⟩ := Option.map_eq_some_iff.mp h
  exact bucket.keys_ascending

theorem mem_pages_iff (h : s.pages language platform = some names) (name : String) :
    name ∈ names ↔ (s.page language platform name).isSome = true := by
  obtain ⟨bucket, hb, rfl⟩ := Option.map_eq_some_iff.mp h
  rw [page, hb, Option.bind_some, bucket.get?_isSome_iff]

end Listings

section Emptiness

variable (s : Store)

theorem bucket?_eq_some_iff (language platform : String) (bucket : Bucket) :
    s.bucket? language platform = some bucket ↔
      ∃ platforms, s.tree.get? language = some platforms ∧
        platforms.get? platform = some bucket := by
  unfold bucket? buckets
  cases s.tree.get? language <;> simp

/-- A bucket that is not there has no pages, like one that is empty. -/
theorem get?_bucket (language platform name : String) :
    ((s.bucket? language platform).getD .empty).get? name = s.page language platform name := by
  rw [page]
  cases s.bucket? language platform <;> simp

theorem getD_pages (language platform : String) :
    (s.pages language platform).getD [] = ((s.bucket? language platform).getD .empty).keys := by
  rw [pages]
  cases s.bucket? language platform <;> rfl

theorem mem_getD_pages_iff (language platform name : String) :
    name ∈ (s.pages language platform).getD [] ↔
      (s.page language platform name).isSome = true := by
  rw [getD_pages, ← Keyed.get?_isSome_iff, get?_bucket]

theorem page_eq_some_iff (language platform name text : String) :
    s.page language platform name = some text ↔
      ∃ bucket, s.bucket? language platform = some bucket ∧ (name, text) ∈ bucket.entries := by
  simp [page, Option.bind_eq_some_iff, Keyed.get?_eq_some_iff]

theorem isEmpty_iff_buckets :
    s.isEmpty = true ↔
      ∀ language platform bucket, s.bucket? language platform = some bucket →
        bucket.entries = [] := by
  simp only [isEmpty, List.all_eq_true, List.isEmpty_iff, Keyed.mem_values_iff,
    bucket?_eq_some_iff]
  constructor
  · rintro h language platform bucket ⟨platforms, hp, hb⟩
    exact h platforms ⟨language, hp⟩ bucket ⟨platform, hb⟩
  · rintro h platforms ⟨language, hp⟩ bucket ⟨platform, hb⟩
    exact h language platform bucket ⟨platforms, hp, hb⟩

/-- Emptiness is about pages: levels that hold nothing do not count. -/
theorem isEmpty_iff :
    s.isEmpty = true ↔ ∀ language platform name, s.page language platform name = none := by
  rw [isEmpty_iff_buckets]
  constructor
  · intro h language platform name
    rw [Option.eq_none_iff_forall_ne_some]
    intro text ht
    obtain ⟨bucket, hb, hmem⟩ := (s.page_eq_some_iff language platform name text).mp ht
    rw [h language platform bucket hb] at hmem
    exact List.not_mem_nil hmem
  · intro h language platform bucket hb
    rw [List.eq_nil_iff_forall_not_mem]
    rintro ⟨name, text⟩ hmem
    have ht := (s.page_eq_some_iff language platform name text).mpr ⟨bucket, hb, hmem⟩
    rw [h language platform name] at ht
    cases ht

theorem isEmpty_eq_false_iff :
    s.isEmpty = false ↔
      ∃ language platform name, (s.page language platform name).isSome = true := by
  rw [← Bool.not_eq_true, isEmpty_iff]
  simp [Option.ne_none_iff_isSome]

end Emptiness

section Writing

variable (s : Store) (language platform name text : String)

theorem mem_languages_insert (l : String) :
    l ∈ (s.insert language platform name text).languages ↔ l = language ∨ l ∈ s.languages :=
  Keyed.mem_keys_insert s.tree language _ l

theorem buckets_insert (l : String) :
    (s.insert language platform name text).buckets l =
      if l = language then
        (s.buckets language).insert platform
          (((s.bucket? language platform).getD .empty).insert name text)
      else s.buckets l := by
  simp only [insert, buckets, Keyed.get?_insert]
  split <;> rfl

theorem mem_platforms_insert (l p : String) :
    p ∈ (s.insert language platform name text).platforms l ↔
      l = language ∧ p = platform ∨ p ∈ s.platforms l := by
  rw [platforms, buckets_insert]
  split
  · rename_i hl
    subst hl
    simp [Keyed.mem_keys_insert, platforms]
  · rename_i hl
    simp [hl, platforms]

theorem bucket?_insert (l p : String) :
    (s.insert language platform name text).bucket? l p =
      if l = language ∧ p = platform then
        some (((s.bucket? language platform).getD .empty).insert name text)
      else s.bucket? l p := by
  rw [bucket?, buckets_insert]
  by_cases hl : l = language
  · subst hl
    by_cases hp : p = platform <;> simp [hp, Keyed.get?_insert, bucket?]
  · simp [hl, bucket?]

/-- An insert decides the text under its own key and leaves every other key alone. -/
theorem page_insert (l p n : String) :
    (s.insert language platform name text).page l p n =
      if l = language ∧ p = platform ∧ n = name then some text else s.page l p n := by
  rw [page, bucket?_insert]
  by_cases hb : l = language ∧ p = platform
  · obtain ⟨rfl, rfl⟩ := hb
    simp [Keyed.get?_insert, s.get?_bucket]
  · have hkey : ¬(l = language ∧ p = platform ∧ n = name) := fun h => hb ⟨h.1, h.2.1⟩
    rw [if_neg hb, if_neg hkey, page]

theorem isEmpty_insert : (s.insert language platform name text).isEmpty = false := by
  rw [isEmpty_eq_false_iff]
  refine ⟨language, platform, name, ?_⟩
  rw [page_insert, if_pos ⟨rfl, rfl, rfl⟩, Option.isSome_some]

end Writing

end PageLookup.Store
