import Mathlib.Data.List.Sort
import PageLookup.Listing
import PageLookup.Proofs.Store.Histories
import PageLookup.Search

/-!
# Writes leave no trace of their order

Two finite maps are equal when every key holds the same in both. A store has
levels above its pages, and a level that holds nothing would tell two stores
apart that hold the same pages. Writes never leave such a level behind, so what
a history of writes comes to is told by its pages alone.
-/

set_option autoImplicit false

namespace PageLookup

namespace Keyed

variable {α : Type}

/-- The keys are in order, so the same entries stand in the same places. -/
theorem ext_get? (m m' : Keyed α) (h : ∀ k, m.get? k = m'.get? k) : m = m' := by
  have hentries : m.entries = m'.entries := by
    have hm := List.pairwise_map.mp m.ascending
    have hm' := List.pairwise_map.mp m'.ascending
    have : Std.Irrefl fun a b : String × α => a.1 < b.1 := ⟨fun a => String.lt_irrefl a.1⟩
    have : Std.Antisymm fun a b : String × α => a.1 < b.1 :=
      ⟨fun a b hab hba => absurd hba (String.lt_asymm hab)⟩
    refine hm.eq_of_mem_iff hm' fun e => ?_
    rw [← get?_eq_some_iff m e.1 e.2, h, get?_eq_some_iff m' e.1 e.2]
  cases m
  cases m'
  simpa using hentries

/-- Two maps that may be missing are the same if both are missing or none is, and if they hold the
same where a missing one holds nothing. -/
theorem eq_of_isSome_iff (o o' : Option (Keyed α)) (hsome : o.isSome = true ↔ o'.isSome = true)
    (hget : ∀ k, (o.getD .empty).get? k = (o'.getD .empty).get? k) : o = o' := by
  cases o with
  | none =>
    cases o' with
    | none => rfl
    | some m' => simp at hsome
  | some m =>
    cases o' with
    | none => simp at hsome
    | some m' => exact congrArg some (ext_get? m m' hget)

end Keyed

namespace Store

/-- Every language has a bucket and every bucket a page. -/
structure Trim (s : Store) : Prop where
  language : ∀ l ∈ s.languages, ∃ p, p ∈ s.platforms l
  bucket : ∀ l p, p ∈ s.platforms l → ∃ n, (s.page l p n).isSome = true

section Levels

variable (s : Store) (l p : String)

theorem mem_languages_of_platform (h : p ∈ s.platforms l) : l ∈ s.languages := by
  obtain ⟨bucket, hb⟩ := Option.isSome_iff_exists.mp ((s.mem_platforms_iff l p).mp h)
  obtain ⟨platforms, hp, -⟩ := (s.bucket?_eq_some_iff l p bucket).mp hb
  exact (s.tree.get?_isSome_iff l).mp (Option.isSome_of_eq_some hp)

theorem mem_platforms_of_page (n : String) (h : (s.page l p n).isSome = true) :
    p ∈ s.platforms l := by
  obtain ⟨text, ht⟩ := Option.isSome_iff_exists.mp h
  obtain ⟨bucket, hb, -⟩ := (s.page_eq_some_iff l p n text).mp ht
  exact (s.mem_platforms_iff l p).mpr (Option.isSome_of_eq_some hb)

variable {s}

theorem Trim.mem_platforms_iff (h : s.Trim) :
    p ∈ s.platforms l ↔ ∃ n, (s.page l p n).isSome = true :=
  ⟨h.bucket l p, fun ⟨n, hn⟩ => s.mem_platforms_of_page l p n hn⟩

theorem Trim.mem_languages_iff (h : s.Trim) :
    l ∈ s.languages ↔ ∃ p, p ∈ s.platforms l :=
  ⟨h.language l, fun ⟨p, hp⟩ => s.mem_languages_of_platform l p hp⟩

end Levels

section Extensionality

variable {s s' : Store} (hs : s.Trim) (hs' : s'.Trim)
  (h : ∀ l p n, s.page l p n = s'.page l p n)

include hs hs' h

theorem Trim.bucket?_eq (l p : String) : s.bucket? l p = s'.bucket? l p := by
  apply Keyed.eq_of_isSome_iff
  · rw [← s.mem_platforms_iff, ← s'.mem_platforms_iff, hs.mem_platforms_iff, hs'.mem_platforms_iff]
    simp only [h]
  · intro n
    rw [get?_bucket, get?_bucket, h]

/-- Trim stores are told apart by their pages. -/
theorem Trim.ext_page : s = s' := by
  have htree : s.tree = s'.tree := by
    -- a language that is there has a bucket, which tells it from one that is missing
    apply Keyed.ext_get?
    intro l
    apply Keyed.eq_of_isSome_iff
    · have hlevel : l ∈ s.languages ↔ l ∈ s'.languages := by
        rw [hs.mem_languages_iff, hs'.mem_languages_iff]
        simp only [hs.mem_platforms_iff, hs'.mem_platforms_iff, h]
      rw [s.tree.get?_isSome_iff, s'.tree.get?_isSome_iff]
      exact hlevel
    · exact hs.bucket?_eq hs' h l
  cases s
  cases s'
  simpa using htree

end Extensionality

section Writing

theorem trim_empty : Store.empty.Trim := by
  constructor
  · intro l hl
    cases hl
  · intro l p hp
    cases hp

theorem page_insert_isSome (s : Store) (language platform name text l p n : String)
    (h : (s.page l p n).isSome = true) :
    ((s.insert language platform name text).page l p n).isSome = true := by
  rw [page_insert]
  split
  · rfl
  · exact h

/-- The levels that an insert makes lead to the page that it sets. -/
theorem Trim.insert {s : Store} (h : s.Trim) (language platform name text : String) :
    (s.insert language platform name text).Trim := by
  constructor
  · intro l hl
    simp only [mem_platforms_insert]
    rcases (s.mem_languages_insert language platform name text l).mp hl with rfl | hl
    · exact ⟨platform, .inl ⟨rfl, rfl⟩⟩
    · obtain ⟨p, hp⟩ := h.language l hl
      exact ⟨p, .inr hp⟩
  · intro l p hp
    rcases (s.mem_platforms_insert language platform name text l p).mp hp with ⟨rfl, rfl⟩ | hp
    · refine ⟨name, ?_⟩
      rw [page_insert, if_pos ⟨rfl, rfl, rfl⟩]
      rfl
    · obtain ⟨n, hn⟩ := h.bucket l p hp
      exact ⟨n, s.page_insert_isSome language platform name text l p n hn⟩

end Writing

end Store

namespace Write

section Trim

variable {s : Store} (h : s.Trim)

include h

theorem trim_apply (w : Write) : (apply s w).Trim := by
  cases w with
  | insert language platform name text => exact h.insert language platform name text
  | clear => exact Store.trim_empty

theorem trim_applyAll (writes : List Write) : (applyAll s writes).Trim := by
  induction writes generalizing s with
  | nil => exact h
  | cons w writes ih => exact ih (trim_apply h w)

theorem insert_comm (l p n t l' p' n' t' : String) (hne : (l, p, n) ≠ (l', p', n')) :
    (s.insert l p n t).insert l' p' n' t' = (s.insert l' p' n' t').insert l p n t := by
  apply Store.Trim.ext_page ((h.insert ..).insert ..) ((h.insert ..).insert ..)
  intro x y z
  simp only [Store.page_insert]
  by_cases hkey : x = l ∧ y = p ∧ z = n
  · obtain ⟨rfl, rfl, rfl⟩ := hkey
    have hother : ¬(x = l' ∧ y = p' ∧ z = n') := by
      rintro ⟨rfl, rfl, rfl⟩
      exact hne rfl
    simp [hother]
  · simp [hkey]

/-- Whatever is written between them, the later of two inserts under one key covers the earlier. -/
theorem insert_covered (l p n t t' : String) (between : List Write) :
    (applyAll (s.insert l p n t) between).insert l p n t' =
      (applyAll s between).insert l p n t' := by
  apply Store.Trim.ext_page ((trim_applyAll (h.insert ..) between).insert ..)
    ((trim_applyAll h between).insert ..)
  intro x y z
  rw [Store.page_insert, Store.page_insert]
  by_cases hkey : x = l ∧ y = p ∧ z = n
  · rw [if_pos hkey, if_pos hkey]
  · rw [if_neg hkey, if_neg hkey, page_applyAll, page_applyAll, Store.page_insert, if_neg hkey]

end Trim

/-- Stores that were written to in any two ways are the same if they hold the same pages. So the
order of inserts under different keys does not show, nor an insert that a later one covers, and
what is listed and found depends on the pages alone. -/
theorem equal_iff_same_pages (writes writes' : List Write) :
    let s := applyAll .empty writes
    let s' := applyAll .empty writes'
    (s = s' ↔ ∀ l p n, s.page l p n = s'.page l p n) ∧
    (∀ l p n t l' p' n' t' later, (l, p, n) ≠ (l', p', n') →
      applyAll .empty (writes ++ .insert l p n t :: .insert l' p' n' t' :: later) =
        applyAll .empty (writes ++ .insert l' p' n' t' :: .insert l p n t :: later)) ∧
    (∀ l p n t t' between later,
      applyAll .empty (writes ++ .insert l p n t :: between ++ .insert l p n t' :: later) =
        applyAll .empty (writes ++ between ++ .insert l p n t' :: later)) ∧
    ((∀ l p n, s.page l p n = s'.page l p n) →
      s.languages = s'.languages ∧ (∀ l, s.platforms l = s'.platforms l) ∧
      (∀ l p, s.pages l p = s'.pages l p) ∧
      (∀ l p, Listing.pages s l p = Listing.pages s' l p) ∧
      (∀ l, Listing.allPages s l = Listing.allPages s' l) ∧
      (∀ l, Listing.platforms s l = Listing.platforms s' l) ∧
      ∀ (search : Search) l p, search.run s l p = search.run s' l p) := by
  intro s s'
  have hs : s.Trim := trim_applyAll Store.trim_empty writes
  have hs' : s'.Trim := trim_applyAll Store.trim_empty writes'
  refine ⟨⟨fun h l p n => by rw [h], hs.ext_page hs'⟩, ?_, ?_, ?_⟩
  · intro l p n t l' p' n' t' later hne
    rw [applyAll_append, applyAll_append]
    show applyAll ((s.insert l p n t).insert l' p' n' t') later =
      applyAll ((s.insert l' p' n' t').insert l p n t) later
    rw [insert_comm hs l p n t l' p' n' t' hne]
  · intro l p n t t' between later
    simp only [applyAll_append]
    show applyAll ((applyAll (s.insert l p n t) between).insert l p n t') later =
      applyAll ((applyAll s between).insert l p n t') later
    rw [insert_covered hs l p n t t' between]
  · intro h
    rw [hs.ext_page hs' h]
    simp

theorem equal_after_reordered_writes :
    let writes : List Write := [.insert "de" "linux" "tar" "old", .clear]
    let one := writes ++ [.insert "en" "linux" "tar" "own", .insert "en" common "tar" "shared"]
    let other := writes ++ [.insert "en" common "tar" "shared", .insert "en" "linux" "tar" "own"]
    applyAll .empty one = applyAll .empty other ∧
      applyAll .empty (writes ++ .insert "en" "linux" "tar" "first" :: [.clear] ++
        [.insert "en" "linux" "tar" "own"]) =
        applyAll .empty (writes ++ [.clear] ++ [.insert "en" "linux" "tar" "own"]) ∧
      ∀ (search : Search) l p, search.run (applyAll .empty one) l p =
        search.run (applyAll .empty other) l p := by
  intro writes one other
  obtain ⟨-, hcomm, hcovered, -⟩ := equal_iff_same_pages writes writes
  have heq : applyAll .empty one = applyAll .empty other :=
    hcomm "en" "linux" "tar" "own" "en" common "tar" "shared" [] (by decide)
  obtain ⟨hiff, -, -, hreads⟩ := equal_iff_same_pages one other
  exact ⟨heq, hcovered "en" "linux" "tar" "first" "own" [.clear] [],
    (hreads (hiff.mp heq)).2.2.2.2.2.2⟩

end Write

end PageLookup
