import PageLookup.Listing
import PageLookup.Proofs.Store.Histories
import PageLookup.Proofs.Store.Searching

/-!
# Emptiness is one notion

A store is empty when none of its buckets lists a page, however many levels it
has that hold nothing. Each operation that goes over the whole store looks at
this before anything else and fails for no other reason in the same way. Over a
history the last write decides: a clear empties a store and an insert fills it.
-/

set_option autoImplicit false

namespace PageLookup

section Readings

variable (s : Store)

theorem Store.isEmpty_iff_pages :
    s.isEmpty = true ↔
      ∀ language platform, s.pages language platform = none ∨
        s.pages language platform = some [] := by
  rw [isEmpty_iff_buckets]
  refine forall₂_congr fun language platform => ?_
  rw [pages]
  cases s.bucket? language platform <;> simp [Keyed.keys]

/-- An empty store has no page to be found under any name, and only such a store has none. -/
theorem Page.isEmpty_iff_find :
    s.isEmpty = true ↔
      ∀ language platform name,
        Page.find s language platform name = .error (.pageNotFound name) := by
  rw [s.isEmpty_iff]
  constructor
  · intro h language platform name
    rw [find, h, h, Option.or_none]
  · intro h language platform name
    by_contra hpage
    obtain ⟨text, hfound⟩ := (exists_find_iff s language platform name).mpr
      (.inl (Option.isSome_iff_ne_none.mpr hpage))
    rw [h language platform name] at hfound
    cases hfound

end Readings

section Failing

variable (s : Store) (language platform : String)

/-- Where a check comes first and nothing behind it fails as it does, the failure tells of the
check. -/
theorem error_of_check_iff {α : Type} (b : Bool) (error : LookupError)
    (rest : Except LookupError α) (h : rest ≠ .error error) :
    (if b then .error error else rest) = .error error ↔ b = true := by
  cases b <;> simp [h]

theorem Listing.pages_eq_emptyDatabase_iff :
    Listing.pages s language platform = .error .emptyDatabase ↔ s.isEmpty = true := by
  refine error_of_check_iff _ _ _ ?_
  cases s.pages language platform <;> simp

theorem Listing.allPages_eq_emptyDatabase_iff :
    Listing.allPages s language = .error .emptyDatabase ↔ s.isEmpty = true :=
  error_of_check_iff _ _ _ nofun

theorem Listing.platforms_eq_emptyDatabase_iff :
    Listing.platforms s language = .error .emptyDatabase ↔ s.isEmpty = true :=
  error_of_check_iff _ _ _ nofun

theorem Search.run_eq_emptyDatabase_iff (search : Search) :
    search.run s language platform = .error .emptyDatabase ↔ s.isEmpty = true :=
  error_of_check_iff _ _ _ nofun

theorem Page.find_ne_emptyDatabase (name : String) :
    Page.find s language platform name ≠ .error .emptyDatabase := by
  unfold find
  split <;> simp

end Failing

namespace Write

/-- One write empties a store if it is a clear, and fills it otherwise. -/
theorem isEmpty_apply (s : Store) (w : Write) :
    (apply s w).isEmpty = true ↔ w = .clear := by
  cases w with
  | clear => exact iff_of_true rfl rfl
  | insert language platform name text =>
    have hfilled := s.isEmpty_insert language platform name text
    exact iff_of_false (Bool.eq_false_iff.mp hfilled) nofun

/-- The last write decides. Without any the start does. -/
theorem isEmpty_applyAll (start : Store) (writes : List Write) :
    (applyAll start writes).isEmpty = true ↔
      writes.getLast? = some .clear ∨ writes = [] ∧ start.isEmpty = true := by
  rcases List.eq_nil_or_concat writes with rfl | ⟨earlier, w, rfl⟩
  · simp [applyAll]
  · rw [List.concat_eq_append, applyAll_concat, isEmpty_apply]
    simp

/-- After any history a store is empty when its listings are, and it is then that every listing
and every search fails for it, whatever is asked for. A lookup does not tell it apart from a page
that is missing. -/
theorem emptiness_is_one_notion (start : Store) (writes : List Write) :
    let s := applyAll start writes
    (s.isEmpty = true ↔ ∀ language platform,
      s.pages language platform = none ∨ s.pages language platform = some []) ∧
    (s.isEmpty = true ↔
      writes.getLast? = some .clear ∨ writes = [] ∧ start.isEmpty = true) ∧
    (∀ language platform,
      Listing.pages s language platform = .error .emptyDatabase ↔ s.isEmpty = true) ∧
    (∀ language, Listing.allPages s language = .error .emptyDatabase ↔ s.isEmpty = true) ∧
    (∀ language, Listing.platforms s language = .error .emptyDatabase ↔ s.isEmpty = true) ∧
    (∀ (search : Search) language platform,
      search.run s language platform = .error .emptyDatabase ↔ s.isEmpty = true) ∧
    (∀ language platform name, Page.find s language platform name ≠ .error .emptyDatabase) ∧
    (s.isEmpty = true ↔ ∀ language platform name,
      Page.find s language platform name = .error (.pageNotFound name)) := by
  intro s
  refine ⟨s.isEmpty_iff_pages, isEmpty_applyAll start writes, ?_, ?_, ?_, ?_, ?_,
    Page.isEmpty_iff_find s⟩
  · exact Listing.pages_eq_emptyDatabase_iff s
  · exact Listing.allPages_eq_emptyDatabase_iff s
  · exact Listing.platforms_eq_emptyDatabase_iff s
  · intro search language platform
    exact search.run_eq_emptyDatabase_iff s language platform
  · exact Page.find_ne_emptyDatabase s

end Write

end PageLookup
