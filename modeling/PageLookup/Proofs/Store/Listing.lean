import PageLookup.Proofs.Store.Emptiness

/-!
# What is listed

Three listings go over the buckets of a language in three ways, and a search
goes over them in a fourth. They line up: the pages listed for a platform are
those that a search for everything finds, a platform that can be listed for is
one that is listed, or the common bucket itself, and the union of all buckets
names what can be looked up for some platform.
-/

set_option autoImplicit false

namespace PageLookup

section Everything

theorem Glob.compile_lone_star :
    Glob.Pattern.compile "*" = .ok ⟨"*", .table ⟨#[.always 0]⟩⟩ := by decide

/-- A star alone keeps every text in the state where it began. -/
theorem Glob.run_lone_star (text : List Char) : Glob.Table.run ⟨#[.always 0]⟩ 0 text = some 0 := by
  induction text with
  | nil => rfl
  | cons c rest ih => exact ih

theorem Search.exists_for_all :
    ∃ search, Search.ofPattern "*" = .ok search ∧
      ∀ name, search.pattern.accepts name = true := by
  refine ⟨⟨⟨"*", .table ⟨#[.always 0]⟩⟩⟩, ?_, ?_⟩
  · rw [Search.ofPattern, Glob.compile_lone_star]
  · intro name
    show (Glob.Table.run _ 0 name.toList == some 0) = true
    rw [Glob.run_lone_star]
    rfl

theorem Search.found_of_accepts_all (search : Search) (store : Store) (language bucket : String)
    (hall : ∀ name, search.pattern.accepts name = true) :
    search.found store language bucket = (store.pages language bucket).getD [] := by
  rw [found_eq_filter]
  exact List.filter_eq_self.mpr fun name _ => hall name

end Everything

namespace Listing

section Pages

variable (store : Store) (language platform : String)

theorem pages_eq_ok_iff (h : store.isEmpty = false) (names : List String) :
    pages store language platform = .ok names ↔
      ∃ own, store.pages language platform = some own ∧
        names = (store.pages language common).getD [] ++ own := by
  rw [pages, h]
  cases store.pages language platform <;> simp [eq_comm]

/-- A store with pages refuses a listing for want of the platform's bucket only. -/
theorem pages_eq_error_iff (h : store.isEmpty = false) (e : LookupError) :
    pages store language platform = .error e ↔
      store.pages language platform = none ∧ e = .unsupportedPlatform platform := by
  rw [pages, h]
  cases store.pages language platform <;> simp [eq_comm]

theorem exists_pages_iff (h : store.isEmpty = false) :
    (∃ names, pages store language platform = .ok names) ↔
      (store.pages language platform).isSome = true := by
  simp only [pages_eq_ok_iff store language platform h, Option.isSome_iff_exists]
  constructor
  · rintro ⟨names, own, hown, -⟩
    exact ⟨own, hown⟩
  · rintro ⟨own, hown⟩
    exact ⟨_, own, hown, rfl⟩

/-- The common bucket alone is left out where platforms are listed. -/
theorem mem_platforms_iff (h : store.isEmpty = false) :
    (∃ listed, platforms store language = .ok listed ∧ platform ∈ listed) ↔
      platform ≠ common ∧ (store.pages language platform).isSome = true := by
  rw [platforms, h, store.pages_isSome_iff]
  simp [and_comm]

/-- Listing for a platform is searching for everything, but for the check that the platform is one
that is listed. The common bucket passes it as well, where it is there. -/
theorem listing_is_search_for_everything (h : ∃ l p n, (store.page l p n).isSome = true) :
    ∃ search, Search.ofPattern "*" = .ok search ∧
      (∀ names, pages store language platform = .ok names →
        search.run store language platform = .ok names) ∧
      ((∃ names, pages store language platform = .ok names) ↔
        (∃ listed, platforms store language = .ok listed ∧ platform ∈ listed) ∨
          platform = common ∧ (store.pages language common).isSome = true) ∧
      ∀ e, pages store language platform = .error e →
        e = .unsupportedPlatform platform ∧
          search.run store language platform =
            .ok ((store.pages language common).getD []) := by
  have hpages := store.isEmpty_eq_false_iff.mpr h
  obtain ⟨search, hs, hall⟩ := Search.exists_for_all
  have hrun : search.run store language platform =
      .ok ((store.pages language common).getD [] ++
        (store.pages language platform).getD []) := by
    rw [search.run_of_page store language platform h,
      search.found_of_accepts_all store language common hall,
      search.found_of_accepts_all store language platform hall]
  refine ⟨search, hs, ?_, ?_, ?_⟩
  · intro names hnames
    obtain ⟨own, hown, rfl⟩ := (pages_eq_ok_iff store language platform hpages names).mp hnames
    rw [hrun, hown, Option.getD_some]
  · rw [exists_pages_iff store language platform hpages,
      mem_platforms_iff store language platform hpages]
    -- the common bucket is looked for like any other, though it is not listed
    by_cases hc : platform = common
    · simp [hc]
    · simp [hc]
  · intro e he
    obtain ⟨hnone, rfl⟩ := (pages_eq_error_iff store language platform hpages e).mp he
    refine ⟨rfl, ?_⟩
    rw [hrun, hnone, Option.getD_none, List.append_nil]

theorem listing_is_search_of_scattered_pages :
    let store := ((Store.insert ⟨Keyed.empty.insert "fr" (Keyed.empty.insert "osx" .empty)⟩
      "en" common "tar" "shared").insert "en" "linux" "tar" "own").insert "de" "osx" "say" "own"
    ∃ search, Search.ofPattern "*" = .ok search ∧
      search.run store "en" "linux" = .ok ["tar", "tar"] ∧
      search.run store "en" common = .ok ["tar", "tar"] ∧
      search.run store "fr" "osx" = .ok [] ∧
      search.run store "en" "osx" = .ok ["tar"] ∧
      (¬∃ names, pages store "en" "osx" = .ok names) ∧
      ∃ names, pages store "fr" "osx" = .ok names := by
  intro store
  have h : ∃ l p n, (store.page l p n).isSome = true := ⟨"en", "linux", "tar", by decide⟩
  obtain ⟨search, hs, hlinux, -⟩ := listing_is_search_for_everything store "en" "linux" h
  obtain ⟨_, hs₁, hcommon, -⟩ := listing_is_search_for_everything store "en" common h
  obtain ⟨_, hs₂, hempty, hfr, -⟩ := listing_is_search_for_everything store "fr" "osx" h
  obtain ⟨_, hs₃, -, hen, hmissing⟩ := listing_is_search_for_everything store "en" "osx" h
  obtain rfl := Except.ok.inj (hs.symm.trans hs₁)
  obtain rfl := Except.ok.inj (hs.symm.trans hs₂)
  obtain rfl := Except.ok.inj (hs.symm.trans hs₃)
  refine ⟨search, hs, hlinux _ (by decide), hcommon _ (by decide), hempty _ (by decide),
    (hmissing (.unsupportedPlatform "osx") (by decide)).2, ?_, ?_⟩
  · rw [hen]
    rintro (⟨listed, hl, hmem⟩ | ⟨hc, -⟩)
    · obtain rfl : ["linux"] = listed := Except.ok.inj hl
      exact absurd hmem (by decide)
    · exact absurd hc (by decide)
  · exact hfr.mpr (.inl ⟨["osx"], by decide, by decide⟩)

end Pages

section Union

theorem mem_keys_foldl_insert (names : List String) (m : Keyed Unit) (x : String) :
    x ∈ (names.foldl (fun m name => m.insert name ()) m).keys ↔ x ∈ names ∨ x ∈ m.keys := by
  induction names generalizing m with
  | nil => simp
  | cons name names ih =>
    rw [List.foldl_cons, ih, Keyed.mem_keys_insert, List.mem_cons]
    exact or_left_comm.trans or_assoc.symm

theorem mem_nameSet_iff (names : List String) (name : String) :
    name ∈ (nameSet names).keys ↔ name ∈ names := by
  rw [nameSet, mem_keys_foldl_insert]
  simp [Keyed.keys, Keyed.empty]

variable (store : Store) (language : String)

/-- The set of all names has the pages that some bucket has. -/
theorem mem_allNames_iff (name : String) :
    name ∈ (nameSet (allNames store language)).keys ↔
      ∃ platform, (store.page language platform name).isSome = true := by
  rw [mem_nameSet_iff, allNames, List.mem_flatten]
  simp only [List.mem_filterMap]
  constructor
  · rintro ⟨own, ⟨platform, -, hown⟩, hname⟩
    exact ⟨platform, (Store.mem_pages_iff hown name).mp hname⟩
  · rintro ⟨platform, hpage⟩
    obtain ⟨text, ht⟩ := Option.isSome_iff_exists.mp hpage
    obtain ⟨bucket, hb, htext⟩ := Option.bind_eq_some_iff.mp ht
    have hplatform : platform ∈ store.platforms language :=
      (Keyed.get?_isSome_iff _ platform).mp (Option.isSome_of_eq_some hb)
    exact ⟨bucket.keys, ⟨platform, hplatform, Option.map_eq_some_iff.mpr ⟨bucket, hb, rfl⟩⟩,
      (Keyed.get?_isSome_iff bucket name).mp (Option.isSome_of_eq_some htext)⟩

/-- What can be looked up for some platform is what some bucket has. -/
theorem exists_find_iff (name : String) :
    (∃ platform text, Page.find store language platform name = .ok text) ↔
      ∃ platform, (store.page language platform name).isSome = true := by
  simp only [Page.exists_find_iff]
  constructor
  · rintro ⟨platform, h | h⟩
    · exact ⟨platform, h⟩
    · exact ⟨common, h⟩
  · rintro ⟨platform, h⟩
    exact ⟨platform, .inl h⟩

/-- All pages of a language are those that can be looked up for some platform, in ascending order,
and neither a listing nor a search goes beyond them. -/
theorem allPages_is_union (h : ∃ l p n, (store.page l p n).isSome = true) :
    ∃ names, allPages store language = .ok names ∧ names.Pairwise (· < ·) ∧
      (∀ name, name ∈ names ↔
        ∃ platform text, Page.find store language platform name = .ok text) ∧
      (∀ platform listed, pages store language platform = .ok listed → listed ⊆ names) ∧
      ∀ (search : Search) platform found,
        search.run store language platform = .ok found → found ⊆ names := by
  have hpages := store.isEmpty_eq_false_iff.mpr h
  refine ⟨(nameSet (allNames store language)).keys, ?_, Keyed.keys_ascending _, ?_, ?_, ?_⟩
  · rw [allPages, hpages]
    rfl
  · intro name
    rw [mem_allNames_iff, exists_find_iff]
  · intro platform listed hlisted name hname
    obtain ⟨own, hown, rfl⟩ := (pages_eq_ok_iff store language platform hpages listed).mp hlisted
    rw [mem_allNames_iff]
    rcases List.mem_append.mp hname with hshared | hown'
    · exact ⟨common, (store.mem_getD_pages_iff language common name).mp hshared⟩
    · exact ⟨platform, (Store.mem_pages_iff hown name).mp hown'⟩
  · intro search platform found hfound name hname
    rw [search.run_of_page store language platform h] at hfound
    obtain rfl := Except.ok.inj hfound
    rw [mem_allNames_iff]
    rcases List.mem_append.mp hname with hshared | hown
    · exact ⟨common, ((search.mem_found_iff store language common name).mp hshared).2⟩
    · exact ⟨platform, ((search.mem_found_iff store language platform name).mp hown).2⟩

theorem allPages_is_union_of_overlapping_buckets :
    let store := (((Store.empty.insert "en" common "tar" "shared").insert "en" "linux" "tar"
      "own").insert "en" "osx" "say" "own").insert "de" "linux" "apt" "own"
    ∃ names, allPages store "en" = .ok names ∧ names.Pairwise (· < ·) ∧
      "tar" ∈ names ∧ "say" ∈ names ∧ "apt" ∉ names ∧ ["tar", "tar"] ⊆ names ∧
      ∃ search, Search.ofPattern "*" = .ok search ∧
        ∀ found, search.run store "en" "osx" = .ok found → found ⊆ names := by
  intro store
  obtain ⟨names, hall, hsorted, hmem, hlisted, hfound⟩ :=
    allPages_is_union store "en" ⟨"en", common, "tar", by decide⟩
  obtain rfl : ["say", "tar"] = names := Except.ok.inj hall
  refine ⟨_, hall, hsorted, (hmem "tar").mpr ⟨"windows", "shared", by decide⟩,
    (hmem "say").mpr ⟨"osx", "own", by decide⟩, by decide, hlisted "linux" _ (by decide),
    _, rfl, hfound _ "osx"⟩

end Union

end Listing

end PageLookup
