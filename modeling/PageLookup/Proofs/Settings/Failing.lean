import PageLookup.Proofs.Settings.Loading
import PageLookup.Proofs.Standard.Lawful

/-!
# Where loading settings ends

Sources are collected one after another and types are looked at last. So the
first source that cannot be collected ends it, whatever the others hold, and a
value of the wrong type is told of only when every source is collected. A file
that need not be there and is not there has no effect at any place.
-/

set_option autoImplicit false

namespace PageLookup

variable (B : Backend) (files : Files)

section Refusal

/-- Why a source does not load: a document is refused, or a file has to be there and is not. -/
inductive Source.Fails : Source B.Format → SettingsError → Prop where
  | text (content : String) (format : B.Format) (fault : DocumentFault) :
      B.read format content = .error fault → Fails (.text content format) (.document fault none)
  | file (f : SettingsFile) (found : Found B.Format) (fault : DocumentFault) :
      B.find files f.path (B.formatOf? f.path) = .ok found →
      B.read found.format (B.decode found.bytes) = .error fault →
      Fails (.file f) (.document fault (some (B.name files found.path)))
  | missing (f : SettingsFile) (fault : FileFault) : f.required = true →
      B.find files f.path (B.formatOf? f.path) = .error fault → Fails (.file f) (.file fault)

theorem layerOf_eq_error_iff (format : B.Format) (content : String) (origin : Option String)
    (e : SettingsError) : B.layerOf format content origin = .error e ↔
      ∃ fault, B.read format content = .error fault ∧ .document fault origin = e := by
  rw [Backend.layerOf]
  cases B.read format content <;> simp [Except.mapError, Except.map]

variable (hcollect : B.CollectsSources) (s : Source B.Format)

include hcollect

theorem Source.collect_eq_error_iff (e : SettingsError) :
    B.collect files (B.request s) = .error e ↔ Source.Fails B files s e := by
  cases s with
  | text content format =>
    rw [Backend.request, hcollect.collect_text, layerOf_eq_error_iff]
    constructor
    · rintro ⟨fault, hread, rfl⟩
      exact .text content format fault hread
    · intro h
      cases h with
      | text _ _ fault hread => exact ⟨fault, hread, rfl⟩
  | file f =>
    rw [Backend.request]
    cases hfind : B.find files f.path (B.formatOf? f.path) with
    | ok found =>
      rw [hcollect.collect_file _ _ _ _ found hfind, layerOf_eq_error_iff]
      constructor
      · rintro ⟨fault, hread, rfl⟩
        exact .file f found fault hfind hread
      · intro h
        cases h with
        | file _ found' fault hfound hread =>
          obtain rfl : found = found' := Except.ok.inj (hfind.symm.trans hfound)
          exact ⟨fault, hread, rfl⟩
        | missing _ fault _ hfault => cases hfind.symm.trans hfault
    | error fault =>
      rw [hcollect.collect_missing _ _ _ _ fault hfind]
      constructor
      · intro h
        by_cases hreq : f.required = true
        · obtain rfl : SettingsError.file fault = e := by simpa [hreq] using h
          exact .missing f fault hreq hfind
        · simp [hreq] at h
      · intro h
        cases h with
        | file _ found _ hfound _ => cases hfind.symm.trans hfound
        | missing _ fault' hreq hfault =>
          obtain rfl : fault = fault' := Except.error.inj (hfind.symm.trans hfault)
          rw [if_pos hreq]

theorem Source.loads_iff :
    (∃ layer, B.collect files (B.request s) = .ok layer) ↔ ¬∃ e, Source.Fails B files s e := by
  simp only [← collect_eq_error_iff B files hcollect]
  cases B.collect files (B.request s) <;> simp

omit hcollect in
/-- No source fails with an error of types, which are looked at later. -/
theorem Source.Fails.ne_notText {s : Source B.Format} {e : SettingsError}
    (h : Source.Fails B files s e) (key found : String) (origin : Option String) :
    e ≠ .notText key found origin := by
  rintro rfl
  cases h

end Refusal

section FirstFailure

def FirstFails (sources : List (Source B.Format)) (e : SettingsError) : Prop :=
  ∃ earlier s later, sources = earlier ++ s :: later ∧
    (∀ x ∈ earlier, ∃ layer, B.collect files (B.request x) = .ok layer) ∧
    Source.Fails B files s e

theorem not_firstFails_nil (e : SettingsError) : ¬FirstFails B files [] e := by
  rintro ⟨earlier, s, later, happ, -⟩
  simp at happ

theorem firstFails_cons_iff (s : Source B.Format) (sources : List (Source B.Format))
    (e : SettingsError) : FirstFails B files (s :: sources) e ↔
      Source.Fails B files s e ∨
        (∃ layer, B.collect files (B.request s) = .ok layer) ∧ FirstFails B files sources e := by
  constructor
  · rintro ⟨earlier, x, later, happ, hearlier, hx⟩
    cases earlier with
    | nil =>
      obtain ⟨rfl, -⟩ := List.cons.inj happ
      exact .inl hx
    | cons y earlier =>
      obtain ⟨rfl, rfl⟩ := List.cons.inj happ
      obtain ⟨hs, hearlier⟩ := List.forall_mem_cons.mp hearlier
      exact .inr ⟨hs, earlier, x, later, rfl, hearlier, hx⟩
  · rintro (hs | ⟨hs, earlier, x, later, rfl, hearlier, hx⟩)
    · exact ⟨[], s, sources, rfl, nofun, hs⟩
    · exact ⟨s :: earlier, x, later, rfl, List.forall_mem_cons.mpr ⟨hs, hearlier⟩, hx⟩

/-- Merging fails as the first source that fails does. -/
theorem buildFrom_eq_error_iff (hcollect : B.CollectsSources) (c : B.Config)
    (sources : List (Source B.Format)) (e : SettingsError) :
    B.buildFrom files c (sources.map B.request) = .error e ↔ FirstFails B files sources e := by
  induction sources generalizing c with
  | nil => simp [Backend.buildFrom, not_firstFails_nil]
  | cons s sources ih =>
    rw [List.map_cons, Backend.buildFrom, firstFails_cons_iff,
      ← Source.collect_eq_error_iff B files hcollect]
    cases B.collect files (B.request s) with
    | error e' => simp
    | ok layer => simp [ih]

theorem exists_buildFrom_iff (c : B.Config) (sources : List (Source B.Format)) :
    (∃ c', B.buildFrom files c (sources.map B.request) = .ok c') ↔
      ∀ s ∈ sources, ∃ layer, B.collect files (B.request s) = .ok layer := by
  induction sources generalizing c with
  | nil => simp [Backend.buildFrom]
  | cons s sources ih =>
    rw [List.map_cons, Backend.buildFrom, List.forall_mem_cons]
    cases B.collect files (B.request s) with
    | error e => simp
    | ok layer => simp [ih]

/-- Where some source fails there is a first one. -/
theorem exists_firstFails (hcollect : B.CollectsSources) (sources : List (Source B.Format))
    (h : ∃ s ∈ sources, ∃ e, Source.Fails B files s e) : ∃ e, FirstFails B files sources e := by
  cases hbuild : B.buildFrom files B.empty (sources.map B.request) with
  | error e => exact ⟨e, (buildFrom_eq_error_iff B files hcollect _ sources e).mp hbuild⟩
  | ok c =>
    obtain ⟨s, hmem, hs⟩ := h
    have hloads := (exists_buildFrom_iff B files B.empty sources).mp ⟨c, hbuild⟩ s hmem
    exact absurd hs ((Source.loads_iff B files hcollect s).mp hloads)

end FirstFailure

namespace Settings

section Errors

variable (c : B.Config) (hc : B.HoldsDefaults c) (sources : List (Source B.Format))

include hc

theorem load_of_firstFails (hcollect : B.CollectsSources) (e : SettingsError)
    (h : FirstFails B files sources e) : load B files sources = .error (.settings e) := by
  rw [load_eq_buildFrom B files c hc, (buildFrom_eq_error_iff B files hcollect c sources e).mpr h]
  rfl

/-- When every source loads, types alone can be wrong. -/
theorem notText_of_all_load (hreplace : B.ReplacesValues) (hscalars : B.ReadsScalars)
    (e : LookupError) (h : load B files sources = .error e)
    (hall : ∀ s ∈ sources, ∃ layer, B.collect files (B.request s) = .ok layer) :
    ∃ key found origin, e = .settings (.notText key found origin) := by
  obtain ⟨c', hc'⟩ := (exists_buildFrom_iff B files c sources).mpr hall
  have hlanguage : (B.shapeAt c' Backend.languageKey).isSome = true :=
    B.isSome_buildFrom files hreplace _ (by decide) c c' _ (by rw [hc.language]; rfl) hc'
  rw [load_eq_buildFrom B files c hc, hc'] at h
  simp only [Except.bind] at h
  cases hentries : ofEntries B (B.entries c') with
  | ok s => simp [hentries, Except.mapError] at h
  | error e' =>
    obtain ⟨key, found, origin, rfl⟩ := ofEntries_eq_error B c' e' hentries hscalars hlanguage
    simp only [hentries, Except.mapError, Except.error.injEq] at h
    exact ⟨key, found, origin, h.symm⟩

theorem all_load_of_notText (hcollect : B.CollectsSources) (key found : String)
    (origin : Option String)
    (h : load B files sources = .error (.settings (.notText key found origin))) :
    ∀ s ∈ sources, ∃ layer, B.collect files (B.request s) = .ok layer := by
  intro s hmem
  rw [Source.loads_iff B files hcollect]
  intro hs
  obtain ⟨e, hfirst⟩ := exists_firstFails B files hcollect sources ⟨s, hmem, hs⟩
  have he := load_of_firstFails B files c hc sources hcollect e hfirst
  obtain ⟨-, x, -, -, -, hx⟩ := hfirst
  rw [h] at he
  exact hx.ne_notText B files key found origin (by simpa using he.symm)

end Errors

/-- The first source that fails ends the loading with its error, whatever stands behind it and
whatever types the values before it have: an error of types tells that every source loads. A file
that need not be there and is not could as well be left out. -/
theorem load_ends_at_first_failure (horder : B.MergesInOrder) (hcollect : B.CollectsSources)
    (hreplace : B.ReplacesValues) (hblanks : B.PassesBlanks) (hscalars : B.ReadsScalars)
    (hdefaults : B.ReadsDefaults) (sources : List (Source B.Format)) :
    ((∃ s ∈ sources, ∃ e, Source.Fails B files s e) → ∃ e, FirstFails B files sources e) ∧
    (∀ e, FirstFails B files sources e → load B files sources = .error (.settings e)) ∧
    (∀ e, load B files sources = .error e →
      ((∃ key found origin, e = .settings (.notText key found origin)) ↔
        ∀ s ∈ sources, ∃ layer, B.collect files (B.request s) = .ok layer)) ∧
    ∀ earlier later f fault, sources = earlier ++ later → f.required = false →
      B.find files f.path (B.formatOf? f.path) = .error fault →
      load B files (earlier ++ .file f :: later) = load B files sources := by
  obtain ⟨c, hc⟩ := B.exists_defaults horder hcollect hreplace hdefaults
  refine ⟨exists_firstFails B files hcollect sources,
    load_of_firstFails B files c hc sources hcollect, ?_, ?_⟩
  · intro e he
    constructor
    · rintro ⟨key, found, origin, rfl⟩
      exact all_load_of_notText B files c hc sources hcollect key found origin he
    · exact notText_of_all_load B files c hc sources hreplace hscalars e he
  · rintro earlier later f fault rfl hreq hfault
    obtain ⟨path, required⟩ := f
    obtain rfl : required = false := hreq
    have hblank := B.collect_of_lost files hcollect path fault hfault
    rw [load_eq_buildFrom B files c hc, load_eq_buildFrom B files c hc, List.map_append,
      List.map_cons, B.buildFrom_append_blank files hblanks _ none hblank, List.map_append]

open Standard

/-- A badly typed value before the failure does not show, and a file of an unknown format counts
as one that is not there. -/
theorem load_ends_behind_badly_typed_value :
    let notes : Path := Text.encode "notes.txt"
    let files : Files := ⟨⟨[([notes], .file [])]⟩, [Path.slash]⟩
    let typed : Source backend.Format := .text "\x7b\"language\": [1]\x7d" backend.json
    let refused : Source backend.Format := .text "[1]" backend.json
    let absent : Source backend.Format := .file ⟨Text.encode "absent", true⟩
    load backend files [typed, refused, absent] =
        .error (.settings (.document (.rootNotMap "sequence") none)) ∧
      load backend files [typed, .file ⟨notes, false⟩, refused, absent] =
        load backend files [typed, refused, absent] ∧
      load backend files [typed, .file ⟨notes, true⟩, refused] =
        .error (.settings (.file (.unsupportedFormat (Path.slash :: notes)))) := by
  intro notes files typed refused absent
  obtain ⟨d, hread, -⟩ := exists_read backend.json "\x7b\"language\": [1]\x7d"
    [("language", .seq)] (by decide +kernel)
  have htyped : ∀ x ∈ [typed], ∃ layer, backend.collect files (backend.request x) = .ok layer := by
    intro x hx
    obtain rfl := List.mem_singleton.mp hx
    refine ⟨⟨d, none⟩, ?_⟩
    rw [Backend.request, collectsSources.collect_text, Backend.layerOf, hread]
    rfl
  have hrefused : Source.Fails backend files refused (.document (.rootNotMap "sequence") none) :=
    .text _ _ _ (read_eq_error _ _ _ (by decide +kernel))
  have hnotes : find files notes (backend.formatOf? notes) =
      .error (.unsupportedFormat (Path.slash :: notes)) := by decide
  have h (sources : List (Source backend.Format)) := load_ends_at_first_failure backend files
    mergesInOrder collectsSources replacesValues passesBlanks readsScalars readsDefaults sources
  exact ⟨(h _).2.1 _ ⟨[typed], refused, [absent], rfl, htyped, hrefused⟩,
    (h _).2.2.2 [typed] [refused, absent] ⟨notes, false⟩ _ rfl rfl hnotes,
    (h _).2.1 _ ⟨[typed], .file ⟨notes, true⟩, [refused], rfl, htyped,
      .missing ⟨notes, true⟩ _ rfl hnotes⟩⟩

end Settings

end PageLookup
