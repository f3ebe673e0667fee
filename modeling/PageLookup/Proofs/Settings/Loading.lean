import Mathlib.Data.List.Induction
import PageLookup.Settings.Basic

/-!
# How settings come about

What requests yield is merged one after another, which can start from what is
merged already. The values are then gone through once, so the settings are what
stands under their keys, and a value of the wrong type ends it wherever it comes.
-/

set_option autoImplicit false

namespace PageLookup

namespace Backend

variable (B : Backend) (files : Files)

def buildFrom (c : B.Config) : List (Request B.Format) → Except SettingsError B.Config
  | [] => .ok c
  | r :: rs =>
    match B.collect files r with
    | .ok layer => buildFrom (B.overlay c layer) rs
    | .error e => .error e

theorem buildFrom_append (c : B.Config) (rs rs' : List (Request B.Format)) :
    B.buildFrom files c (rs ++ rs') =
      (B.buildFrom files c rs).bind fun c => B.buildFrom files c rs' := by
  induction rs generalizing c with
  | nil => rfl
  | cons r rs ih =>
    rw [List.cons_append, buildFrom, buildFrom]
    cases B.collect files r with
    | error e => rfl
    | ok layer => exact ih (B.overlay c layer)

theorem build_eq_buildFrom (horder : B.MergesInOrder) (rs : List (Request B.Format)) :
    B.build files rs = B.buildFrom files B.empty rs := by
  induction rs using List.reverseRecOn with
  | nil => exact horder.build_nil files
  | append_singleton rs r ih =>
    rw [horder.build_concat, ih, buildFrom_append]
    congr 1
    funext c
    rw [buildFrom]
    cases B.collect files r <;> rfl

theorem isSome_buildFrom (hreplace : B.ReplacesValues) (key : String)
    (hkey : key ∈ [languageKey, platformKey]) (c c' : B.Config) (rs : List (Request B.Format))
    (hc : (B.shapeAt c key).isSome = true) (h : B.buildFrom files c rs = .ok c') :
    (B.shapeAt c' key).isSome = true := by
  induction rs generalizing c with
  | nil => exact Except.ok.inj h ▸ hc
  | cons r rs ih =>
    rw [buildFrom] at h
    cases hr : B.collect files r with
    | error e => simp [hr] at h
    | ok layer =>
      simp only [hr] at h
      exact ih _ (hreplace.isSome_overlay c layer key hkey hc) h

section Defaults

/-- What every other source is merged into. -/
structure HoldsDefaults (c : B.Config) : Prop where
  language : B.shapeAt c languageKey = some (.text "en")
  platform : B.shapeAt c platformKey = none
  build : ∀ files rs, B.build files (B.defaults :: rs) = B.buildFrom files c rs

theorem exists_defaults (horder : B.MergesInOrder) (hcollect : B.CollectsSources)
    (hreplace : B.ReplacesValues) (hdefaults : B.ReadsDefaults) : ∃ c, B.HoldsDefaults c := by
  obtain ⟨d, hread, hlanguage, hplatform, hflat⟩ := hdefaults.read_defaults
  refine ⟨B.overlay B.empty ⟨d, none⟩, ?_, ?_, fun files rs => ?_⟩
  · rw [hreplace.shapeAt_overlay _ d none hflat languageKey (by decide), hlanguage, Option.some_or]
  · rw [hreplace.shapeAt_overlay _ d none hflat platformKey (by decide), hplatform,
      hreplace.shapeAt_empty, Option.or_none]
  · have hlayer : B.collect files B.defaults = .ok ⟨d, none⟩ := by
      rw [defaults, hcollect.collect_text, layerOf, hread]
      rfl
    rw [B.build_eq_buildFrom files horder, buildFrom, hlayer]

end Defaults

section Blanks

/-- A request that yields nothing is not seen, whether those before it yield anything or not. -/
theorem buildFrom_append_blank (hblanks : B.PassesBlanks) (r : Request B.Format)
    (origin : Option String) (hr : B.collect files r = .ok ⟨B.blank, origin⟩) (c : B.Config)
    (earlier later : List (Request B.Format)) :
    B.buildFrom files c (earlier ++ r :: later) = B.buildFrom files c (earlier ++ later) := by
  rw [buildFrom_append, buildFrom_append]
  congr 1
  funext c
  rw [buildFrom, hr]
  exact congrArg (B.buildFrom files · later) (hblanks.overlay_blank c origin)

theorem collect_of_lost (hcollect : B.CollectsSources) (path : Path) (fault : FileFault)
    (hfault : B.find files path (B.formatOf? path) = .error fault) :
    B.collect files (B.request (.file ⟨path, false⟩)) = .ok ⟨B.blank, none⟩ := by
  rw [request, hcollect.collect_missing _ _ _ _ _ hfault, if_neg Bool.false_ne_true]

end Blanks

end Backend

namespace Settings

variable (B : Backend)

section Fields

structure Fills (language platform : Option (Shape B.Real)) (f g : Fields) : Prop where
  language_scalar : ∀ s, language = some s → (s.scalar? B.writeReal).isSome = true
  platform_scalar : ∀ s, platform = some s → s = .unit ∨ (s.scalar? B.writeReal).isSome = true
  fields_eq : g = ⟨(language.bind (Shape.scalar? B.writeReal)).or f.language,
    (platform.map (Shape.scalar? B.writeReal)).or f.platform⟩

variable (language platform : Option (Shape B.Real)) (s : Shape B.Real) (f g : Fields)

theorem fills_none_iff : Fills B none none f g ↔ g = f :=
  ⟨fun h => h.fields_eq, fun h => ⟨nofun, nofun, h⟩⟩

theorem fills_language_iff : Fills B (some s) platform f g ↔
    (s.scalar? B.writeReal).isSome = true ∧
      Fills B none platform { f with language := s.scalar? B.writeReal } g := by
  constructor
  · intro h
    obtain ⟨t, ht⟩ := Option.isSome_iff_exists.mp (h.language_scalar s rfl)
    exact ⟨h.language_scalar s rfl, nofun, h.platform_scalar, h.fields_eq.trans (by simp [ht])⟩
  · rintro ⟨hs, h⟩
    obtain ⟨t, ht⟩ := Option.isSome_iff_exists.mp hs
    exact ⟨fun x hx => Option.some.inj hx ▸ hs, h.platform_scalar, h.fields_eq.trans (by simp [ht])⟩

theorem fills_platform_iff : Fills B language (some s) f g ↔
    (s = .unit ∨ (s.scalar? B.writeReal).isSome = true) ∧
      Fills B language none { f with platform := some (s.scalar? B.writeReal) } g := by
  constructor
  · intro h
    exact ⟨h.platform_scalar s rfl, h.language_scalar, nofun, h.fields_eq⟩
  · rintro ⟨hs, h⟩
    exact ⟨h.language_scalar, fun x hx => Option.some.inj hx ▸ hs, h.fields_eq⟩

theorem readField_of_ne (e : String × B.Value) (hl : e.1 ≠ Backend.languageKey)
    (hp : e.1 ≠ Backend.platformKey) : readField B f e = .ok f := by
  rw [readField, if_neg hl, if_neg hp]

section Scalars

variable (hscalars : B.ReadsScalars) (v : B.Value)

include hscalars

theorem textAt_eq_ok_iff (key t : String) :
    B.textAt key v = .ok t ↔ (B.shape v).scalar? B.writeReal = some t := by
  rw [← hscalars.text_eq_ok_iff, Backend.textAt]
  cases B.text v <;> simp [Except.mapError]

theorem textAt_map_eq_ok_iff (key : String) (fill : Option String → Fields) :
    (B.textAt key v).map (fun t => fill (some t)) = .ok g ↔
      ((B.shape v).scalar? B.writeReal).isSome = true ∧
        g = fill ((B.shape v).scalar? B.writeReal) := by
  cases htext : B.textAt key v with
  | ok t =>
    rw [(textAt_eq_ok_iff B hscalars v key t).mp htext]
    simp [Except.map, eq_comm]
  | error e =>
    have hnone : (B.shape v).scalar? B.writeReal = none := by
      refine Option.eq_none_iff_forall_ne_some.mpr fun t ht => ?_
      rw [(textAt_eq_ok_iff B hscalars v key t).mpr ht] at htext
      cases htext
    simp [Except.map, hnone]

theorem readField_language : readField B f (Backend.languageKey, v) = .ok g ↔
    ((B.shape v).scalar? B.writeReal).isSome = true ∧
      g = { f with language := (B.shape v).scalar? B.writeReal } := by
  rw [readField, if_pos rfl]
  exact textAt_map_eq_ok_iff B g hscalars v _ fun t? => { f with language := t? }

theorem readField_platform : readField B f (Backend.platformKey, v) = .ok g ↔
    (B.shape v = .unit ∨ ((B.shape v).scalar? B.writeReal).isSome = true) ∧
      g = { f with platform := some ((B.shape v).scalar? B.writeReal) } := by
  have hkey : Backend.platformKey ≠ Backend.languageKey := by decide
  rw [readField, if_neg hkey, if_pos rfl]
  by_cases hnull : B.shape v = .unit
  · rw [if_pos ((hscalars.isNull_iff v).mpr hnull), hnull, Shape.scalar?, Except.ok.injEq]
    exact ⟨fun h => ⟨.inl rfl, h.symm⟩, fun h => h.2.symm⟩
  · rw [if_neg (mt (hscalars.isNull_iff v).mp hnull), or_iff_right hnull]
    exact textAt_map_eq_ok_iff B g hscalars v _ fun t? => { f with platform := some t? }

end Scalars

theorem foldlM_readField_cons (e : String × B.Value) (es : List (String × B.Value)) :
    (e :: es).foldlM (readField B) f = .ok g ↔
      ∃ f', readField B f e = .ok f' ∧ es.foldlM (readField B) f' = .ok g := by
  rw [List.foldlM_cons]
  cases readField B f e <;> simp [bind, Except.bind]

/-- Each field is read from the only entry under its key. -/
theorem readFields_eq_ok_iff (hscalars : B.ReadsScalars) (es : List (String × B.Value))
    (hes : (es.map Prod.fst).Nodup) :
    es.foldlM (readField B) f = .ok g ↔
      Fills B ((es.lookup Backend.languageKey).map B.shape)
        ((es.lookup Backend.platformKey).map B.shape) f g := by
  induction es generalizing f with
  | nil =>
    refine Iff.trans ?_ (fills_none_iff B f g).symm
    exact ⟨fun h => (Except.ok.inj h).symm, fun h => h ▸ rfl⟩
  | cons e es ih =>
    obtain ⟨key, v⟩ := e
    obtain ⟨hmem, hes⟩ := List.nodup_cons.mp hes
    have hlost : es.lookup key = none :=
      Option.not_isSome_iff_eq_none.mp (mt List.lookup_isSome_iff.mp (by simpa using hmem))
    have hne : Backend.platformKey ≠ Backend.languageKey := by decide
    simp only [foldlM_readField_cons, ih _ hes]
    by_cases hl : key = Backend.languageKey
    · subst hl
      simp only [readField_language B _ _ hscalars, hlost, List.lookup_cons_self, Option.map_some,
        Option.map_none, fills_language_iff, List.lookup_cons, beq_false_of_ne hne]
      exact ⟨fun ⟨f', ⟨hs, hf⟩, h⟩ => ⟨hs, hf ▸ h⟩, fun ⟨hs, h⟩ => ⟨_, ⟨hs, rfl⟩, h⟩⟩
    by_cases hp : key = Backend.platformKey
    · subst hp
      simp only [readField_platform B _ _ hscalars, hlost, List.lookup_cons_self, Option.map_some,
        Option.map_none, fills_platform_iff, List.lookup_cons, beq_false_of_ne hne.symm]
      exact ⟨fun ⟨f', ⟨hs, hf⟩, h⟩ => ⟨hs, hf ▸ h⟩, fun ⟨hs, h⟩ => ⟨_, ⟨hs, rfl⟩, h⟩⟩
    · simp only [readField_of_ne B f (key, v) hl hp, List.lookup_cons, Except.ok.injEq,
        exists_eq_left', beq_false_of_ne (Ne.symm hl), beq_false_of_ne (Ne.symm hp)]

theorem readFields_eq_error (es : List (String × B.Value)) (e : SettingsError)
    (h : es.foldlM (readField B) f = .error e) :
    ∃ key found origin, e = .notText key found origin := by
  induction es generalizing f with
  | nil => cases h
  | cons x es ih =>
    rw [List.foldlM_cons] at h
    cases hx : readField B f x with
    | ok f' =>
      simp only [hx, bind, Except.bind] at h
      exact ih f' h
    | error e' =>
      obtain rfl : e' = e := by simpa [hx, bind, Except.bind] using h
      have htext (key : String) (fill : String → Fields)
          (hmap : (B.textAt key x.2).map fill = .error e') :
          ∃ key found origin, e' = .notText key found origin := by
        unfold Backend.textAt at hmap
        cases hv : B.text x.2 with
        | ok t => simp [hv, Except.map, Except.mapError] at hmap
        | error found =>
          simp only [hv, Except.map, Except.mapError, Except.error.injEq] at hmap
          exact ⟨_, _, _, hmap.symm⟩
      rw [readField] at hx
      split at hx
      · exact htext _ _ hx
      · split at hx
        · split at hx
          · cases hx
          · exact htext _ _ hx
        · cases hx

end Fields

section Entries

variable (c : B.Config)

/-- The settings are what stands under their keys. -/
theorem ofEntries_eq_ok_iff (hscalars : B.ReadsScalars) (s : Settings) :
    ofEntries B (B.entries c) = .ok s ↔
      (B.shapeAt c Backend.languageKey).bind (Shape.scalar? B.writeReal) = some s.language ∧
      s.platform = (B.shapeAt c Backend.platformKey).bind (Shape.scalar? B.writeReal) ∧
      ∀ x, B.shapeAt c Backend.platformKey = some x →
        x = .unit ∨ (x.scalar? B.writeReal).isSome = true := by
  have hfields (g : Fields) : (B.entries c).foldlM (readField B) ⟨none, none⟩ = .ok g ↔
      Fills B (B.shapeAt c Backend.languageKey) (B.shapeAt c Backend.platformKey) ⟨none, none⟩ g :=
    readFields_eq_ok_iff B ⟨none, none⟩ g hscalars (B.entries c) (B.entries_nodup c)
  have hgetD (platform : Option (Shape B.Real)) :
      ((platform.map (Shape.scalar? B.writeReal)).or none).getD none =
        platform.bind (Shape.scalar? B.writeReal) := by cases platform <;> rfl
  unfold ofEntries
  constructor
  · intro h
    cases hread : (B.entries c).foldlM (readField B) ⟨none, none⟩ with
    | error e => simp [hread, Except.bind] at h
    | ok g =>
      obtain ⟨-, htyped, hg⟩ := (hfields g).mp hread
      cases hlanguage : g.language with
      | none => simp [hread, Except.bind, hlanguage] at h
      | some language =>
        simp only [hread, Except.bind, hlanguage, Except.ok.injEq] at h
        subst h hg
        exact ⟨by simpa using hlanguage, hgetD _, htyped⟩
  · rintro ⟨hlanguage, hplatform, htyped⟩
    have hscalar : ∀ x, B.shapeAt c Backend.languageKey = some x →
        (x.scalar? B.writeReal).isSome = true := by
      intro x hx
      rw [hx, Option.bind_some] at hlanguage
      rw [hlanguage, Option.isSome_some]
    rw [(hfields _).mpr ⟨hscalar, htyped, rfl⟩]
    simp only [Except.bind, hlanguage, Option.some_or, hgetD, ← hplatform]

/-- While the language has a value, types alone can be wrong. -/
theorem ofEntries_eq_error (e : SettingsError) (h : ofEntries B (B.entries c) = .error e)
    (hscalars : B.ReadsScalars) (hlanguage : (B.shapeAt c Backend.languageKey).isSome = true) :
    ∃ key found origin, e = .notText key found origin := by
  rw [ofEntries] at h
  cases hread : (B.entries c).foldlM (readField B) ⟨none, none⟩ with
  | error e' =>
    obtain rfl : e' = e := by simpa [hread, Except.bind] using h
    exact readFields_eq_error B ⟨none, none⟩ (B.entries c) e' hread
  | ok g =>
    obtain ⟨hscalar, -, hg⟩ := (readFields_eq_ok_iff B ⟨none, none⟩ g hscalars (B.entries c)
      (B.entries_nodup c)).mp hread
    obtain ⟨x, hx⟩ := Option.isSome_iff_exists.mp hlanguage
    obtain ⟨t, ht⟩ := Option.isSome_iff_exists.mp (hscalar x hx)
    have hfield : g.language = some t := by
      rw [hg]
      change ((B.shapeAt c Backend.languageKey).bind _).or none = some t
      rw [hx, Option.bind_some, ht, Option.some_or]
    simp [hread, Except.bind, hfield] at h

end Entries

theorem load_eq_buildFrom (files : Files) (c : B.Config) (hc : B.HoldsDefaults c)
    (sources : List (Source B.Format)) : load B files sources =
      ((B.buildFrom files c (sources.map B.request)).bind fun c =>
        ofEntries B (B.entries c)).mapError .settings := by
  rw [load, ofRequests, hc.build]

end Settings

end PageLookup
