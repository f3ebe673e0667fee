import PageLookup.Proofs.Settings.Loading
import PageLookup.Proofs.Standard.Lawful
import PageLookup.Settings.Location

/-!
# Settings of a user

The file of a user's settings need not be there, and without it the defaults
stand. So only a file that is there can fail, by its text or by the types of
its values. A path that is given hides all else that tells of the user, and an
absolute configuration directory hides the home directory.
-/

set_option autoImplicit false

namespace PageLookup

variable (B : Backend)

section Typing

inductive Backend.BadlyTyped (c : B.Config) : Prop where
  | language (s : Shape B.Real) : B.shapeAt c languageKey = some s →
      s.scalar? B.writeReal = none → BadlyTyped c
  | platform (s : Shape B.Real) : B.shapeAt c platformKey = some s → s ≠ .unit →
      s.scalar? B.writeReal = none → BadlyTyped c

theorem Settings.exists_ofEntries_iff (hscalars : B.ReadsScalars) (c : B.Config)
    (hlanguage : (B.shapeAt c Backend.languageKey).isSome = true) :
    (∃ s, ofEntries B (B.entries c) = .ok s) ↔ ¬B.BadlyTyped c := by
  obtain ⟨x, hx⟩ := Option.isSome_iff_exists.mp hlanguage
  simp only [ofEntries_eq_ok_iff B c hscalars, hx, Option.bind_some]
  constructor
  · rintro ⟨s, hl, -, hp⟩ hbad
    cases hbad with
    | language y hy hnone =>
      obtain rfl : x = y := Option.some.inj (hx.symm.trans hy)
      rw [hl] at hnone
      cases hnone
    | platform y hy hne hnone =>
      rcases hp y hy with hunit | hsome
      · exact hne hunit
      · rw [hnone] at hsome
        cases hsome
  · intro h
    obtain ⟨t, ht⟩ := Option.ne_none_iff_exists'.mp fun hnone => h (.language x hx hnone)
    refine ⟨⟨t, (B.shapeAt c Backend.platformKey).bind (Shape.scalar? B.writeReal)⟩, ht, rfl, ?_⟩
    intro y hy
    by_cases hunit : y = .unit
    · exact .inl hunit
    · exact .inr (Option.isSome_iff_ne_none.mpr fun hnone => h (.platform y hy hunit hnone))

end Typing

/-- A file does not load, or the defaults with it laid over them are badly typed. -/
inductive Backend.Spoils (files : Files) (found : Found B.Format) : Prop where
  | refused (fault : DocumentFault) :
      B.read found.format (B.decode found.bytes) = .error fault → Spoils files found
  | badlyTyped (c : B.Config) (d : B.Document) : B.build files [B.defaults] = .ok c →
      B.read found.format (B.decode found.bytes) = .ok d →
      B.BadlyTyped (B.overlay c ⟨d, some (B.name files found.path)⟩) → Spoils files found

namespace Settings

section Optional

variable (files : Files) (c : B.Config) (hc : B.HoldsDefaults c)

include hc

theorem default_eq (hscalars : B.ReadsScalars) : Settings.default B files = .ok ⟨"en", none⟩ := by
  rw [Settings.default, ofRequests, hc.build, Backend.buildFrom]
  refine (ofEntries_eq_ok_iff B c hscalars _).mpr ⟨?_, ?_, ?_⟩
  · rw [hc.language]
    rfl
  · rw [hc.platform]
    rfl
  · simp [hc.platform]

/-- A file that need not be there and is not leaves the defaults. -/
theorem load_optional_of_lost (hcollect : B.CollectsSources) (hblanks : B.PassesBlanks)
    (path : Path) (fault : FileFault)
    (hfault : B.find files path (B.formatOf? path) = .error fault) :
    load B files [.file ⟨path, false⟩] = (Settings.default B files).mapError .settings := by
  have hblank := B.collect_of_lost files hcollect path fault hfault
  have hunseen : B.buildFrom files c [B.request (.file ⟨path, false⟩)] = B.buildFrom files c [] :=
    B.buildFrom_append_blank files hblanks _ none hblank c [] []
  rw [load_eq_buildFrom B files c hc, List.map_cons, List.map_nil, hunseen, Settings.default,
    ofRequests, hc.build]

/-- A file that is there fails only by what it holds. -/
theorem load_found_fails_iff (hcollect : B.CollectsSources) (hreplace : B.ReplacesValues)
    (hscalars : B.ReadsScalars) (path : Path) (found : Found B.Format)
    (hfound : B.find files path (B.formatOf? path) = .ok found) :
    (∃ e, load B files [.file ⟨path, false⟩] = .error e) ↔ B.Spoils files found := by
  have hdefaults : B.build files [B.defaults] = .ok c := hc.build files []
  rw [load_eq_buildFrom B files c hc, List.map_cons, List.map_nil, Backend.buildFrom,
    Backend.request, hcollect.collect_file _ _ _ _ found hfound, Backend.layerOf]
  cases hread : B.read found.format (B.decode found.bytes) with
  | error fault =>
    exact iff_of_true ⟨_, rfl⟩ (.refused fault hread)
  | ok d =>
    have hlanguage := hreplace.isSome_overlay c ⟨d, some (B.name files found.path)⟩
      Backend.languageKey (by decide) (by rw [hc.language]; rfl)
    have htyped := exists_ofEntries_iff B hscalars _ hlanguage
    constructor
    · rintro ⟨e, he⟩
      refine .badlyTyped c d hdefaults hread (not_not.mp fun hbad => ?_)
      obtain ⟨s, hs⟩ := htyped.mpr hbad
      simp [Except.map, Except.mapError, Except.bind, Backend.buildFrom, hs] at he
    · intro h
      cases h with
      | refused fault hfault => cases hread.symm.trans hfault
      | badlyTyped c' d' hc' hd' hbad =>
        obtain rfl : c = c' := Except.ok.inj (hdefaults.symm.trans hc')
        obtain rfl : d = d' := Except.ok.inj (hread.symm.trans hd')
        cases hentries : ofEntries B (B.entries
            (B.overlay c ⟨d, some (B.name files found.path)⟩)) with
        | ok s => exact absurd hbad (htyped.mp ⟨s, hentries⟩)
        | error e =>
          exact ⟨.settings e, by
            simp [Except.map, Except.mapError, Except.bind, Backend.buildFrom, hentries]⟩

end Optional

section Location

variable (files : Files) {env : Environment}

theorem loadDefault_of_unlocated (h : location? B env = none) :
    loadDefault B files env = (Settings.default B files).mapError .settings := by
  rw [loadDefault, defaultSources, defaultFile?, h]
  rfl

theorem loadDefault_of_location {path : Path} (h : location? B env = some path) :
    loadDefault B files env = load B files [.file ⟨path, false⟩] := by
  rw [loadDefault, defaultSources, defaultFile?, h]
  rfl

theorem loadDefault_congr {env' : Environment} (h : location? B env' = location? B env) :
    loadDefault B files env' = loadDefault B files env := by
  rw [loadDefault, loadDefault, defaultSources, defaultSources, defaultFile?, defaultFile?, h]

variable (env)

theorem location?_of_tldrConfig (path : Path) (h : env.tldrConfig = some path) :
    location? B env = some path := by
  rw [location?, h]

/-- The home directory is not asked for. -/
theorem location?_of_absolute (hlocates : B.LocatesDirectory) (d : Path)
    (h : env.xdgConfigHome = some d) (hd : Path.isAbsolute d = true) :
    location? B env = env.tldrConfig.or
      (some (Path.join (Path.join d (Text.encode "tldr")) (Text.encode "config.yaml"))) := by
  rw [location?, hlocates.directory_of_absolute env d h hd]
  cases env.tldrConfig <;> rfl

end Location

section Located

variable (files : Files) (env : Environment) (c : B.Config) (hc : B.HoldsDefaults c)
  (hcollect : B.CollectsSources) (hblanks : B.PassesBlanks)

include hc hcollect hblanks

/-- Without a file the defaults are left, be it that no place for one is known or that none is
there. -/
theorem loadDefault_of_lost (h : ¬∃ path found, location? B env = some path ∧
    B.find files path (B.formatOf? path) = .ok found) :
    loadDefault B files env = (Settings.default B files).mapError .settings := by
  cases hpath : location? B env with
  | none => exact loadDefault_of_unlocated B files hpath
  | some path =>
    rw [loadDefault_of_location B files hpath]
    cases hfind : B.find files path (B.formatOf? path) with
    | ok found => exact absurd ⟨path, found, hpath, hfind⟩ h
    | error fault => exact load_optional_of_lost B files c hc hcollect hblanks path fault hfind

theorem loadDefault_fails_iff (hreplace : B.ReplacesValues) (hscalars : B.ReadsScalars) :
    (∃ e, loadDefault B files env = .error e) ↔
      ∃ path found, location? B env = some path ∧
        B.find files path (B.formatOf? path) = .ok found ∧ B.Spoils files found := by
  by_cases h : ∃ path found, location? B env = some path ∧
      B.find files path (B.formatOf? path) = .ok found
  · obtain ⟨path, found, hpath, hfind⟩ := h
    rw [loadDefault_of_location B files hpath,
      load_found_fails_iff B files c hc hcollect hreplace hscalars path found hfind]
    constructor
    · exact fun hspoils => ⟨path, found, hpath, hfind, hspoils⟩
    · rintro ⟨path', found', hpath', hfind', hspoils⟩
      obtain rfl := Option.some.inj (hpath.symm.trans hpath')
      exact Except.ok.inj (hfind.symm.trans hfind') ▸ hspoils
  · have hok : loadDefault B files env = .ok ⟨"en", none⟩ := by
      rw [loadDefault_of_lost B files env c hc hcollect hblanks h,
        default_eq B files c hc hscalars]
      rfl
    rw [hok]
    exact iff_of_false nofun fun ⟨path, found, hpath, hfind, _⟩ => h ⟨path, found, hpath, hfind⟩

end Located

/-- Loading a user's settings gives the defaults where no file is found, and fails just when a file
is found that fails. A given path makes the other variables idle, and an absolute configuration
directory the home directory. -/
theorem loadDefault_fails_through_file (horder : B.MergesInOrder) (hcollect : B.CollectsSources)
    (hreplace : B.ReplacesValues) (hblanks : B.PassesBlanks) (hscalars : B.ReadsScalars)
    (hdefaults : B.ReadsDefaults) (hfinds : B.FindsFiles) (hlocates : B.LocatesDirectory)
    (files : Files) (env : Environment) :
    ((¬∃ path found, location? B env = some path ∧
        B.find files path (B.formatOf? path) = .ok found) →
      ∃ s, Settings.default B files = .ok s ∧ loadDefault B files env = .ok s) ∧
    ((∃ e, loadDefault B files env = .error e) ↔
      ∃ path found, location? B env = some path ∧
        B.find files path (B.formatOf? path) = .ok found ∧
        files.tree.read? found.path = some found.bytes ∧ B.Spoils files found) ∧
    (∀ xdgConfigHome home, env.tldrConfig ≠ none →
      loadDefault B files { env with xdgConfigHome := xdgConfigHome, home := home } =
        loadDefault B files env) ∧
    ∀ home, (∃ d, env.xdgConfigHome = some d ∧ Path.isAbsolute d = true) →
      loadDefault B files { env with home := home } = loadDefault B files env := by
  obtain ⟨c, hc⟩ := B.exists_defaults horder hcollect hreplace hdefaults
  have hdefault := default_eq B files c hc hscalars
  refine ⟨fun h => ⟨_, hdefault, ?_⟩, ?_, fun xdgConfigHome home h => ?_, fun home h => ?_⟩
  · rw [loadDefault_of_lost B files env c hc hcollect hblanks h, hdefault]
    rfl
  · rw [loadDefault_fails_iff B files env c hc hcollect hblanks hreplace hscalars]
    constructor
    · rintro ⟨path, found, hpath, hfind, hspoils⟩
      exact ⟨path, found, hpath, hfind, hfinds.read_of_find files path _ found hfind, hspoils⟩
    · rintro ⟨path, found, hpath, hfind, -, hspoils⟩
      exact ⟨path, found, hpath, hfind, hspoils⟩
  · obtain ⟨path, hpath⟩ := Option.ne_none_iff_exists'.mp h
    apply loadDefault_congr
    rw [location?_of_tldrConfig B env path hpath]
    exact location?_of_tldrConfig B _ path hpath
  · obtain ⟨d, hd, habs⟩ := h
    apply loadDefault_congr
    rw [location?_of_absolute B env hlocates d hd habs]
    exact location?_of_absolute B _ hlocates d hd habs

open Standard

/-- A relative configuration directory does not count. Below the home directory an added extension
leads to a file, which fails. An empty path leads nowhere, whatever the home directory is. -/
theorem loadDefault_fails_through_file_of_home :
    let bytes := Text.encode "\x7b\"language\": []\x7d"
    let place := ["u", ".config", "tldr", "config.yaml.json"].map Text.encode
    let files : Files := ⟨⟨[(place, .file bytes)]⟩, [Path.slash]⟩
    let env : Environment := ⟨none, some (Text.encode "xdg"), some (Text.encode "/u")⟩
    let absolute : Environment := ⟨none, some (Text.encode "/u/.config"), none⟩
    (∃ e, loadDefault backend files env = .error e) ∧
      (∃ s, Settings.default backend files = .ok s ∧
        loadDefault backend files { env with tldrConfig := some [] } = .ok s) ∧
      loadDefault backend files ⟨some [], none, none⟩ =
        loadDefault backend files { env with tldrConfig := some [] } ∧
      loadDefault backend files { absolute with home := some (Text.encode "/v") } =
        loadDefault backend files absolute := by
  intro bytes place files env absolute
  let path : Path := Text.encode "/u/.config/tldr/config.yaml"
  let found : Found backend.Format := ⟨path ++ Text.encode ".json", bytes, backend.json⟩
  have hlocation : location? backend env = some path := by decide
  have hfound : find files path (backend.formatOf? path) = .ok found := by decide
  have hspoils : backend.Spoils files found := by
    obtain ⟨c, hc⟩ := backend.exists_defaults mergesInOrder collectsSources replacesValues
      readsDefaults
    obtain ⟨d, hread, hd⟩ := exists_read backend.json (backend.decode bytes) [("language", .seq)]
      (by decide +kernel)
    refine .badlyTyped c d (hc.build files []) hread (.language .seq ?_ rfl)
    rw [replacesValues.shapeAt_overlay c d _ (flat_of_shapes _ d hd (by decide)) _ (by decide)]
    change (d.shapes.lookup Backend.languageKey).or _ = _
    rw [hd]
    rfl
  have hlost : ¬∃ path found,
      location? backend { env with tldrConfig := some [] } = some path ∧
        backend.find files path (backend.formatOf? path) = .ok found := by
    rintro ⟨path, found, hpath, hfind⟩
    obtain rfl := Option.some.inj hpath
    have hnone : find files [] (backend.formatOf? []) = .error (.notFound []) := by decide
    cases hnone.symm.trans hfind
  have h := loadDefault_fails_through_file backend mergesInOrder collectsSources replacesValues
    passesBlanks readsScalars readsDefaults findsFiles locatesDirectory files
  obtain ⟨-, hfails, -, -⟩ := h env
  obtain ⟨hnone, -, hidle, -⟩ := h { env with tldrConfig := some [] }
  refine ⟨hfails.mpr ⟨path, found, hlocation, hfound, by decide, hspoils⟩, hnone hlost, ?_, ?_⟩
  · exact hidle none none (Option.some_ne_none [])
  · exact (h absolute).2.2.2 (some (Text.encode "/v")) ⟨_, rfl, by decide⟩

end Settings

end PageLookup
