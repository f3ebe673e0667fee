import Mathlib.Data.List.Forall2
import PageLookup.Settings.Basic
import PageLookup.Settings.Origin
import PageLookup.Standard.Basic

/-!
# The backend that runs keeps what settings rely on

Every assumption about a backend holds of the one that runs, for all documents,
files and values. The document of defaults alone is read by evaluation.
-/

set_option autoImplicit false

namespace PageLookup.Standard

open PageLookup.Document PageLookup.Number

theorem build_concat (files : Files) (rs : List (Request Format)) (r : Request Format) :
    build files (rs ++ [r]) =
      (build files rs).bind fun c => (collect files r).map c.overlay := by
  rw [build, List.foldlM_append, build]
  congr 1
  funext c
  rw [List.foldlM_cons]
  cases collect files r <;> rfl

theorem mergesInOrder : backend.MergesInOrder where
  build_nil _ := rfl
  build_concat := build_concat

theorem collect_of_find (files : Files) (path : Path) (format? : Option Format) (required : Bool)
    (found : Found Format) (h : find files path format? = .ok found) :
    collect files (.file path format? required) =
      layerOf found.format (Text.decodeFile found.bytes) (some (name files found.path)) := by
  simp only [collect, h]

theorem collect_of_lost (files : Files) (path : Path) (format? : Option Format) (required : Bool)
    (fault : FileFault) (h : find files path format? = .error fault) :
    collect files (.file path format? required) =
      if required then .error (.file fault) else .ok ⟨.blank, none⟩ := by
  simp only [collect, h]

theorem collectsSources : backend.CollectsSources where
  collect_text _ _ _ := rfl
  collect_file := collect_of_find
  collect_missing := collect_of_lost

theorem passesBlanks : backend.PassesBlanks where
  overlay_blank _ _ := rfl

theorem text_eq_ok_iff (e : Entry) (t : String) :
    text e = .ok t ↔ e.shape.scalar? Binary64.text = some t := by
  unfold text
  cases e.shape.scalar? Binary64.text <;> simp

theorem readsScalars : backend.ReadsScalars where
  text_eq_ok_iff := text_eq_ok_iff
  isNull_iff _ := beq_iff_eq
  writeReal_chars := Binary64.text_chars

section Merging

theorem lookup_language (c : Config) : c.entries.lookup Backend.languageKey = c.language := by
  unfold Config.entries
  cases c.language <;> cases c.platform <;> rfl

theorem lookup_platform (c : Config) : c.entries.lookup Backend.platformKey = c.platform := by
  unfold Config.entries
  cases c.language <;> cases c.platform <;> rfl

theorem shapeAt_language (c : Config) :
    c.shapeAt Backend.languageKey = c.language.map Entry.shape := by
  rw [Config.shapeAt, lookup_language]

theorem shapeAt_platform (c : Config) :
    c.shapeAt Backend.platformKey = c.platform.map Entry.shape := by
  rw [Config.shapeAt, lookup_platform]

theorem ofKey_languageKey : KeyPath.ofKey Backend.languageKey = ⟨Backend.languageKey, []⟩ := by
  decide

theorem ofKey_platformKey : KeyPath.ofKey Backend.platformKey = ⟨Backend.platformKey, []⟩ := by
  decide

theorem set_shape (e : Option Entry) (v : Value) (origin : Option String) :
    (Entry.set e [] v origin).shape = v.shape := by
  rw [Entry.set]
  split
  · rename_i hv
    cases e with
    | none => exact hv.symm
    | some e =>
      rw [Entry.orMade]
      split
      · rename_i he
        rw [he, hv]
      · exact hv.symm
  · rfl

variable (key : String) (hkey : key ∈ [Backend.languageKey, Backend.platformKey])

include hkey

/-- A value leaves its own shape under its key. -/
theorem shapeAt_set_self (c : Config) (origin : Option String) (v : Value) :
    (c.set origin key v).shapeAt key = some v.shape := by
  have hne : Backend.platformKey ≠ Backend.languageKey := by decide
  simp only [List.mem_cons, List.not_mem_nil, or_false] at hkey
  rcases hkey with rfl | rfl
  · rw [shapeAt_language, Config.set, ofKey_languageKey]
    simp [set_shape]
  · rw [shapeAt_platform, Config.set, ofKey_platformKey]
    simp [set_shape, hne]

theorem shapeAt_set_of_ne (c : Config) (origin : Option String) (name : String) (v : Value)
    (h : (KeyPath.ofKey name).root ≠ key) :
    (c.set origin name v).shapeAt key = c.shapeAt key := by
  simp only [List.mem_cons, List.not_mem_nil, or_false] at hkey
  rcases hkey with rfl | rfl
  · simp only [shapeAt_language, Config.set, if_neg h]
    split <;> rfl
  · simp only [shapeAt_platform, Config.set, if_neg h]
    split <;> rfl

theorem isSome_set (c : Config) (origin : Option String) (name : String) (v : Value)
    (h : (c.shapeAt key).isSome = true) :
    ((c.set origin name v).shapeAt key).isSome = true := by
  by_cases hroot : (KeyPath.ofKey name).root = key
  · simp only [List.mem_cons, List.not_mem_nil, or_false] at hkey
    rcases hkey with rfl | rfl
    · simp [shapeAt_language, Config.set, hroot]
    · have hne : Backend.platformKey ≠ Backend.languageKey := by decide
      simp [shapeAt_platform, Config.set, hroot, hne]
  · rwa [shapeAt_set_of_ne key hkey c origin name v hroot]

/-- The only way from the values to the entry is its own key. -/
theorem shapeAt_setAll (c : Config) (origin : Option String) (values : List (String × Value))
    (hnodup : (values.map Prod.fst).Nodup)
    (hflat : ∀ name ∈ values.map Prod.fst, name ≠ key → (KeyPath.ofKey name).root ≠ key) :
    (values.foldl (fun c e => c.set origin e.1 e.2) c).shapeAt key =
      ((values.map fun e => (e.1, e.2.shape)).lookup key).or (c.shapeAt key) := by
  induction values generalizing c with
  | nil => rfl
  | cons e values ih =>
    obtain ⟨hmem, hnodup⟩ := List.nodup_cons.mp hnodup
    obtain ⟨he, hflat⟩ := List.forall_mem_cons.mp hflat
    rw [List.foldl_cons, ih _ hnodup hflat, List.map_cons, List.lookup_cons]
    by_cases hname : key = e.1
    · subst hname
      have hlost : (values.map fun e => (e.1, e.2.shape)).lookup e.1 = none := by
        rw [← Option.not_isSome_iff_eq_none, List.lookup_isSome_iff]
        simpa using hmem
      rw [hlost, shapeAt_set_self e.1 hkey, beq_self_eq_true]
      rfl
    · rw [beq_false_of_ne hname, shapeAt_set_of_ne key hkey c origin e.1 e.2 (he (Ne.symm hname))]

theorem isSome_setAll (c : Config) (origin : Option String) (values : List (String × Value))
    (h : (c.shapeAt key).isSome = true) :
    ((values.foldl (fun c e => c.set origin e.1 e.2) c).shapeAt key).isSome = true := by
  induction values generalizing c with
  | nil => exact h
  | cons e values ih => exact ih _ (isSome_set key hkey c origin e.1 e.2 h)

end Merging

theorem keys_shapes (d : Entries) : d.shapes.map Prod.fst = d.values.map Prod.fst := by
  rw [Entries.shapes, List.map_map]
  rfl

/-- Neither of the two keys leads below the other. -/
theorem root_ne (key : String) (hkey : key ∈ [Backend.languageKey, Backend.platformKey])
    (d : Entries) (hflat : backend.Flat d) (name : String) (hname : name ∈ d.shapes.map Prod.fst)
    (hne : name ≠ key) : (KeyPath.ofKey name).root ≠ key := by
  have hother (h : name ∈ [Backend.languageKey, Backend.platformKey]) :
      (KeyPath.ofKey name).root = name := by
    simp only [List.mem_cons, List.not_mem_nil, or_false] at h
    rcases h with rfl | rfl
    · rw [ofKey_languageKey]
    · rw [ofKey_platformKey]
  by_cases h : name ∈ [Backend.languageKey, Backend.platformKey]
  · rwa [hother h]
  · simp only [List.mem_cons, List.not_mem_nil, or_false, not_or] at h hkey
    have hbelow := hflat name hname h.1 h.2
    rcases hkey with rfl | rfl
    · exact hbelow.1
    · exact hbelow.2

theorem replacesValues : backend.ReplacesValues where
  shapeAt_empty _ := rfl
  shapeAt_overlay c d origin hflat key hkey :=
    shapeAt_setAll key hkey c origin d.values d.nodup fun name hname =>
      root_ne key hkey d hflat name ((keys_shapes d).symm ▸ hname : name ∈ d.shapes.map Prod.fst)
  isSome_overlay c layer key hkey h :=
    isSome_setAll key hkey c layer.origin layer.document.values h

section Reading

variable (format : backend.Format) (content : String) (shapes : List (String × Shape Binary64))

theorem exists_read (h : (read format content).map Entries.shapes = .ok shapes) :
    ∃ d, backend.read format content = .ok d ∧ d.shapes = shapes := by
  cases hd : read format content with
  | error fault => simp [hd, Except.map] at h
  | ok d => exact ⟨d, hd, by simpa [hd, Except.map] using h⟩

theorem read_eq_error (fault : DocumentFault)
    (h : (read format content).map Entries.shapes = .error fault) :
    backend.read format content = .error fault := by
  cases hd : read format content with
  | error fault' => exact hd.trans (congrArg _ (by simpa [hd, Except.map] using h))
  | ok d => simp [hd, Except.map] at h

theorem flat_of_shapes (d : Entries) (hd : d.shapes = shapes)
    (h : ∀ name ∈ shapes.map Prod.fst, name ≠ Backend.languageKey → name ≠ Backend.platformKey →
      (KeyPath.ofKey name).root ≠ Backend.languageKey ∧
        (KeyPath.ofKey name).root ≠ Backend.platformKey) : backend.Flat d := by
  subst hd
  exact h

end Reading

theorem readsDefaults : backend.ReadsDefaults where
  read_defaults := by
    obtain ⟨d, hread, hd⟩ := exists_read backend.yaml defaultDocument [(Backend.languageKey, .text "en")]
      (by decide +kernel)
    have hshape (key : String) : backend.shape? d key = d.shapes.lookup key := rfl
    refine ⟨d, hread, ?_, ?_, flat_of_shapes _ d hd (by decide)⟩
    · rw [hshape, hd]
      rfl
    · rw [hshape, hd]
      rfl

section Origins

variable {file : String} {origin origin' : Option String}

structure Entry.Forgets (file : String) (a b : Entry) : Prop where
  shape : a.shape = b.shape
  origin : OriginForgets file a.origin b.origin

theorem Entry.Forgets.refl (e : Entry) : e.Forgets file e := ⟨rfl, .same _⟩

theorem orMade_forgets {a b : Option Entry} (h : Option.Rel (Entry.Forgets file) a b)
    (shape : Shape Binary64) : (Entry.orMade a shape).Forgets file (Entry.orMade b shape) := by
  cases h with
  | none => exact .refl _
  | some h =>
    rw [Entry.orMade, Entry.orMade, h.shape]
    split
    · exact h
    · exact .refl _

/-- Of the entry that was there only the shape decides what a value makes of it. -/
theorem set_forgets {a b : Option Entry} (h : Option.Rel (Entry.Forgets file) a b)
    (ho : OriginForgets file origin origin') (steps : List KeyStep) (v : Value) :
    (Entry.set a steps v origin).Forgets file (Entry.set b steps v origin') := by
  cases steps with
  | nil =>
    rw [Entry.set, Entry.set]
    split
    · exact orMade_forgets h .map
    · exact ⟨rfl, ho⟩
  | cons step steps =>
    cases step with
    | field name => exact orMade_forgets h .map
    | index n => exact orMade_forgets h .seq

structure Config.Forgets (file : String) (c c' : Config) : Prop where
  language : Option.Rel (Entry.Forgets file) c.language c'.language
  platform : Option.Rel (Entry.Forgets file) c.platform c'.platform

theorem Config.Forgets.set {c c' : Config} (h : c.Forgets file c')
    (ho : OriginForgets file origin origin') (key : String) (v : Value) :
    (c.set origin key v).Forgets file (c'.set origin' key v) := by
  unfold Config.set
  dsimp only
  split
  · exact ⟨.some (set_forgets h.language ho _ v), h.platform⟩
  · split
    · exact ⟨h.language, .some (set_forgets h.platform ho _ v)⟩
    · exact h

theorem Config.Forgets.overlay {c c' : Config} (h : c.Forgets file c') {layer layer' : Layer Entries}
    (hl : layer.Forgets file layer') : (c.overlay layer).Forgets file (c'.overlay layer') := by
  unfold Config.overlay
  rw [hl.document]
  induction layer'.document.values generalizing c c' with
  | nil => exact h
  | cons e values ih => exact ih (h.set hl.origin e.1 e.2)

theorem valueForgets_iff (a b : Entry) : backend.ValueForgets file a b ↔ a.Forgets file b := by
  refine ⟨fun h => ⟨h.shape, h.origin⟩, fun h => ⟨h.shape, ?_, ?_, h.origin⟩⟩
  · change (a.shape == .unit) = (b.shape == .unit)
    rw [h.shape]
  · change text a = text b
    rw [text, text, h.shape]

theorem lookup_forgets {entries entries' : List (String × Entry)}
    (h : List.Forall₂ (fun a b => a.1 = b.1 ∧ backend.ValueForgets file a.2 b.2) entries entries')
    (key : String) :
    Option.Rel (Entry.Forgets file) (entries.lookup key) (entries'.lookup key) := by
  induction h with
  | nil => exact .none
  | @cons a b _ _ hab _ ih =>
    rw [List.lookup_cons, List.lookup_cons, hab.1]
    split
    · exact .some ((valueForgets_iff a.2 b.2).mp hab.2)
    · exact ih

theorem toList_forgets {a b : Option Entry} (h : Option.Rel (Entry.Forgets file) a b)
    (key : String) :
    List.Forall₂ (fun a b => a.1 = b.1 ∧ backend.ValueForgets file a.2 b.2)
      (a.map (key, ·)).toList (b.map (key, ·)).toList := by
  cases h with
  | none => exact .nil
  | some h => exact .cons ⟨rfl, (valueForgets_iff _ _).mpr h⟩ .nil

theorem configForgets_iff (c c' : Config) :
    backend.ConfigForgets file c c' ↔ c.Forgets file c' := by
  constructor
  · intro h
    have hlookup := lookup_forgets h
    exact ⟨lookup_language c ▸ lookup_language c' ▸ hlookup Backend.languageKey,
      lookup_platform c ▸ lookup_platform c' ▸ hlookup Backend.platformKey⟩
  · rintro ⟨hlanguage, hplatform⟩
    exact List.rel_append (toList_forgets hlanguage _) (toList_forgets hplatform _)

theorem ignoresOrigins : backend.IgnoresOrigins where
  overlay_forgets _ c c' _ _ h hlayer :=
    (configForgets_iff _ _).mpr (((configForgets_iff c c').mp h).overlay hlayer)

end Origins

section Files

variable (files : Files)

theorem read_of_foundWith (full : Path) (e : String × Format) (found : Found Format)
    (h : foundWith? files full e = some found) :
    files.tree.read? found.path = some found.bytes := by
  obtain ⟨p, -, hfound⟩ := Option.bind_eq_some_iff.mp h
  obtain ⟨bytes, hbytes, rfl⟩ := Option.map_eq_some_iff.mp hfound
  exact hbytes

theorem read_of_find (path : Path) (format? : Option Format) (found : Found Format)
    (h : find files path format? = .ok found) :
    files.tree.read? found.path = some found.bytes := by
  simp only [find] at h
  split at h
  · rename_i bytes hbytes
    split at h
    · exact Except.ok.inj h ▸ hbytes
    · cases h
  · split at h
    · rename_i found' hfound
      obtain ⟨e, -, he⟩ := List.exists_of_findSome?_eq_some hfound
      exact Except.ok.inj h ▸ read_of_foundWith files _ e found' he
    · cases h

end Files

theorem find_of_read (files : Files) (path : Path) (format? : Option Format) (bytes : List UInt8)
    (format : Format) (hread : files.tree.read? (Path.join files.directory path) = some bytes)
    (hformat : format?.or (extensionFormat? (Path.join files.directory path)) = some format) :
    find files path format? = .ok ⟨Path.join files.directory path, bytes, format⟩ := by
  simp only [find, hread, hformat]

theorem ofExtension_extensions :
    Format.ofExtension? "toml" = some .toml ∧ Format.ofExtension? "json" = some .json ∧
      Format.ofExtension? "yaml" = some .yaml ∧ Format.ofExtension? "yml" = some .yaml := by decide

theorem findsFiles : backend.FindsFiles where
  read_of_find := read_of_find
  find_of_read := find_of_read
  ofExtension_toml := ofExtension_extensions.1
  ofExtension_json := ofExtension_extensions.2.1
  ofExtension_yaml := ofExtension_extensions.2.2.1
  ofExtension_yml := ofExtension_extensions.2.2.2

theorem decodesFiles : backend.DecodesFiles where
  decode_eq _ := rfl

theorem locatesDirectory : backend.LocatesDirectory where
  directory_of_absolute env d hd habs := by
    change configDirectory? env = some d
    rw [configDirectory?, hd, Option.filter_some, if_pos habs, Option.some_or]
  directory_of_home env h hrel hh _ := by
    change configDirectory? env = some _
    have hnone : env.xdgConfigHome.filter (Path.isAbsolute ·) = none := by
      cases hd : env.xdgConfigHome with
      | none => rfl
      | some d => rw [Option.filter_some, if_neg (by simp [hrel d hd])]
    rw [configDirectory?, hnone, hh, Option.none_or, Option.map_some]

end PageLookup.Standard
