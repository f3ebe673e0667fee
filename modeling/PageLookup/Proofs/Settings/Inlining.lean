import PageLookup.Proofs.Settings.Loading
import PageLookup.Proofs.Standard.Lawful

/-!
# A file as the text it holds

A file that is there is read in the format of its extension, and its text goes
the same way as a text given as such. So the text may stand in the file's place
among any other sources: the settings stay the same, and an error names the
file no more.
-/

set_option autoImplicit false

namespace PageLookup

section Naming

variable {file : String}

theorem SettingsError.Forgets.of_notText {origin origin' : Option String}
    (h : OriginForgets file origin origin') (key found : String) :
    Forgets file (.notText key found origin) (.notText key found origin') := by
  cases h with
  | same => exact .same _
  | named => exact .notText key found

theorem inOrigin_none (text : String) : text ++ inOrigin none = text := String.append_empty

theorem join_one : String.join (List.replicate 1 (" in " ++ file)) = inOrigin (some file) := by
  simp [inOrigin]

theorem join_two : String.join (List.replicate 2 (" in " ++ file)) =
    inOrigin (some file) ++ inOrigin (some file) := by
  simp [inOrigin]

theorem DocumentFault.detail_some (fault : DocumentFault) :
    ∃ n ≤ 2, fault.detail (some file) =
      fault.detail none ++ String.join (List.replicate n (" in " ++ file)) := by
  cases fault with
  | malformed cause =>
    refine ⟨1, by decide, ?_⟩
    change cause ++ inOrigin (some file) = cause ++ inOrigin none ++ _
    rw [inOrigin_none, join_one]
  | manyDocuments count =>
    refine ⟨1, by decide, ?_⟩
    change s!"Got {count} YAML documents, expected 1" ++ inOrigin (some file) =
      s!"Got {count} YAML documents, expected 1" ++ inOrigin none ++ _
    rw [inOrigin_none, join_one]
  | rootNotMap found =>
    refine ⟨2, by decide, ?_⟩
    change "invalid type: " ++ found ++ ", expected a map" ++ inOrigin (some file) ++
        inOrigin (some file) =
      "invalid type: " ++ found ++ ", expected a map" ++ inOrigin none ++ inOrigin none ++ _
    rw [inOrigin_none, inOrigin_none, join_two, String.append_assoc]

theorem SettingsError.detail_notText (key found : String) (origin : Option String) :
    (SettingsError.notText key found origin).detail =
      "invalid type: " ++ found ++ ", expected a string for key `" ++ key ++ "`" ++
        inOrigin origin := rfl

/-- The texts differ in mentions of the file at their end. -/
theorem SettingsError.Forgets.detail_eq {e e' : SettingsError} (h : e.Forgets file e') :
    ∃ n ≤ 2, e.detail = e'.detail ++ String.join (List.replicate n (" in " ++ file)) := by
  cases h with
  | same => exact ⟨0, by decide, String.append_empty.symm⟩
  | document fault => exact fault.detail_some
  | notText key found =>
    exact ⟨1, by decide, by rw [detail_notText, detail_notText, inOrigin_none, join_one]⟩

theorem SettingsError.Forgets.message_eq {e e' : SettingsError} (h : e.Forgets file e') :
    ∃ n ≤ 2, (LookupError.settings e).message = (LookupError.settings e').message ++
      String.join (List.replicate n (" in " ++ file)) := by
  have hmessage (e : SettingsError) :
      (LookupError.settings e).message = "failed to load configuration: " ++ e.detail := rfl
  obtain ⟨n, hn, hdetail⟩ := h.detail_eq
  exact ⟨n, hn, by rw [hmessage, hmessage, hdetail, String.append_assoc]⟩

end Naming

section Exchange

variable (B : Backend) (files : Files) {file : String}

theorem Backend.ConfigForgets.refl (c : B.Config) : B.ConfigForgets file c c :=
  List.forall₂_same.mpr fun _ _ => ⟨rfl, rfl, rfl, rfl, .same _⟩

theorem buildFrom_alike (horigins : B.IgnoresOrigins) (rs : List (Request B.Format))
    {c c' : B.Config} (h : B.ConfigForgets file c c') :
    AlikeBut file (B.ConfigForgets file) (B.buildFrom files c rs) (B.buildFrom files c' rs) := by
  induction rs generalizing c c' with
  | nil => exact .ok h
  | cons r rs ih =>
    rw [Backend.buildFrom, Backend.buildFrom]
    cases B.collect files r with
    | error e => exact .error (.same e)
    | ok layer => exact ih (horigins.overlay_forgets file c c' layer layer h ⟨rfl, .same _⟩)

/-- Requests that yield alike can stand for each other at any place. -/
theorem buildFrom_exchange (horigins : B.IgnoresOrigins) {r r' : Request B.Format}
    (hr : AlikeBut file (Layer.Forgets file) (B.collect files r) (B.collect files r'))
    (earlier later : List (Request B.Format)) (c : B.Config) :
    AlikeBut file (B.ConfigForgets file) (B.buildFrom files c (earlier ++ r :: later))
      (B.buildFrom files c (earlier ++ r' :: later)) := by
  induction earlier generalizing c with
  | nil =>
    simp only [List.nil_append, Backend.buildFrom]
    generalize B.collect files r = collected, B.collect files r' = collected' at hr
    cases hr with
    | ok h =>
      exact buildFrom_alike B files horigins later
        (horigins.overlay_forgets file c c _ _ (Backend.ConfigForgets.refl B c) h)
    | error h => exact .error h
  | cons x earlier ih =>
    simp only [List.cons_append, Backend.buildFrom]
    cases B.collect files x with
    | error e => exact .error (.same e)
    | ok layer => exact ih (B.overlay c layer)

theorem layerOf_alike (format : B.Format) (content : String) :
    AlikeBut file (Layer.Forgets file) (B.layerOf format content (some file))
      (B.layerOf format content none) := by
  rw [Backend.layerOf, Backend.layerOf]
  cases B.read format content with
  | error fault => exact .error (.document fault)
  | ok d => exact .ok ⟨rfl, .named⟩

namespace Settings

theorem textAt_alike {v w : B.Value} (h : B.ValueForgets file v w) (key : String) :
    AlikeBut file (· = ·) (B.textAt key v) (B.textAt key w) := by
  rw [Backend.textAt, Backend.textAt, h.text]
  cases B.text w with
  | ok t => exact .ok rfl
  | error found => exact .error (.of_notText h.origin key found)

theorem map_alike {α β : Type} {x y : Except SettingsError α} (h : AlikeBut file (· = ·) x y)
    (g : α → β) : AlikeBut file (· = ·) (x.map g) (y.map g) := by
  cases h with
  | ok h => exact .ok (congrArg g h)
  | error h => exact .error h

theorem readField_alike (f : Fields) {a b : String × B.Value}
    (h : a.1 = b.1 ∧ B.ValueForgets file a.2 b.2) :
    AlikeBut file (· = ·) (readField B f a) (readField B f b) := by
  rw [readField, readField, h.1, h.2.isNull]
  split
  · exact map_alike (textAt_alike B h.2 _) _
  · split
    · split
      · exact .ok rfl
      · exact map_alike (textAt_alike B h.2 _) _
    · exact .ok rfl

theorem readFields_alike {as bs : List (String × B.Value)}
    (h : List.Forall₂ (fun a b => a.1 = b.1 ∧ B.ValueForgets file a.2 b.2) as bs) (f : Fields) :
    AlikeBut file (· = ·) (as.foldlM (readField B) f) (bs.foldlM (readField B) f) := by
  induction h generalizing f with
  | nil => exact .ok rfl
  | @cons a b _ _ hab _ ih =>
    rw [List.foldlM_cons, List.foldlM_cons]
    have hfield := readField_alike B f hab
    generalize readField B f a = read, readField B f b = read' at hfield
    cases hfield with
    | ok h =>
      obtain rfl := h
      exact ih _
    | error h => exact .error h

theorem ofEntries_alike {c c' : B.Config} (h : B.ConfigForgets file c c') :
    AlikeBut file (· = ·) (ofEntries B (B.entries c)) (ofEntries B (B.entries c')) := by
  have hfields := readFields_alike B h ⟨none, none⟩
  rw [ofEntries, ofEntries]
  generalize (B.entries c).foldlM (readField B) ⟨none, none⟩ = read,
    (B.entries c').foldlM (readField B) ⟨none, none⟩ = read' at hfields
  cases hfields with
  | ok h =>
    obtain rfl := h
    simp only [Except.bind]
    split
    · exact .ok rfl
    · exact .error (.same _)
  | error h => exact .error h

/-- Settings are made when all sources are merged, and every error is one of settings. -/
theorem load_exchange (horder : B.MergesInOrder) (horigins : B.IgnoresOrigins)
    {s s' : Source B.Format} (hs : AlikeBut file (Layer.Forgets file)
      (B.collect files (B.request s)) (B.collect files (B.request s')))
    (earlier later : List (Source B.Format)) :
    ∃ result result', AlikeBut file (· = ·) result result' ∧
      load B files (earlier ++ s :: later) = result.mapError .settings ∧
      load B files (earlier ++ s' :: later) = result'.mapError .settings := by
  refine ⟨_, _, ?_, rfl, rfl⟩
  have hbuild := buildFrom_exchange B files horigins hs (B.defaults :: earlier.map B.request)
    (later.map B.request) B.empty
  simp only [ofRequests, List.map_append, List.map_cons, B.build_eq_buildFrom files horder]
  simp only [List.cons_append] at hbuild
  generalize B.buildFrom files B.empty
      (B.defaults :: (earlier.map B.request ++ B.request s :: later.map B.request)) = built,
    B.buildFrom files B.empty
      (B.defaults :: (earlier.map B.request ++ B.request s' :: later.map B.request)) = built'
    at hbuild
  cases hbuild with
  | ok h => exact ofEntries_alike B h
  | error h => exact .error h

end Settings

end Exchange

section Formats

variable (B : Backend)

def Backend.formatNames : List (Option Path × B.Format) :=
  [(none, B.yaml), (some (Text.encode "toml"), B.toml), (some (Text.encode "json"), B.json),
    (some (Text.encode "yaml"), B.yaml), (some (Text.encode "yml"), B.yaml)]

theorem Backend.format_of_mem (hfinds : B.FindsFiles) (directory path : Path) (format : B.Format)
    (h : (Path.extension? path, format) ∈ B.formatNames) :
    (B.formatOf? path).or (B.extensionFormat? (Path.join directory path)) = some format := by
  have hjoin (e : String) (he : Path.extension? path = some (Text.encode e))
      (hdecode : Text.decode (Text.encode e) = e) (hformat : B.ofExtension? e = some format) :
      (B.formatOf? path).or (B.extensionFormat? (Path.join directory path)) = some format := by
    simp only [formatOf?, he, Option.none_or, extensionFormat?,
      Path.extension?_join directory path _ he, Option.bind_some, hdecode, hformat]
  simp only [formatNames, List.mem_cons, Prod.mk.injEq, List.not_mem_nil, or_false] at h
  rcases h with ⟨h, rfl⟩ | ⟨h, rfl⟩ | ⟨h, rfl⟩ | ⟨h, rfl⟩ | ⟨h, rfl⟩
  · simp only [formatOf?, h, Option.some_or]
  · exact hjoin "toml" h (by decide) hfinds.ofExtension_toml
  · exact hjoin "json" h (by decide) hfinds.ofExtension_json
  · exact hjoin "yaml" h (by decide) hfinds.ofExtension_yaml
  · exact hjoin "yml" h (by decide) hfinds.ofExtension_yml

end Formats

namespace Settings

/-- The text of a file can stand in the file's place: the settings are the same, and an error is
the same but for mentions of the file. -/
theorem load_file_as_text (B : Backend) (horder : B.MergesInOrder) (hcollect : B.CollectsSources)
    (hfinds : B.FindsFiles) (hdecodes : B.DecodesFiles) (horigins : B.IgnoresOrigins)
    (files : Files) (earlier later : List (Source B.Format)) (f : SettingsFile)
    (bytes : List UInt8) (format : B.Format)
    (hread : files.tree.read? (Path.join files.directory f.path) = some bytes)
    (hformat : (Path.extension? f.path, format) ∈ B.formatNames) :
    let file := B.name files (Path.join files.directory f.path)
    let withFile := load B files (earlier ++ .file f :: later)
    let withText := load B files (earlier ++ .text (Text.decodeFile bytes) format :: later)
    (∀ s, withFile = .ok s ↔ withText = .ok s) ∧
    ∀ e, withFile = .error e → ∃ cause cause', e = .settings cause ∧
      withText = .error (.settings cause') ∧ cause.Forgets file cause' ∧
      ∃ n ≤ 2, e.message = (LookupError.settings cause').message ++
        String.join (List.replicate n (" in " ++ file)) := by
  intro file withFile withText
  have halike : AlikeBut file (Layer.Forgets file) (B.collect files (B.request (.file f)))
      (B.collect files (B.request (.text (Text.decodeFile bytes) format))) := by
    have hfind := hfinds.find_of_read files f.path (B.formatOf? f.path) bytes format hread
      (B.format_of_mem hfinds files.directory f.path format hformat)
    rw [Backend.request, Backend.request, hcollect.collect_file _ _ _ _ _ hfind,
      hcollect.collect_text, hdecodes.decode_eq]
    exact layerOf_alike B format (Text.decodeFile bytes)
  obtain ⟨result, result', hresult, hfile, htext⟩ :=
    load_exchange B files horder horigins halike earlier later
  simp only [withFile, withText, hfile, htext]
  cases hresult with
  | ok h =>
    obtain rfl := h
    refine ⟨fun s => Iff.rfl, fun e he => ?_⟩
    cases he
  | error h =>
    refine ⟨fun s => by simp [Except.mapError], fun e he => ?_⟩
    obtain rfl := Except.error.inj he
    exact ⟨_, _, rfl, rfl, h, h.message_eq⟩

open Standard

/-- A dot file has no extension, and its mark of the byte order does not count. Its value is of the
wrong type, and so is the value in the text. -/
theorem load_file_as_text_of_dot_file :
    let content := "language: []"
    let bytes := Text.byteOrderMark ++ Text.encode content
    let files : Files :=
      ⟨⟨[([Text.encode "conf", Text.encode ".tldr"], .file bytes)]⟩, [Path.slash]⟩
    let f : SettingsFile := ⟨Text.encode "conf/.tldr", false⟩
    let error := SettingsError.notText "language" "sequence" (some "conf/.tldr")
    load backend files [.file f] = .error (.settings error) ∧
      ∃ cause, load backend files [.text content backend.yaml] = .error (.settings cause) ∧
        error.Forgets "conf/.tldr" cause := by
  intro content bytes files f error
  have hread : files.tree.read? (Path.join files.directory f.path) = some bytes := by decide
  have hextension : Path.extension? f.path = none := by decide
  have hdecode : Text.decodeFile bytes = content := by decide +kernel
  have hname : backend.name files (Path.join files.directory f.path) = "conf/.tldr" := by
    decide +kernel
  have hfile : load backend files [.file f] = .error (.settings error) := by decide +kernel
  obtain ⟨-, herror⟩ := load_file_as_text backend mergesInOrder collectsSources findsFiles
    decodesFiles ignoresOrigins files [] [] f bytes backend.yaml hread
    (by rw [hextension]; exact List.mem_cons_self)
  obtain ⟨cause, cause', hcause, htext, hforgets, -⟩ := herror _ hfile
  cases hcause
  rw [hname] at hforgets
  rw [hdecode] at htext
  exact ⟨hfile, cause', htext, hforgets⟩

end Settings

end PageLookup
