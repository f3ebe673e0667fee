import Mathlib.Data.List.Forall2
import PageLookup.Settings.Backend

/-!
# What comes from a file

Values and errors from a file carry the file's name, for messages only. Where
the text of the file stands in its place, the same values and errors come
without the name.
-/

set_option autoImplicit false

namespace PageLookup

/-- The same origin, or none in place of the file. -/
inductive OriginForgets (file : String) : Option String → Option String → Prop where
  | same (origin : Option String) : OriginForgets file origin origin
  | named : OriginForgets file (some file) none

inductive SettingsError.Forgets (file : String) : SettingsError → SettingsError → Prop where
  | same (e : SettingsError) : Forgets file e e
  | document (fault : DocumentFault) :
    Forgets file (.document fault (some file)) (.document fault none)
  | notText (key found : String) :
    Forgets file (.notText key found (some file)) (.notText key found none)

inductive AlikeBut (file : String) {α : Type} (R : α → α → Prop) :
    Except SettingsError α → Except SettingsError α → Prop where
  | ok {a b : α} : R a b → AlikeBut file R (.ok a) (.ok b)
  | error {e e' : SettingsError} : e.Forgets file e' → AlikeBut file R (.error e) (.error e')

structure Layer.Forgets {Document : Type} (file : String) (a b : Layer Document) : Prop where
  document : a.document = b.document
  origin : OriginForgets file a.origin b.origin

namespace Backend

variable (B : Backend)

structure ValueForgets (file : String) (v w : B.Value) : Prop where
  shape : B.shape v = B.shape w
  isNull : B.isNull v = B.isNull w
  text : B.text v = B.text w
  origin : OriginForgets file (B.origin v) (B.origin w)

def ConfigForgets (file : String) (c c' : B.Config) : Prop :=
  List.Forall₂ (fun a b => a.1 = b.1 ∧ B.ValueForgets file a.2 b.2) (B.entries c) (B.entries c')

/-- Merging does not look at where values come from. -/
structure IgnoresOrigins : Prop where
  overlay_forgets : ∀ file c c' layer layer', B.ConfigForgets file c c' →
    Layer.Forgets file layer layer' →
      B.ConfigForgets file (B.overlay c layer) (B.overlay c' layer')

end Backend

end PageLookup
