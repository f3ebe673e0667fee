import PageLookup.Document.Value
import PageLookup.Settings.Backend
import PageLookup.Standard.KeyPath

/-!
# Merging documents

Of an entry only the outermost shape counts. A later value takes the place of
an earlier one, except that a map goes into a map that is there.
-/

set_option autoImplicit false

namespace PageLookup.Standard

open PageLookup.Document PageLookup.Number

structure Entries where
  values : List (String × Value)
  nodup : (values.map Prod.fst).Nodup

def Entries.shapes (d : Entries) : List (String × Shape Binary64) :=
  d.values.map fun e => (e.1, e.2.shape)

def Entries.blank : Entries := ⟨[], .nil⟩

structure Entry where
  shape : Shape Binary64
  origin : Option String
  deriving DecidableEq, Repr

/-- An entry that is made by what was put into it comes from no file. -/
def Entry.orMade (e : Option Entry) (shape : Shape Binary64) : Entry :=
  match e with
  | some e => if e.shape = shape then e else ⟨shape, none⟩
  | none => ⟨shape, none⟩

def Entry.set (e : Option Entry) (steps : List KeyStep) (v : Value) (origin : Option String) :
    Entry :=
  match steps with
  | [] => if v.shape = .map then orMade e .map else ⟨v.shape, origin⟩
  | .field _ :: _ => orMade e .map
  | .index _ :: _ => orMade e .seq

/-- The entries that settings have. Other keys do not matter. -/
structure Config where
  language : Option Entry
  platform : Option Entry
  deriving DecidableEq, Repr

namespace Config

def empty : Config := ⟨none, none⟩

def set (c : Config) (origin : Option String) (key : String) (v : Value) : Config :=
  let path := KeyPath.ofKey key
  if path.root = Backend.languageKey then
    { c with language := some (.set c.language path.steps v origin) }
  else if path.root = Backend.platformKey then
    { c with platform := some (.set c.platform path.steps v origin) }
  else c

def overlay (c : Config) (layer : Layer Entries) : Config :=
  layer.document.values.foldl (fun c e => c.set layer.origin e.1 e.2) c

def entries (c : Config) : List (String × Entry) :=
  (c.language.map (Backend.languageKey, ·)).toList ++
    (c.platform.map (Backend.platformKey, ·)).toList

def shapeAt (c : Config) (key : String) : Option (Shape Binary64) :=
  (c.entries.lookup key).map Entry.shape

theorem entries_nodup (c : Config) : (c.entries.map Prod.fst).Nodup := by
  unfold entries
  cases c.language <;> cases c.platform <;> simp [Backend.languageKey, Backend.platformKey]

end Config

end PageLookup.Standard
