import PageLookup.Store.Keyed

/-!
# The page store

Pages are kept as language, platform bucket, page name, text. A language or a
bucket may be present and hold nothing: emptiness is about pages only.
-/

set_option autoImplicit false

namespace PageLookup

/-- The bucket of the pages that all platforms share. -/
def common : String := "common"

abbrev Bucket := Keyed String

abbrev Platforms := Keyed Bucket

structure Store where
  tree : Keyed Platforms
  deriving DecidableEq

namespace Store

def empty : Store := ⟨.empty⟩

def buckets (s : Store) (language : String) : Platforms :=
  (s.tree.get? language).getD .empty

def bucket? (s : Store) (language platform : String) : Option Bucket :=
  (s.buckets language).get? platform

/-- Missing levels are made on the way. -/
def insert (s : Store) (language platform name text : String) : Store :=
  let bucket := (s.bucket? language platform).getD .empty
  ⟨s.tree.insert language ((s.buckets language).insert platform (bucket.insert name text))⟩

def isEmpty (s : Store) : Bool :=
  s.tree.values.all fun platforms => platforms.values.all fun bucket => bucket.entries.isEmpty

def languages (s : Store) : List String := s.tree.keys

def platforms (s : Store) (language : String) : List String := (s.buckets language).keys

def pages (s : Store) (language platform : String) : Option (List String) :=
  (s.bucket? language platform).map (·.keys)

def page (s : Store) (language platform name : String) : Option String :=
  (s.bucket? language platform).bind (·.get? name)

end Store

end PageLookup
