import PageLookup.Error
import PageLookup.Glob.Pattern
import PageLookup.Record
import PageLookup.Store.Basic

/-!
# Searching page names

A search goes through the common bucket and then through the platform's, the
same one twice if they are the same. A bucket that is not there yields nothing.
-/

set_option autoImplicit false

namespace PageLookup

structure Search where
  pattern : Glob.Pattern
  deriving DecidableEq, Repr

namespace Search

def ofPattern (raw : String) : Except LookupError Search :=
  match Glob.Pattern.compile raw with
  | .ok pattern => .ok ⟨pattern⟩
  | .error e => .error (.invalidPattern e)

def found? (s : Search) (store : Store) (language bucket : String) : Option (List String) :=
  (store.pages language bucket).map fun names => names.filter s.pattern.accepts

def found (s : Search) (store : Store) (language bucket : String) : List String :=
  (s.found? store language bucket).getD []

def run (s : Search) (store : Store) (language platform : String) :
    Except LookupError (List String) :=
  if store.isEmpty then .error .emptyDatabase
  else .ok (s.found store language common ++ s.found store language platform)

def target : String := "tldr::search"

def bucketRecord (s : Search) (store : Store) (language bucket : String) : Record :=
  match s.found? store language bucket with
  | some names =>
    ⟨.trace, target, s!"{names.length} of {language}/{bucket} match {s.pattern.source}"⟩
  | none => ⟨.debug, target, s!"no {language}/{bucket} pages to search"⟩

/-- An empty store leaves no record. -/
def records (s : Search) (store : Store) (language platform : String) : List Record :=
  match s.run store language platform with
  | .error _ => []
  | .ok names => [
      s.bucketRecord store language common,
      s.bucketRecord store language platform,
      ⟨.debug, target, s!"found {names.length} pages matching {s.pattern.source}"⟩]

end Search

end PageLookup
