import PageLookup.Error
import PageLookup.Record
import PageLookup.Store.Basic

/-!
# Listing pages and platforms

A listing for a platform needs the platform's bucket; the common bucket may be
missing. An empty store is reported before anything else.
-/

set_option autoImplicit false

namespace PageLookup.Listing

/-- The common pages, then the platform's. -/
def pages (store : Store) (language platform : String) : Except LookupError (List String) :=
  if store.isEmpty then .error .emptyDatabase
  else
    match store.pages language platform with
    | none => .error (.unsupportedPlatform platform)
    | some own => .ok ((store.pages language common).getD [] ++ own)

def allNames (store : Store) (language : String) : List String :=
  ((store.platforms language).filterMap (store.pages language)).flatten

def nameSet (names : List String) : Keyed Unit :=
  names.foldl (fun set name => set.insert name ()) .empty

def allPages (store : Store) (language : String) : Except LookupError (List String) :=
  if store.isEmpty then .error .emptyDatabase
  else .ok (nameSet (allNames store language)).keys

def platforms (store : Store) (language : String) : Except LookupError (List String) :=
  if store.isEmpty then .error .emptyDatabase
  else .ok ((store.platforms language).filter (· != common))

/-- Only success leaves a record. -/
def records (store : Store) (language platform : String) : List Record :=
  match pages store language platform with
  | .error _ => []
  | .ok names =>
    [⟨.debug, "tldr::list", s!"listed {names.length} pages for {language}/{platform}"⟩]

end PageLookup.Listing
