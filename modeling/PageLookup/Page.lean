import PageLookup.Error
import PageLookup.Record
import PageLookup.Store.Basic

/-!
# Finding one page

The platform's own page comes before the common one of the same name.
-/

set_option autoImplicit false

namespace PageLookup.Page

def find (store : Store) (language platform name : String) : Except LookupError String :=
  match (store.page language platform name).or (store.page language common name) with
  | some text => .ok text
  | none => .error (.pageNotFound name)

/-- Only a page that is not there leaves a record. -/
def records (store : Store) (language platform name : String) : List Record :=
  match find store language platform name with
  | .ok _ => []
  | .error _ =>
    [⟨.debug, "tldr::show", s!"page {Text.quoted name} not found for {language}/{platform}"⟩]

end PageLookup.Page
