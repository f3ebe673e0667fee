import PageLookup.Error
import PageLookup.Store.Basic

/-!
# The platform whose pages are shown

The bucket of common pages belongs to no platform and cannot be asked for.
-/

set_option autoImplicit false

namespace PageLookup.Platform

def current : String := "linux"

def resolve (platform : Option String) : Except LookupError String :=
  match platform with
  | some p => if p = common then .error .commonIsNotPlatform else .ok p
  | none => .ok current

end PageLookup.Platform
