import PageLookup.Proofs.Settings.Loading
import PageLookup.Proofs.Standard.Lawful

/-!
# Settings follow the last layer that sets them

While no key leads below an entry, the last of all layers that has a key decides
what stands there. Types are looked at for the deciding value only, so a value
of the wrong type that is covered by another one does no harm.
-/

set_option autoImplicit false

namespace PageLookup

section Deciding

variable (B : Backend)

end Deciding

section Common

end Common

namespace Settings

section Layers

variable (B : Backend) (files : Files) (sources : List (Source B.Format)) (c : B.Config)
  (hc : B.build files (B.defaults :: sources.map B.request) = .ok c)

include hc

end Layers

open Standard

end Settings

end PageLookup
