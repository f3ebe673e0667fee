import PageLookup.Document.Format
import PageLookup.Settings.Source

/-!
# Finding files

If the very path leads to no file, the known extensions are added to it by
turns. With a format that is given those of that format only are.
-/

set_option autoImplicit false

namespace PageLookup.Standard

open PageLookup.Document

def foundWith? (files : Files) (full : Path) (e : String × Format) : Option (Found Format) :=
  (Path.withExtension? full (Text.encode e.1)).bind fun p =>
    (files.tree.read? p).map (⟨p, ·, e.2⟩)

def extensionFormat? (path : Path) : Option Format :=
  (Path.extension? path).bind fun e => Format.ofExtension? (Text.decode e)

def find (files : Files) (path : Path) (format? : Option Format) :
    Except FileFault (Found Format) :=
  let full := Path.join files.directory path
  match files.tree.read? full with
  | some bytes =>
    match format?.or (extensionFormat? full) with
    | some format => .ok ⟨full, bytes, format⟩
    | none => .error (.unsupportedFormat full)
  | none =>
    match (extensions.filter fun e => format?.all (· == e.2)).findSome? (foundWith? files full) with
    | some found => .ok found
    | none => .error (.notFound path)

def name (files : Files) (path : Path) : String :=
  Text.decode (Path.relativeTo files.directory path)

end PageLookup.Standard
