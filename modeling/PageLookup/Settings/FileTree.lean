import PageLookup.Settings.Path

/-!
# Trees of files

Files and directories are known by the segments on the way to them from the
root. Every directory on the way to something known is known as well.
-/

set_option autoImplicit false

namespace PageLookup

inductive FileNode where
  | directory
  | file (bytes : List UInt8)
  deriving DecidableEq, Repr

structure FileTree where
  nodes : List (List Path × FileNode)
  deriving DecidableEq, Repr

namespace FileTree

def node? (t : FileTree) (place : List Path) : Option FileNode :=
  match t.nodes.lookup place with
  | some n => some n
  | none => if t.nodes.any (place.isPrefixOf ·.1) then some .directory else none

def isDirectory (t : FileTree) (place : List Path) : Bool :=
  place.isEmpty || t.node? place == some .directory

/-- Only a directory leads anywhere, be it to itself or to the one above. -/
def follow (t : FileTree) (place : List Path) : List Path → Option (List Path)
  | [] => some place
  | s :: rest =>
    if !t.isDirectory place then none
    else if Path.isIdle s then t.follow place rest
    else if s = Path.above then t.follow place.dropLast rest
    else t.follow (place ++ [s]) rest

def read? (t : FileTree) (path : Path) : Option (List UInt8) := do
  let place ← t.follow [] (Path.segments path)
  match ← t.node? place with
  | .file bytes => some bytes
  | .directory => none

end FileTree

end PageLookup
