import PageLookup.Text.Utf8

/-!
# File paths

A path is a run of segments between slashes. Empty segments and single dots
say nothing, and two dots name the directory above. A path is made of bytes,
which need not spell a text.
-/

set_option autoImplicit false

namespace PageLookup

abbrev Path := List UInt8

namespace Path

def slash : UInt8 := 0x2f

def dot : UInt8 := 0x2e

def isAbsolute (path : Path) : Bool := path.head? == some slash

def segments : Path → List Path
  | [] => [[]]
  | b :: rest =>
    if b = slash then [] :: segments rest
    else
      match segments rest with
      | [] => [[b]]
      | s :: more => (b :: s) :: more

def isIdle (segment : Path) : Bool := segment == [] || segment == [dot]

def above : Path := [dot, dot]

def components (path : Path) : List Path := (segments path).filter (!isIdle ·)

/-- An absolute path stays as it is. -/
def join (directory path : Path) : Path :=
  if isAbsolute path ∨ directory = [] then path
  else if directory.getLast? = some slash then directory ++ path
  else directory ++ slash :: path

/-- The last component, unless it names a directory above. -/
def fileName? (path : Path) : Option Path := (components path).getLast?.filter (· != above)

/-- What follows the last dot of the file name, unless the dot comes first. -/
def extension? (path : Path) : Option Path := do
  let name ← fileName? path
  let (after, before) := name.reverse.span (· != dot)
  if before.length ≤ 1 then none else some after.reverse

def trimmed (path : Path) : Path :=
  [slash].intercalate ((segments path).reverse.dropWhile isIdle).reverse

def withExtension? (path extension : Path) : Option Path :=
  (fileName? path).map fun _ => trimmed path ++ dot :: extension

def dropShared : List Path → List Path → List Path × List Path
  | a :: as, b :: bs => if a = b then dropShared as bs else (a :: as, b :: bs)
  | as, bs => (as, bs)

/-- Both paths are absolute. -/
def relativeTo (directory path : Path) : Path :=
  let (up, down) := dropShared (components directory) (components path)
  [slash].intercalate (up.map (fun _ => above) ++ down)

theorem segments_ne_nil (path : Path) : segments path ≠ [] := by
  cases path with
  | nil => simp [segments]
  | cons b rest =>
    rw [segments]
    split
    · simp
    · split <;> simp

theorem segments_append_slash (before after : Path) :
    segments (before ++ slash :: after) = segments before ++ segments after := by
  induction before with
  | nil => simp [segments]
  | cons b rest ih =>
    rw [List.cons_append, segments, segments, ih]
    by_cases hb : b = slash
    · rw [if_pos hb, if_pos hb, List.cons_append]
    · rw [if_neg hb, if_neg hb]
      cases hrest : segments rest with
      | nil => exact absurd hrest (segments_ne_nil rest)
      | cons s more => rfl

/-- What a path says comes last, whatever the directory it starts from. -/
theorem exists_components_join (directory path : Path) :
    ∃ before, components (join directory path) = before ++ components path := by
  unfold join
  split
  · exact ⟨[], rfl⟩
  have hsegments (d : Path) : components (d ++ slash :: path) = components d ++ components path := by
    rw [components, segments_append_slash, List.filter_append]
    rfl
  split
  · rename_i hlast
    obtain ⟨d, rfl⟩ := List.getLast?_eq_some_iff.mp hlast
    exact ⟨components d, by rw [List.append_assoc, List.singleton_append, hsegments]⟩
  · exact ⟨components directory, hsegments directory⟩

theorem fileName?_join (directory path name : Path) (h : fileName? path = some name) :
    fileName? (join directory path) = some name := by
  obtain ⟨before, hbefore⟩ := exists_components_join directory path
  obtain ⟨hlast, hname⟩ := Option.filter_eq_some_iff.mp h
  rw [fileName?, hbefore, List.getLast?_append, hlast, Option.some_or, Option.filter_some,
    if_pos hname]

theorem extension?_join (directory path extension : Path)
    (h : extension? path = some extension) :
    extension? (join directory path) = some extension := by
  obtain ⟨name, hname, hextension⟩ := Option.bind_eq_some_iff.mp h
  exact Option.bind_eq_some_iff.mpr ⟨name, fileName?_join directory path name hname, hextension⟩

end Path

end PageLookup
