import EntityModel.Settings.Basic
import EntityModel.Storage.Basic
import EntityModel.Storage.FilePath
import EntityModel.Text.Search

/-! # Where generated files go

The path of a generated file is made from a pattern, into which the name of the file is put.  Before
anything is written the paths of all files are made: every name has to be a plain file name and no
two paths may be the same.

* `pathOf_placeholder`    where the pattern names the file
* `destinations_eq_ok`    each path is that of its name -/

namespace EntityModel.Output

open FilePath (Components components isFileName join)

/-! ### One path -/

/-- Whether a pattern says where the name goes. -/
def hasPlaceholder (pattern : String) : Bool :=
  Text.occurs namePlaceholder.toList pattern.toList

/-- The pattern with the name in every place for it. -/
def fill (pattern name : String) : String :=
  String.ofList (Text.replaceAll namePlaceholder.toList name.toList pattern.toList)

/-- The path of the generated file of the given name.  A pattern without a place for the name is the
    file itself where there is one file, and the directory of the files where there are several. -/
def pathOf (pattern name : String) (layout : Layout) : String :=
  if hasPlaceholder pattern then fill pattern name
  else
    match layout with
    | .singleFile => pattern
    | .filePerDeclaration => join pattern (name ++ ".cs")

/-- A pattern with a place for the name is followed in either layout. -/
theorem pathOf_placeholder {pattern : String} (h : hasPlaceholder pattern = true) (name : String)
    (layout : Layout) : pathOf pattern name layout = fill pattern name := by
  simp [pathOf, h]

/-! ### All paths -/

/-- Why files are not committed. -/
inductive OutputFault where
  | write (path : String) (fault : StorageFault)
  | duplicatePath (path first second : String)
  | invalidName (name : String)
deriving DecidableEq, Repr

/-- The message of a fault. -/
def OutputFault.message : OutputFault → String
  | .write path fault => "failed to write `" ++ path ++ "`: " ++ fault.message
  | .duplicatePath path first second =>
    "`" ++ first ++ "` and `" ++ second ++ "` would both be written to `" ++ path ++ "`"
  | .invalidName name => "`" ++ name ++ "` cannot be used as a file name"

/-- The paths of files of the given names, each after the names and paths before it.  A name has to
    be a plain file name and its path a new one. -/
def destinationsAfter (pattern : String) (layout : Layout) (seen : List (Components × String)) :
    List String → Except OutputFault (List String)
  | [] => .ok []
  | name :: rest =>
    if isFileName name then
      match seen.lookup (components (pathOf pattern name layout)) with
      | some first => .error (.duplicatePath (pathOf pattern name layout) first name)
      | none =>
        (destinationsAfter pattern layout
          ((components (pathOf pattern name layout), name) :: seen) rest).map
          (pathOf pattern name layout :: ·)
    else .error (.invalidName name)

/-- The paths of files of the given names. -/
def destinations (pattern : String) (layout : Layout) (names : List String) :
    Except OutputFault (List String) :=
  destinationsAfter pattern layout [] names

private theorem destinationsAfter_eq_ok {pattern : String} {layout : Layout}
    {seen : List (Components × String)} {names paths : List String}
    (h : destinationsAfter pattern layout seen names = .ok paths) :
    paths = names.map fun name => pathOf pattern name layout := by
  induction names generalizing seen paths with
  | nil =>
    obtain rfl := Except.ok.inj h
    rfl
  | cons name rest ih =>
    simp only [destinationsAfter] at h
    split at h
    · split at h
      · simp at h
      · cases hr : destinationsAfter pattern layout
            ((components (pathOf pattern name layout), name) :: seen) rest with
        | error e => simp [hr, Except.map] at h
        | ok ps =>
          simp only [hr, Except.map, Except.ok.injEq] at h
          rw [← h, ih hr, List.map_cons]
    · simp at h

/-- Each path is that of its name. -/
theorem destinations_eq_ok {pattern : String} {layout : Layout} {names paths : List String}
    (h : destinations pattern layout names = .ok paths) :
    paths = names.map fun name => pathOf pattern name layout :=
  destinationsAfter_eq_ok h

end EntityModel.Output
