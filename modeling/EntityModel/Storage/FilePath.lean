/-! # Paths

A path is text whose parts are separated by slashes.  Two texts are the same path if their
components are: empty parts and dots stand for nothing, but for a dot at the very beginning.

* `splitSlash_eq_singleton`   a text without slashes is one part
* `parent?`, `join`           up from a path and down into it -/

namespace EntityModel.FilePath

/-! ### Parts and components -/

/-- The parts of a text between its slashes. -/
def splitSlash : List Char → List (List Char)
  | [] => [[]]
  | c :: cs =>
    if c = '/' then [] :: splitSlash cs
    else
      match splitSlash cs with
      | [] => [[c]]
      | p :: ps => (c :: p) :: ps

/-- A text without slashes is one part. -/
theorem splitSlash_eq_singleton {cs : List Char} (h : '/' ∉ cs) : splitSlash cs = [cs] := by
  induction cs with
  | nil => rfl
  | cons c cs ih =>
    simp only [List.mem_cons, not_or] at h
    simp [splitSlash, Ne.symm h.1, ih h.2]

/-- The parts of a path, in order. -/
def parts (path : String) : List String := (splitSlash path.toList).map String.ofList

/-- Whether the path begins at the root. -/
def isAbsolute (path : String) : Bool := path.toList.head? == some '/'

/-- The components of a path. -/
structure Components where
  isAbsolute : Bool
  names : List String
deriving DecidableEq, Repr

/-- Whether a part stands for a component wherever it is found. -/
def isComponent (part : String) : Bool := part != "" && part != "."

/-- The names among the parts of a path.  A dot counts as one only at the beginning of a path that
    does not begin at the root. -/
def namesOf (absolute : Bool) : List String → List String
  | [] => []
  | part :: rest =>
    if part == "." && !absolute then "." :: rest.filter isComponent
    else (part :: rest).filter isComponent

/-- The components of a path. -/
def components (path : String) : Components :=
  ⟨isAbsolute path, namesOf (isAbsolute path) (parts path)⟩

namespace Components

/-- The plainest text with these components. -/
def text (c : Components) : String :=
  (if c.isAbsolute then "/" else "") ++ "/".intercalate c.names

/-- The components without the last one, if there is one. -/
def parent? (c : Components) : Option Components :=
  if c.names = [] then none else some { c with names := c.names.dropLast }

end Components

/-! ### Up and down -/

/-- The path of the directory that a path leads into, if it leads anywhere. -/
def parent? (path : String) : Option String := (components path).parent?.map Components.text

/-- A path within a directory.  A path from the root stays as it is. -/
def join (directory path : String) : String :=
  if isAbsolute path then path
  else if directory.toList.getLast?.all (· == '/') then directory ++ path
  else directory ++ "/" ++ path

/-! ### File names -/

/-- Whether a text names a file in whatever directory it is put: one component without any slash or
    backslash. -/
def isFileName (name : String) : Bool :=
  !name.toList.contains '/' && !name.toList.contains '\\' && isComponent name && name != ".."

end EntityModel.FilePath
