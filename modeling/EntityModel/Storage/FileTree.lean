import EntityModel.Storage.Basic
import EntityModel.Storage.FilePath

/-! # A tree of files

A storage as a value: which names, counted from the root, are directories and which are files with
what in them.  A path is followed part by part from the root or from the working directory, and each
part but the last has to lead to a directory.  Temporary files stand apart from all names, so that
no path can lead to one.

* `node?_insert`, `node?_erase`    what is found after a change
* `locate`                         where a path leads
* `FileTree.instStorage`           the operations of a storage -/

namespace EntityModel

/-- What a name leads to. -/
inductive Node where
  | directory
  | file (contents : ByteArray)

/-- Two files are the same if they hold the same bytes. -/
instance : DecidableEq Node
  | .directory, .directory => isTrue rfl
  | .directory, .file _ => isFalse (by simp)
  | .file _, .directory => isFalse (by simp)
  | .file a, .file b =>
    decidable_of_decidable_of_iff (p := a.data = b.data) (by cases a; cases b; simp)

/-- The names that lead from the root to a file or a directory. -/
abbrev Location : Type := List String

/-- Files and directories by their location, the temporary files beside them, and the directory that
    a path is followed from. -/
structure FileTree where
  nodes : List (Location × Node) := []
  temporaries : List (Temporary × String) := []
  workingDirectory : Location := []

namespace FileTree

/-- What is at a location.  The root is always a directory. -/
def node? (t : FileTree) (l : Location) : Option Node :=
  if l = [] then some .directory else t.nodes.lookup l

/-- Leave nothing at a location. -/
def erase (t : FileTree) (l : Location) : FileTree :=
  { t with nodes := t.nodes.filter fun entry => entry.1 != l }

/-- Put something at a location. -/
def insert (t : FileTree) (l : Location) (n : Node) : FileTree :=
  { t with nodes := (l, n) :: t.nodes.filter fun entry => entry.1 != l }

section Lookup

variable {κ ν : Type} [BEq κ] [LawfulBEq κ]

private theorem lookup_cons_of_ne {k l : κ} (h : l ≠ k) (n : ν) (entries : List (κ × ν)) :
    ((k, n) :: entries).lookup l = entries.lookup l := by
  have hb : (l == k) = false := by simpa using h
  simp [List.lookup_cons, hb]

/-- Entries that are filtered by their keys are found under the keys that are kept. -/
theorem lookup_filter_key (p : κ → Bool) (l : κ) (entries : List (κ × ν)) :
    (entries.filter fun entry => p entry.1).lookup l = if p l then entries.lookup l else none := by
  induction entries with
  | nil => simp
  | cons entry rest ih =>
    obtain ⟨key, n⟩ := entry
    by_cases hl : l = key
    · subst hl
      cases hp : p l <;> simp [hp, ih]
    · cases hp : p key <;> simp [hp, ih, lookup_cons_of_ne hl]

end Lookup

/-- What has been put at a location is found there, and nothing else has changed. -/
theorem node?_insert {t : FileTree} {k : Location} (hk : k ≠ []) (n : Node) (l : Location) :
    (t.insert k n).node? l = if l = k then some n else t.node? l := by
  unfold node? insert
  by_cases hl : l = k
  · simp [hl, hk]
  · simp [hl, lookup_cons_of_ne hl, lookup_filter_key (· != k)]

/-- Nothing is found where something was erased, and nothing else has changed. -/
theorem node?_erase {t : FileTree} {k : Location} (hk : k ≠ []) (l : Location) :
    (t.erase k).node? l = if l = k then none else t.node? l := by
  unfold node? erase
  by_cases hl : l = k
  · simp [hl, hk, lookup_filter_key (· != k)]
  · simp [hl, lookup_filter_key (· != k)]

/-! ### Following a path -/

/-- The most bytes that one name can have. -/
def longestName : Nat := 255

/-- The most bytes that a path can have. -/
def longestPath : Nat := 4095

/-- Where one part of a path leads from a location. -/
def step (t : FileTree) (l : Location) (part : String) : Except StorageFault Location :=
  if t.node? l ≠ some .directory then .error .notDirectory
  else if part = "" ∨ part = "." then .ok l
  else if part = ".." then .ok l.dropLast
  else if longestName < part.utf8ByteSize then .error .nameTooLong
  else if t.node? (l ++ [part]) = none then .error .notFound
  else .ok (l ++ [part])

/-- Where some parts of a path lead from a location. -/
def walk (t : FileTree) (l : Location) : List String → Except StorageFault Location
  | [] => .ok l
  | part :: rest => (t.step l part).bind fun next => t.walk next rest

/-- Refuse a text that cannot be a path. -/
def checkPath (path : String) : Except StorageFault Unit :=
  if path.toList.contains '\x00' then .error .invalidPath
  else if path = "" then .error .notFound
  else if longestPath < path.utf8ByteSize then .error .nameTooLong
  else .ok ()

/-- Where the following of a path begins. -/
def origin (t : FileTree) (path : String) : Location :=
  if FilePath.isAbsolute path then [] else t.workingDirectory

/-- The location that a path leads to. -/
def locate (t : FileTree) (path : String) : Except StorageFault Location :=
  (checkPath path).bind fun _ => t.walk (t.origin path) (FilePath.parts path)

/-- What a path leads to. -/
def find? (t : FileTree) (path : String) : Option Node :=
  match t.locate path with
  | .ok l => t.node? l
  | .error _ => none

/-- The location for a new name at the end of some parts of a path, which is not one of the names
    for a directory itself. -/
def slotOf (t : FileTree) (path : String) (parts : List String) :
    Except StorageFault Location := do
  let directory ← t.walk (t.origin path) parts.dropLast
  match parts.getLast? with
  | none => .error .alreadyExists
  | some name =>
    if t.node? directory ≠ some .directory then .error .notDirectory
    else if name = "" ∨ name = "." ∨ name = ".." then .error .alreadyExists
    else if longestName < name.utf8ByteSize then .error .nameTooLong
    else .ok (directory ++ [name])

/-- Parts without the empty ones at the end. -/
def dropEmptyEnd (parts : List String) : List String :=
  (parts.reverse.dropWhile (· == "")).reverse

/-! ### Operations -/

/-- The text of the file that a path leads to. -/
def readText (t : FileTree) (path : String) : Except StorageFault String := do
  let l ← t.locate path
  match t.node? l with
  | none => .error .notFound
  | some .directory => .error .isDirectory
  | some (.file contents) =>
    match String.fromUTF8? contents with
    | some text => .ok text
    | none => .error .invalidText

/-- Make one directory. -/
def makeDirectory (t : FileTree) (path : String) : Except StorageFault FileTree := do
  checkPath path
  let l ← t.slotOf path (dropEmptyEnd (FilePath.parts path))
  if (t.node? l).isSome then .error .alreadyExists else .ok (t.insert l .directory)

/-- A number that no temporary file has. -/
def freshNumber (t : FileTree) : Nat :=
  t.temporaries.foldl (fun n entry => max n (entry.1.number + 1)) 0

/-- Put a text into a new temporary file. -/
def stage (t : FileTree) (directory text : String) :
    Except StorageFault (Temporary × FileTree) := do
  let l ← t.locate directory
  if t.node? l ≠ some .directory then .error .notDirectory
  else
    let temporary : Temporary := ⟨directory, t.freshNumber⟩
    .ok (temporary, { t with temporaries := (temporary, text) :: t.temporaries })

/-- Remove a temporary file. -/
def discard (t : FileTree) (temporary : Temporary) : FileTree :=
  { t with temporaries := t.temporaries.filter fun entry => entry.1 != temporary }

/-- Move a temporary file to the place of a path, unless a directory is there. -/
def publish (t : FileTree) (temporary : Temporary) (path : String) :
    Except StorageFault FileTree := do
  checkPath path
  let l ← t.slotOf path (FilePath.parts path)
  match t.temporaries.lookup temporary with
  | none => .error .notFound
  | some text =>
    if t.node? l = some .directory then .error .isDirectory
    else .ok ((t.discard temporary).insert l (.file text.toUTF8))

/-- Remove the file that a path leads to. -/
def remove (t : FileTree) (path : String) : Except StorageFault FileTree := do
  checkPath path
  let l ← t.slotOf path (FilePath.parts path)
  match t.node? l with
  | none => .error .notFound
  | some .directory => .error .isDirectory
  | some (.file _) => .ok (t.erase l)

/-! ### As a storage -/

/-- Change the tree as an operation says, or leave it where the operation fails. -/
def update (f : FileTree → Except StorageFault FileTree) :
    StateM FileTree (Except StorageFault Unit) :=
  fun t =>
    match f t with
    | .ok changed => (.ok (), changed)
    | .error fault => (.error fault, t)

/-- Stage a text and change the tree, or leave it where that fails. -/
def stageM (directory text : String) : StateM FileTree (Except StorageFault Temporary) :=
  fun t =>
    match t.stage directory text with
    | .ok (temporary, changed) => (.ok temporary, changed)
    | .error fault => (.error fault, t)

instance instStorage : Storage (StateM FileTree) where
  isPresent path := fun t => ((t.find? path).isSome, t)
  isDirectory path := fun t => (t.find? path == some .directory, t)
  readText path := fun t => (t.readText path, t)
  makeDirectory path := update fun t => t.makeDirectory path
  stage := stageM
  publish temporary path := update fun t => t.publish temporary path
  discard temporary := fun t => ((), t.discard temporary)
  remove path := update fun t => t.remove path

end FileTree

end EntityModel
