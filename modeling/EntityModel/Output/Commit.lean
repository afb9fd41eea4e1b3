import EntityModel.Generation.File
import EntityModel.Output.Destination
import EntityModel.Storage.Activity
import EntityModel.Text.Quoted

/-! # Committing generated files

Generated files reach their paths all together.  Each file is staged in a temporary file beside its
path, and only when all are staged is one after the other published.  Where a file cannot be
published, the files that were not there before are removed again.

* `stageAll`      the temporary files, none of which stays where one fails
* `publishAll`    moves them to their paths
* `commit`        all of it -/

namespace EntityModel.Output

open Generation (GeneratedFile)
open FilePath (Components components parent?)

/-! ### Staging -/

variable {m : Type → Type} [Monad m] [Storage m]

/-- A path and the paths of the directories it leads through, the longest first. -/
def ancestors (path : String) : List String :=
  let c := components path
  path :: (List.range c.names.length).reverse.map fun k =>
    ({ c with names := c.names.take k } : Components).text

/-- Accept what is a directory already. -/
def orPresent (path : String) (result : Except StorageFault Unit) :
    m (Except StorageFault Unit) :=
  match result with
  | .ok () => pure (.ok ())
  | .error fault => do
    let present ← Storage.isDirectory path
    pure (if present then .ok () else .error fault)

/-- Make the first directory of a list of ancestors, and those after it where they are missing. -/
def makeAncestors : List String → m (Except StorageFault Unit)
  | [] => pure (.ok ())
  | path :: shorter =>
    if path = "" then pure (.ok ())
    else do
      match ← Storage.makeDirectory path with
      | .error .notFound =>
        match ← makeAncestors shorter with
        | .error fault => pure (.error fault)
        -- the parents are there now, so one more attempt decides
        | .ok () => do orPresent path (← Storage.makeDirectory path)
      | result => orPresent path result

/-- Make a directory and those it is in. -/
def makeDirectories (path : String) : m (Except StorageFault Unit) :=
  makeAncestors (ancestors path)

/-- The directory that the file of a path is in. -/
def directoryOf (path : String) : String :=
  match parent? path with
  | some directory => if directory = "" then "." else directory
  | none => "."

/-- Stage one file beside its path. -/
def stage (file : GeneratedFile) (path : String) : Activity m OutputFault Temporary := do
  Activity.attempt (OutputFault.write path) (makeDirectories (directoryOf path))
  let temporary ←
    Activity.attempt (OutputFault.write path) (Storage.stage (directoryOf path) file.contents)
  Activity.note .debug "Staged output file"
    [("path", Text.quoted path), ("bytes", toString file.contents.utf8ByteSize)]
  pure temporary

/-- Stage all files.  Where one cannot be staged, those staged before it are removed. -/
def stageAll : List (GeneratedFile × String) → Activity m OutputFault (List (Temporary × String))
  | [] => pure []
  | (file, path) :: rest => do
    let temporary ← stage file path
    let more ← (stageAll rest).onError (Storage.discard temporary)
    pure ((temporary, path) :: more)

/-! ### Publishing -/

/-- Remove files that were newly published. -/
def rollBack : List String → Activity m OutputFault Unit
  | [] => pure ()
  | path :: rest => do
    match ← Activity.perform (Storage.remove path) with
    | .ok () => pure ()
    | .error fault =>
      Activity.note .warn "Could not remove partially committed file"
        [("path", Text.quoted path), ("err", fault.message)]
    rollBack rest

/-- Remove temporary files. -/
def discardAll : List Temporary → m Unit
  | [] => pure ()
  | temporary :: rest => do
    Storage.discard temporary
    discardAll rest

/-- Publish staged files, given the paths of those that were published before and are new.  Where
    one cannot be published, the new ones are removed and so is what is still staged. -/
def publishAll (created : List String) : List (Temporary × String) → Activity m OutputFault Unit
  | [] => pure ()
  | (temporary, path) :: rest => do
    -- a file that was there before is replaced and never removed, so ask first
    let existed ← Activity.perform (Storage.isPresent path)
    match ← Activity.perform (Storage.publish temporary path) with
    | .ok () => publishAll (if existed then created else created ++ [path]) rest
    | .error fault =>
      rollBack created
      Activity.perform (discardAll (temporary :: rest.map (·.1)))
      Activity.fail (.write path fault)

/-- Write files to the paths that a pattern gives them, and answer with the paths. -/
def commit (files : List GeneratedFile) (pattern : String) (layout : Layout) :
    Activity m OutputFault (List String) := do
  let paths ← Activity.ofTraced (Traced.ofExcept (destinations pattern layout (files.map (·.name))))
  let staged ← stageAll (files.zip paths)
  publishAll [] staged
  Activity.note .info "Output committed" [("files", toString paths.length)]
  pure paths

end EntityModel.Output
