import EntityModel.CommandLine.Display
import EntityModel.CommandLine.Run

/-! # The program

Runs the command line on the files of the system.

* `systemStorage`   the file system as a storage
* `main`            one run -/

namespace EntityModel

/-- The fault behind an error of the system. -/
def StorageFault.ofError (e : IO.Error) : StorageFault :=
  match e with
  | .noFileOrDirectory .. => .notFound
  | .alreadyExists .. => .alreadyExists
  | .resourceBusy .. => .busy
  | _ => .other (toString e)

/-- The result of an action, with the fault where it fails. -/
def orFault {α : Type} (action : IO α) : IO (Except StorageFault α) := do
  match ← action.toBaseIO with
  | .ok a => pure (.ok a)
  | .error e => pure (.error (.ofError e))

/-- The path of a temporary file. -/
def Temporary.path (t : Temporary) : String :=
  t.directory ++ "/.staged-" ++ toString t.number

/-- Whether the system finds something at a path. -/
def isPresentInSystem (path : String) : IO Bool := do
  match ← orFault (IO.FS.realPath path) with
  | .ok found => found.pathExists
  | .error _ => pure false

/-- Whether the system finds a directory at a path. -/
def isDirectoryInSystem (path : String) : IO Bool := do
  match ← orFault (IO.FS.realPath path) with
  | .ok found => found.isDir
  | .error _ => pure false

/-- The text of a file of the system. -/
def readTextInSystem (path : String) : IO (Except StorageFault String) := do
  if ← isDirectoryInSystem path then pure (.error .isDirectory)
  else
    match ← orFault (IO.FS.readBinFile path) with
    | .error fault => pure (.error fault)
    | .ok contents =>
      match String.fromUTF8? contents with
      | some text => pure (.ok text)
      | none => pure (.error .invalidText)

/-- Put a text into a new temporary file of the system. -/
def stageInSystem (directory text : String) : IO (Except StorageFault Temporary) := do
  let temporary : Temporary := ⟨directory, ← IO.rand 0 0xFFFFFFFFFFFF⟩
  orFault do
    let file ← IO.FS.Handle.mk temporary.path .writeNew
    file.putStr text
    file.flush
    pure temporary

/-- The file system as a storage. -/
instance systemStorage : Storage IO where
  isPresent := isPresentInSystem
  isDirectory := isDirectoryInSystem
  readText := readTextInSystem
  makeDirectory path := orFault (IO.FS.createDir path)
  stage := stageInSystem
  publish temporary path := orFault (IO.FS.rename temporary.path path)
  discard temporary := do
    let _ ← orFault (IO.FS.removeFile temporary.path)
  remove path := orFault (IO.FS.removeFile path)

/-- The directory of settings of the user, if there is one. -/
def userDirectory? : IO (Option String) := do
  match ← IO.getEnv "XDG_CONFIG_HOME" with
  | some directory =>
    if FilePath.isAbsolute directory then return some directory
  | none => pure ()
  return (← IO.getEnv "HOME").map (· ++ "/.config")

/-- The place of the level down to which records are shown. -/
def levelOf (word : String) : IO Nat :=
  match CommandLine.readLevel? word with
  | some rank => pure rank
  | none => do
    IO.eprintln ("Unknown log level `" ++ word ++ "`, falling back to `warn`")
    pure Level.warn.rank

/-- Run the program with some arguments. -/
def runInSystem (a : CommandLine.Arguments) : IO UInt32 := do
  let rank ← levelOf a.logLevel
  let activity : Activity IO Failure (List String) := CommandLine.run (← userDirectory?) a
  let result ← activity.run
  (Record.upTo rank result.records).forM fun r => IO.eprintln (CommandLine.recordLine r)
  match result.outcome with
  | .ok _ => pure 0
  | .error f => do
    (Report.ofFailure f).forM fun r => (CommandLine.reportLines r).forM fun line => IO.eprintln line
    pure 1

end EntityModel

/-- One run of the program. -/
def main (words : List String) : IO UInt32 :=
  match EntityModel.CommandLine.Arguments.read words with
  | .ok a => EntityModel.runInSystem a
  | .error fault => do
    IO.println (EntityModel.CommandLine.faultText fault)
    pure (EntityModel.CommandLine.exitCode fault)
