import EntityModel.CommandLine.Arguments
import EntityModel.CommandLine.SettingsFile
import EntityModel.Generation.Document
import EntityModel.Output.Commit
import EntityModel.Settings.Toml

/-! # A run of the program

A run finds its settings, reads the model, generates its files and commits them.  Nothing is written
before all files are generated.

* `run`     from the arguments to the paths of the written files -/

namespace EntityModel.CommandLine

variable {m : Type → Type} [Monad m] [Storage m]

/-- Note each path that was written. -/
def notePaths : List String → Traced Failure Unit
  | [] => pure ()
  | path :: rest => do
    Traced.note .info "Generated file written" [("output_file", path)]
    notePaths rest

/-- Write generated files where the settings say. -/
def writeFiles (settings : Settings) (files : List Generation.GeneratedFile) :
    Activity m Failure (List String) :=
  (Output.commit files settings.outputPattern settings.layout).mapError .output

/-- Run the program with some arguments, given the directory of settings of the user. -/
def run [SettingsFormat] (userDirectory : Option String) (a : Arguments) :
    Activity m Failure (List String) := do
  Activity.note .info "Processing model" [("input_path", a.input)]
  let found ← loadSettings userDirectory a.config
  let settings ← Activity.ofTraced (layer found a.settings a.output)
  let source ← Activity.attempt Failure.io (Storage.readText a.input)
  let files ← Activity.ofTraced (Generation.generateDocument settings source)
  let paths ← writeFiles settings files
  Activity.ofTraced (notePaths paths)
  pure paths

end EntityModel.CommandLine
