import EntityModel.Failure
import EntityModel.Settings.Value
import EntityModel.Storage.Activity

/-! # Finding and layering settings

Settings come from a file that is named on the command line or found in one of two places, nearest
first.  On top of them go the settings that are given by name, in order, and last the pattern for
the paths of the generated files.

* `outcome_applyOverrides`   settings by name are applied in order
* `loadSettings`             the settings of the file
* `layer`                    what goes on top of them -/

namespace EntityModel.CommandLine

variable {m : Type → Type} [Monad m] [Storage m]

/-- The settings file of the working directory. -/
def localSettings : String := "edmgen/config.toml"

/-- The settings file in a directory of settings. -/
def settingsIn (directory : String) : String := directory ++ "/" ++ localSettings

/-- The first path that leads somewhere. -/
def firstPresent : List String → m (Option String)
  | [] => pure none
  | path :: rest => do
    if ← Storage.isPresent path then pure (some path) else firstPresent rest

/-- The places of a settings file that is not named, given the directory of settings of the user. -/
def searchPaths (userDirectory : Option String) : List String :=
  localSettings :: (userDirectory.map settingsIn).toList

section

variable [SettingsFormat]

/-- Read a settings file. -/
def readSettings (path : String) : Activity m Failure Settings := do
  Activity.note .info "Reading settings file" [("path", path)]
  let text ← Activity.attempt Failure.io (Storage.readText path)
  match (SettingsFormat.read text).map Settings.ofValue with
  | some (.ok settings) => pure settings
  | _ => Activity.fail (.invalidSettings path)

/-- The settings of a file that is found, or the defaults where there is none. -/
def findSettings (userDirectory : Option String) : Activity m Failure Settings := do
  if userDirectory.isNone then
    Activity.note .debug "No platform configuration directory available" []
  match ← Activity.perform (firstPresent (searchPaths userDirectory)) with
  | some path => readSettings path
  | none => do
    Activity.note .debug "No settings file found, using defaults" []
    pure {}

/-- The settings of the file that is named, which has to be there, or of one that is found. -/
def loadSettings (userDirectory named : Option String) : Activity m Failure Settings :=
  match named with
  | none => findSettings userDirectory
  | some path => do
    if ← Activity.perform (Storage.isPresent path) then readSettings path
    else Activity.fail (.missingSettings path)

end

/-! ### Settings by name -/

/-- Apply a setting that is given by name. -/
def applyOverride (settings : Settings) (key value : String) : Traced Failure Settings := do
  Traced.note .debug "Applying setting override" [("key", key), ("value", value)]
  Traced.ofExcept ((settings.apply key value).mapError .setting)

/-- Apply settings that are given by name, in order. -/
def applyOverrides (settings : Settings) : List (String × String) → Traced Failure Settings
  | [] => pure settings
  | (key, value) :: rest => do
    let next ← applyOverride settings key value
    applyOverrides next rest

/-- Apply the pattern for paths, if one is given. -/
def applyOutput (settings : Settings) (output : Option String) : Traced Failure Settings :=
  match output with
  | none => pure settings
  | some pattern =>
    Traced.ofExcept ((settings.apply "OutputPathPattern" pattern).mapError .setting)

/-- Apply settings by name and then the pattern for paths. -/
def layer (settings : Settings) (overrides : List (String × String)) (output : Option String) :
    Traced Failure Settings := do
  let next ← applyOverrides settings overrides
  applyOutput next output

/-- Settings by name are applied in order, up to the first that cannot be. -/
theorem outcome_applyOverrides (settings : Settings) (overrides : List (String × String)) :
    (applyOverrides settings overrides).outcome =
      (settings.applyAll overrides).mapError .setting := by
  induction overrides generalizing settings with
  | nil => rfl
  | cons head rest ih =>
    obtain ⟨key, value⟩ := head
    rw [Settings.applyAll_cons]
    simp only [applyOverrides, applyOverride, Traced.outcome_bind, Traced.outcome_note,
      Traced.outcome_ofExcept]
    cases h : settings.apply key value with
    | error e => rfl
    | ok next => exact ih next

end EntityModel.CommandLine
