import EntityModel.Diagnostic.Basic
import EntityModel.Output.Destination
import EntityModel.Schema.Resolution
import EntityModel.Settings.Basic

/-! # Failures of a run

Everything that can end a run early: a file that cannot be read, settings that cannot be used, a
document with faults, a reference that leads nowhere, output that cannot be written.

* `Failure.message`   the one-line message of each -/

namespace EntityModel

/-- What ends a run early. -/
inductive Failure where
  | io (fault : StorageFault)
  | missingSettings (path : String)
  | invalidSettings (path : String)
  /-- The problems of a document. -/
  | parse (diagnostics : List Diagnostic)
  | resolve (reference : UnresolvedReference)
  | setting (fault : SettingFault)
  | output (fault : Output.OutputFault)
deriving DecidableEq

namespace Failure

/-- The message of a failure. -/
def message : Failure → String
  | io fault => "I/O error: " ++ fault.message
  | missingSettings path => "I/O error: settings file `" ++ path ++ "` does not exist"
  | invalidSettings path => "I/O error: invalid settings in `" ++ path ++ "`"
  | parse diagnostics => Diagnostic.summary diagnostics
  | resolve reference => reference.message
  | setting fault => "configuration error: " ++ fault.message
  | output fault => fault.message

end Failure

end EntityModel
