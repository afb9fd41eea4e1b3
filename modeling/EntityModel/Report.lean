import EntityModel.Failure

/-! # Reports

A failure is shown as reports: one for each problem of a document, which points into its source, and
one for any other failure, which points nowhere.

* `ofDiagnostic`   the report on one problem, which points where its diagnostic does
* `ofFailure`      the reports on a failure -/

namespace EntityModel

/-- One problem as it is shown. -/
structure Report where
  message : String
  code : Option String
  severity : Severity
  help : Option String
  labels : List Label
  /-- Whether the labels point into a source text. -/
  hasSource : Bool
deriving DecidableEq, Repr

namespace Report

/-- The report of a problem in a document. -/
def ofDiagnostic (d : Diagnostic) : Report where
  message := d.message
  code := d.code.map Diagnostic.Code.text
  severity := d.severity
  help := d.help
  labels := d.labels
  hasSource := true

/-- The report of a failure that has no place in a document. -/
def plain (f : Failure) (code : String) (help : Option String) : Report where
  message := f.message
  code := some code
  severity := .error
  help := help
  labels := []
  hasSource := false

/-- The hint on how references may be written. -/
def referenceHelp : String := "names may be qualified by the schema namespace or its alias"

/-- The hint on which settings there are. -/
def settingHelp : String :=
  "known keys: CollectionType, LazyLoading, FileMode, ComplexTypeKind, ContainerBaseType, " ++
    "OutputPathPattern"

/-- The reports of a failure. -/
def ofFailure (f : Failure) : List Report :=
  match f with
  | .parse diagnostics => diagnostics.map ofDiagnostic
  | .resolve _ => [plain f "edmgen::resolve" (some referenceHelp)]
  | .setting _ => [plain f "edmgen::config" (some settingHelp)]
  | .output _ => [plain f "edmgen::output" none]
  | .io _ | .missingSettings _ | .invalidSettings _ => [plain f "edmgen::io" none]

end Report

end EntityModel
