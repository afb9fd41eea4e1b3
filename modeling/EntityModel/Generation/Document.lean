import EntityModel.Failure
import EntityModel.Generation.File
import EntityModel.Model

/-! # From a document to generated files

A document is read into a schema and the files of the schema are generated; the first of the two
stages that fails ends it.

* `generateDocument`   the two stages in a row -/

namespace EntityModel.Generation

/-- Read the schema of a document. -/
def readDocument (source : String) : Traced Failure Schema := do
  Traced.note .info "Parsing schema" []
  let s ← (Model.read source).mapError .parse
  Traced.note .debug "Schema parsed successfully" []
  pure s

/-- Generate the files of a document. -/
def generateDocument (settings : Settings) (source : String) :
    Traced Failure (List GeneratedFile) := do
  let s ← readDocument source
  (generate settings s).mapError .resolve

end EntityModel.Generation
