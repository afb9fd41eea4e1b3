import EntityModel.Generation.Body

/-! # Generated files

The bodies of all planned declarations are made first and then spread over files: one file for all
of them, named after the namespace of the schema, or one file for each, named after the declaration
and importing only what its kind needs.

* `outcome_generate`   what is generated, or the first reference that leads nowhere
* `filesOf`            the files of some bodies -/

namespace EntityModel.Generation

open CSharp (Step)

/-- A generated file: a name, from which its path is made, and its text. -/
structure GeneratedFile where
  name : String
  contents : String
deriving DecidableEq, Repr

/-- The steps of a file with the given bodies. -/
def fileSteps (namespaceName : String) (imports : List String) (bodies : List (List Step)) :
    List Step :=
  .openNamespace namespaceName :: imports.map .importNamespace ++
    bodies.flatMap (.blankLine :: ·) ++ [.close]

/-- The text of a file with the given bodies. -/
def fileText (namespaceName : String) (imports : List String) (bodies : List (List Step)) :
    String :=
  CSharp.sourceText (fileSteps namespaceName imports bodies)

/-- The files that hold the given declarations, each with its body. -/
def filesOf (layout : Layout) (namespaceName : String) (pieces : List (Item × List Step)) :
    List GeneratedFile :=
  match layout with
  | .singleFile => [⟨namespaceName, fileText namespaceName allImports (pieces.map (·.2))⟩]
  | .filePerDeclaration =>
    pieces.map fun (item, steps) =>
      ⟨item.name, fileText namespaceName item.imports [steps]⟩

/-- A planned declaration with its body. -/
def piece (settings : Settings) (s : Schema) (item : Item) : Resolving (Item × List Step) := do
  let steps ← body settings s item
  pure (item, steps)

theorem outcome_piece (settings : Settings) (s : Schema) (item : Item) :
    (piece settings s item).outcome = (body settings s item).outcome.map fun steps =>
      (item, steps) := by
  simp only [piece, Traced.outcome_bind, Traced.outcome_pure]
  cases (body settings s item).outcome <;> rfl

/-- Generate the files of a schema. -/
def generate (settings : Settings) (s : Schema) : Resolving (List GeneratedFile) := do
  Traced.note .info "Generating code"
    [("namespace", s.name), ("declarations", toString (plan s).length),
      ("lazy_loading", toString (loadsLazily settings s))]
  let pieces ← Traced.forEach (piece settings s) (plan s)
  let files := filesOf settings.layout s.name pieces
  Traced.note .info "Code generated" [("files", toString files.length)]
  pure files

/-- The files are those of all bodies, or the first reference that leads nowhere stops it all. -/
theorem outcome_generate (settings : Settings) (s : Schema) :
    (generate settings s).outcome =
      ((plan s).mapM fun item => (piece settings s item).outcome).map
        (filesOf settings.layout s.name) := by
  simp only [generate, Traced.outcome_bind, Traced.outcome_note, Traced.outcome_forEach,
    Traced.outcome_pure]
  cases (plan s).mapM fun item => (piece settings s item).outcome <;> rfl

end EntityModel.Generation
