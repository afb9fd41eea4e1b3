import EntityModel.Schema.Basic

/-! # What is generated, and in which order

Every declaration of a schema but its associations becomes one piece of source: enum types first,
then complex types, entity containers and entity types, each kind in the order of the schema.

* `mem_plan_iff`     exactly the declarations of the schema are planned -/

namespace EntityModel.Generation

/-- A declaration to generate. -/
inductive Item where
  | enumType (t : EnumType)
  | complexType (t : ComplexType)
  | entityContainer (c : EntityContainer)
  | entityType (t : EntityType)
deriving DecidableEq, Repr

namespace Item

/-- The name of the declaration. -/
def name : Item → String
  | enumType t => t.name
  | complexType t => t.name
  | entityContainer c => c.name
  | entityType t => t.name

end Item

/-- The declarations of a schema in the order of generation. -/
def plan (s : Schema) : List Item :=
  s.enumTypes.map .enumType ++ s.complexTypes.map .complexType ++
    s.entityContainers.map .entityContainer ++ s.entityTypes.map .entityType

/-- Exactly the declarations of the schema are planned. -/
theorem mem_plan_iff {s : Schema} {i : Item} :
    i ∈ plan s ↔
      match i with
      | .enumType t => t ∈ s.enumTypes
      | .complexType t => t ∈ s.complexTypes
      | .entityContainer c => c ∈ s.entityContainers
      | .entityType t => t ∈ s.entityTypes := by
  cases i <;> simp [plan]

/-! ### Imported namespaces -/

/-- The base namespace of the framework. -/
def systemNamespace : String := "System"

/-- The namespace of the collections. -/
def collectionsNamespace : String := "System.Collections.Generic"

/-- The namespace of the validation attributes. -/
def annotationsNamespace : String := "System.ComponentModel.DataAnnotations"

/-- The namespace of the mapping attributes. -/
def mappingNamespace : String := "System.ComponentModel.DataAnnotations.Schema"

/-- The namespace of the entity framework. -/
def entityFrameworkNamespace : String := "Microsoft.EntityFrameworkCore"

/-- Every namespace that generated source may need. -/
def allImports : List String :=
  [systemNamespace, collectionsNamespace, annotationsNamespace, mappingNamespace,
    entityFrameworkNamespace]

/-- The namespaces that a file with this one declaration imports. -/
def Item.imports : Item → List String
  | enumType _ => [systemNamespace]
  | complexType _ => [systemNamespace, annotationsNamespace, mappingNamespace]
  | entityType _ =>
    [systemNamespace, collectionsNamespace, annotationsNamespace, mappingNamespace]
  | entityContainer _ => allImports

end EntityModel.Generation
