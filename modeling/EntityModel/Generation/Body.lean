import EntityModel.Generation.Member
import EntityModel.Generation.Plan

/-! # Bodies of generated declarations

Each planned declaration has a body, the steps that write it, which does not depend on the file it
goes to.  A body is written whole or, where one of its references leads nowhere, not at all.

* `enumSteps`, `complexSteps`, `containerSteps`, `entitySteps`   the four kinds
* `body`                                                          any of them
* `outcome_…`                                                     all of them without the log -/

namespace EntityModel.Generation

open CSharp (Step)

/-- Whether navigation properties load on demand: as set, else as the first container says that says
    anything, else not. -/
def loadsLazily (settings : Settings) (s : Schema) : Bool :=
  settings.lazyLoading.getD ((s.entityContainers.findSome? (·.lazyLoading)).getD false)

/-- The C# name of an underlying type. -/
def underlyingKeyword : UnderlyingType → String
  | .byte => "byte"
  | .sbyte => "sbyte"
  | .int16 => "short"
  | .int32 => "int"
  | .int64 => "long"

/-- The kind of type that complex types become. -/
def complexKind : ComplexTypeKind → CSharp.TypeKind
  | .classKind => .classKind
  | .structKind => .structKind

/-- A type with its members, a blank line between each two. -/
def typeSteps (m : Metadata) (header : CSharp.TypeHeader) (members : List (List Step)) :
    List Step :=
  documentationSteps m ++ .openType header :: separate members ++ [.close]

/-- An enum type. -/
def enumSteps (t : EnumType) : Resolving (List Step) := do
  Traced.note .debug "Emitting enum type" [("declaration", t.name)]
  pure (documentationSteps t.toMetadata ++ stepIf t.isFlags (.attributed "Flags" []) ++
    [.enumeration t.name (t.members.map fun m => (m.name, m.value))
      (underlyingKeyword t.underlyingType) .publicAccess])

/-- An enum type refers to nothing and is always written. -/
theorem outcome_enumSteps (t : EnumType) :
    (enumSteps t).outcome =
      .ok (documentationSteps t.toMetadata ++ stepIf t.isFlags (.attributed "Flags" []) ++
        [.enumeration t.name (t.members.map fun m => (m.name, m.value))
          (underlyingKeyword t.underlyingType) .publicAccess]) := rfl

/-- The header of a complex type. -/
def complexHeader (settings : Settings) (t : ComplexType) : CSharp.TypeHeader where
  kind := complexKind settings.complexTypeKind
  name := t.name
  modifiers := { isPartial := true }

/-- A complex type. -/
def complexSteps (settings : Settings) (s : Schema) (t : ComplexType) :
    Resolving (List Step) := do
  Traced.note .debug "Emitting complex type" [("declaration", t.name)]
  let members ← Traced.forEach (propertySteps s t.name false) t.properties
  pure (typeSteps t.toMetadata (complexHeader settings t) members)

/-- A complex type is written exactly where all of its properties are. -/
theorem outcome_complexSteps (settings : Settings) (s : Schema) (t : ComplexType) :
    (complexSteps settings s t).outcome =
      (t.properties.mapM fun p => (propertySteps s t.name false p).outcome).map
        (typeSteps t.toMetadata (complexHeader settings t)) := by
  simp only [complexSteps, Traced.outcome_bind, Traced.outcome_note, Traced.outcome_forEach,
    Traced.outcome_pure]
  cases t.properties.mapM fun p => (propertySteps s t.name false p).outcome <;> rfl

/-- The line of an entity set. -/
def entitySetSteps (set : EntitySet) (entityName : String) : List Step :=
  documentationSteps set.toMetadata ++
    [.property { name := set.name, typeName := "DbSet<" ++ entityName ++ ">" }]

/-- The header of an entity container. -/
def containerHeader (settings : Settings) (c : EntityContainer) : CSharp.TypeHeader where
  kind := .classKind
  name := c.name
  bases := [settings.containerBaseType]
  modifiers := { isPartial := true }

/-- The members of an entity container, once every set is resolved. -/
def containerMembers (s : Schema) (c : EntityContainer) :
    Except UnresolvedReference (List (List Step)) :=
  c.entitySets.mapM fun set =>
    (s.resolveEntityType set.entityType c.name).map fun t => entitySetSteps set t.name

/-- An entity container. -/
def containerSteps (settings : Settings) (s : Schema) (c : EntityContainer) :
    Resolving (List Step) := do
  Traced.note .debug "Emitting entity container" [("declaration", c.name)]
  let members ← Traced.ofExcept (containerMembers s c)
  pure (typeSteps c.toMetadata (containerHeader settings c) members)

/-- An entity container is written exactly where all of its sets are. -/
theorem outcome_containerSteps (settings : Settings) (s : Schema) (c : EntityContainer) :
    (containerSteps settings s c).outcome =
      (containerMembers s c).map (typeSteps c.toMetadata (containerHeader settings c)) := by
  simp only [containerSteps, Traced.outcome_bind, Traced.outcome_note, Traced.outcome_ofExcept,
    Traced.outcome_pure]
  cases containerMembers s c <;> rfl

/-- The name of the base type of an entity type. -/
def resolveBase (s : Schema) (t : EntityType) : Except UnresolvedReference (Option String) :=
  match t.baseType with
  | none => .ok none
  | some base => (s.resolveEntityType base t.name).map fun b => some b.name

/-- The header of an entity type. -/
def entityHeader (t : EntityType) (base : Option String) : CSharp.TypeHeader where
  kind := .classKind
  name := t.name
  bases := base.toList
  modifiers := { isPartial := true, isAbstract := t.isAbstract }
  access := t.access

/-- An entity type. -/
def entitySteps (settings : Settings) (s : Schema) (t : EntityType) :
    Resolving (List Step) := do
  Traced.note .debug "Emitting entity type"
    [("declaration", t.name), ("properties", toString t.properties.length),
      ("navigation_properties", toString t.navigationProperties.length)]
  let base ← Traced.ofExcept (resolveBase s t)
  let properties ←
    Traced.forEach (fun p => propertySteps s t.name (t.keyContains p.name) p) t.properties
  let navigations ←
    Traced.forEach
      (navigationSteps s settings.collectionType (loadsLazily settings s) t.name)
      t.navigationProperties
  pure (typeSteps t.toMetadata (entityHeader t base) (properties ++ navigations))

/-- An entity type is written where its base type resolves, then its properties, then its navigation
    properties. -/
theorem outcome_entitySteps (settings : Settings) (s : Schema) (t : EntityType) :
    (entitySteps settings s t).outcome = (do
      let base ← resolveBase s t
      let properties ← t.properties.mapM fun p =>
        (propertySteps s t.name (t.keyContains p.name) p).outcome
      let navigations ← t.navigationProperties.mapM fun n =>
        (navigationSteps s settings.collectionType (loadsLazily settings s) t.name n).outcome
      .ok (typeSteps t.toMetadata (entityHeader t base) (properties ++ navigations))) := by
  simp only [entitySteps, Traced.outcome_bind, Traced.outcome_note, Traced.outcome_ofExcept,
    Traced.outcome_forEach, Traced.outcome_pure]
  rfl

/-- The body of a planned declaration. -/
def body (settings : Settings) (s : Schema) : Item → Resolving (List Step)
  | .enumType t => enumSteps t
  | .complexType t => complexSteps settings s t
  | .entityContainer c => containerSteps settings s c
  | .entityType t => entitySteps settings s t

end EntityModel.Generation
