import EntityModel.CSharp.Literal
import EntityModel.CSharp.MappedType
import EntityModel.CSharp.Writer
import EntityModel.Log
import EntityModel.Settings.Basic

/-! # Members of generated types

A scalar property is its documentation, its attributes and one line; a navigation property is the
same with attributes that say how it is tied to the other side.  Nothing is written for a member
whose references do not resolve.

* `propertySteps`      the steps of a scalar property
* `navigationSteps`    the steps of a navigation property
* `outcome_…`          both without the log -/

namespace EntityModel.Generation

open CSharp (Step)

/-- Computations that stop at the first reference that leads nowhere. -/
abbrev Resolving (α : Type) : Type := Traced UnresolvedReference α

/-- The documentation of a declaration or a member. -/
def documentationSteps (m : Metadata) : List Step :=
  match m.documentation with
  | none => []
  | some d =>
    [.documentation .summary (d.summary.getD ""),
      .documentation .remarks (d.longDescription.getD "")]

/-- Members with a blank line between each two. -/
def separate : List (List Step) → List Step
  | [] => []
  | [m] => m
  | m :: ms => m ++ .blankLine :: separate ms

/-- A step that is written only where a condition holds. -/
def stepIf (condition : Bool) (s : Step) : List Step := if condition then [s] else []

/-! ### Scalar properties -/

/-- The attribute for a value that the store computes. -/
def storeGenerationSteps : StoreGeneration → List Step
  | .never => []
  | .identity => [.attributed "DatabaseGenerated" ["DatabaseGeneratedOption.Identity"]]
  | .computed => [.attributed "DatabaseGenerated" ["DatabaseGeneratedOption.Computed"]]

/-- The attribute for a largest length; a length of zero is none. -/
def maxLengthSteps : Option Nat → List Step
  | some length => stepIf (0 < length) (.attributed "MaxLength" [toString length])
  | none => []

/-- Whether the property of a mapped type must be marked as required. -/
def isRequired (mapped : CSharp.MappedType) (p : Property) : Bool :=
  !mapped.isValueType && !p.nullable

/-- The attributes of a scalar property. -/
def propertyAttributes (mapped : CSharp.MappedType) (p : Property) (isKey : Bool) : List Step :=
  stepIf isKey (.attributed "Key" []) ++
    stepIf (p.concurrencyMode == .fixed) (.attributed "ConcurrencyCheck" []) ++
    maxLengthSteps p.maxLength ++ storeGenerationSteps p.storeGeneration ++
    stepIf (isRequired mapped p) (.attributed "Required" [])

/-- The type of a property: a value type is marked where the value may be absent. -/
def propertyTypeName (mapped : CSharp.MappedType) (p : Property) : String :=
  if mapped.isValueType && p.nullable then mapped.name ++ "?" else mapped.name

/-- The literal of a property's default value, if it has a default and that has a literal. -/
def initializer? (mapped : CSharp.MappedType) (p : Property) : Option String :=
  p.defaultValue.bind fun value => mapped.primitive.bind (CSharp.defaultLiteral? value)

/-- Note a default value that has no literal. -/
def noteSkippedDefault (mapped : CSharp.MappedType) (p : Property) (owner : String) :
    Resolving Unit :=
  match p.defaultValue, initializer? mapped p with
  | some value, none =>
    Traced.note .warn "Skipping default value that has no literal form"
      [("declaration", owner), ("property", p.name), ("default", value)]
  | _, _ => pure ()

/-- The line of a scalar property. -/
def propertyLine (mapped : CSharp.MappedType) (p : Property) : CSharp.AutoProperty where
  name := p.name
  typeName := propertyTypeName mapped p
  getter := p.getter
  setter := p.setter
  initializer := initializer? mapped p

/-- A scalar property of the type `owner`. -/
def propertySteps (s : Schema) (owner : String) (isKey : Bool) (p : Property) :
    Resolving (List Step) := do
  let mapped ← Traced.ofExcept (CSharp.mapType s p.typeName owner)
  noteSkippedDefault mapped p owner
  pure (documentationSteps p.toMetadata ++ propertyAttributes mapped p isKey ++
    [.property (propertyLine mapped p)])

@[simp] theorem outcome_noteSkippedDefault (mapped : CSharp.MappedType) (p : Property)
    (owner : String) : (noteSkippedDefault mapped p owner).outcome = .ok () := by
  unfold noteSkippedDefault
  split <;> rfl

/-- A scalar property is written exactly where its type can be mapped. -/
theorem outcome_propertySteps (s : Schema) (owner : String) (isKey : Bool) (p : Property) :
    (propertySteps s owner isKey p).outcome =
      (CSharp.mapType s p.typeName owner).map fun mapped =>
        documentationSteps p.toMetadata ++ propertyAttributes mapped p isKey ++
          [.property (propertyLine mapped p)] := by
  simp only [propertySteps, Traced.outcome_bind, Traced.outcome_ofExcept,
    outcome_noteSkippedDefault, Traced.outcome_pure]
  cases CSharp.mapType s p.typeName owner <;> rfl

/-! ### Navigation properties -/

/-- What a navigation property leads to. -/
structure NavigationTarget where
  association : Association
  multiplicity : Multiplicity
  typeName : String
  inverse : Option NavigationReference
deriving DecidableEq, Repr

/-- Resolve a navigation property of the type `owner`: its association, both of its roles, the type
    at the far end and the navigation property that leads back. -/
def resolveNavigation (s : Schema) (owner : String) (n : NavigationProperty) :
    Except UnresolvedReference NavigationTarget := do
  let association ← s.resolveAssociation n.relationship owner
  let targetEnd ← association.findEnd n.toRole
  -- the near role is not used further but has to be there
  let _ ← association.findEnd n.fromRole
  let target ← s.resolveEntityType targetEnd.typeName association.name
  let inverse ← s.inverseNavigation association n.toRole
  .ok ⟨association, targetEnd.multiplicity, target.name, inverse⟩

/-- The foreign key of a navigation property; one that leads to many has none. -/
def foreignKeySteps (target : NavigationTarget) (n : NavigationProperty) : List Step :=
  if target.multiplicity = .many then []
  else
    match target.association.foreignKey? n.fromRole with
    | some property => [.attributed "ForeignKey" [CSharp.nameOf property]]
    | none => []

/-- The attribute that names the navigation property leading back. -/
def inverseSteps : Option NavigationReference → List Step
  | some i => [.attributed "InverseProperty" [CSharp.nameOf (i.owner ++ "." ++ i.property)]]
  | none => []

/-- The attributes of a navigation property. -/
def navigationAttributes (target : NavigationTarget) (n : NavigationProperty) : List Step :=
  foreignKeySteps target n ++ inverseSteps target.inverse ++
    stepIf (target.multiplicity == .one) (.attributed "Required" [])

/-- The type of a navigation property: a collection where it leads to many. -/
def navigationTypeName (collection : CollectionType) (target : NavigationTarget) : String :=
  if target.multiplicity = .many then collection.wrap target.typeName else target.typeName

/-- The line of a navigation property; one that loads on demand is virtual. -/
def navigationLine (collection : CollectionType) (lazyLoading : Bool)
    (target : NavigationTarget) (n : NavigationProperty) : CSharp.AutoProperty where
  name := n.name
  typeName := navigationTypeName collection target
  definition := if lazyLoading then .virtual else .sealed
  getter := n.getter
  setter := n.setter

/-- Note a foreign key of several properties, of which only the first is written. -/
def noteTruncatedKey (target : NavigationTarget) (n : NavigationProperty) : Resolving Unit :=
  if target.multiplicity = .many then pure ()
  else
    match target.association.half? n.fromRole with
    | some half =>
      if 1 < half.properties.length then
        Traced.note .warn "Composite foreign key truncated to its first property"
          [("association", target.association.name), ("role", half.role),
            ("properties", toString half.properties.length)]
      else pure ()
    | none => pure ()

/-- A navigation property of the type `owner`. -/
def navigationSteps (s : Schema) (collection : CollectionType) (lazyLoading : Bool)
    (owner : String) (n : NavigationProperty) : Resolving (List Step) := do
  let target ← Traced.ofExcept (resolveNavigation s owner n)
  noteTruncatedKey target n
  pure (documentationSteps n.toMetadata ++ navigationAttributes target n ++
    [.property (navigationLine collection lazyLoading target n)])

@[simp] theorem outcome_noteTruncatedKey (target : NavigationTarget) (n : NavigationProperty) :
    (noteTruncatedKey target n).outcome = .ok () := by
  unfold noteTruncatedKey
  split
  · rfl
  · split
    · split <;> rfl
    · rfl

/-- A navigation property is written exactly where it resolves. -/
theorem outcome_navigationSteps (s : Schema) (collection : CollectionType) (lazyLoading : Bool)
    (owner : String) (n : NavigationProperty) :
    (navigationSteps s collection lazyLoading owner n).outcome =
      (resolveNavigation s owner n).map fun target =>
        documentationSteps n.toMetadata ++ navigationAttributes target n ++
          [.property (navigationLine collection lazyLoading target n)] := by
  simp only [navigationSteps, Traced.outcome_bind, Traced.outcome_ofExcept,
    outcome_noteTruncatedKey, Traced.outcome_pure]
  cases resolveNavigation s owner n <;> rfl

end EntityModel.Generation
