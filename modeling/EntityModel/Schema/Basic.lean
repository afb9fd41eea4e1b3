import EntityModel.Schema.Keyword

/-! # Conceptual schemas

A schema declares enum, complex and entity types, associations between entity types and containers
of entity sets.  Declarations refer to each other by name; a reference may be qualified by the
namespace of the schema or by its alias, which `localName` takes off.

* `localName_of_namespace`   a name qualified by the namespace loses the qualifier
* `baseName?`                the local name of the base type of an entity type -/

namespace EntityModel

/-- Free text that describes a declaration or a member. -/
structure Documentation where
  summary : Option String := none
  longDescription : Option String := none
deriving DecidableEq, Repr

/-- A free-form note on a declaration or a member: the qualified name of an attribute and its
    value. -/
structure Annotation where
  name : String
  value : String
deriving DecidableEq, Repr

/-- What every named construct bears. -/
structure Metadata where
  name : String
  documentation : Option Documentation := none
  annotations : List Annotation := []
deriving DecidableEq, Repr

/-- A member of an enum, with its value if one is given. -/
structure EnumMember where
  name : String
  value : Option Int := none
deriving DecidableEq, Repr

/-- A named set of integer constants. -/
structure EnumType extends Metadata where
  underlyingType : UnderlyingType := .int32
  isFlags : Bool := false
  members : List EnumMember := []
deriving DecidableEq, Repr

/-- A scalar property. -/
structure Property extends Metadata where
  typeName : String
  nullable : Bool := true
  maxLength : Option Nat := none
  concurrencyMode : ConcurrencyMode := .unchecked
  storeGeneration : StoreGeneration := .never
  defaultValue : Option String := none
  getter : Access := .publicAccess
  setter : Access := .publicAccess
deriving DecidableEq, Repr

/-- A property that leads along an association to the entities at its far end. -/
structure NavigationProperty extends Metadata where
  relationship : String
  fromRole : String
  toRole : String
  getter : Access := .publicAccess
  setter : Access := .publicAccess
deriving DecidableEq, Repr

/-- A structured value without identity. -/
structure ComplexType extends Metadata where
  properties : List Property := []
deriving DecidableEq, Repr

/-- A structured value with identity. -/
structure EntityType extends Metadata where
  baseType : Option String := none
  isAbstract : Bool := false
  access : Access := .publicAccess
  /-- The names of the key properties, if the type declares a key. -/
  key : Option (List String) := none
  properties : List Property := []
  navigationProperties : List NavigationProperty := []
deriving DecidableEq, Repr

/-- One end of an association. -/
structure AssociationEnd where
  role : String
  typeName : String
  multiplicity : Multiplicity
deriving DecidableEq, Repr

/-- One half of a referential constraint: the properties that the end of a role takes part with. -/
structure ConstraintHalf where
  role : String
  properties : List String := []
deriving DecidableEq, Repr

/-- Ties the properties of the dependent end to the key of the principal one. -/
structure ReferentialConstraint where
  principal : ConstraintHalf
  dependent : ConstraintHalf
deriving DecidableEq, Repr

/-- A relation between two entity types. -/
structure Association extends Metadata where
  first : AssociationEnd
  second : AssociationEnd
  constraint : Option ReferentialConstraint := none
deriving DecidableEq, Repr

/-- A named collection of entities of one type. -/
structure EntitySet extends Metadata where
  entityType : String
deriving DecidableEq, Repr

/-- The entity sets of a database. -/
structure EntityContainer extends Metadata where
  lazyLoading : Option Bool := none
  entitySets : List EntitySet := []
deriving DecidableEq, Repr

/-- A conceptual schema. -/
structure Schema where
  /-- The namespace that the declarations live in. -/
  name : String
  aliasName : Option String := none
  enumTypes : List EnumType := []
  complexTypes : List ComplexType := []
  entityTypes : List EntityType := []
  associations : List Association := []
  entityContainers : List EntityContainer := []
deriving DecidableEq, Repr

namespace ReferentialConstraint

/-- Both halves, the principal one first. -/
def halves (c : ReferentialConstraint) : List ConstraintHalf := [c.principal, c.dependent]

end ReferentialConstraint

namespace Association

/-- Both ends, in the order of the document. -/
def ends (a : Association) : List AssociationEnd := [a.first, a.second]

end Association

namespace EntityType

/-- The first property of the given name. -/
def property? (t : EntityType) (name : String) : Option Property :=
  t.properties.find? fun p => p.name == name

/-- Whether the type itself declares a property of the given name. -/
def declares (t : EntityType) (name : String) : Bool := (t.property? name).isSome

/-- Whether the key of the type lists the given property. -/
def keyContains (t : EntityType) (name : String) : Bool :=
  match t.key with
  | some names => names.contains name
  | none => false

end EntityType

/-- What follows `qualifier.` in a name that begins so. -/
def stripQualifier? (name qualifier : String) : Option String :=
  (Text.stripStart? (qualifier.toList ++ ['.']) name.toList).map String.ofList

namespace Schema

/-- The qualifiers that names of this schema may carry. -/
def qualifiers (s : Schema) : List String := s.name :: s.aliasName.toList

/-- A reference less the namespace or the alias of the schema in front of it; a name qualified by
    anything else, or by nothing, stays as it is. -/
def localName (s : Schema) (name : String) : String :=
  (s.qualifiers.findSome? (stripQualifier? name)).getD name

/-- A name qualified by the namespace loses the qualifier. -/
theorem localName_of_namespace (s : Schema) (name : String) :
    s.localName (s.name ++ "." ++ name) = name := by
  have h : stripQualifier? (s.name ++ "." ++ name) s.name = some name := by
    unfold stripQualifier?
    have hs : (s.name ++ "." ++ name).toList = s.name.toList ++ ['.'] ++ name.toList := by
      simp
    rw [hs, (Text.stripStart?_eq_some_iff).mpr rfl]
    simp
  simp [localName, qualifiers, h]

/-- The local name of the base type of an entity type. -/
def baseName? (s : Schema) (t : EntityType) : Option String := t.baseType.map s.localName

end Schema

end EntityModel
