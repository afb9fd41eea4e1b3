import EntityModel.Schema.Basic

/-! # Resolving references

A reference is a name; what it leads to is looked up among the declarations of the schema after its
qualifier has been taken off, and the first declaration of that name counts.  Types of all three
kinds share one space of names in which entity types come first and enum types last.

* `resolveType_eq_ok_iff`      when a type reference resolves, and to what
* `findEnd`, `oppositeEnd`     the ends of an association by role
* `inverseNavigation`          the navigation property that leads back -/

namespace EntityModel

/-- What a reference was expected to name. -/
inductive ReferenceKind where
  | type
  | entityType
  | association
  | role
deriving DecidableEq, Repr

/-- The words for what a reference was expected to name. -/
def ReferenceKind.text : ReferenceKind → String
  | .type => "type"
  | .entityType => "entity type"
  | .association => "association"
  | .role => "association role"

/-- A reference that leads nowhere, and the declaration it stands in. -/
structure UnresolvedReference where
  kind : ReferenceKind
  name : String
  referencedBy : String
deriving DecidableEq, Repr

/-- The message of an unresolved reference. -/
def UnresolvedReference.message (u : UnresolvedReference) : String :=
  "unresolved " ++ u.kind.text ++ " reference `" ++ u.name ++ "` in `" ++ u.referencedBy ++ "`"

/-- A value, or an unresolved reference where there is none. -/
def orUnresolved {α : Type} (kind : ReferenceKind) (name referencedBy : String) :
    Option α → Except UnresolvedReference α
  | some a => .ok a
  | none => .error ⟨kind, name, referencedBy⟩

/-- A type found by name. -/
inductive ResolvedType where
  | entity (t : EntityType)
  | complex (t : ComplexType)
  | enum (t : EnumType)
deriving DecidableEq, Repr

namespace ResolvedType

/-- The name of the type. -/
def name : ResolvedType → String
  | entity t => t.name
  | complex t => t.name
  | enum t => t.name

/-- Whether values of the type are held in place, so that one may be absent only if it is marked.
    Entities are the only types held by reference. -/
def isValueType : ResolvedType → Bool
  | entity _ => false
  | _ => true

/-- The entity type, if the type is one. -/
def entity? : ResolvedType → Option EntityType
  | entity t => some t
  | _ => none

end ResolvedType

namespace Schema

/-! ### Types and associations -/

/-- The first type declared under a local name. -/
def findType? (s : Schema) (name : String) : Option ResolvedType :=
  ((s.entityTypes.find? fun t => t.name == name).map ResolvedType.entity).or
    (((s.complexTypes.find? fun t => t.name == name).map ResolvedType.complex).or
      ((s.enumTypes.find? fun t => t.name == name).map ResolvedType.enum))

/-- The first association declared under a local name. -/
def findAssociation? (s : Schema) (name : String) : Option Association :=
  s.associations.find? fun a => a.name == name

/-- The type that a reference names. -/
def resolveType (s : Schema) (name referencedBy : String) :
    Except UnresolvedReference ResolvedType :=
  orUnresolved .type name referencedBy (s.findType? (s.localName name))

/-- The entity type that a reference names. -/
def resolveEntityType (s : Schema) (name referencedBy : String) :
    Except UnresolvedReference EntityType :=
  orUnresolved .entityType name referencedBy
    ((s.findType? (s.localName name)).bind ResolvedType.entity?)

/-- The association that a reference names. -/
def resolveAssociation (s : Schema) (name referencedBy : String) :
    Except UnresolvedReference Association :=
  orUnresolved .association name referencedBy (s.findAssociation? (s.localName name))

/-- An entity type is found exactly if it is the first one of its name: entity types come before all
    others. -/
theorem findType?_eq_entity_iff {s : Schema} {name : String} {t : EntityType} :
    s.findType? name = some (.entity t) ↔
      (s.entityTypes.find? fun t => t.name == name) = some t := by
  unfold findType?
  cases s.entityTypes.find? fun t => t.name == name with
  | some u => simp
  | none =>
    cases s.complexTypes.find? fun t => t.name == name with
    | some u => simp
    | none => simp

/-- An entity type that is found is one of the schema. -/
theorem mem_of_findType? {s : Schema} {name : String} {t : EntityType}
    (h : s.findType? name = some (.entity t)) : t ∈ s.entityTypes :=
  List.mem_of_find?_eq_some (findType?_eq_entity_iff.mp h)

/-- A type reference resolves to what its local name was first declared as. -/
theorem resolveType_eq_ok_iff {s : Schema} {name by_ : String} {t : ResolvedType} :
    s.resolveType name by_ = .ok t ↔ s.findType? (s.localName name) = some t := by
  unfold resolveType orUnresolved
  split <;> simp_all

/-- Only entity types resolve as entity types. -/
theorem resolveEntityType_eq_ok_iff {s : Schema} {name by_ : String} {t : EntityType} :
    s.resolveEntityType name by_ = .ok t ↔
      s.findType? (s.localName name) = some (.entity t) := by
  unfold resolveEntityType orUnresolved
  cases h : s.findType? (s.localName name) with
  | none => simp
  | some r => cases r <;> simp [ResolvedType.entity?]

theorem resolveAssociation_eq_ok_iff {s : Schema} {name by_ : String} {a : Association} :
    s.resolveAssociation name by_ = .ok a ↔ s.findAssociation? (s.localName name) = some a := by
  unfold resolveAssociation orUnresolved
  split <;> simp_all

end Schema

/-! ### Roles -/

namespace Association

/-- The first end that plays a role. -/
def findEnd (a : Association) (role : String) : Except UnresolvedReference AssociationEnd :=
  orUnresolved .role role a.name (a.ends.find? fun e => e.role == role)

/-- The end across from the first one that plays a role. -/
def oppositeEnd (a : Association) (role : String) : Except UnresolvedReference AssociationEnd :=
  if a.first.role = role then .ok a.second
  else if a.second.role = role then .ok a.first
  else .error ⟨.role, role, a.name⟩

/-- The half of the referential constraint that a role takes part with, the principal one first. -/
def half? (a : Association) (role : String) : Option ConstraintHalf :=
  a.constraint.bind fun c => c.halves.find? fun h => h.role == role

/-- The foreign key of the navigation that leaves from a role: the first property of its half. -/
def foreignKey? (a : Association) (role : String) : Option String :=
  (a.half? role).bind fun h => h.properties.head?

end Association

/-! ### Keys -/

namespace EntityType

/-- Whether a property of the given name is the one and only key property. -/
def isSoleKey (t : EntityType) (name : String) : Bool := t.key == some [name]

end EntityType

/-! ### Navigation -/

/-- A navigation property by the entity type that owns it and its name. -/
structure NavigationReference where
  owner : String
  property : String
deriving DecidableEq, Repr

namespace Schema

/-- Whether a navigation property follows the given association from one role to the other. -/
def follows (s : Schema) (n : NavigationProperty) (association fromRole toRole : String) : Bool :=
  n.fromRole == fromRole && n.toRole == toRole && s.localName n.relationship == association

/-- The navigation property that leads back from the end that plays `toRole`: the first one of its
    entity type that follows the association the other way, if there is one. -/
def inverseNavigation (s : Schema) (a : Association) (toRole : String) :
    Except UnresolvedReference (Option NavigationReference) := do
  let targetEnd ← a.findEnd toRole
  let opposite ← a.oppositeEnd toRole
  let target ← s.resolveEntityType targetEnd.typeName a.name
  let inverse := target.navigationProperties.find? fun n =>
    s.follows n a.name toRole opposite.role
  .ok (inverse.map fun n => ⟨target.name, n.name⟩)

end Schema

end EntityModel
