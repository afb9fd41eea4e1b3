import EntityModel.Schema.Inheritance
import EntityModel.Schema.Uniqueness
import EntityModel.Text.Identifier

/-! # The rules of a schema

A schema is checked against its rules once it has been read: names are unique, association roles are
distinct and known, keys name properties, inheritance has no cycles and names are identifiers.
Whether type and association references lead anywhere is not checked here.

* `associationFaults`   roles of one association
* `nameFaults`          names that are no identifiers
* `validate`            all faults, rule by rule -/

namespace EntityModel

/-! ### Roles -/

/-- Both ends of an association play one role. -/
def sameRoleFaults (a : Association) (spans : AssociationSpans) : List Fault :=
  if a.first.role = a.second.role then
    [.duplicateRole a.name a.first.role (spans.ends[1]?.getD spans.span)]
  else []

/-- A half of a constraint plays a role that no end has. -/
def unknownRoleFaults (a : Association) (half : ConstraintHalf) (span : Span) : List Fault :=
  if a.ends.any (fun e => e.role == half.role) then []
  else [.unknownRole a.name half.role a.first.role a.second.role span]

/-- The faults in the roles of one association. -/
def associationFaults (a : Association) (spans : AssociationSpans) : List Fault :=
  sameRoleFaults a spans ++
    match a.constraint with
    | none => []
    | some c =>
      unknownRoleFaults a c.principal (spans.principal.getD spans.span) ++
        unknownRoleFaults a c.dependent (spans.dependent.getD spans.span)

private theorem eq_of_mem_sameRoleFaults {a : Association} {spans : AssociationSpans} {f : Fault}
    (h : f ∈ sameRoleFaults a spans) :
    f = .duplicateRole a.name a.first.role (spans.ends[1]?.getD spans.span) := by
  unfold sameRoleFaults at h
  split at h
  · exact List.mem_singleton.mp h
  · exact absurd h List.not_mem_nil

theorem eq_of_mem_unknownRoleFaults {a : Association} {half : ConstraintHalf} {span : Span}
    {f : Fault} (h : f ∈ unknownRoleFaults a half span) :
    f = .unknownRole a.name half.role a.first.role a.second.role span := by
  unfold unknownRoleFaults at h
  split at h
  · exact absurd h List.not_mem_nil
  · exact List.mem_singleton.mp h

/-- The roles of an association are at fault in its ends or in one of the halves of its
    constraint. -/
theorem cases_of_mem_associationFaults {a : Association} {spans : AssociationSpans} {f : Fault}
    (h : f ∈ associationFaults a spans) :
    f = .duplicateRole a.name a.first.role (spans.ends[1]?.getD spans.span) ∨
      ∃ role, f = .unknownRole a.name role a.first.role a.second.role
          (spans.principal.getD spans.span) ∨
        f = .unknownRole a.name role a.first.role a.second.role
          (spans.dependent.getD spans.span) := by
  rcases List.mem_append.mp h with h | h
  · exact .inl (eq_of_mem_sameRoleFaults h)
  · split at h
    · exact absurd h List.not_mem_nil
    · rename_i c _
      rcases List.mem_append.mp h with h | h
      · exact .inr ⟨c.principal.role, .inl (eq_of_mem_unknownRoleFaults h)⟩
      · exact .inr ⟨c.dependent.role, .inr (eq_of_mem_unknownRoleFaults h)⟩

/-- The faults in the roles of all associations. -/
def roleFaults (s : Schema) (m : SourceMap) : List Fault :=
  (s.associations.zip m.associations).flatMap fun (a, spans) => associationFaults a spans

/-! ### Identifiers -/

/-- A name with its kind and its place. -/
structure NamedPlace where
  kind : NameKind
  name : String
  span : Span
deriving DecidableEq, Repr

/-- Names of one kind, paired with their places. -/
def places (kind : NameKind) (names : List String) (spans : List Span) : List NamedPlace :=
  (names.zip spans).map fun (name, span) => ⟨kind, name, span⟩

/-- The names of an enum type and its members. -/
def enumPlaces (t : EnumType) (spans : EnumSpans) : List NamedPlace :=
  ⟨.enumType, t.name, spans.span⟩ :: places .enumMember (t.members.map (·.name)) spans.members

/-- The names of a complex type and its properties. -/
def complexPlaces (t : ComplexType) (spans : TypeSpans) : List NamedPlace :=
  ⟨.type, t.name, spans.span⟩ :: places .property (t.properties.map (·.name)) spans.properties

/-- The names of an entity type, its properties and its navigation properties. -/
def entityPlaces (t : EntityType) (spans : TypeSpans) : List NamedPlace :=
  ⟨.type, t.name, spans.span⟩ :: places .property (t.properties.map (·.name)) spans.properties ++
    places .navigationProperty (t.navigationProperties.map (·.name)) spans.navigationProperties

/-- The names of an association and the roles of its ends. -/
def associationPlaces (a : Association) (spans : AssociationSpans) : List NamedPlace :=
  ⟨.association, a.name, spans.span⟩ :: places .role (a.ends.map (·.role)) spans.ends

/-- The names of an entity container and its sets, which share the place of the container. -/
def containerPlaces (c : EntityContainer) (span : Span) : List NamedPlace :=
  ⟨.entityContainer, c.name, span⟩ :: c.entitySets.map fun e => ⟨.entitySet, e.name, span⟩

/-- Every name that must be an identifier. -/
def namedPlaces (s : Schema) (m : SourceMap) : List NamedPlace :=
  ((s.enumTypes.zip m.enumTypes).flatMap fun (t, spans) => enumPlaces t spans) ++
    ((s.complexTypes.zip m.complexTypes).flatMap fun (t, spans) => complexPlaces t spans) ++
    ((s.entityTypes.zip m.entityTypes).flatMap fun (t, spans) => entityPlaces t spans) ++
    ((s.associations.zip m.associations).flatMap fun (a, spans) => associationPlaces a spans) ++
    ((s.entityContainers.zip m.entityContainers).flatMap fun (c, span) => containerPlaces c span)

/-- Names that are no identifiers. -/
def nameFaults (s : Schema) (m : SourceMap) : List Fault :=
  ((namedPlaces s m).filter fun p => !Text.isIdentifier p.name).map fun p =>
    .invalidName p.kind p.name p.span

/-! ### All rules -/

/-- Every fault of a schema, rule by rule. -/
def validate (s : Schema) (m : SourceMap) : List Fault :=
  declarationFaults s m ++ memberFaults s m ++ roleFaults s m ++ keyFaults s m ++
    enumMemberFaults s m ++ inheritanceFaults s m ++ nameFaults s m

end EntityModel
