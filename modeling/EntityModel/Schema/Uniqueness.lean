import EntityModel.Schema.Basic
import EntityModel.Schema.Fault
import EntityModel.Schema.SourceMap

/-! # Names that must be unique

Within each group of names the first occurrence stands and every later one of the same name is
reported, together with the first.  Types of all three kinds are one group; associations, containers
and the members of each type are groups of their own.

* `repeated_eq_nil_iff`    nothing is reported exactly when the names are pairwise distinct
* `declarationFaults`, `memberFaults`, `enumMemberFaults`   the faults of all groups -/

namespace EntityModel

/-- A name that occurred before, where it stands and where it stood first. -/
structure Repetition where
  name : String
  span : Span
  first : Span
deriving DecidableEq, Repr

/-- The repetitions in a list of names, given what was seen before it. -/
def repeatedAfter (seen : List (String × Span)) : List (String × Span) → List Repetition
  | [] => []
  | (name, span) :: rest =>
    match seen.lookup name with
    | some first => ⟨name, span, first⟩ :: repeatedAfter seen rest
    | none => repeatedAfter (seen ++ [(name, span)]) rest

/-- The repetitions in a list of names. -/
def repeated (names : List (String × Span)) : List Repetition := repeatedAfter [] names

/-- A name has not been seen exactly when it is none of those seen. -/
theorem lookup_eq_none_iff_not_mem {seen : List (String × Span)} {name : String} :
    seen.lookup name = none ↔ name ∉ seen.map (·.1) := by
  simp only [List.lookup_eq_none_iff, bne_iff_ne, ne_eq, List.mem_map, not_exists, not_and]
  exact forall₂_congr fun _ _ => not_congr eq_comm

/-- Nothing is repeated exactly when the names differ from each other and from those seen. -/
theorem repeatedAfter_eq_nil_iff {seen names : List (String × Span)} :
    repeatedAfter seen names = [] ↔
      (names.map (·.1)).Nodup ∧ ∀ n ∈ names.map (·.1), n ∉ seen.map (·.1) := by
  induction names generalizing seen with
  | nil => simp [repeatedAfter]
  | cons p rest ih =>
    obtain ⟨name, span⟩ := p
    simp only [repeatedAfter, List.map_cons, List.nodup_cons, List.mem_cons, forall_eq_or_imp]
    split
    · rename_i first h
      have hm : name ∈ seen.map (·.1) := by
        refine Decidable.byContradiction fun hn => ?_
        rw [lookup_eq_none_iff_not_mem.mpr hn] at h
        simp at h
      simp [hm]
    · rename_i h
      rw [ih]
      have hm := lookup_eq_none_iff_not_mem.mp h
      constructor
      · rintro ⟨hn, hall⟩
        refine ⟨⟨fun hmem => ?_, hn⟩, hm, fun n hmem hseen => ?_⟩
        · exact hall name hmem (by simp)
        · exact hall n hmem (by simp [hseen])
      · rintro ⟨⟨hnm, hn⟩, -, hall⟩
        refine ⟨hn, fun n hmem => ?_⟩
        simp only [List.map_append, List.map_cons, List.map_nil, List.mem_append,
          List.mem_singleton, not_or]
        exact ⟨hall n hmem, fun heq => hnm (heq ▸ hmem)⟩

/-- Nothing is reported exactly when the names are pairwise distinct. -/
theorem repeated_eq_nil_iff {names : List (String × Span)} :
    repeated names = [] ↔ (names.map (·.1)).Nodup := by
  simp [repeated, repeatedAfter_eq_nil_iff]

/-! ### The groups of names -/

/-- The names of all types: entity types, complex types, enum types. -/
def typeNames (s : Schema) (m : SourceMap) : List (String × Span) :=
  (s.entityTypes.map (·.name)).zip (m.entityTypes.map (·.span)) ++
    (s.complexTypes.map (·.name)).zip (m.complexTypes.map (·.span)) ++
    (s.enumTypes.map (·.name)).zip (m.enumTypes.map (·.span))

/-- The names of the associations. -/
def associationNames (s : Schema) (m : SourceMap) : List (String × Span) :=
  (s.associations.map (·.name)).zip (m.associations.map (·.span))

/-- The names of the entity containers. -/
def containerNames (s : Schema) (m : SourceMap) : List (String × Span) :=
  (s.entityContainers.map (·.name)).zip m.entityContainers

/-- The names of the members of an entity type: scalar properties, then navigation properties. -/
def entityMemberNames (t : EntityType) (spans : TypeSpans) : List (String × Span) :=
  (t.properties.map (·.name)).zip spans.properties ++
    (t.navigationProperties.map (·.name)).zip spans.navigationProperties

/-- The names of the members of a complex type. -/
def complexMemberNames (t : ComplexType) (spans : TypeSpans) : List (String × Span) :=
  (t.properties.map (·.name)).zip spans.properties

/-- The names of the members of an enum type. -/
def enumMemberNames (t : EnumType) (spans : EnumSpans) : List (String × Span) :=
  (t.members.map (·.name)).zip spans.members

/-! ### The faults of each group -/

/-- The faults of a group of declarations. -/
def duplicateDeclarations (kind : DeclarationKind) (names : List (String × Span)) : List Fault :=
  (repeated names).map fun r => .duplicateDeclaration kind r.name r.span r.first

/-- The faults of the members of a type. -/
def duplicateMembers (owner : String) (names : List (String × Span)) : List Fault :=
  (repeated names).map fun r => .duplicateMember owner r.name r.span r.first

/-- The faults of the members of an enum. -/
def duplicateEnumMembers (owner : String) (names : List (String × Span)) : List Fault :=
  (repeated names).map fun r => .duplicateEnumMember owner r.name r.span r.first

/-- Declarations with the name of an earlier one. -/
def declarationFaults (s : Schema) (m : SourceMap) : List Fault :=
  duplicateDeclarations .type (typeNames s m) ++
    duplicateDeclarations .association (associationNames s m) ++
    duplicateDeclarations .entityContainer (containerNames s m)

/-- Members of entity and complex types with the name of an earlier one. -/
def memberFaults (s : Schema) (m : SourceMap) : List Fault :=
  ((s.entityTypes.zip m.entityTypes).flatMap fun (t, spans) =>
    duplicateMembers t.name (entityMemberNames t spans)) ++
  ((s.complexTypes.zip m.complexTypes).flatMap fun (t, spans) =>
    duplicateMembers t.name (complexMemberNames t spans))

/-- Enum members with the name of an earlier one. -/
def enumMemberFaults (s : Schema) (m : SourceMap) : List Fault :=
  (s.enumTypes.zip m.enumTypes).flatMap fun (t, spans) =>
    duplicateEnumMembers t.name (enumMemberNames t spans)

end EntityModel
