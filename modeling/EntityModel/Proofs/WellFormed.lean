import EntityModel.Model
import EntityModel.Proofs.BaseTypes
import EntityModel.Proofs.Places

/-!
# Well-formed schemas

`Schema.WellFormed` states the rules of a schema without a source map, a table of what was seen or a
walk.  Along a parallel source map each check finds nothing exactly when its rule holds.  Only the
check of keys depends on another rule: which type a name stands for is settled by the names being
distinct.

* `faults_eq_nil_iff`          no fault is found exactly when the schema is well-formed
* `validate_read_eq_nil_iff`   the same for everything that is read from an element
* `wellFormed_of_parse`        a document that is accepted has a well-formed schema
-/

namespace EntityModel

namespace Schema

/-- Every name that the schema declares. -/
def declaredNames (s : Schema) : List String :=
  (s.enumTypes.flatMap fun t => t.name :: t.members.map (·.name)) ++
    (s.complexTypes.flatMap fun t => t.name :: t.properties.map (·.name)) ++
    (s.entityTypes.flatMap fun t =>
      t.name :: (t.properties.map (·.name) ++ t.navigationProperties.map (·.name))) ++
    (s.associations.flatMap fun a => a.name :: a.ends.map (·.role)) ++
    (s.entityContainers.flatMap fun c => c.name :: c.entitySets.map (·.name))

/-- The rules of a schema. -/
structure WellFormed (s : Schema) : Prop where
  typeNames : (s.entityNames ++ s.complexTypes.map (·.name) ++ s.enumTypes.map (·.name)).Nodup
  associationNames : (s.associations.map (·.name)).Nodup
  containerNames : (s.entityContainers.map (·.name)).Nodup
  entityMembers : ∀ t ∈ s.entityTypes,
    (t.properties.map (·.name) ++ t.navigationProperties.map (·.name)).Nodup
  complexMembers : ∀ t ∈ s.complexTypes, (t.properties.map (·.name)).Nodup
  enumMembers : ∀ t ∈ s.enumTypes, (t.members.map (·.name)).Nodup
  /-- The ends of an association play different roles. -/
  roles : ∀ a ∈ s.associations, a.first.role ≠ a.second.role
  /-- Each half of a constraint is about an end of its association. -/
  constraintRoles : ∀ a ∈ s.associations, ∀ c ∈ a.constraint, ∀ h ∈ c.halves,
    ∃ x ∈ a.ends, x.role = h.role
  /-- Keys are made of properties of the type and of its ancestors. -/
  keys : ∀ t ∈ s.entityTypes, ∀ k ∈ t.key.getD [],
    ∃ b, s.Inherits t b ∧ b.declares k = true
  /-- No entity type is its own ancestor. -/
  acyclic : ∀ t ∈ s.entityTypes, ¬ Relation.TransGen s.IsBase t t
  identifiers : ∀ n ∈ s.declaredNames, Text.isIdentifier n = true

end Schema

/-! ### Names that are distinct -/

/-- A group of declarations has no fault exactly when its names are distinct. -/
theorem duplicateDeclarations_eq_nil_iff {kind : DeclarationKind} {names : List (String × Span)} :
    duplicateDeclarations kind names = [] ↔ (names.map (·.1)).Nodup := by
  rw [duplicateDeclarations, List.map_eq_nil_iff, repeated_eq_nil_iff]

section

variable {s : Schema} {m : SourceMap}

/-- No declaration is repeated exactly when the names of each group are distinct. -/
private theorem declarationFaults_eq_nil_iff (hm : m.Parallel s) :
    declarationFaults s m = [] ↔
      (s.entityNames ++ s.complexTypes.map (·.name) ++ s.enumTypes.map (·.name)).Nodup ∧
        (s.associations.map (·.name)).Nodup ∧ (s.entityContainers.map (·.name)).Nodup := by
  -- every type has a place, so no name is left out of the check
  have htypes : (typeNames s m).map (·.1) =
      s.entityNames ++ s.complexTypes.map (·.name) ++ s.enumTypes.map (·.name) := by
    unfold typeNames
    rw [List.map_append, List.map_append, map_fst_zip_names, map_fst_zip_names, map_fst_zip_names]
    · rfl
    · rw [List.length_map, hm.enumTypes.length_eq]
    · rw [List.length_map, hm.complexTypes.length_eq]
    · rw [List.length_map, hm.entityTypes.length_eq]
  have hassociations : (associationNames s m).map (·.1) = s.associations.map (·.name) :=
    map_fst_zip_names (by rw [List.length_map, hm.associations.length_eq])
  have hcontainers : (containerNames s m).map (·.1) = s.entityContainers.map (·.name) :=
    map_fst_zip_names (by rw [hm.entityContainers])
  unfold declarationFaults
  rw [List.append_eq_nil_iff, List.append_eq_nil_iff, duplicateDeclarations_eq_nil_iff,
    duplicateDeclarations_eq_nil_iff, duplicateDeclarations_eq_nil_iff, htypes, hassociations,
    hcontainers, and_assoc]

/-- No member is repeated exactly when the names of the members of each type are distinct. -/
private theorem memberFaults_eq_nil_iff (hm : m.Parallel s) :
    memberFaults s m = [] ↔
      (∀ t ∈ s.entityTypes,
        (t.properties.map (·.name) ++ t.navigationProperties.map (·.name)).Nodup) ∧
      ∀ t ∈ s.complexTypes, (t.properties.map (·.name)).Nodup := by
  unfold memberFaults
  rw [List.append_eq_nil_iff]
  -- scalar and navigation properties share their names
  refine and_congr (flatMap_zip_eq_nil_iff hm.entityTypes ?_)
    (flatMap_zip_eq_nil_iff hm.complexTypes ?_)
  · intro t p hp
    show duplicateMembers t.name (entityMemberNames t p) = [] ↔ _
    rw [duplicateMembers, List.map_eq_nil_iff, repeated_eq_nil_iff, entityMemberNames,
      List.map_append, map_fst_zip_names (Nat.le_of_eq hp.1),
      map_fst_zip_names (Nat.le_of_eq hp.2)]
  · intro t p hp
    show duplicateMembers t.name (complexMemberNames t p) = [] ↔ _
    rw [duplicateMembers, List.map_eq_nil_iff, repeated_eq_nil_iff, complexMemberNames,
      map_fst_zip_names (Nat.le_of_eq hp)]

/-- No enum member is repeated exactly when the names of the members of each enum are distinct. -/
private theorem enumMemberFaults_eq_nil_iff (hm : m.Parallel s) :
    enumMemberFaults s m = [] ↔ ∀ t ∈ s.enumTypes, (t.members.map (·.name)).Nodup := by
  refine flatMap_zip_eq_nil_iff hm.enumTypes fun t p hp => ?_
  show duplicateEnumMembers t.name (enumMemberNames t p) = [] ↔ _
  rw [duplicateEnumMembers, List.map_eq_nil_iff, repeated_eq_nil_iff, enumMemberNames,
    map_fst_zip_names (Nat.le_of_eq hp)]

/-! ### Roles, keys and identifiers -/

/-- Roles have no fault exactly when they differ. -/
private theorem sameRoleFaults_eq_nil_iff {a : Association} {p : AssociationSpans} :
    sameRoleFaults a p = [] ↔ a.first.role ≠ a.second.role := by
  unfold sameRoleFaults
  split <;> simp_all

/-- A half of a constraint has no fault exactly when it is about an end. -/
private theorem unknownRoleFaults_eq_nil_iff {a : Association} {half : ConstraintHalf}
    {span : Span} : unknownRoleFaults a half span = [] ↔ ∃ x ∈ a.ends, x.role = half.role := by
  unfold unknownRoleFaults
  split
  · rename_i h
    simpa using h
  · rename_i h
    simpa using h

/-- An association has no fault exactly when its roles differ and its constraint uses only them. -/
private theorem associationFaults_eq_nil_iff {a : Association} {p : AssociationSpans} :
    associationFaults a p = [] ↔
      a.first.role ≠ a.second.role ∧
        ∀ c ∈ a.constraint, ∀ h ∈ c.halves, ∃ x ∈ a.ends, x.role = h.role := by
  unfold associationFaults
  rw [List.append_eq_nil_iff, sameRoleFaults_eq_nil_iff]
  refine and_congr_right fun _ => ?_
  cases a.constraint with
  | none => simp
  | some c =>
    simp only [List.append_eq_nil_iff, unknownRoleFaults_eq_nil_iff, Option.mem_some_iff,
      forall_eq', ReferentialConstraint.halves, List.forall_mem_cons, List.not_mem_nil,
      false_implies, implies_true, and_true]

/-- No association has a fault exactly when every one keeps the rules for roles. -/
private theorem roleFaults_eq_nil_iff (hm : m.Parallel s) :
    roleFaults s m = [] ↔
      ∀ a ∈ s.associations, a.first.role ≠ a.second.role ∧
        ∀ c ∈ a.constraint, ∀ h ∈ c.halves, ∃ x ∈ a.ends, x.role = h.role :=
  flatMap_zip_eq_nil_iff hm.associations fun _ _ _ => associationFaults_eq_nil_iff

/-- Where names are distinct, no key has a fault exactly when each names a property of the type or
    of one of its ancestors. -/
theorem keyFaults_eq_nil_iff (hm : m.Parallel s) (hn : s.entityNames.Nodup) :
    keyFaults s m = [] ↔
      ∀ t ∈ s.entityTypes, ∀ k ∈ t.key.getD [], ∃ b, s.Inherits t b ∧ b.declares k = true := by
  -- the check of a key asks for declarations along base types
  have hzip : keyFaults s m = [] ↔
      ∀ t ∈ s.entityTypes, ∀ k ∈ t.key.getD [], s.ancestorDeclares t k = true := by
    refine flatMap_zip_eq_nil_iff hm.entityTypes fun t p _ => ?_
    rw [List.map_eq_nil_iff, List.filter_eq_nil_iff]
    exact forall₂_congr fun k _ => by simp
  rw [hzip]
  exact forall₂_congr fun t ht => forall₂_congr fun k _ => Schema.ancestorDeclares_iff hn ht

/-- The names that have places are all the names. -/
private theorem map_name_places {kind : NameKind} {names : List String} {spans : List Span}
    (h : names.length ≤ spans.length) : (places kind names spans).map (·.name) = names := by
  unfold places
  rw [List.map_map]
  exact List.map_fst_zip h

/-- The names that are checked are all that the schema declares. -/
private theorem map_name_namedPlaces (hm : m.Parallel s) :
    (namedPlaces s m).map (·.name) = s.declaredNames := by
  unfold namedPlaces Schema.declaredNames
  rw [List.map_append, List.map_append, List.map_append, List.map_append, List.map_flatMap,
    List.map_flatMap, List.map_flatMap, List.map_flatMap, List.map_flatMap]
  -- each kind of declaration by itself, its members along the places of the members
  congr 1; congr 1; congr 1; congr 1
  · refine flatMap_zip_eq_flatMap hm.enumTypes fun t p hp => ?_
    show t.name :: (places _ _ _).map (·.name) = _
    rw [map_name_places (by rw [List.length_map]; exact Nat.le_of_eq hp)]
  · refine flatMap_zip_eq_flatMap hm.complexTypes fun t p hp => ?_
    show t.name :: (places _ _ _).map (·.name) = _
    rw [map_name_places (by rw [List.length_map]; exact Nat.le_of_eq hp)]
  · refine flatMap_zip_eq_flatMap hm.entityTypes fun t p hp => ?_
    show t.name :: (places _ _ _ ++ places _ _ _).map (·.name) = _
    rw [List.map_append, map_name_places (by rw [List.length_map]; exact Nat.le_of_eq hp.1),
      map_name_places (by rw [List.length_map]; exact Nat.le_of_eq hp.2)]
  · refine flatMap_zip_eq_flatMap hm.associations fun a p hp => ?_
    show a.name :: (places _ _ _).map (·.name) = _
    rw [map_name_places (by rw [List.length_map]; exact hp)]
  · have hpairs : List.Forall₂ (fun _ _ => True) s.entityContainers m.entityContainers :=
      List.forall₂_iff_zip.mpr ⟨hm.entityContainers, fun _ => True.intro⟩
    refine flatMap_zip_eq_flatMap hpairs fun c p _ => ?_
    show c.name :: (c.entitySets.map _).map NamedPlace.name = _
    rw [List.map_map]
    rfl

/-- No name has a fault exactly when each name that the schema declares is an identifier. -/
private theorem nameFaults_eq_nil_iff (hm : m.Parallel s) :
    nameFaults s m = [] ↔ ∀ n ∈ s.declaredNames, Text.isIdentifier n = true := by
  rw [← map_name_namedPlaces hm, List.forall_mem_map, nameFaults, List.map_eq_nil_iff,
    List.filter_eq_nil_iff]
  exact forall₂_congr fun p _ => by simp

/-! ### All rules -/

/-- Along a parallel source map, no fault is found exactly when the schema is well-formed. -/
theorem faults_eq_nil_iff (hm : m.Parallel s) : validate s m = [] ↔ s.WellFormed := by
  unfold validate
  simp only [List.append_eq_nil_iff, and_assoc]
  rw [declarationFaults_eq_nil_iff hm, memberFaults_eq_nil_iff hm, roleFaults_eq_nil_iff hm,
    enumMemberFaults_eq_nil_iff hm, nameFaults_eq_nil_iff hm,
    inheritanceFaults_eq_nil_iff hm.entityTypes.length_eq.symm]
  constructor
  -- both checks along base types are understood only once the names are known to be distinct
  · rintro ⟨⟨htypes, hassociations, hcontainers⟩, ⟨hentity, hcomplex⟩, hroles, hkeys, henum,
      hcycles, hnames⟩
    have hn : s.entityNames.Nodup := htypes.of_append_left.of_append_left
    exact {
      typeNames := htypes
      associationNames := hassociations
      containerNames := hcontainers
      entityMembers := hentity
      complexMembers := hcomplex
      enumMembers := henum
      roles := fun a ha => (hroles a ha).1
      constraintRoles := fun a ha => (hroles a ha).2
      keys := (keyFaults_eq_nil_iff hm hn).mp hkeys
      acyclic := (Schema.inheritanceCycles_eq_nil_iff hn).mp hcycles
      identifiers := hnames }
  · intro h
    have hn : s.entityNames.Nodup := h.typeNames.of_append_left.of_append_left
    exact ⟨⟨h.typeNames, h.associationNames, h.containerNames⟩,
      ⟨h.entityMembers, h.complexMembers⟩,
      fun a ha => ⟨h.roles a ha, h.constraintRoles a ha⟩,
      (keyFaults_eq_nil_iff hm hn).mpr h.keys, h.enumMembers,
      (Schema.inheritanceCycles_eq_nil_iff hn).mpr h.acyclic, h.identifiers⟩

end

/-- The rules find no fault in what is read from an element exactly when the schema that is read is
    well-formed. -/
theorem validate_read_eq_nil_iff (e : Markup.Element) :
    validate (Schema.read e).value.1 (Schema.read e).value.2 = [] ↔
      (Schema.read e).value.1.WellFormed :=
  faults_eq_nil_iff (parallel_read e)

/-- A document that is accepted has a well-formed schema. -/
theorem wellFormed_of_parse {source : String} {s : Schema} (h : Model.parse source = .ok s) :
    s.WellFormed := by
  obtain ⟨e, -, hfaults, rfl⟩ := Model.parse_eq_ok_iff.mp h
  rw [Model.faultsOf_eq, List.append_eq_nil_iff] at hfaults
  exact (faults_eq_nil_iff (parallel_read e)).mp hfaults.2

end EntityModel
