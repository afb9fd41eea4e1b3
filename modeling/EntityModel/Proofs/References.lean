import EntityModel.Generation.File
import EntityModel.Proofs.FirstFailure

/-!
# The references that generation follows

`Schema.references` lists every reference that generation follows, in the order in which it does.
What comes after a reference may depend on what that leads to: the roles of a navigation property
are those of the association that is found.  Generation fails as the first of them that leads
nowhere, and the way back along a navigation property never adds a failure of its own.

* `exists_inverseNavigation`        the way back is found wherever the way there is
* `failure?_generate`               generation fails as its first failing reference does
* `linked_iff`                      when every reference leads somewhere
* `generate_follows_references`     when generation succeeds, and how it fails
-/

namespace EntityModel

/-! ### References -/

/-- A reference that generation follows, by what it has to lead to, with the declaration that it
    belongs to. -/
inductive Reference where
  | propertyType (name owner : String)
  | entityType (name owner : String)
  | association (name owner : String)
  | role (a : Association) (name : String)

namespace Schema

/-- The name is that of a built-in type, qualified or not, or after its qualifier has been taken off
    that of a declared type. -/
def NamesPropertyType (s : Schema) (name : String) : Prop :=
  (∃ p : Primitive, name = p.text ∨ name = "Edm." ++ p.text) ∨
    (∃ t ∈ s.entityTypes, t.name = s.localName name) ∨
    (∃ t ∈ s.complexTypes, t.name = s.localName name) ∨
    ∃ t ∈ s.enumTypes, t.name = s.localName name

/-- The name is that of an entity type after its qualifier has been taken off. -/
def NamesEntityType (s : Schema) (name : String) : Prop :=
  ∃ t ∈ s.entityTypes, t.name = s.localName name

end Schema

namespace Reference

/-- The reference leads to what it has to. -/
def Resolves (s : Schema) : Reference → Prop
  | propertyType name _ => s.NamesPropertyType name
  | entityType name _ => s.NamesEntityType name
  | association name _ => ∃ a ∈ s.associations, a.name = s.localName name
  | role a name => ∃ x ∈ a.ends, x.role = name

/-- What is reported where the reference leads nowhere.  Roles are blamed on their association. -/
def unresolved : Reference → UnresolvedReference
  | propertyType name owner => ⟨.type, name, owner⟩
  | entityType name owner => ⟨.entityType, name, owner⟩
  | association name owner => ⟨.association, name, owner⟩
  | role a name => ⟨.role, name, a.name⟩

/-- How following the reference fails, if it does. -/
def failure? (s : Schema) : Reference → Option UnresolvedReference
  | propertyType name owner => EntityModel.failure? (CSharp.mapType s name owner)
  | entityType name owner => EntityModel.failure? (s.resolveEntityType name owner)
  | association name owner => EntityModel.failure? (s.resolveAssociation name owner)
  | role a name => EntityModel.failure? (a.findEnd name)

end Reference

/-! ### Following one reference -/

/-- A look-up fails exactly where it finds nothing. -/
private theorem failure?_orUnresolved_eq_none_iff {α : Type} {kind : ReferenceKind}
    {name owner : String}
    {o : Option α} : failure? (orUnresolved kind name owner o) = none ↔ o.isSome = true := by
  cases o <;> simp [orUnresolved]

/-- A look-up that fails is reported with the kind, the name and the owner it was made for. -/
private theorem eq_of_failure?_orUnresolved {α : Type} {kind : ReferenceKind} {name owner : String}
    {o : Option α} {u : UnresolvedReference}
    (h : failure? (orUnresolved kind name owner o) = some u) : u = ⟨kind, name, owner⟩ := by
  cases o with
  | none => exact (Option.some.inj h).symm
  | some a => exact nomatch h

/-- The built-in types are read from their names, qualified or not. -/
private theorem isSome_primitiveRead?_iff {name : String} :
    (Primitive.read? name).isSome = true ↔
      ∃ p : Primitive, name = p.text ∨ name = "Edm." ++ p.text := by
  -- none of the built-in names begins with the qualifier, so taking it off once is enough
  have hqualified : ∀ p : Primitive,
      unqualifiedBuiltin ("Edm." ++ p.text) = p.text ∧ unqualifiedBuiltin p.text = p.text :=
    fun p => by cases p <;> exact ⟨rfl, rfl⟩
  constructor
  · intro h
    obtain ⟨p, hp⟩ := Option.isSome_iff_exists.mp h
    have htext : p.text = unqualifiedBuiltin name := by simpa using List.find?_some hp
    refine ⟨p, ?_⟩
    rw [htext]
    unfold unqualifiedBuiltin
    cases hstrip : Text.stripStart? builtinQualifier name.toList with
    | none => exact .inl rfl
    | some rest =>
      refine .inr (String.ext ?_)
      rw [Text.stripStart?_eq_some_iff.mp hstrip]
      simp [builtinQualifier]
  · rintro ⟨p, rfl | rfl⟩
    · rw [Primitive.read?_text]
      rfl
    · have hread : Primitive.read? ("Edm." ++ p.text) = Primitive.read? p.text := by
        unfold Primitive.read?
        rw [(hqualified p).1, (hqualified p).2]
      rw [hread, Primitive.read?_text]
      rfl

/-- A type of the name is found exactly where there is an entity type, a complex type or an enum
    type of it. -/
private theorem isSome_findType?_iff {s : Schema} {name : String} :
    (s.findType? name).isSome = true ↔
      (∃ t ∈ s.entityTypes, t.name = name) ∨ (∃ t ∈ s.complexTypes, t.name = name) ∨
        ∃ t ∈ s.enumTypes, t.name = name := by
  simp [Schema.findType?, Option.isSome_or]

/-- Entity types come first among the types of one name, so no other type hides one. -/
private theorem isSome_findEntityType?_iff {s : Schema} {name : String} :
    ((s.findType? name).bind ResolvedType.entity?).isSome = true ↔
      ∃ t ∈ s.entityTypes, t.name = name := by
  unfold Schema.findType?
  cases hentity : s.entityTypes.find? fun t => t.name == name with
  | some t =>
    have ht : t.name = name := by simpa using List.find?_some hentity
    exact ⟨fun _ => ⟨t, List.mem_of_find?_eq_some hentity, ht⟩, fun _ => rfl⟩
  | none =>
    have hno : ∀ t ∈ s.entityTypes, t.name ≠ name := by
      simpa using List.find?_eq_none.mp hentity
    constructor
    -- without an entity type of the name the look-up gives another type or nothing
    · intro h
      cases hcomplex : s.complexTypes.find? fun t => t.name == name with
      | some t => simp [hcomplex, ResolvedType.entity?] at h
      | none =>
        cases henum : s.enumTypes.find? fun t => t.name == name with
        | some t => simp [hcomplex, henum, ResolvedType.entity?] at h
        | none => simp [hcomplex, henum] at h
    · rintro ⟨t, ht, hname⟩
      exact absurd hname (hno t ht)

/-- An association of the name is found exactly where there is one. -/
private theorem isSome_findAssociation?_iff {s : Schema} {name : String} :
    (s.findAssociation? name).isSome = true ↔ ∃ a ∈ s.associations, a.name = name := by
  simp [Schema.findAssociation?]

/-- An end is found exactly where one of the two plays the role. -/
private theorem failure?_findEnd_eq_none_iff {a : Association} {role : String} :
    failure? (a.findEnd role) = none ↔ ∃ x ∈ a.ends, x.role = role := by
  refine failure?_orUnresolved_eq_none_iff.trans ?_
  simp

/-- The end that is found is the first that plays the role. -/
theorem findEnd_eq_ok_iff {a : Association} {role : String} {x : AssociationEnd} :
    a.findEnd role = .ok x ↔ (a.ends.find? fun x => x.role == role) = some x := by
  unfold Association.findEnd orUnresolved
  cases a.ends.find? fun x => x.role == role <;> simp

namespace Reference

/-- Following a reference fails exactly where it leads nowhere. -/
theorem failure?_eq_none_iff {s : Schema} {r : Reference} :
    r.failure? s = none ↔ r.Resolves s := by
  cases r with
  | propertyType name owner =>
    show EntityModel.failure? (CSharp.mapType s name owner) = none ↔
      (∃ p : Primitive, name = p.text ∨ name = "Edm." ++ p.text) ∨ _
    -- a type that is no built-in one is looked up among those declared
    rw [← isSome_primitiveRead?_iff, ← isSome_findType?_iff]
    unfold CSharp.mapType
    cases hread : Primitive.read? name with
    | some p => simp
    | none =>
      dsimp only
      rw [failure?_map, Schema.resolveType, failure?_orUnresolved_eq_none_iff]
      simp
  | entityType name owner =>
    exact failure?_orUnresolved_eq_none_iff.trans isSome_findEntityType?_iff
  | association name owner =>
    exact failure?_orUnresolved_eq_none_iff.trans isSome_findAssociation?_iff
  | role a name => exact failure?_findEnd_eq_none_iff

/-- A failure is what is reported of the reference. -/
theorem eq_unresolved_of_failure? {s : Schema} {r : Reference} {u : UnresolvedReference}
    (h : r.failure? s = some u) : u = r.unresolved := by
  cases r with
  | propertyType name owner =>
    have hmap : EntityModel.failure? (CSharp.mapType s name owner) = some u := h
    unfold CSharp.mapType at hmap
    split at hmap
    · exact nomatch hmap
    · rw [failure?_map] at hmap
      exact eq_of_failure?_orUnresolved hmap
  | entityType name owner => exact eq_of_failure?_orUnresolved h
  | association name owner => exact eq_of_failure?_orUnresolved h
  | role a name => exact eq_of_failure?_orUnresolved h

/-- A reference that leads nowhere fails as it is reported. -/
theorem failure?_eq_some_iff {s : Schema} {r : Reference} {u : UnresolvedReference} :
    r.failure? s = some u ↔ ¬ r.Resolves s ∧ u = r.unresolved := by
  constructor
  · intro h
    refine ⟨fun hr => ?_, eq_unresolved_of_failure? h⟩
    rw [failure?_eq_none_iff.mpr hr] at h
    exact nomatch h
  · rintro ⟨hr, rfl⟩
    -- a reference either fails or leads somewhere, so only the report is left to compare
    cases h : r.failure? s with
    | none => exact absurd (failure?_eq_none_iff.mp h) hr
    | some u => rw [eq_unresolved_of_failure? h]

end Reference

/-! ### Navigation properties -/

/-- Where an end plays a role, there is one across from it. -/
private theorem exists_oppositeEnd {a : Association} {role : String} {x : AssociationEnd}
    (h : a.findEnd role = .ok x) : ∃ y, a.oppositeEnd role = .ok y := by
  have hrole : ∃ x ∈ a.ends, x.role = role :=
    failure?_findEnd_eq_none_iff.mp (failure?_eq_none_iff.mpr ⟨x, h⟩)
  unfold Association.oppositeEnd
  by_cases hfirst : a.first.role = role
  · exact ⟨a.second, if_pos hfirst⟩
  · by_cases hsecond : a.second.role = role
    · exact ⟨a.first, by rw [if_neg hfirst, if_pos hsecond]⟩
    -- neither end plays the role, but one that does was found
    · obtain ⟨x, hx, hname⟩ := hrole
      rcases List.mem_pair.mp hx with rfl | rfl
      · exact absurd hname hfirst
      · exact absurd hname hsecond

/-- The way back along an association is found wherever the way there is. -/
theorem exists_inverseNavigation {s : Schema} {a : Association} {toRole : String}
    {x : AssociationEnd} {t : EntityType} (hx : a.findEnd toRole = .ok x)
    (ht : s.resolveEntityType x.typeName a.name = .ok t) :
    ∃ i, s.inverseNavigation a toRole = .ok i := by
  obtain ⟨y, hy⟩ := exists_oppositeEnd hx
  rw [← failure?_eq_none_iff]
  unfold Schema.inverseNavigation
  -- the two ends and the entity type are all that the way back can fail at
  rw [failure?_bind_of_ok hx, failure?_bind_of_ok hy, failure?_bind_of_ok ht]
  rfl

/-- The references of a navigation property.  The roles are those of the association that it refers
    to, and the entity type is that of the far end. -/
def navigationReferences (s : Schema) (owner : String) (n : NavigationProperty) :
    List Reference :=
  .association n.relationship owner ::
    match s.findAssociation? (s.localName n.relationship) with
    | none => []
    | some a =>
      .role a n.toRole :: .role a n.fromRole ::
        match a.ends.find? fun x => x.role == n.toRole with
        | none => []
        | some x => [.entityType x.typeName a.name]

/-- A navigation property fails as the first of its references does. -/
private theorem failure?_resolveNavigation (s : Schema) (owner : String) (n : NavigationProperty) :
    failure? (Generation.resolveNavigation s owner n) =
      (navigationReferences s owner n).findSome? (Reference.failure? s) := by
  unfold Generation.resolveNavigation navigationReferences
  -- the look-ups in the order in which they are made; the first that fails ends both sides
  cases ha : s.resolveAssociation n.relationship owner with
  | error u =>
    show some u = _
    simp [Reference.failure?, ha]
  | ok a =>
    show failure? (a.findEnd n.toRole >>= _) = _
    rw [Schema.resolveAssociation_eq_ok_iff.mp ha]
    dsimp only
    cases hto : a.findEnd n.toRole with
    | error u =>
      show some u = _
      simp [Reference.failure?, ha, hto]
    | ok x =>
      show failure? (a.findEnd n.fromRole >>= _) = _
      rw [findEnd_eq_ok_iff.mp hto]
      cases hfrom : a.findEnd n.fromRole with
      | error u =>
        show some u = _
        simp [Reference.failure?, ha, hto, hfrom]
      | ok y =>
        show failure? (s.resolveEntityType x.typeName a.name >>= _) = _
        cases ht : s.resolveEntityType x.typeName a.name with
        | error u =>
          show some u = _
          simp [Reference.failure?, ha, hto, hfrom, ht]
        | ok t =>
          -- the references end here, but resolution goes on to the way back
          obtain ⟨i, hi⟩ := exists_inverseNavigation hto ht
          show failure? (s.inverseNavigation a n.toRole >>= _) = _
          rw [failure?_bind_of_ok hi]
          simp [Reference.failure?, ha, hto, hfrom, ht]

/-! ### Declarations -/

/-- Scalar properties fail as the first of their types does. -/
theorem failure?_properties (s : Schema) (owner : String) (isKey : Property → Bool)
    (ps : List Property) :
    failure? (ps.mapM fun p => (Generation.propertySteps s owner (isKey p) p).outcome) =
      (ps.map fun p => Reference.propertyType p.typeName owner).findSome?
        (Reference.failure? s) := by
  rw [failure?_mapM, List.findSome?_map]
  simp only [Generation.outcome_propertySteps, failure?_map]
  rfl

/-- Navigation properties fail as the first of their references does. -/
private theorem failure?_navigations (s : Schema) (collection : CollectionType) (lazyLoading : Bool)
    (owner : String) (ns : List NavigationProperty) :
    failure? (ns.mapM fun n =>
        (Generation.navigationSteps s collection lazyLoading owner n).outcome) =
      (ns.flatMap (navigationReferences s owner)).findSome? (Reference.failure? s) := by
  rw [failure?_mapM, findSome?_flatMap]
  simp only [Generation.outcome_navigationSteps, failure?_map, failure?_resolveNavigation]

/-- The base type of an entity type fails as the reference to it does. -/
private theorem failure?_resolveBase (s : Schema) (t : EntityType) :
    failure? (Generation.resolveBase s t) =
      (t.baseType.toList.map (Reference.entityType · t.name)).findSome?
        (Reference.failure? s) := by
  unfold Generation.resolveBase
  cases t.baseType with
  | none => rfl
  | some base =>
    dsimp only
    -- the look-up of the name is the only thing that fails here
    rw [failure?_map, Option.toList_some, List.map_singleton, List.findSome?_cons,
      List.findSome?_nil]
    cases h : s.resolveEntityType base t.name <;> simp [Reference.failure?, h]

/-- The references of a complex type: the types of its properties. -/
def ComplexType.references (t : ComplexType) : List Reference :=
  t.properties.map fun p => .propertyType p.typeName t.name

/-- The references of an entity container: the types of its sets. -/
def EntityContainer.references (c : EntityContainer) : List Reference :=
  c.entitySets.map fun set => .entityType set.entityType c.name

/-- The references of an entity type, in the order in which they are followed: its base type, the
    types of its properties, and those of its navigation properties. -/
def EntityType.references (s : Schema) (t : EntityType) : List Reference :=
  t.baseType.toList.map (.entityType · t.name) ++
    t.properties.map (fun p => .propertyType p.typeName t.name) ++
    t.navigationProperties.flatMap (navigationReferences s t.name)

/-- The references of a declaration. -/
def itemReferences (s : Schema) : Generation.Item → List Reference
  | .enumType _ => []
  | .complexType t => t.references
  | .entityContainer c => c.references
  | .entityType t => t.references s

/-- The body of a declaration fails as the first of its references does. -/
private theorem failure?_body (settings : Settings) (s : Schema) (item : Generation.Item) :
    failure? (Generation.body settings s item).outcome =
      (itemReferences s item).findSome? (Reference.failure? s) := by
  cases item with
  | enumType t =>
    show failure? (Generation.enumSteps t).outcome = none
    rw [Generation.outcome_enumSteps]
    rfl
  | complexType t =>
    show failure? (Generation.complexSteps settings s t).outcome = _
    rw [Generation.outcome_complexSteps, failure?_map]
    exact failure?_properties s t.name (fun _ => false) t.properties
  | entityContainer c =>
    show failure? (Generation.containerSteps settings s c).outcome = _
    rw [Generation.outcome_containerSteps, failure?_map, Generation.containerMembers,
      -- what an entity set adds to its look-up cannot fail
      failure?_mapM, itemReferences, EntityContainer.references, List.findSome?_map]
    simp only [failure?_map]
    rfl
  | entityType t =>
    show failure? (Generation.entitySteps settings s t).outcome = _
    rw [Generation.outcome_entitySteps, itemReferences, EntityType.references, List.findSome?_append,
      List.findSome?_append, Option.or_assoc, ← failure?_resolveBase,
      ← failure?_properties s t.name fun p => t.keyContains p.name,
      ← failure?_navigations s settings.collectionType (Generation.loadsLazily settings s)]
    -- no part asks for the values of the parts before it, only that they are there
    refine failure?_bind fun base _ => failure?_bind fun properties _ => ?_
    rw [failure?_bind (o := none) fun _ _ => rfl, Option.or_none]

/-- The references of a schema, in the order in which generation follows them: those of its complex
    types, then those of its entity containers and of its entity types. -/
def Schema.references (s : Schema) : List Reference :=
  s.complexTypes.flatMap ComplexType.references ++
    s.entityContainers.flatMap EntityContainer.references ++
    s.entityTypes.flatMap (EntityType.references s)

/-- The declarations that are planned have the references of the schema, in this order. -/
private theorem references_eq (s : Schema) :
    s.references = (Generation.plan s).flatMap (itemReferences s) := by
  -- enum types are planned first, but refer to nothing
  have henums : s.enumTypes.flatMap (fun t => itemReferences s (.enumType t)) = [] :=
    List.flatMap_eq_nil_iff.mpr fun _ _ => rfl
  unfold Schema.references Generation.plan
  simp only [List.flatMap_append, List.flatMap_map, henums, List.nil_append]
  rfl

/-- Generation fails as the first failing reference does. -/
theorem failure?_generate (settings : Settings) (s : Schema) :
    failure? (Generation.generate settings s).outcome =
      s.references.findSome? (Reference.failure? s) := by
  rw [Generation.outcome_generate, failure?_map, failure?_mapM, references_eq, findSome?_flatMap]
  simp only [Generation.outcome_piece, failure?_map, failure?_body]

/-! ### When generation succeeds -/

/-- Every reference of the schema leads to what it has to. -/
structure Schema.Linked (s : Schema) : Prop where
  complexProperties : ∀ t ∈ s.complexTypes, ∀ p ∈ t.properties, s.NamesPropertyType p.typeName
  entitySets : ∀ c ∈ s.entityContainers, ∀ set ∈ c.entitySets, s.NamesEntityType set.entityType
  baseTypes : ∀ t ∈ s.entityTypes, ∀ base ∈ t.baseType, s.NamesEntityType base
  entityProperties : ∀ t ∈ s.entityTypes, ∀ p ∈ t.properties, s.NamesPropertyType p.typeName
  /-- The association of a navigation property has ends for both roles, and an entity type stands
      at the far one. -/
  navigationProperties : ∀ t ∈ s.entityTypes, ∀ n ∈ t.navigationProperties,
    ∃ a, s.findAssociation? (s.localName n.relationship) = some a ∧
      (∃ x ∈ a.ends, x.role = n.fromRole) ∧
      ∃ x, (a.ends.find? fun x => x.role == n.toRole) = some x ∧ s.NamesEntityType x.typeName

/-- The references of a navigation property all lead somewhere exactly where its association has
    both ends and an entity type stands at the far one. -/
private theorem navigationReferences_resolve_iff {s : Schema} {owner : String}
    {n : NavigationProperty} : (∀ r ∈ navigationReferences s owner n, r.Resolves s) ↔
      ∃ a, s.findAssociation? (s.localName n.relationship) = some a ∧
        (∃ x ∈ a.ends, x.role = n.fromRole) ∧
        ∃ x, (a.ends.find? fun x => x.role == n.toRole) = some x ∧
          s.NamesEntityType x.typeName := by
  unfold navigationReferences
  rw [List.forall_mem_cons]
  -- both sides speak of the association that is found, if there is one
  cases ha : s.findAssociation? (s.localName n.relationship) with
  | none =>
    have hno : ¬ ∃ a ∈ s.associations, a.name = s.localName n.relationship := by
      rw [← isSome_findAssociation?_iff, ha]
      decide
    exact ⟨fun h => absurd h.1 hno, fun ⟨_, h, _⟩ => nomatch h⟩
  | some a =>
    have hyes : ∃ a ∈ s.associations, a.name = s.localName n.relationship := by
      rw [← isSome_findAssociation?_iff, ha]
      rfl
    dsimp only
    rw [List.forall_mem_cons, List.forall_mem_cons]
    cases hx : a.ends.find? fun x => x.role == n.toRole with
    -- the same for the far end
    | none =>
      have hno : ¬ ∃ x ∈ a.ends, x.role = n.toRole := by
        simpa using List.find?_eq_none.mp hx
      refine ⟨fun h => absurd h.2.1 hno, ?_⟩
      rintro ⟨b, hb, -, x, hfind, -⟩
      obtain rfl := Option.some.inj hb
      exact nomatch hx.symm.trans hfind
    | some x =>
      have hto : ∃ x ∈ a.ends, x.role = n.toRole :=
        ⟨x, List.mem_of_find?_eq_some hx, by simpa using List.find?_some hx⟩
      rw [List.forall_mem_singleton]
      constructor
      · rintro ⟨-, -, hfrom, htype⟩
        exact ⟨a, rfl, hfrom, x, hx, htype⟩
      · rintro ⟨b, hb, hfrom, y, hy, htype⟩
        obtain rfl := Option.some.inj hb
        obtain rfl := Option.some.inj (hx.symm.trans hy)
        exact ⟨hyes, hto, hfrom, htype⟩

/-- The references of an entity type all lead somewhere exactly where its base type, the types of its
    properties and the references of its navigation properties do. -/
private theorem entityType_resolve_iff {s : Schema} {t : EntityType} :
    (∀ r ∈ t.references s, r.Resolves s) ↔
      (∀ base ∈ t.baseType, s.NamesEntityType base) ∧
        (∀ p ∈ t.properties, s.NamesPropertyType p.typeName) ∧
        ∀ n ∈ t.navigationProperties, ∀ r ∈ navigationReferences s t.name n, r.Resolves s := by
  rw [EntityType.references, List.forall_mem_append, List.forall_mem_append, and_assoc,
    List.forall_mem_map, List.forall_mem_map, List.forall_mem_flatMap]
  simp only [Option.mem_toList]
  rfl

/-- Every reference that generation follows leads somewhere exactly where the schema is linked. -/
theorem linked_iff {s : Schema} : s.Linked ↔ ∀ r ∈ s.references, r.Resolves s := by
  -- the references of complex types and containers are single look-ups
  have hcomplex : ∀ t : ComplexType, (∀ r ∈ t.references, r.Resolves s) ↔
      ∀ p ∈ t.properties, s.NamesPropertyType p.typeName := fun _ => List.forall_mem_map
  have hcontainer : ∀ c : EntityContainer, (∀ r ∈ c.references, r.Resolves s) ↔
      ∀ set ∈ c.entitySets, s.NamesEntityType set.entityType := fun _ => List.forall_mem_map
  rw [Schema.references, List.forall_mem_append, List.forall_mem_append, List.forall_mem_flatMap,
    List.forall_mem_flatMap, List.forall_mem_flatMap]
  simp only [hcomplex, hcontainer, entityType_resolve_iff, navigationReferences_resolve_iff]
  constructor
  · intro h
    exact ⟨⟨h.complexProperties, h.entitySets⟩, fun t ht =>
      ⟨h.baseTypes t ht, h.entityProperties t ht, h.navigationProperties t ht⟩⟩
  · rintro ⟨⟨hcomplex, hsets⟩, hentity⟩
    exact ⟨hcomplex, hsets, fun t ht => (hentity t ht).1, fun t ht => (hentity t ht).2.1,
      fun t ht => (hentity t ht).2.2⟩

/-- Generation succeeds exactly where the schema is linked, and otherwise fails as the first
    reference that leads nowhere is reported.  The way back along an association is found wherever
    the way there is. -/
theorem generate_follows_references (settings : Settings) (s : Schema) :
    ((∃ files, (Generation.generate settings s).outcome = .ok files) ↔ s.Linked) ∧
      (∀ u, (Generation.generate settings s).outcome = .error u ↔
        ∃ before r after, s.references = before ++ r :: after ∧
          (∀ q ∈ before, q.Resolves s) ∧ ¬ r.Resolves s ∧ u = r.unresolved) ∧
      (∀ a toRole x t, a.findEnd toRole = .ok x →
        s.resolveEntityType x.typeName a.name = .ok t →
        ∃ i, s.inverseNavigation a toRole = .ok i) := by
  refine ⟨?_, fun u => ?_, fun a toRole x t => exists_inverseNavigation⟩
  · rw [← failure?_eq_none_iff, failure?_generate, List.findSome?_eq_none_iff, linked_iff]
    exact forall₂_congr fun r _ => Reference.failure?_eq_none_iff
  · rw [← failure?_eq_some_iff, failure?_generate, List.findSome?_eq_some_iff]
    refine exists₃_congr fun before r after => and_congr_right fun _ => ?_
    rw [Reference.failure?_eq_some_iff, and_comm]
    exact and_congr_left fun _ => forall₂_congr fun q _ => Reference.failure?_eq_none_iff

/-- A schema whose second property is of a type that there is not, and an association with a way
    back. -/
theorem missing_type_is_reported :
    (∃ s, (Generation.generate {} s).outcome = .error ⟨.type, "Price", "Order"⟩) ∧
      ∃ s a i, Schema.inverseNavigation s a "Order" = .ok i := by
  constructor
  · let s : Schema :=
      { name := "Sales"
        entityTypes :=
          [{ name := "Order"
             properties :=
              [{ name := "Id", typeName := "Edm.Int32" }, { name := "Total", typeName := "Price" }] }] }
    have hfirst : (Reference.propertyType "Edm.Int32" "Order").Resolves s :=
      Reference.failure?_eq_none_iff.mp rfl
    have hsecond : ¬ (Reference.propertyType "Price" "Order").Resolves s :=
      (Reference.failure?_eq_some_iff (u := ⟨.type, "Price", "Order"⟩)).mp (by decide +kernel) |>.1
    refine ⟨s, ((generate_follows_references {} s).2.1 _).mpr ⟨[.propertyType "Edm.Int32" "Order"],
      .propertyType "Price" "Order", [], rfl, ?_, hsecond, rfl⟩⟩
    exact List.forall_mem_singleton.mpr hfirst
  · let order : EntityType := { name := "Order" }
    let near : AssociationEnd := ⟨"Order", "Order", .one⟩
    let far : AssociationEnd := ⟨"Customer", "Customer", .one⟩
    let a : Association := { name := "OrderCustomer", first := near, second := far }
    let s : Schema := { name := "Sales", entityTypes := [order], associations := [a] }
    have horder : s.resolveEntityType "Order" "OrderCustomer" = .ok order :=
      Schema.resolveEntityType_eq_ok_iff.mpr (by decide +kernel)
    obtain ⟨i, hi⟩ := (generate_follows_references {} s).2.2 a "Order" near order rfl horder
    exact ⟨s, a, i, hi⟩

end EntityModel
