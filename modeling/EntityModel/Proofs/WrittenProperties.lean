import EntityModel.Proofs.Layouts
import Mathlib.Data.List.Nodup

/-!
# Properties as they are written

What a class says about a property is read off its steps: the attributes above the line of the
property belong to it, and any other step between them ends a run of attributes.  The class of an
entity type holds its properties and its navigation properties in this way, each with the attributes
that were made for it.

* `writtenBelow_separate`       members are read one by one
* `mem_classProperties_iff`     what the class of an entity type holds
* `carries_scalar_iff`          the attributes of one of its scalar properties
* `carries_navigation_iff`      the attributes of one of its navigation properties
-/

namespace EntityModel.Generation

open CSharp (Step AutoProperty)

/-- A property with the attributes above its line. -/
structure WrittenProperty where
  attributes : List (String × List String)
  line : AutoProperty
deriving DecidableEq, Repr

/-- The properties that some steps write below the given attributes. -/
def writtenBelow (attributes : List (String × List String)) : List Step → List WrittenProperty
  | [] => []
  | .attributed name arguments :: rest => writtenBelow (attributes ++ [(name, arguments)]) rest
  | .property p :: rest => ⟨attributes, p⟩ :: writtenBelow [] rest
  | _ :: rest => writtenBelow [] rest

/-- The properties in the class of an entity type, none where the class is not written. -/
def classProperties (settings : Settings) (s : Schema) (t : EntityType) : List WrittenProperty :=
  match (body settings s (.entityType t)).outcome with
  | .ok steps => writtenBelow [] steps
  | .error _ => []

/-- In the class of an entity type, a property of the given name has the attribute. -/
def Carries (settings : Settings) (s : Schema) (t : EntityType) (property name : String)
    (arguments : List String) : Prop :=
  ∃ w ∈ classProperties settings s t, w.line.name = property ∧ (name, arguments) ∈ w.attributes

instance (settings : Settings) (s : Schema) (t : EntityType) (property name : String)
    (arguments : List String) : Decidable (Carries settings s t property name arguments) :=
  inferInstanceAs (Decidable (∃ w ∈ classProperties settings s t, _))

/-! ### Members -/

/-- The attributes among some steps. -/
def attributesIn (steps : List Step) : List (String × List String) :=
  steps.filterMap fun
    | .attributed name arguments => some (name, arguments)
    | _ => none

/-- The attributes among some steps are those of the steps that write one. -/
theorem mem_attributesIn_iff {steps : List Step} {name : String} {arguments : List String} :
    (name, arguments) ∈ attributesIn steps ↔ .attributed name arguments ∈ steps := by
  unfold attributesIn
  rw [List.mem_filterMap]
  constructor
  · rintro ⟨step, hstep, h⟩
    cases step with
    | attributed n as =>
      cases h
      exact hstep
    | _ => exact nomatch h
  · exact fun h => ⟨_, h, rfl⟩

/-- Attributes in a row all stand above what comes next. -/
private theorem writtenBelow_attributes {steps : List Step} (h : ∀ step ∈ steps, IsAttribute step)
    (above : List (String × List String)) (rest : List Step) :
    writtenBelow above (steps ++ rest) = writtenBelow (above ++ attributesIn steps) rest := by
  induction steps generalizing above with
  | nil => simp [attributesIn]
  -- an attribute moves from the steps to those above
  | cons step steps ih =>
    obtain ⟨⟨name, arguments, rfl⟩, hsteps⟩ := List.forall_mem_cons.mp h
    rw [List.cons_append, writtenBelow, ih hsteps, List.append_assoc]
    rfl

/-- Documentation writes no property and carries no attribute over. -/
private theorem writtenBelow_documentation (m : Metadata) (rest : List Step) :
    writtenBelow [] (documentationSteps m ++ rest) = writtenBelow [] rest := by
  unfold documentationSteps
  cases m.documentation <;> rfl

/-- The steps write this one property, whatever comes next. -/
def Writes (steps : List Step) (w : WrittenProperty) : Prop :=
  ∀ rest, writtenBelow [] (steps ++ rest) = w :: writtenBelow [] rest

/-- Steps that write one property write no other. -/
private theorem Writes.eq_singleton {steps : List Step} {w : WrittenProperty} (h : Writes steps w) :
    writtenBelow [] steps = [w] := by
  rw [← List.append_nil steps, h]
  rfl

/-- What some steps write is determined. -/
private theorem Writes.iff_eq {steps : List Step} {v w : WrittenProperty} (h : Writes steps v) :
    Writes steps w ↔ w = v := by
  constructor
  · exact fun hw => List.singleton_inj.mp (hw.eq_singleton.symm.trans h.eq_singleton)
  · rintro rfl
    exact h

/-- A member is its documentation, its attributes and its line. -/
theorem writes_member {attributes : List Step} (h : ∀ step ∈ attributes, IsAttribute step)
    (m : Metadata) (line : AutoProperty) :
    Writes (documentationSteps m ++ attributes ++ [.property line])
      ⟨attributesIn attributes, line⟩ := by
  intro rest
  rw [List.append_assoc, List.append_assoc, writtenBelow_documentation,
    writtenBelow_attributes h]
  rfl

/-- Members with blank lines between them are read one by one. -/
theorem writtenBelow_separate {members : List (List Step)} (h : ∀ m ∈ members, ∃ w, Writes m w)
    (rest : List Step) :
    writtenBelow [] (separate members ++ rest) =
      members.flatMap (writtenBelow []) ++ writtenBelow [] rest := by
  induction members with
  | nil => rfl
  | cons m ms ih =>
    obtain ⟨⟨w, hw⟩, hms⟩ := List.forall_mem_cons.mp h
    -- a member ends in its line, so no attribute is carried over the blank line
    have hblank : writtenBelow [] (separate (m :: ms) ++ rest) =
        w :: writtenBelow [] (separate ms ++ rest) := by
      cases ms with
      | nil => exact hw rest
      | cons m' ms' =>
        rw [separate, List.append_assoc, hw]
        · rfl
        · exact List.cons_ne_nil m' ms'
    rw [hblank, ih hms, List.flatMap_cons, hw.eq_singleton]
    rfl

/-- The members of a type write all of its properties. -/
private theorem mem_writtenBelow_typeSteps_iff {members : List (List Step)}
    (h : ∀ m ∈ members, ∃ w, Writes m w) (m : Metadata) (header : CSharp.TypeHeader)
    {w : WrittenProperty} :
    w ∈ writtenBelow [] (typeSteps m header members) ↔ ∃ m ∈ members, Writes m w := by
  -- the header and the closing brace are neither properties nor attributes
  have hall : writtenBelow [] (typeSteps m header members) =
      members.flatMap (writtenBelow []) := by
    unfold typeSteps
    rw [List.append_assoc, writtenBelow_documentation]
    show writtenBelow [] (separate members ++ [.close]) = _
    rw [writtenBelow_separate h]
    exact List.append_nil _
  rw [hall, List.mem_flatMap]
  refine exists_congr fun m => and_congr_right fun hm => ?_
  obtain ⟨v, hv⟩ := h m hm
  rw [hv.eq_singleton, List.mem_singleton, hv.iff_eq]

/-! ### Classes of entity types -/

/-- A scalar property as it is written, once its type is mapped. -/
def writtenScalar (t : EntityType) (mapped : CSharp.MappedType) (p : Property) : WrittenProperty :=
  ⟨attributesIn (propertyAttributes mapped p (t.keyContains p.name)), propertyLine mapped p⟩

/-- A navigation property as it is written, once it is known where it leads. -/
def writtenNavigation (settings : Settings) (s : Schema) (target : NavigationTarget)
    (n : NavigationProperty) : WrittenProperty :=
  ⟨attributesIn (navigationAttributes target n),
    navigationLine settings.collectionType (loadsLazily settings s) target n⟩

variable {settings : Settings} {s : Schema} {t : EntityType} {w : WrittenProperty}

/-- A scalar property that is generated is written once its type is mapped. -/
private theorem writes_scalar {p : Property} {m : List Step}
    (h : (propertySteps s t.name (t.keyContains p.name) p).outcome = .ok m) :
    ∃ mapped, CSharp.mapType s p.typeName t.name = .ok mapped ∧
      Writes m (writtenScalar t mapped p) := by
  rw [outcome_propertySteps] at h
  obtain ⟨mapped, hmapped, rfl⟩ := map_eq_ok_iff.mp h
  exact ⟨mapped, hmapped, writes_member (isAttribute_propertyAttributes _ _ _) _ _⟩

/-- A navigation property that is generated is written once it is known where it leads. -/
private theorem writes_navigation {n : NavigationProperty} {m : List Step}
    (h : (navigationSteps s settings.collectionType (loadsLazily settings s) t.name n).outcome =
      .ok m) :
    ∃ target, resolveNavigation s t.name n = .ok target ∧
      Writes m (writtenNavigation settings s target n) := by
  rw [outcome_navigationSteps] at h
  obtain ⟨target, htarget, rfl⟩ := map_eq_ok_iff.mp h
  exact ⟨target, htarget, writes_member (isAttribute_navigationAttributes _ _) _ _⟩

/-- A class that is written holds the properties and the navigation properties of its entity type,
    and no other. -/
theorem mem_classProperties_iff {steps : List Step}
    (h : (body settings s (.entityType t)).outcome = .ok steps) :
    w ∈ classProperties settings s t ↔
      (∃ p ∈ t.properties, ∃ mapped, CSharp.mapType s p.typeName t.name = .ok mapped ∧
        w = writtenScalar t mapped p) ∨
      ∃ n ∈ t.navigationProperties, ∃ target, resolveNavigation s t.name n = .ok target ∧
        w = writtenNavigation settings s target n := by
  have hclass : classProperties settings s t = writtenBelow [] steps := by
    unfold classProperties
    rw [h]
  obtain ⟨base, properties, navigations, -, rfl, hproperties, hnavigations⟩ :=
    exists_entityMembers h
  -- every member of the class writes one property
  have hwrites : ∀ m ∈ properties ++ navigations, ∃ w, Writes m w := by
    refine List.forall_mem_append.mpr ⟨fun m hm => ?_, fun m hm => ?_⟩
    · obtain ⟨p, -, hp⟩ := exists_of_mem_mapM hproperties hm
      obtain ⟨mapped, -, hm⟩ := writes_scalar hp
      exact ⟨_, hm⟩
    · obtain ⟨n, -, hn⟩ := exists_of_mem_mapM hnavigations hm
      obtain ⟨target, -, hm⟩ := writes_navigation hn
      exact ⟨_, hm⟩
  rw [hclass, mem_writtenBelow_typeSteps_iff hwrites]
  simp only [List.mem_append, or_and_right, exists_or]
  refine or_congr (exists_mem_mapM_iff hproperties fun p m hm => ?_)
    (exists_mem_mapM_iff hnavigations fun n m hm => ?_)
  · obtain ⟨mapped, hmapped, hwrites⟩ := writes_scalar hm
    simp [hwrites.iff_eq, hmapped]
  · obtain ⟨target, htarget, hwrites⟩ := writes_navigation hm
    simp [hwrites.iff_eq, htarget]

/-- Every entity type of a schema that is generated has a class. -/
theorem exists_body {files : List GeneratedFile} (h : (generate settings s).outcome = .ok files)
    (ht : t ∈ s.entityTypes) : ∃ steps, (body settings s (.entityType t)).outcome = .ok steps := by
  rw [outcome_generate] at h
  obtain ⟨pieces, hpieces, -⟩ := map_eq_ok_iff.mp h
  -- the type is among the declarations that are generated, none of which fails
  obtain ⟨p, hp⟩ := ok_of_mapM hpieces (mem_plan_iff.mpr ht : .entityType t ∈ plan s)
  rw [outcome_piece] at hp
  obtain ⟨steps, hsteps, -⟩ := map_eq_ok_iff.mp hp
  exact ⟨steps, hsteps⟩

/-! ### Attributes of scalar properties -/

/-- In a class that is written the type of every scalar property is mapped. -/
theorem exists_mapped {steps : List Step} {p : Property}
    (h : (body settings s (.entityType t)).outcome = .ok steps) (hp : p ∈ t.properties) :
    ∃ mapped, CSharp.mapType s p.typeName t.name = .ok mapped := by
  obtain ⟨_, properties, _, -, -, hproperties, -⟩ := exists_entityMembers h
  obtain ⟨m, hm⟩ := ok_of_mapM hproperties hp
  obtain ⟨mapped, hmapped, -⟩ := writes_scalar hm
  exact ⟨mapped, hmapped⟩

/-- In a class whose members have different names, a scalar property has the attributes that were
    made for it, and no other. -/
theorem carries_scalar_iff {steps : List Step} {p : Property}
    (h : (body settings s (.entityType t)).outcome = .ok steps)
    (hnames : (t.properties.map (·.name) ++ t.navigationProperties.map (·.name)).Nodup)
    (hp : p ∈ t.properties) :
    ∃ mapped, CSharp.mapType s p.typeName t.name = .ok mapped ∧ ∀ name arguments,
      Carries settings s t p.name name arguments ↔
        .attributed name arguments ∈ propertyAttributes mapped p (t.keyContains p.name) := by
  obtain ⟨mapped, hmapped⟩ := exists_mapped h hp
  refine ⟨mapped, hmapped, fun name arguments => ?_⟩
  rw [← mem_attributesIn_iff]
  constructor
  -- a member of this name is the property itself, since names are distinct
  · rintro ⟨w, hw, hname, hattribute⟩
    obtain ⟨q, hq, mapped', hmapped', rfl⟩ | ⟨m, hm, target, -, rfl⟩ :=
      (mem_classProperties_iff h).mp hw
    · obtain rfl : q = p := List.inj_on_of_nodup_map hnames.of_append_left hq hp hname
      obtain rfl := Except.ok.inj (hmapped'.symm.trans hmapped)
      exact hattribute
    · -- a navigation property of that name would be a second member of it
      have hm : p.name ∈ t.navigationProperties.map (·.name) := List.mem_map.mpr ⟨m, hm, hname⟩
      exact absurd hm (List.disjoint_of_nodup_append hnames (List.mem_map_of_mem hp))
  · exact fun hattribute => ⟨_, (mem_classProperties_iff h).mpr
      (.inl ⟨p, hp, mapped, hmapped, rfl⟩), rfl, hattribute⟩

/-- A scalar property is marked as a key, as one to check and with its largest length where each is
    said of it, has one attribute for a value that the store computes, and is required where that
    is so. -/
theorem mem_propertyAttributes_iff {mapped : CSharp.MappedType} {p : Property} {isKey : Bool}
    {name : String} {arguments : List String} :
    .attributed name arguments ∈ propertyAttributes mapped p isKey ↔
      (isKey = true ∧ name = "Key" ∧ arguments = []) ∨
      (p.concurrencyMode = .fixed ∧ name = "ConcurrencyCheck" ∧ arguments = []) ∨
      (∃ n, p.maxLength = some n ∧ 0 < n ∧ name = "MaxLength" ∧ arguments = [toString n]) ∨
      (.attributed name arguments ∈ storeGenerationSteps p.storeGeneration) ∨
      (isRequired mapped p = true ∧ name = "Required" ∧ arguments = []) := by
  -- each attribute by itself, and they are written one behind the other
  have hstep : ∀ {condition : Bool} {n : String} {as : List String},
      .attributed name arguments ∈ stepIf condition (.attributed n as) ↔
        condition = true ∧ name = n ∧ arguments = as := by
    intro condition n as
    cases condition <;> simp [stepIf]
  have hlength : .attributed name arguments ∈ maxLengthSteps p.maxLength ↔
      ∃ n, p.maxLength = some n ∧ 0 < n ∧ name = "MaxLength" ∧ arguments = [toString n] := by
    cases p.maxLength with
    | none => simp [maxLengthSteps]
    | some n => simp [maxLengthSteps, hstep]
  unfold propertyAttributes
  simp only [List.mem_append, hstep, hlength, beq_iff_eq, or_assoc]

/-- The attribute for a value that the store computes. -/
theorem eq_of_mem_storeGenerationSteps {g : StoreGeneration} {name : String}
    {arguments : List String} (h : .attributed name arguments ∈ storeGenerationSteps g) :
    name = "DatabaseGenerated" ∧ (arguments = ["DatabaseGeneratedOption.Identity"] ∨
      arguments = ["DatabaseGeneratedOption.Computed"]) := by
  cases g <;> simp_all [storeGenerationSteps]

/-- A scalar property is marked as a key exactly if it is said to be one: no other attribute has
    that name. -/
theorem key_mem_propertyAttributes_iff {mapped : CSharp.MappedType} {p : Property} {isKey : Bool} :
    .attributed "Key" [] ∈ propertyAttributes mapped p isKey ↔ isKey = true := by
  rw [mem_propertyAttributes_iff]
  constructor
  -- only the first of the attributes is named so
  · rintro (⟨hkey, -⟩ | ⟨-, hname, -⟩ | ⟨_, -, -, hname, -⟩ | hstore | ⟨-, hname, -⟩)
    · exact hkey
    · exact absurd hname (by decide)
    · exact absurd hname (by decide)
    · exact absurd (eq_of_mem_storeGenerationSteps hstore).1 (by decide)
    · exact absurd hname (by decide)
  · exact fun hkey => .inl ⟨hkey, rfl, rfl⟩

/-! ### Attributes of navigation properties -/

/-- In a class that is written every navigation property leads somewhere. -/
private theorem exists_target {steps : List Step} {n : NavigationProperty}
    (h : (body settings s (.entityType t)).outcome = .ok steps)
    (hn : n ∈ t.navigationProperties) :
    ∃ target, resolveNavigation s t.name n = .ok target := by
  obtain ⟨_, _, navigations, -, -, -, hnavigations⟩ := exists_entityMembers h
  obtain ⟨m, hm⟩ := ok_of_mapM hnavigations hn
  obtain ⟨target, htarget, -⟩ := writes_navigation hm
  exact ⟨target, htarget⟩

/-- Where a navigation property leads is found by five look-ups: of its association, of the ends of
    both roles, of the type at the far end and of what leads back. -/
theorem exists_of_resolveNavigation {owner : String} {n : NavigationProperty}
    {target : NavigationTarget} (h : resolveNavigation s owner n = .ok target) :
    ∃ a far near t inverse, s.resolveAssociation n.relationship owner = .ok a ∧
      a.findEnd n.toRole = .ok far ∧ a.findEnd n.fromRole = .ok near ∧
      s.resolveEntityType far.typeName a.name = .ok t ∧
      s.inverseNavigation a n.toRole = .ok inverse ∧
      target = ⟨a, far.multiplicity, t.name, inverse⟩ := by
  unfold resolveNavigation at h
  obtain ⟨a, ha, h⟩ := bind_eq_ok_iff.mp h
  obtain ⟨far, hfar, h⟩ := bind_eq_ok_iff.mp h
  obtain ⟨near, hnear, h⟩ := bind_eq_ok_iff.mp h
  obtain ⟨t, ht, h⟩ := bind_eq_ok_iff.mp h
  obtain ⟨inverse, hinverse, h⟩ := bind_eq_ok_iff.mp h
  exact ⟨a, far, near, t, inverse, ha, hfar, hnear, ht, hinverse, (Except.ok.inj h).symm⟩

/-- Where a navigation property leads: along its association to the end of its far role. -/
theorem resolveNavigation_eq_ok {owner : String} {n : NavigationProperty}
    {target : NavigationTarget} (h : resolveNavigation s owner n = .ok target) :
    s.findAssociation? (s.localName n.relationship) = some target.association ∧
      (∃ x, target.association.findEnd n.toRole = .ok x ∧ x.multiplicity = target.multiplicity) ∧
      s.inverseNavigation target.association n.toRole = .ok target.inverse := by
  obtain ⟨a, far, near, t, inverse, ha, hfar, -, -, hinverse, rfl⟩ := exists_of_resolveNavigation h
  exact ⟨Schema.resolveAssociation_eq_ok_iff.mp ha, ⟨far, hfar, rfl⟩, hinverse⟩

/-- A navigation property has a foreign key if it leads to one entity and there is one for its near
    role, its inverse if there is one, and a mark if it always leads somewhere. -/
theorem mem_navigationAttributes_iff {n : NavigationProperty} {target : NavigationTarget}
    {name : String} {arguments : List String} :
    .attributed name arguments ∈ navigationAttributes target n ↔
      (target.multiplicity ≠ .many ∧ ∃ p, target.association.foreignKey? n.fromRole = some p ∧
        name = "ForeignKey" ∧ arguments = [CSharp.nameOf p]) ∨
      (∃ i, target.inverse = some i ∧ name = "InverseProperty" ∧
        arguments = [CSharp.nameOf (i.owner ++ "." ++ i.property)]) ∨
      target.multiplicity = .one ∧ name = "Required" ∧ arguments = [] := by
  -- each of the three parts has its own condition
  have hkey : .attributed name arguments ∈ foreignKeySteps target n ↔
      target.multiplicity ≠ .many ∧ ∃ p, target.association.foreignKey? n.fromRole = some p ∧
        name = "ForeignKey" ∧ arguments = [CSharp.nameOf p] := by
    unfold foreignKeySteps
    cases target.association.foreignKey? n.fromRole <;> simp
  have hinverse : .attributed name arguments ∈ inverseSteps target.inverse ↔
      ∃ i, target.inverse = some i ∧ name = "InverseProperty" ∧
        arguments = [CSharp.nameOf (i.owner ++ "." ++ i.property)] := by
    cases target.inverse <;> simp [inverseSteps]
  have hrequired : .attributed name arguments ∈
      stepIf (target.multiplicity == .one) (.attributed "Required" []) ↔
      target.multiplicity = .one ∧ name = "Required" ∧ arguments = [] := by
    unfold stepIf
    split <;> simp_all
  unfold navigationAttributes
  rw [List.mem_append, List.mem_append, hkey, hinverse, hrequired, or_assoc]

/-- In a class whose members have different names, a navigation property has the attributes that
    were made for it, and no other. -/
theorem carries_navigation_iff {steps : List Step} {n : NavigationProperty}
    (h : (body settings s (.entityType t)).outcome = .ok steps)
    (hnames : (t.properties.map (·.name) ++ t.navigationProperties.map (·.name)).Nodup)
    (hn : n ∈ t.navigationProperties) :
    ∃ target, resolveNavigation s t.name n = .ok target ∧ ∀ name arguments,
      Carries settings s t n.name name arguments ↔
        .attributed name arguments ∈ navigationAttributes target n := by
  obtain ⟨target, htarget⟩ := exists_target h hn
  refine ⟨target, htarget, fun name arguments => ?_⟩
  rw [← mem_attributesIn_iff]
  constructor
  · rintro ⟨w, hw, hname, hattribute⟩
    obtain ⟨p, hp, mapped, -, rfl⟩ | ⟨m, hm, target', htarget', rfl⟩ :=
      (mem_classProperties_iff h).mp hw
    · -- a scalar property of that name would be a second member of it
      have hp : n.name ∈ t.properties.map (·.name) := List.mem_map.mpr ⟨p, hp, hname⟩
      exact absurd (List.mem_map_of_mem hn) (List.disjoint_of_nodup_append hnames hp)
    · obtain rfl : m = n := List.inj_on_of_nodup_map hnames.of_append_right hm hn hname
      obtain rfl := Except.ok.inj (htarget'.symm.trans htarget)
      exact hattribute
  · exact fun hattribute => ⟨_, (mem_classProperties_iff h).mpr
      (.inr ⟨n, hn, target, htarget, rfl⟩), rfl, hattribute⟩

end EntityModel.Generation
