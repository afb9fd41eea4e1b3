import EntityModel.Proofs.WellFormed
import EntityModel.Proofs.WrittenRecords

/-!
# Written schemas

A schema is written as one element with all of its declarations in it, kind by kind and in order.
Every document that writes this element, with white space wherever it likes, is read as the schema:
reading finds no fault in it and neither does validation, since the schema is well-formed.

* `Schema.element`, `Schema.document`   the element of a schema, and the plain document of it
* `Schema.Writable`                     schemas whose texts and numbers survive being written
* `read…_written`                       what is read from an element like that of a declaration
* `parse_written`                       what is read from a document of a schema
-/

namespace EntityModel

open Markup (Element)
open Markup.Element (unplaced Alike)

/-! ### Parts of one kind -/

section

variable {α σ β : Type} {write : α → Element} {kind : String}

/-- Elements of one kind are all chosen by its name. -/
private theorem filter_map_localName (h : ∀ a, (write a).localName = kind) (as : List α) :
    ((as.map write).filter fun e => e.localName == kind) = as.map write := by
  refine List.filter_eq_self.mpr fun e he => ?_
  obtain ⟨a, -, rfl⟩ := List.mem_map.mp he
  exact beq_iff_eq.mpr (h a)

/-- None of them is chosen by another name. -/
private theorem filter_map_other {name : String} (h : ∀ a, (write a).localName = kind)
    (hname : kind ≠ name) (as : List α) :
    ((as.map write).filter fun e => e.localName == name) = [] := by
  refine List.filter_eq_nil_iff.mpr fun e he => ?_
  obtain ⟨a, -, rfl⟩ := List.mem_map.mp he
  rw [beq_iff_eq, h a]
  exact hname

/-- The children of one kind are read in order, each with something about its place. -/
theorem collect_placed {read : Element → Reading (Option (α × σ))} {as : List α} {e f : Element}
    (h : e.Alike f) (hchildren : f.namedChildren kind = as.map write)
    (hread : ∀ a ∈ as, ∀ e : Element, e.Alike (write a) →
      ∃ place, read e = pure (some (a, place))) :
    ∃ ps : List (α × σ), ps.map (·.1) = as ∧
      Reading.collect read (e.namedChildren kind) = pure ps := by
  obtain ⟨_, hcollect, ps, hps, rfl⟩ := Reading.collects_map hread (e.namedChildren kind)
    (hchildren ▸ h.namedChildren kind)
  exact ⟨ps, hps, by simpa using hcollect⟩

/-- The children of one kind are read in order. -/
theorem collect_records {read : Element → Reading (Option α)} {as : List α} {e f : Element}
    (h : e.Alike f) (hchildren : f.namedChildren kind = as.map write)
    (hread : ∀ a ∈ as, ∀ e : Element, e.Alike (write a) → read e = pure (some a)) :
    Reading.collect read (e.namedChildren kind) = pure as := by
  have hplaced : ∀ a ∈ as, ∀ e : Element, e.Alike (write a) →
      ∃ _ : Unit, read e = pure (some a) := fun a ha e he => ⟨(), hread a ha e he⟩
  -- a place that nobody asks for is the unit
  obtain ⟨_, hcollect, ps, hps, rfl⟩ := Reading.collects_map hplaced (e.namedChildren kind)
    (hchildren ▸ h.namedChildren kind)
  rwa [hps] at hcollect

end

/-! ### Enum types and complex types -/

/-- The fields of an enum type. -/
def EnumType.fields (t : EnumType) : List (String × Option String) :=
  [("UnderlyingType", some t.underlyingType.text), ("IsFlags", some (toString t.isFlags))]

/-- The element that an enum type is written as. -/
def EnumType.element (t : EnumType) : Element :=
  t.toMetadata.elementOf "EnumType" t.fields (t.members.map EnumMember.element)

/-- What an enum type bears and all of its members survive being written. -/
structure EnumType.Writable (t : EnumType) : Prop where
  metadata : t.toMetadata.Writable
  members : ∀ m ∈ t.members, m.Writable

instance (t : EnumType) : Decidable t.Writable :=
  decidable_of_iff (t.toMetadata.Writable ∧ ∀ m ∈ t.members, m.Writable)
    ⟨fun h => ⟨h.1, h.2⟩, fun h => ⟨h.metadata, h.members⟩⟩

/-- The fields of an enum type have plain names. -/
private theorem arePlainNames_enumType (t : EnumType) :
    Markup.arePlainNames ("Name" :: t.fields.map (·.1)) = true := by
  simp only [EnumType.fields, List.map_cons, List.map_nil]
  decide

/-- The element of an enum type is legal. -/
theorem EnumType.Writable.legal_element {t : EnumType} (h : t.Writable) : t.element.Legal :=
  h.metadata.legal_elementOf rfl (arePlainNames_enumType t)
    (List.forall_mem_map.mpr fun m _ => m.legal_element)

/-- An enum type is read from an element like its own. -/
private theorem readEnumType_written {t : EnumType} (ht : t.Writable) {e : Element}
    (h : e.Alike t.element) : ∃ spans, readEnumType e = pure (some (t, spans)) := by
  have hattribute := attribute?_elementOf h (arePlainNames_enumType t)
  have hmembers : t.element.namedChildren "Member" = t.members.map EnumMember.element :=
    (namedChildren_elementOf (by decide)).trans
      (filter_map_localName EnumMember.localName_element _)
  -- each member is read together with its place
  obtain ⟨ps, hps, hread⟩ := collect_placed h hmembers
    fun m hm _ he => readEnumMember_written (ht.members m hm) he
  refine ⟨⟨e.span, ps.map (·.2)⟩, ?_⟩
  unfold readEnumType
  rw [readMetadata_written h ht.metadata (arePlainNames_enumType t) (by simp),
    Reading.pure_bind]
  dsimp only
  -- the two fields that have defaults are written out, and then come the members
  rw [readAttribute_written (some t.underlyingType) (hattribute "UnderlyingType") fun u _ =>
      read_underlyingType u,
    readAttribute_written (some t.isFlags) (hattribute "IsFlags") fun b _ => readTruth_toString b,
    hread]
  simp only [Reading.pure_bind, hps]
  rfl

/-- The element that a complex type is written as. -/
def ComplexType.element (t : ComplexType) : Element :=
  t.toMetadata.elementOf "ComplexType" [] (t.properties.map Property.element)

/-- What a complex type bears and all of its properties survive being written. -/
structure ComplexType.Writable (t : ComplexType) : Prop where
  metadata : t.toMetadata.Writable
  properties : ∀ p ∈ t.properties, p.Writable

instance (t : ComplexType) : Decidable t.Writable :=
  decidable_of_iff (t.toMetadata.Writable ∧ ∀ p ∈ t.properties, p.Writable)
    ⟨fun h => ⟨h.1, h.2⟩, fun h => ⟨h.metadata, h.properties⟩⟩

/-- The element of a complex type is legal. -/
theorem ComplexType.Writable.legal_element {t : ComplexType} (h : t.Writable) : t.element.Legal :=
  h.metadata.legal_elementOf rfl arePlainNames_name
    (List.forall_mem_map.mpr fun p hp => (h.properties p hp).legal_element)

/-- A complex type is read from an element like its own. -/
private theorem readComplexType_written {t : ComplexType} (ht : t.Writable) {e : Element}
    (h : e.Alike t.element) : ∃ spans, readComplexType e = pure (some (t, spans)) := by
  have hproperties : t.element.namedChildren "Property" = t.properties.map Property.element :=
    (namedChildren_elementOf (by decide)).trans (filter_map_localName Property.localName_element _)
  -- the reader of its members adds their places
  have hmember : ∀ p ∈ t.properties, ∀ e : Element, e.Alike p.element →
      ∃ span, readComplexMember e = pure (some (p, span)) := by
    intro p hp e he
    refine ⟨e.span, ?_⟩
    unfold readComplexMember
    rw [readProperty_written (ht.properties p hp) he]
    rfl
  obtain ⟨ps, hps, hread⟩ := collect_placed h hproperties hmember
  refine ⟨{ span := e.span, properties := ps.map (·.2) }, ?_⟩
  unfold readComplexType
  rw [readMetadata_written h ht.metadata arePlainNames_name (by simp), Reading.pure_bind]
  dsimp only
  rw [hread]
  simp only [Reading.pure_bind, hps]

/-! ### Entity types -/

/-- The key of an entity type refers to its properties. -/
def keyElement (names : List String) : Element := .ofKind "Key" [] (names.map propertyRef) ""

/-- The element of a key is named after it. -/
@[simp] theorem localName_keyElement (names : List String) :
    (keyElement names).localName = "Key" := rfl

/-- The fields of an entity type. -/
def EntityType.fields (t : EntityType) : List (String × Option String) :=
  [("BaseType", t.baseType), ("Abstract", some (toString t.isAbstract)),
    ("TypeAccess", some t.access.text)]

/-- The element that an entity type is written as: its key, its properties and its navigation
    properties. -/
def EntityType.element (t : EntityType) : Element :=
  t.toMetadata.elementOf "EntityType" t.fields
    (t.key.toList.map keyElement ++ t.properties.map Property.element ++
      t.navigationProperties.map NavigationProperty.element)

/-- What an entity type bears and all of its members survive being written. -/
structure EntityType.Writable (t : EntityType) : Prop where
  metadata : t.toMetadata.Writable
  properties : ∀ p ∈ t.properties, p.Writable
  navigationProperties : ∀ n ∈ t.navigationProperties, n.toMetadata.Writable

instance (t : EntityType) : Decidable t.Writable :=
  decidable_of_iff (t.toMetadata.Writable ∧ (∀ p ∈ t.properties, p.Writable) ∧
      ∀ n ∈ t.navigationProperties, n.toMetadata.Writable)
    ⟨fun h => ⟨h.1, h.2.1, h.2.2⟩,
      fun h => ⟨h.metadata, h.properties, h.navigationProperties⟩⟩

/-- The fields of an entity type have plain names. -/
private theorem arePlainNames_entityType (t : EntityType) :
    Markup.arePlainNames ("Name" :: t.fields.map (·.1)) = true := by
  simp only [EntityType.fields, List.map_cons, List.map_nil]
  decide

/-- References to properties are legal. -/
private theorem legal_propertyRefs (names : List String) : ∀ e ∈ names.map propertyRef, e.Legal :=
  List.forall_mem_map.mpr fun name _ => legal_propertyRef name

/-- The element of an entity type is legal. -/
theorem EntityType.Writable.legal_element {t : EntityType} (h : t.Writable) : t.element.Legal := by
  refine h.metadata.legal_elementOf rfl (arePlainNames_entityType t) ?_
  rw [List.forall_mem_append, List.forall_mem_append, List.forall_mem_map, List.forall_mem_map,
    List.forall_mem_map]
  exact ⟨⟨fun names _ => Element.legal_ofKind [] rfl rfl trimmed_empty (legal_propertyRefs names),
    fun p hp => (h.properties p hp).legal_element⟩,
    fun n hn => NavigationProperty.legal_element (h.navigationProperties n hn)⟩

/-- References to properties are read in order. -/
theorem readPropertyRefs_written {kind : String} {fields : List (String × Option String)}
    {names : List String} {e : Element}
    (h : e.Alike (.ofKind kind fields (names.map propertyRef) "")) :
    readPropertyRefs e = pure names :=
  collect_records h (filter_map_localName localName_propertyRef names) fun name _ _ he =>
    readPropertyRef_written name he

/-- The key of an entity type is read from an element like that of the type. -/
private theorem readKey_written {t : EntityType} {e : Element} (h : e.Alike t.element) :
    ∃ key?, readKey e = pure key? ∧ key?.map (·.1) = t.key := by
  have hkey : t.element.child? "Key" = t.key.map keyElement := by
    refine (child?_elementOf (by decide)).trans ?_
    -- no property is taken for the key
    have hnone : (t.properties.map Property.element ++
        t.navigationProperties.map NavigationProperty.element).find?
          (fun p => p.localName == "Key") = none := by
      simp [List.find?_eq_none]
    rw [List.append_assoc, List.find?_append, hnone, Option.or_none]
    cases t.key <;> rfl
  unfold readKey
  cases hnames : t.key with
  | none =>
    -- no key is written, and none is found
    rw [hnames] at hkey
    rw [h.child?_eq_none hkey]
    exact ⟨none, rfl, rfl⟩
  | some names =>
    -- the key is there, with all of its names
    rw [hnames] at hkey
    obtain ⟨c, hc, hcalike⟩ := h.exists_child? hkey
    rw [hc]
    dsimp only
    rw [readPropertyRefs_written hcalike]
    exact ⟨some (names, c.span), rfl, rfl⟩

/-- The members of an entity type are read from its children, and nothing else is. -/
private theorem readMembers_written {t : EntityType} (ht : t.Writable) {e : Element}
    (h : e.Alike t.element) : ∃ ms, Reading.collect EntityMember.read e.children = pure ms ∧
      (ms.filterMap EntityMember.property?).map (·.1) = t.properties ∧
      (ms.filterMap EntityMember.navigation?).map (·.1) = t.navigationProperties := by
  -- what is neither kind of member is passed over
  have hother : ∀ f : Element, f.localName ≠ "Property" → f.localName ≠ "NavigationProperty" →
      ∀ e : Element, e.Alike f → EntityMember.read e = pure none := by
    intro f hp hn e he
    unfold EntityMember.read
    rw [he.localName, if_neg hp, if_neg hn]
  have hdocumentation : Reading.Collects EntityMember.read t.toMetadata.elements (· = []) := by
    refine Reading.collects_nil fun f hf => ?_
    obtain ⟨d, -, rfl⟩ := List.mem_map.mp hf
    exact hother _ (by simp) (by simp)
  have hkey : Reading.Collects EntityMember.read (t.key.toList.map keyElement) (· = []) := by
    refine Reading.collects_nil fun f hf => ?_
    obtain ⟨names, -, rfl⟩ := List.mem_map.mp hf
    exact hother _ (by simp) (by simp)
  -- a property is read as a member with its place
  have hproperty : ∀ p ∈ t.properties, ∀ e : Element, e.Alike p.element →
      ∃ span, EntityMember.read e = pure (some (.property p span)) := by
    intro p hp e he
    refine ⟨e.span, ?_⟩
    unfold EntityMember.read
    rw [he.localName, if_pos p.localName_element, readProperty_written (ht.properties p hp) he]
    rfl
  -- and so is a navigation property
  have hnavigation : ∀ n ∈ t.navigationProperties, ∀ e : Element, e.Alike n.element →
      ∃ span, EntityMember.read e = pure (some (.navigation n span)) := by
    intro n hn e he
    refine ⟨e.span, ?_⟩
    unfold EntityMember.read
    rw [he.localName, if_neg (by simp), if_pos n.localName_element,
      readNavigationProperty_written (ht.navigationProperties n hn) he]
    rfl
  -- the documentation and the key are no members
  obtain ⟨ms, hms, _, _, rfl, rfl, _, _, rfl, hrest, ns, hns, rfl⟩ :=
    (hdocumentation.append ((hkey.append (Reading.collects_map hproperty)).append
      (Reading.collects_map hnavigation))) e.children h.children
  obtain ⟨_, _, rfl, rfl, ps, hps, rfl⟩ := hrest
  -- each kind is taken out of the members by itself
  refine ⟨_, hms, ?_, ?_⟩
  · simp [List.filterMap_append, List.filterMap_map, Function.comp_def, EntityMember.property?, hps]
  · simp [List.filterMap_append, List.filterMap_map, Function.comp_def, EntityMember.navigation?,
      hns]

/-- An entity type is read from an element like its own. -/
private theorem readEntityType_written {t : EntityType} (ht : t.Writable) {e : Element}
    (h : e.Alike t.element) : ∃ spans, readEntityType e = pure (some (t, spans)) := by
  have hattribute := attribute?_elementOf h (arePlainNames_entityType t)
  obtain ⟨key?, hkey, hnames⟩ := readKey_written h
  obtain ⟨ms, hms, hproperties, hnavigations⟩ := readMembers_written ht h
  refine ⟨{ span := e.span
            key := key?.map (·.2)
            properties := (ms.filterMap EntityMember.property?).map (·.2)
            navigationProperties := (ms.filterMap EntityMember.navigation?).map (·.2) }, ?_⟩
  unfold readEntityType
  -- neither the key nor a member is taken for documentation
  rw [readMetadata_written h ht.metadata (arePlainNames_entityType t)
    (by simp [or_imp, forall_and]), Reading.pure_bind]
  dsimp only
  rw [readAttribute_written (some t.isAbstract) (hattribute "Abstract") fun b _ =>
      readTruth_toString b,
    readAttribute_written (some t.access) (hattribute "TypeAccess") fun a _ => read_access a,
    hkey, hms, show e.attribute? "BaseType" = t.baseType from hattribute "BaseType"]
  -- what was read part by part makes up the type again
  simp only [Reading.pure_bind, hnames, hproperties, hnavigations]
  rfl

/-! ### Associations -/

/-- The fields of an end. -/
def AssociationEnd.fields (x : AssociationEnd) : List (String × Option String) :=
  [("Type", some x.typeName), ("Role", some x.role), ("Multiplicity", some x.multiplicity.text)]

/-- The element that an end is written as. -/
def AssociationEnd.element (x : AssociationEnd) : Element := .ofKind "End" x.fields [] ""

/-- The element of an end is named after it. -/
@[simp] theorem AssociationEnd.localName_element (x : AssociationEnd) :
    x.element.localName = "End" := rfl

/-- The element that a half of a constraint is written as. -/
def ConstraintHalf.element (half : ConstraintHalf) (kind : String) : Element :=
  .ofKind kind [("Role", some half.role)] (half.properties.map propertyRef) ""

/-- The element that a constraint is written as, the principal half first. -/
def ReferentialConstraint.element (c : ReferentialConstraint) : Element :=
  .ofKind "ReferentialConstraint" []
    [c.principal.element "Principal", c.dependent.element "Dependent"] ""

/-- The element of a constraint is named after it. -/
@[simp] theorem ReferentialConstraint.localName_element (c : ReferentialConstraint) :
    c.element.localName = "ReferentialConstraint" := rfl

/-- The element that an association is written as: its two ends, and its constraint if it has one.
    -/
def Association.element (a : Association) : Element :=
  a.toMetadata.elementOf "Association" []
    (a.ends.map AssociationEnd.element ++ a.constraint.toList.map ReferentialConstraint.element)

/-- The fields of an end have plain names. -/
private theorem arePlainNames_end (x : AssociationEnd) :
    Markup.arePlainNames (x.fields.map (·.1)) = true := by
  simp only [AssociationEnd.fields, List.map_cons, List.map_nil]
  decide

/-- The role alone is a plain name. -/
private theorem arePlainNames_role : Markup.arePlainNames ["Role"] = true := by decide

/-- The element of an end is legal. -/
theorem AssociationEnd.legal_element (x : AssociationEnd) : x.element.Legal :=
  Element.legal_ofKind x.fields rfl (arePlainNames_end x) trimmed_empty (by simp)

/-- The element of a constraint is legal. -/
theorem ReferentialConstraint.legal_element (c : ReferentialConstraint) : c.element.Legal := by
  have hhalf : ∀ (half : ConstraintHalf) {kind : String}, Markup.isPlainName kind = true →
      (half.element kind).Legal := fun half _ hkind =>
    Element.legal_ofKind [("Role", some half.role)] hkind arePlainNames_role trimmed_empty
      (legal_propertyRefs half.properties)
  refine Element.legal_ofKind [] rfl rfl trimmed_empty ?_
  rw [List.forall_mem_cons, List.forall_mem_singleton]
  exact ⟨hhalf c.principal rfl, hhalf c.dependent rfl⟩

/-- The element of an association is legal. -/
theorem Association.legal_element {a : Association} (h : a.toMetadata.Writable) :
    a.element.Legal := by
  refine h.legal_elementOf rfl arePlainNames_name ?_
  rw [List.forall_mem_append, List.forall_mem_map, List.forall_mem_map]
  exact ⟨fun x _ => x.legal_element, fun c _ => c.legal_element⟩

/-- A multiplicity is read from its own word. -/
private theorem read_multiplicity (m : Multiplicity) :
    Multiplicity.vocabulary.read m.text = .ok m := by
  cases m <;> rfl

/-- An end is read from an element like its own. -/
private theorem readEnd_written (x : AssociationEnd) {e : Element} (h : e.Alike x.element) :
    readEnd e = pure (some x) := by
  have hattribute := Alike.field h (arePlainNames_end x)
  -- the multiplicity is read as it stands, without trimming
  have hmultiplicity : readMultiplicity e = pure (some x.multiplicity) := by
    unfold readMultiplicity
    rw [requireAttribute_of_some (hattribute "Multiplicity"), Reading.pure_bind]
    dsimp only
    rw [read_multiplicity]
    rfl
  unfold readEnd
  rw [requireAttribute_of_some (hattribute "Type"), requireAttribute_of_some (hattribute "Role"),
    hmultiplicity]
  rfl

/-- A half of a constraint is read from the child that it is written as. -/
theorem readHalf_written (half : ConstraintHalf) (kind : String) {e f : Element} (h : e.Alike f)
    (hchild : f.child? kind = some (half.element kind)) :
    ∃ span, readHalf e kind = pure (some (half, span)) := by
  obtain ⟨c, hc, hcalike⟩ := h.exists_child? hchild
  have hrole : c.attribute? "Role" = some half.role :=
    Alike.field hcalike arePlainNames_role "Role"
  refine ⟨c.span, ?_⟩
  unfold readHalf
  rw [hc]
  dsimp only
  rw [requireAttribute_of_some hrole, Reading.pure_bind]
  dsimp only
  rw [readPropertyRefs_written hcalike]
  rfl

/-- Both halves of a constraint are read, or none where there is no constraint. -/
private theorem readHalves_written {a : Association} {e : Element} (h : e.Alike a.element) :
    ∃ principal dependent, readHalves e = pure (principal, dependent) ∧
      joinHalves principal dependent = a.constraint := by
  -- no end is taken for the constraint
  have hchild : a.element.child? "ReferentialConstraint" =
      a.constraint.map ReferentialConstraint.element := by
    refine (child?_elementOf (by decide)).trans ?_
    show ([_, _] ++ _).find? _ = _
    cases a.constraint <;> rfl
  unfold readHalves
  cases hconstraint : a.constraint with
  | none =>
    -- without a constraint there is nothing to join
    rw [hconstraint] at hchild
    rw [h.child?_eq_none hchild]
    exact ⟨none, none, rfl, rfl⟩
  | some constraint =>
    -- both halves are there and join to the constraint
    rw [hconstraint] at hchild
    obtain ⟨c, hc, hcalike⟩ := h.exists_child? hchild
    obtain ⟨span, hprincipal⟩ := readHalf_written constraint.principal "Principal" hcalike rfl
    obtain ⟨span', hdependent⟩ := readHalf_written constraint.dependent "Dependent" hcalike rfl
    rw [hc]
    dsimp only
    rw [hprincipal, hdependent]
    exact ⟨_, _, rfl, rfl⟩

/-- An association is read from an element like its own. -/
private theorem readAssociation_written {a : Association} (ha : a.toMetadata.Writable) {e : Element}
    (h : e.Alike a.element) : ∃ spans, readAssociation e = pure (some (a, spans)) := by
  -- the constraint is no end
  have hends : a.element.namedChildren "End" = a.ends.map AssociationEnd.element := by
    refine (namedChildren_elementOf (by decide)).trans ?_
    rw [List.filter_append, filter_map_localName AssociationEnd.localName_element,
      filter_map_other ReferentialConstraint.localName_element (by decide), List.append_nil]
  have hread := collect_records h hends fun x _ _ he => readEnd_written x he
  obtain ⟨principal, dependent, hhalves, hjoin⟩ := readHalves_written h
  refine ⟨{ span := e.span
            ends := (e.namedChildren "End").map (·.span)
            principal := principal.map (·.2)
            dependent := dependent.map (·.2) }, ?_⟩
  unfold readAssociation
  rw [readMetadata_written h ha arePlainNames_name (by simp [or_imp, forall_and]),
    Reading.pure_bind]
  dsimp only
  -- there are two ends that can be read, which is what an association needs
  rw [show Reading.collect readEnd (e.namedChildren "End") = pure [a.first, a.second] from hread,
    Reading.pure_bind]
  dsimp only
  rw [hhalves, Reading.pure_bind]
  dsimp only
  rw [hjoin]

/-! ### Entity containers -/

/-- The element that an entity set is written as. -/
def EntitySet.element (x : EntitySet) : Element :=
  x.toMetadata.elementOf "EntitySet" [("EntityType", some x.entityType)] []

/-- The element of an entity set is named after it. -/
@[simp] theorem EntitySet.localName_element (x : EntitySet) :
    x.element.localName = "EntitySet" := rfl

/-- The element that an entity container is written as. -/
def EntityContainer.element (c : EntityContainer) : Element :=
  c.toMetadata.elementOf "EntityContainer"
    [("LazyLoadingEnabled", c.lazyLoading.map fun b => toString b)]
    (c.entitySets.map EntitySet.element)

/-- What an entity container bears and all of its sets survive being written. -/
structure EntityContainer.Writable (c : EntityContainer) : Prop where
  metadata : c.toMetadata.Writable
  entitySets : ∀ x ∈ c.entitySets, x.toMetadata.Writable

instance (c : EntityContainer) : Decidable c.Writable :=
  decidable_of_iff (c.toMetadata.Writable ∧ ∀ x ∈ c.entitySets, x.toMetadata.Writable)
    ⟨fun h => ⟨h.1, h.2⟩, fun h => ⟨h.metadata, h.entitySets⟩⟩

/-- The fields of an entity set have plain names. -/
private theorem arePlainNames_entitySet : Markup.arePlainNames ["Name", "EntityType"] = true := by
  decide

/-- The fields of an entity container have plain names. -/
private theorem arePlainNames_entityContainer :
    Markup.arePlainNames ["Name", "LazyLoadingEnabled"] = true := by
  decide

/-- The element of an entity set is legal. -/
theorem EntitySet.legal_element {x : EntitySet} (h : x.toMetadata.Writable) : x.element.Legal :=
  h.legal_elementOf rfl arePlainNames_entitySet (by simp)

/-- The element of an entity container is legal. -/
theorem EntityContainer.Writable.legal_element {c : EntityContainer} (h : c.Writable) :
    c.element.Legal :=
  h.metadata.legal_elementOf rfl arePlainNames_entityContainer
    (List.forall_mem_map.mpr fun x hx => EntitySet.legal_element (h.entitySets x hx))

/-- An entity set is read from an element like its own. -/
private theorem readEntitySet_written {x : EntitySet} (hx : x.toMetadata.Writable) {e : Element}
    (h : e.Alike x.element) : readEntitySet e = pure (some x) := by
  have hattribute := attribute?_elementOf h arePlainNames_entitySet
  unfold readEntitySet
  rw [readMetadata_written h hx arePlainNames_entitySet (by simp), Reading.pure_bind]
  dsimp only
  rw [requireAttribute_of_some (hattribute "EntityType")]
  rfl

/-- An entity container is read from an element like its own. -/
private theorem readEntityContainer_written {c : EntityContainer} (hc : c.Writable) {e : Element}
    (h : e.Alike c.element) : ∃ span, readEntityContainer e = pure (some (c, span)) := by
  have hattribute := attribute?_elementOf h arePlainNames_entityContainer
  have hsets : c.element.namedChildren "EntitySet" = c.entitySets.map EntitySet.element :=
    (namedChildren_elementOf (by decide)).trans
      (filter_map_localName EntitySet.localName_element _)
  have hread := collect_records h hsets fun x hx _ he =>
    readEntitySet_written (hc.entitySets x hx) he
  refine ⟨e.span, ?_⟩
  unfold readEntityContainer
  rw [readMetadata_written h hc.metadata arePlainNames_entityContainer (by simp), Reading.pure_bind]
  dsimp only
  rw [readAttribute_written c.lazyLoading (hattribute "LazyLoadingEnabled") fun b _ =>
    readTruth_toString b, hread]
  rfl

/-! ### Schemas -/

namespace Schema

/-- The fields of a schema. -/
def fields (s : Schema) : List (String × Option String) :=
  [("Namespace", some s.name), ("Alias", s.aliasName)]

/-- The element that a schema is written as. -/
def element (s : Schema) : Element :=
  .ofKind "Schema" s.fields
    (s.enumTypes.map EnumType.element ++ s.complexTypes.map ComplexType.element ++
      s.entityTypes.map EntityType.element ++ s.associations.map Association.element ++
        s.entityContainers.map EntityContainer.element) ""

/-- The plain document of a schema. -/
def document (s : Schema) : String := String.ofList s.element.write

/-- All texts and numbers of the schema survive being written. -/
structure Writable (s : Schema) : Prop where
  enumTypes : ∀ t ∈ s.enumTypes, t.Writable
  complexTypes : ∀ t ∈ s.complexTypes, t.Writable
  entityTypes : ∀ t ∈ s.entityTypes, t.Writable
  associations : ∀ a ∈ s.associations, a.toMetadata.Writable
  entityContainers : ∀ c ∈ s.entityContainers, c.Writable

instance (s : Schema) : Decidable s.Writable :=
  decidable_of_iff ((∀ t ∈ s.enumTypes, t.Writable) ∧ (∀ t ∈ s.complexTypes, t.Writable) ∧
      (∀ t ∈ s.entityTypes, t.Writable) ∧ (∀ a ∈ s.associations, a.toMetadata.Writable) ∧
      ∀ c ∈ s.entityContainers, c.Writable)
    ⟨fun h => ⟨h.1, h.2.1, h.2.2.1, h.2.2.2.1, h.2.2.2.2⟩, fun h =>
      ⟨h.enumTypes, h.complexTypes, h.entityTypes, h.associations, h.entityContainers⟩⟩

/-- The fields of a schema have plain names. -/
private theorem arePlainNames_schema (s : Schema) :
    Markup.arePlainNames (s.fields.map (·.1)) = true := by
  simp only [fields, List.map_cons, List.map_nil]
  decide

/-- The element of a schema is legal. -/
theorem Writable.legal_element {s : Schema} (h : s.Writable) : s.element.Legal := by
  refine Element.legal_ofKind s.fields rfl s.arePlainNames_schema trimmed_empty ?_
  rw [List.forall_mem_append, List.forall_mem_append, List.forall_mem_append,
    List.forall_mem_append, List.forall_mem_map, List.forall_mem_map, List.forall_mem_map,
    List.forall_mem_map, List.forall_mem_map]
  exact ⟨⟨⟨⟨fun t ht => (h.enumTypes t ht).legal_element,
    fun t ht => (h.complexTypes t ht).legal_element⟩,
    fun t ht => (h.entityTypes t ht).legal_element⟩,
    fun a ha => Association.legal_element (h.associations a ha)⟩,
    fun c hc => (h.entityContainers c hc).legal_element⟩

end Schema

namespace Declaration

variable {e : Element}

/-- What is read of an enum type is read of the declaration. -/
private theorem read_enumType (hname : e.localName = "EnumType") {t : EnumType} {spans : EnumSpans}
    (h : readEnumType e = pure (some (t, spans))) : read e = pure (some (enumType t spans)) := by
  unfold read
  rw [if_pos hname, h]
  rfl

/-- What is read of a complex type is read of the declaration. -/
private theorem read_complexType (hname : e.localName = "ComplexType") {t : ComplexType}
    {spans : TypeSpans} (h : readComplexType e = pure (some (t, spans))) :
    read e = pure (some (complexType t spans)) := by
  unfold read
  rw [hname, if_neg (by decide), if_pos rfl, h]
  rfl

/-- What is read of an entity type is read of the declaration. -/
private theorem read_entityType (hname : e.localName = "EntityType") {t : EntityType}
    {spans : TypeSpans} (h : readEntityType e = pure (some (t, spans))) :
    read e = pure (some (entityType t spans)) := by
  unfold read
  rw [hname, if_neg (by decide), if_neg (by decide), if_pos rfl, h]
  rfl

/-- What is read of an association is read of the declaration. -/
private theorem read_association (hname : e.localName = "Association") {a : Association}
    {spans : AssociationSpans} (h : readAssociation e = pure (some (a, spans))) :
    read e = pure (some (association a spans)) := by
  unfold read
  rw [hname, if_neg (by decide), if_neg (by decide), if_neg (by decide), if_pos rfl, h]
  rfl

/-- What is read of an entity container is read of the declaration. -/
private theorem read_entityContainer (hname : e.localName = "EntityContainer") {c : EntityContainer}
    {span : Span} (h : readEntityContainer e = pure (some (c, span))) :
    read e = pure (some (entityContainer c span)) := by
  unfold read
  rw [hname, if_neg (by decide), if_neg (by decide), if_neg (by decide), if_neg (by decide),
    if_pos rfl, h]
  rfl

end Declaration

/-- The declarations of a schema are read from its children, kind by kind. -/
private theorem readDeclarations_written {s : Schema} (hs : s.Writable) {e : Element}
    (h : e.Alike s.element) : ∃ ds, Reading.collect Declaration.read e.children = pure ds ∧
      Schema.ofDeclarations s.name s.aliasName ds = s := by
  -- each kind of declaration is read by its own reader
  have henum : ∀ t ∈ s.enumTypes, ∀ e : Element, e.Alike t.element →
      ∃ spans, Declaration.read e = pure (some (.enumType t spans)) := fun t ht _ he =>
    (readEnumType_written (hs.enumTypes t ht) he).imp fun _ =>
      Declaration.read_enumType he.localName
  have hcomplex : ∀ t ∈ s.complexTypes, ∀ e : Element, e.Alike t.element →
      ∃ spans, Declaration.read e = pure (some (.complexType t spans)) := fun t ht _ he =>
    (readComplexType_written (hs.complexTypes t ht) he).imp fun _ =>
      Declaration.read_complexType he.localName
  have hentity : ∀ t ∈ s.entityTypes, ∀ e : Element, e.Alike t.element →
      ∃ spans, Declaration.read e = pure (some (.entityType t spans)) := fun t ht _ he =>
    (readEntityType_written (hs.entityTypes t ht) he).imp fun _ =>
      Declaration.read_entityType he.localName
  have hassociation : ∀ a ∈ s.associations, ∀ e : Element, e.Alike a.element →
      ∃ spans, Declaration.read e = pure (some (.association a spans)) := fun a ha _ he =>
    (readAssociation_written (hs.associations a ha) he).imp fun _ =>
      Declaration.read_association he.localName
  have hcontainer : ∀ c ∈ s.entityContainers, ∀ e : Element, e.Alike c.element →
      ∃ span, Declaration.read e = pure (some (.entityContainer c span)) := fun c hc _ he =>
    (readEntityContainer_written (hs.entityContainers c hc) he).imp fun _ =>
      Declaration.read_entityContainer he.localName
  -- the children are those of the five kinds, one kind behind the other
  have htypes := ((Reading.collects_map henum).append (Reading.collects_map hcomplex)).append
    (Reading.collects_map hentity)
  obtain ⟨_, hds, _, _, rfl, hrest, containers, hcontainers, rfl⟩ :=
    ((htypes.append (Reading.collects_map hassociation)).append (Reading.collects_map hcontainer))
      e.children h.children
  -- take the kinds apart again, the last one first
  obtain ⟨_, _, rfl, htypes, assocs, hassocs, rfl⟩ := hrest
  obtain ⟨_, _, rfl, hvalues, entities, hentities, rfl⟩ := htypes
  obtain ⟨_, _, rfl, ⟨enums, henums, rfl⟩, complexes, hcomplexes, rfl⟩ := hvalues
  refine ⟨_, hds, ?_⟩
  -- a look for one kind passes over the declarations of all others
  simp [Schema.ofDeclarations, List.filterMap_append, List.filterMap_map, Function.comp_def,
    Declaration.enumType?, Declaration.complexType?, Declaration.entityType?,
    Declaration.association?, Declaration.entityContainer?, henums, hcomplexes, hentities, hassocs,
    hcontainers]

/-- A schema is read from an element like that of it, without a fault. -/
private theorem readSchema_written {s : Schema} (hs : s.Writable) {e : Element}
    (h : e.Alike s.element) : (Schema.read e).faults = [] ∧ (Schema.read e).value.1 = s := by
  have hattribute := Alike.field h s.arePlainNames_schema
  obtain ⟨ds, hds, hschema⟩ := readDeclarations_written hs h
  have hread : Schema.read e =
      pure (Schema.ofDeclarations s.name s.aliasName ds, SourceMap.ofDeclarations ds) := by
    unfold Schema.read
    rw [requireAttribute_of_some (hattribute "Namespace"), Reading.pure_bind, hds,
      show e.attribute? "Alias" = s.aliasName from hattribute "Alias"]
    rfl
  rw [hread]
  exact ⟨rfl, hschema⟩

/-- What is written of a well-formed schema is read back: the plain document of the schema and every
    other document that writes its element are accepted, and the schema is read from them. -/
theorem parse_written {s : Schema} (hs : s.WellFormed) (hw : s.Writable) :
    Model.parse s.document = .ok s ∧
      ∀ source : String, Markup.WritesDocument s.element source.toList →
        Model.parse source = .ok s := by
  have hall : ∀ source : String, Markup.WritesDocument s.element source.toList →
      Model.parse source = .ok s := by
    intro source hsource
    -- the text is read into an element like that of the schema
    obtain ⟨root, hparse, halike⟩ := Markup.parse_of_writes hw.legal_element hsource
    obtain ⟨hfaults, hread⟩ := readSchema_written hw halike
    -- the root is the schema, so no models are looked for within it
    have hname : root.localName = "Schema" := halike.localName
    refine Model.parse_eq_ok_iff.mpr ⟨root, ?_, ?_, hread⟩
    · unfold Model.schemaElement
      rw [hparse]
      dsimp only
      unfold schemaElement?
      rw [hname, if_pos (by rfl)]
    -- reading has no faults, and a well-formed schema has none in validation
    · rw [Model.faultsOf_eq, hfaults, List.nil_append]
      exact (validate_read_eq_nil_iff root).mpr (hread.symm ▸ hs)
  refine ⟨hall s.document ?_, hall⟩
  -- the plain document is one of those that write the element
  rw [Schema.document, String.toList_ofList]
  exact Markup.writesDocument_write s.element

/-- A schema with a declaration of each kind. -/
def ordersSchema : Schema where
  name := "Shop.Model"
  aliasName := some "Self"
  enumTypes :=
    [{ name := "State"
       underlyingType := .int16
       members := [⟨"Cancelled", some (-1)⟩, ⟨"Open", none⟩] }]
  complexTypes :=
    [{ name := "Address"
       properties :=
         [{ name := "Street"
            typeName := "String"
            maxLength := some 4000
            defaultValue := some "<\"A & B\">\n" }] }]
  entityTypes :=
    [{ name := "Party"
       documentation := some ⟨some "Buys & sells.", none⟩
       isAbstract := true
       key := some ["Id"]
       properties :=
         [{ name := "Id", typeName := "Int64", nullable := false, storeGeneration := .identity }] },
     { name := "Customer", baseType := some "Self.Party" },
     { name := "Order"
       key := some ["Id"]
       properties :=
         [{ name := "Id", typeName := "Int64" }, { name := "CustomerId", typeName := "Int64" }]
       navigationProperties :=
         [{ name := "Customer"
            relationship := "Self.Places"
            fromRole := "order"
            toRole := "customer" }] }]
  associations :=
    [{ name := "Places"
       first := ⟨"customer", "Self.Customer", .one⟩
       second := ⟨"order", "Self.Order", .many⟩
       constraint := some ⟨⟨"customer", ["Id"]⟩, ⟨"order", ["CustomerId"]⟩⟩ }]
  entityContainers :=
    [{ name := "Entities"
       lazyLoading := some true
       entitySets := [{ name := "Orders", entityType := "Self.Order" }] }]

/-- The schema of orders follows all rules. -/
private theorem wellFormed_ordersSchema : ordersSchema.WellFormed where
  typeNames := by decide
  associationNames := by decide
  containerNames := by decide
  entityMembers := by decide
  complexMembers := by decide
  enumMembers := by decide
  roles := by decide
  constraintRoles := by decide
  keys := by
    have hdeclares : ∀ t ∈ ordersSchema.entityTypes, ∀ k ∈ t.key.getD [],
        -- on a schema without cycles the search for a key property is decided by running it
        ordersSchema.ancestorDeclares t k = true := by decide
    exact fun t ht k hk =>
      (Schema.ancestorDeclares_iff (by decide) ht).mp (hdeclares t ht k hk)
  acyclic := (Schema.inheritanceCycles_eq_nil_iff (by decide)).mp (by decide)
  identifiers := by decide

/-- Orders, with texts and numbers that have to be spelled by reference or signed, are read back. -/
theorem orders_are_read_back : ordersSchema.WellFormed ∧ ordersSchema.Writable ∧
    Model.parse ordersSchema.document = .ok ordersSchema := by
  have hw : ordersSchema.Writable := by decide +kernel
  exact ⟨wellFormed_ordersSchema, hw, (parse_written wellFormed_ordersSchema hw).1⟩

end EntityModel
