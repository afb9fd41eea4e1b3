import EntityModel.Schema.Basic
import EntityModel.Schema.Reading
import EntityModel.Schema.SourceMap

/-! # Reading a schema from its element

Each declaration is read from an element together with the spans of its parts.  A record that lacks
what it cannot do without is left out and its fault reported; everything else is read all the same,
so that one reading shows every fault.

* `schemaElement?`      the conceptual schema of a document
* `Declaration.read`    one child of a schema element
* `Schema.read`         a schema and its source map -/

namespace EntityModel

open Markup (Element)

/-- The elements that hold the conceptual schema of a document with several models. -/
def holdsModels (e : Element) : Bool :=
  e.localName == "ConceptualModels" || e.localName == "DataServices"

/-- The element of the conceptual schema: the root itself, or the first schema in the first element
    that holds models. -/
def schemaElement? (root : Element) : Option Element :=
  if root.localName == "Schema" then some root
  else (root.preorder.find? holdsModels).bind fun models => models.child? "Schema"

/-! ### What every record has -/

/-- The text of a child of the documentation element, if it is not all blank. -/
def documentationText (documentation : Element) (name : String) : Option String :=
  (documentation.child? name).bind fun child => Text.nonBlank? child.text

/-- The documentation of an element. -/
def readDocumentation (e : Element) : Option Documentation :=
  (e.child? "Documentation").map fun d =>
    ⟨documentationText d "Summary", documentationText d "LongDescription"⟩

/-- The annotations of an element: its attributes with a qualifier. -/
def readAnnotations (e : Element) : List Annotation :=
  e.qualifiedAttributes.map fun a => ⟨a.name.text, a.value⟩

/-- The name, documentation and annotations of an element. -/
def readMetadata (e : Element) : Reading (Option Metadata) := do
  let name ← requireAttribute e "Name"
  pure (name.map fun n => ⟨n, readDocumentation e, readAnnotations e⟩)

/-- An element with a name has metadata. -/
theorem readMetadata_of_some {e : Element} {name : String} (h : e.attribute? "Name" = some name) :
    readMetadata e = pure (some ⟨name, readDocumentation e, readAnnotations e⟩) := by
  unfold readMetadata
  rw [requireAttribute_of_some h]
  rfl

/-- An element without a name is reported. -/
theorem readMetadata_of_none {e : Element} (h : e.attribute? "Name" = none) :
    readMetadata e = Reading.reject (.missingAttribute e.localName "Name" e.span) := by
  unfold readMetadata
  rw [requireAttribute_of_none h]
  rfl

/-- A reader that cannot go on without metadata gives a value only for an element with a name. -/
theorem exists_of_readMetadata {α : Type} {e : Element}
    {next : Option Metadata → Reading (Option α)} {a : α}
    (h : (readMetadata e >>= next).value = some a) (hnone : (next none).value = none) :
    ∃ name, e.attribute? "Name" = some name ∧
      (next (some ⟨name, readDocumentation e, readAnnotations e⟩)).value = some a := by
  cases hname : e.attribute? "Name" with
  | none =>
    rw [readMetadata_of_none hname] at h
    exact nomatch hnone.symm.trans h
  | some name =>
    rw [readMetadata_of_some hname] at h
    exact ⟨name, rfl, h⟩

/-- The accesses of the two accessors of a property. -/
def readAccessors (e : Element) : Reading (Access × Access) := do
  let getter ← readAttribute e "GetterAccess" Access.vocabulary.read
  let setter ← readAttribute e "SetterAccess" Access.vocabulary.read
  pure (getter.getD .publicAccess, setter.getD .publicAccess)

/-- The property names that the references below an element give. -/
def readPropertyRefs (e : Element) : Reading (List String) :=
  Reading.collect (fun r => requireAttribute r "Name") (e.namedChildren "PropertyRef")

/-! ### Members -/

/-- A member of an enum, with its span. -/
def readEnumMember (e : Element) : Reading (Option (EnumMember × Span)) := do
  match ← requireAttribute e "Name" with
  | none => pure none
  | some name =>
    let value ← readAttribute e "Value" (readIntegerValue (.signed 64))
    pure (some (⟨name, value⟩, e.span))

/-- A scalar property. -/
def readProperty (e : Element) : Reading (Option Property) := do
  match ← readMetadata e with
  | none => pure none
  | some metadata =>
    match ← requireAttribute e "Type" with
    | none => pure none
    | some typeName =>
      let nullable ← readAttribute e "Nullable" readTruth
      let maxLength ← readMaxLength e
      let concurrency ← readAttribute e "ConcurrencyMode" ConcurrencyMode.vocabulary.read
      let generation ← readAttribute e "StoreGeneratedPattern" StoreGeneration.vocabulary.read
      let (getter, setter) ← readAccessors e
      pure (some
        { metadata with
          typeName := typeName
          nullable := nullable.getD true
          maxLength := maxLength
          concurrencyMode := concurrency.getD .unchecked
          storeGeneration := generation.getD .never
          defaultValue := e.attribute? "DefaultValue"
          getter := getter
          setter := setter })

/-- A navigation property.  All of its attributes are looked at, even when one of them is missing
    and it will be left out. -/
def readNavigationProperty (e : Element) : Reading (Option NavigationProperty) := do
  match ← readMetadata e with
  | none => pure none
  | some metadata =>
    -- no early exit: each attribute that is missing is reported
    let relationship ← requireAttribute e "Relationship"
    let fromRole ← requireAttribute e "FromRole"
    let toRole ← requireAttribute e "ToRole"
    let (getter, setter) ← readAccessors e
    match relationship, fromRole, toRole with
    | some relationship, some fromRole, some toRole =>
      pure (some
        { metadata with
          relationship := relationship
          fromRole := fromRole
          toRole := toRole
          getter := getter
          setter := setter })
    | _, _, _ => pure none

/-- A member of an entity type. -/
inductive EntityMember where
  | property (p : Property) (span : Span)
  | navigation (n : NavigationProperty) (span : Span)

namespace EntityMember

/-- The member if it is a scalar property. -/
def property? : EntityMember → Option (Property × Span)
  | property p span => some (p, span)
  | navigation .. => none

/-- The member if it is a navigation property. -/
def navigation? : EntityMember → Option (NavigationProperty × Span)
  | navigation n span => some (n, span)
  | property .. => none

/-- A child of an entity type, if it is a member. -/
def read (e : Element) : Reading (Option EntityMember) :=
  if e.localName = "Property" then do
    let p ← readProperty e
    pure (p.map (property · e.span))
  else if e.localName = "NavigationProperty" then do
    let n ← readNavigationProperty e
    pure (n.map (navigation · e.span))
  else pure none

end EntityMember

/-! ### Declarations -/

/-- An enum type. -/
def readEnumType (e : Element) : Reading (Option (EnumType × EnumSpans)) := do
  match ← readMetadata e with
  | none => pure none
  | some metadata =>
    let underlying ← readAttribute e "UnderlyingType" UnderlyingType.read
    let isFlags ← readAttribute e "IsFlags" readTruth
    let members ← Reading.collect readEnumMember (e.namedChildren "Member")
    pure (some
      ({ metadata with
          underlyingType := underlying.getD .int32
          isFlags := isFlags.getD false
          members := members.map (·.1) },
        ⟨e.span, members.map (·.2)⟩))

/-- A property of a complex type, with its span. -/
def readComplexMember (e : Element) : Reading (Option (Property × Span)) := do
  let p ← readProperty e
  pure (p.map (·, e.span))

/-- A complex type. -/
def readComplexType (e : Element) : Reading (Option (ComplexType × TypeSpans)) := do
  match ← readMetadata e with
  | none => pure none
  | some metadata =>
    let properties ← Reading.collect readComplexMember (e.namedChildren "Property")
    pure (some
      ({ metadata with properties := properties.map (·.1) },
        { span := e.span, properties := properties.map (·.2) }))

/-- The key of an entity type: the names its first key element refers to, and the span of that
    element. -/
def readKey (e : Element) : Reading (Option (List String × Span)) :=
  match e.child? "Key" with
  | none => pure none
  | some key => do
    let refs ← readPropertyRefs key
    pure (some (refs, key.span))

/-- An entity type. -/
def readEntityType (e : Element) : Reading (Option (EntityType × TypeSpans)) := do
  match ← readMetadata e with
  | none => pure none
  | some metadata =>
    let isAbstract ← readAttribute e "Abstract" readTruth
    let access ← readAttribute e "TypeAccess" Access.vocabulary.read
    let key ← readKey e
    let members ← Reading.collect EntityMember.read e.children
    let properties := members.filterMap EntityMember.property?
    let navigations := members.filterMap EntityMember.navigation?
    pure (some
      ({ metadata with
          baseType := e.attribute? "BaseType"
          isAbstract := isAbstract.getD false
          access := access.getD .publicAccess
          key := key.map (·.1)
          properties := properties.map (·.1)
          navigationProperties := navigations.map (·.1) },
        { span := e.span
          key := key.map (·.2)
          properties := properties.map (·.2)
          navigationProperties := navigations.map (·.2) }))

/-- The multiplicity of an association end, whose text is taken as it stands. -/
def readMultiplicity (e : Element) : Reading (Option Multiplicity) := do
  match ← requireAttribute e "Multiplicity" with
  | none => pure none
  | some text => acceptValue e "Multiplicity" text (Multiplicity.vocabulary.read text)

/-- One end of an association. -/
def readEnd (e : Element) : Reading (Option AssociationEnd) := do
  let typeName ← requireAttribute e "Type"
  let role ← requireAttribute e "Role"
  let multiplicity ← readMultiplicity e
  match typeName, role, multiplicity with
  | some typeName, some role, some multiplicity => pure (some ⟨role, typeName, multiplicity⟩)
  | _, _, _ => pure none

/-- The named half of a referential constraint, with its span. -/
def readHalf (constraint : Element) (name : String) :
    Reading (Option (ConstraintHalf × Span)) :=
  match constraint.child? name with
  | none => Reading.reject (.missingHalf name constraint.span)
  | some e => do
    match ← requireAttribute e "Role" with
    | none => pure none
    | some role =>
      let refs ← readPropertyRefs e
      pure (some (⟨role, refs⟩, e.span))

/-- Both halves of the referential constraint of an association, if it has one. -/
def readHalves (e : Element) :
    Reading (Option (ConstraintHalf × Span) × Option (ConstraintHalf × Span)) :=
  match e.child? "ReferentialConstraint" with
  | none => pure (none, none)
  | some constraint => do
    let principal ← readHalf constraint "Principal"
    let dependent ← readHalf constraint "Dependent"
    pure (principal, dependent)

/-- The constraint that two halves make up, if both are there. -/
def joinHalves :
    Option (ConstraintHalf × Span) → Option (ConstraintHalf × Span) →
      Option ReferentialConstraint
  | some principal, some dependent => some ⟨principal.1, dependent.1⟩
  | _, _ => none

/-- An association.  It needs two readable ends; that there are other than two `End` elements is
    reported only where the readable ones are not two. -/
def readAssociation (e : Element) : Reading (Option (Association × AssociationSpans)) := do
  match ← readMetadata e with
  | none => pure none
  | some metadata =>
    let elements := e.namedChildren "End"
    match ← Reading.collect readEnd elements with
    | [first, second] =>
      let (principal, dependent) ← readHalves e
      pure (some
        ({ metadata with
            first := first
            second := second
            constraint := joinHalves principal dependent },
          { span := e.span
            ends := elements.map (·.span)
            principal := principal.map (·.2)
            dependent := dependent.map (·.2) }))
    | _ =>
      -- of two elements one was unreadable, which has been reported already
      if elements.length = 2 then pure none
      else Reading.reject (.endCount metadata.name elements.length e.span)

/-- An entity set. -/
def readEntitySet (e : Element) : Reading (Option EntitySet) := do
  match ← readMetadata e with
  | none => pure none
  | some metadata =>
    let entityType ← requireAttribute e "EntityType"
    pure (entityType.map fun t => { metadata with entityType := t })

/-- An entity container, with its span. -/
def readEntityContainer (e : Element) : Reading (Option (EntityContainer × Span)) := do
  match ← readMetadata e with
  | none => pure none
  | some metadata =>
    let lazyLoading ← readAttribute e "LazyLoadingEnabled" readTruth
    let entitySets ← Reading.collect readEntitySet (e.namedChildren "EntitySet")
    pure (some
      ({ metadata with lazyLoading := lazyLoading, entitySets := entitySets }, e.span))

/-! ### The schema -/

/-- A declaration of a schema, with the spans of its parts. -/
inductive Declaration where
  | enumType (t : EnumType) (spans : EnumSpans)
  | complexType (t : ComplexType) (spans : TypeSpans)
  | entityType (t : EntityType) (spans : TypeSpans)
  | association (a : Association) (spans : AssociationSpans)
  | entityContainer (c : EntityContainer) (span : Span)

namespace Declaration

/-- The declaration if it is an enum type. -/
def enumType? : Declaration → Option (EnumType × EnumSpans)
  | enumType t spans => some (t, spans)
  | _ => none

/-- The declaration if it is a complex type. -/
def complexType? : Declaration → Option (ComplexType × TypeSpans)
  | complexType t spans => some (t, spans)
  | _ => none

/-- The declaration if it is an entity type. -/
def entityType? : Declaration → Option (EntityType × TypeSpans)
  | entityType t spans => some (t, spans)
  | _ => none

/-- The declaration if it is an association. -/
def association? : Declaration → Option (Association × AssociationSpans)
  | association a spans => some (a, spans)
  | _ => none

/-- The declaration if it is an entity container. -/
def entityContainer? : Declaration → Option (EntityContainer × Span)
  | entityContainer c span => some (c, span)
  | _ => none

/-- A child of a schema element.  Elements of other names declare nothing. -/
def read (e : Element) : Reading (Option Declaration) :=
  if e.localName = "EnumType" then do
    let t ← readEnumType e
    pure (t.map fun (t, spans) => enumType t spans)
  else if e.localName = "ComplexType" then do
    let t ← readComplexType e
    pure (t.map fun (t, spans) => complexType t spans)
  else if e.localName = "EntityType" then do
    let t ← readEntityType e
    pure (t.map fun (t, spans) => entityType t spans)
  else if e.localName = "Association" then do
    let a ← readAssociation e
    pure (a.map fun (a, spans) => association a spans)
  else if e.localName = "EntityContainer" then do
    let c ← readEntityContainer e
    pure (c.map fun (c, span) => entityContainer c span)
  else pure none

/-- The declaration is what the reader for the name of the element makes of it. -/
def IsReadFrom (e : Element) : Declaration → Prop
  | enumType t spans => e.localName = "EnumType" ∧ (readEnumType e).value = some (t, spans)
  | complexType t spans => e.localName = "ComplexType" ∧ (readComplexType e).value = some (t, spans)
  | entityType t spans => e.localName = "EntityType" ∧ (readEntityType e).value = some (t, spans)
  | association a spans => e.localName = "Association" ∧ (readAssociation e).value = some (a, spans)
  | entityContainer c span =>
    e.localName = "EntityContainer" ∧ (readEntityContainer e).value = some (c, span)

/-- Each declaration is read by the reader for its kind, from elements of its name only. -/
theorem isReadFrom_of_read {e : Element} {d : Declaration} (h : (read e).value = some d) :
    d.IsReadFrom e := by
  unfold read at h
  -- one split for each of the five kinds, in the order of the reader
  split at h
  · rename_i hname
    obtain ⟨p, hp, rfl⟩ := Option.map_eq_some_iff.mp h
    exact ⟨hname, hp⟩
  split at h
  · rename_i hname
    obtain ⟨p, hp, rfl⟩ := Option.map_eq_some_iff.mp h
    exact ⟨hname, hp⟩
  split at h
  · rename_i hname
    obtain ⟨p, hp, rfl⟩ := Option.map_eq_some_iff.mp h
    exact ⟨hname, hp⟩
  split at h
  · rename_i hname
    obtain ⟨p, hp, rfl⟩ := Option.map_eq_some_iff.mp h
    exact ⟨hname, hp⟩
  split at h
  · rename_i hname
    obtain ⟨p, hp, rfl⟩ := Option.map_eq_some_iff.mp h
    exact ⟨hname, hp⟩
  · exact nomatch h

end Declaration

namespace Schema

/-- The schema that some declarations make up. -/
def ofDeclarations (name : String) (aliasName : Option String) (ds : List Declaration) :
    Schema where
  name := name
  aliasName := aliasName
  enumTypes := (ds.filterMap Declaration.enumType?).map (·.1)
  complexTypes := (ds.filterMap Declaration.complexType?).map (·.1)
  entityTypes := (ds.filterMap Declaration.entityType?).map (·.1)
  associations := (ds.filterMap Declaration.association?).map (·.1)
  entityContainers := (ds.filterMap Declaration.entityContainer?).map (·.1)

end Schema

namespace SourceMap

/-- The source map of some declarations. -/
def ofDeclarations (ds : List Declaration) : SourceMap where
  enumTypes := (ds.filterMap Declaration.enumType?).map (·.2)
  complexTypes := (ds.filterMap Declaration.complexType?).map (·.2)
  entityTypes := (ds.filterMap Declaration.entityType?).map (·.2)
  associations := (ds.filterMap Declaration.association?).map (·.2)
  entityContainers := (ds.filterMap Declaration.entityContainer?).map (·.2)

end SourceMap

/-- Read a schema from its element.  Without a namespace it is read as if that were empty. -/
def Schema.read (e : Element) : Reading (Schema × SourceMap) := do
  let name ← requireAttribute e "Namespace"
  let ds ← Reading.collect Declaration.read e.children
  pure (Schema.ofDeclarations (name.getD "") (e.attribute? "Alias") ds,
    SourceMap.ofDeclarations ds)

/-- A schema and its source map are made of the same declarations. -/
theorem Schema.value_read (e : Element) :
    (Schema.read e).value =
      (Schema.ofDeclarations ((requireAttribute e "Namespace").value.getD "")
        (e.attribute? "Alias") (Reading.collect Declaration.read e.children).value,
      SourceMap.ofDeclarations (Reading.collect Declaration.read e.children).value) := rfl

end EntityModel
