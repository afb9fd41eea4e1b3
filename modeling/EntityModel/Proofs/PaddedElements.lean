import EntityModel.Proofs.SameReadings
import EntityModel.Proofs.SpelledWords
import EntityModel.Proofs.WrittenRecords

/-!
# Padded elements

White space may stand around the value of a typed attribute: the value is trimmed before it is read.
An element that is padded there is searched like the one without padding, and its records are read
alike, but for the texts of their annotations.

* `Element.Padded`               an element with white space around typed values
* `sameBy_readAttribute`         what is read of a trimmed value
* `sameBy_read…`                 what is read of a padded element
-/

namespace EntityModel

open Reading (SameBy sameBy_pure sameBy_reject)

/-! ### Padded elements -/

namespace Markup

/-- The local names of the attributes whose values are of a type: truth values, numbers and words of
    a vocabulary. -/
def typedNames : List String :=
  ["Nullable", "Abstract", "IsFlags", "LazyLoadingEnabled", "MaxLength", "ConcurrencyMode",
    "StoreGeneratedPattern", "TypeAccess", "GetterAccess", "SetterAccess", "UnderlyingType", "Value",
    "Multiplicity"]

/-- The second text is the first one with white space around it. -/
def Pads (s t : String) : Prop :=
  ∃ front back, Blank front ∧ Blank back ∧ t.toList = front ++ s.toList ++ back

/-- The value of an attribute of the name may be padded if the name is that of a typed one. -/
structure PadsValue (name s t : String) : Prop where
  pads : Pads s t
  eq_of_not_mem : name ∉ typedNames → t = s

/-- The attributes are the same, but for white space around the value of a typed one. -/
structure Attribute.Padded (a a' : Attribute) : Prop where
  name_eq : a'.name = a.name
  value : PadsValue a.name.localPart a.value a'.value

namespace Element

/-- The elements are the same, but for white space around the values of typed attributes in them. -/
inductive Padded : Element → Element → Prop
  | mk {e e' : Element} (hname : e'.name = e.name)
      (hattributes : List.Forall₂ Attribute.Padded e.attributes e'.attributes)
      (hchildren : List.Forall₂ Padded e.children e'.children) (htext : e'.text = e.text) :
      Padded e e'

variable {e e' : Element}

/-- Padding leaves the name of an element. -/
theorem Padded.localName_eq (h : e.Padded e') : e'.localName = e.localName := by
  cases h with
  | mk hname => exact congrArg Name.localPart hname

/-- Padding leaves the text of an element. -/
private theorem Padded.text_eq (h : e.Padded e') : e'.text = e.text := by
  cases h with
  | mk _ _ _ htext => exact htext

/-- The attributes are padded where they stand. -/
theorem Padded.attributes (h : e.Padded e') :
    List.Forall₂ Attribute.Padded e.attributes e'.attributes := by
  cases h with
  | mk _ hattributes => exact hattributes

/-- The children are padded where they stand. -/
theorem Padded.children (h : e.Padded e') : List.Forall₂ Padded e.children e'.children := by
  cases h with
  | mk _ _ hchildren => exact hchildren

/-- The children of a name are padded where they stand. -/
theorem Padded.namedChildren (h : e.Padded e') (name : String) :
    List.Forall₂ Padded (e.namedChildren name) (e'.namedChildren name) := by
  refine List.rel_filter (fun a b hab => ?_) h.children
  dsimp only
  rw [hab.localName_eq]

/-- The first children of a name are padded, if there are any. -/
theorem Padded.child? (h : e.Padded e') (name : String) :
    Option.Rel Padded (e.child? name) (e'.child? name) :=
  rel_find? h.children fun a b hab => by rw [hab.localName_eq]

/-- The candidates for an attribute are those of the element without padding, each of them padded.
    -/
theorem Padded.candidates (h : e.Padded e') (name : String) :
    List.Forall₂ (fun a a' => a.name.localPart = name ∧ Attribute.Padded a a')
      (e.candidates name) (e'.candidates name) := by
  refine (List.forall₂_and_left _ _).mpr ⟨fun a ha => ?_, ?_⟩
  -- every candidate has the name looked for
  · have hfound := (List.mem_filter.mp ha).2
    simp only [Bool.and_eq_true, beq_iff_eq] at hfound
    exact hfound.1
  -- which attributes are candidates is decided by their names
  · refine List.rel_filter (fun a b hab => ?_) h.attributes
    dsimp only
    rw [Attribute.declaresNamespace, Attribute.declaresNamespace, hab.name_eq]

/-- An attribute without a qualifier is taken, or else the first of the name. -/
private theorem attribute?_eq_or (e : Element) (name : String) :
    e.attribute? name =
      (((e.candidates name).find? fun a => a.name.qualifier.isNone).or
        (e.candidates name).head?).map (·.value) := by
  unfold attribute?
  dsimp only
  cases (e.candidates name).find? fun a => a.name.qualifier.isNone <;> rfl

/-- The attribute of a name is there in both elements, with a value that may be padded. -/
theorem Padded.attribute? (h : e.Padded e') (name : String) :
    Option.Rel (PadsValue name) (e.attribute? name) (e'.attribute? name) := by
  have hcandidates := h.candidates name
  -- the first candidate without a qualifier is the same one in both elements
  have hplain := rel_find? (p := fun a => a.name.qualifier.isNone)
    (q := fun a => a.name.qualifier.isNone) hcandidates fun a b hab => by rw [hab.2.name_eq]
  -- and so is the first candidate of all
  have hfirst : Option.Rel (fun a a' => a.name.localPart = name ∧ Attribute.Padded a a')
      (e.candidates name).head? (e'.candidates name).head? := by
    generalize e.candidates name = found, e'.candidates name = found' at hcandidates
    cases hcandidates with
    | nil => exact .none
    | cons hab => exact .some hab
  rw [attribute?_eq_or, attribute?_eq_or]
  exact rel_map (rel_or hplain hfirst) fun a b hab => hab.1 ▸ hab.2.value

/-- The qualified attributes are padded where they stand. -/
theorem Padded.qualifiedAttributes (h : e.Padded e') :
    List.Forall₂ Attribute.Padded e.qualifiedAttributes e'.qualifiedAttributes := by
  refine List.rel_filter (fun a b hab => ?_) h.attributes
  dsimp only
  rw [Attribute.declaresNamespace, Attribute.declaresNamespace, hab.name_eq]

end Element

end Markup

open Markup (Element Pads PadsValue typedNames)

section

variable {e e' : Element}

/-! ### Attributes -/

/-- Nothing is left of the padding after trimming. -/
theorem trim_of_pads {s t : String} (h : Pads s t) : Text.trim t = Text.trim s := by
  obtain ⟨front, back, hfront, hback, ht⟩ := h
  unfold Text.trim
  rw [ht, Text.trimChars_append (fun c hc => isBlank_of_isSpace (hfront c hc))
    (fun c hc => isBlank_of_isSpace (hback c hc))]

/-- An attribute that is not typed is the same. -/
theorem attribute?_of_padded (h : e.Padded e') {name : String} (hname : name ∉ typedNames) :
    e'.attribute? name = e.attribute? name := by
  have hvalue := h.attribute? name
  generalize e.attribute? name = value, e'.attribute? name = value' at hvalue
  -- the name is not that of a typed attribute, so its value has no padding
  cases hvalue with
  | some hv => rw [hv.eq_of_not_mem hname]
  | none => rfl

/-- An attribute that is required and not typed is read alike. -/
theorem sameBy_requireAttribute (h : e.Padded e') {name : String} (hname : name ∉ typedNames) :
    SameBy id (requireAttribute e name) (requireAttribute e' name) := by
  unfold requireAttribute
  rw [attribute?_of_padded h hname]
  split
  · exact sameBy_pure rfl
  · exact sameBy_reject rfl

/-- What a text is read into does not depend on the element. -/
private theorem sameBy_acceptValue {α : Type} (name text text' : String)
    (result : Except String α) :
    SameBy id (acceptValue e name text result) (acceptValue e' name text' result) := by
  cases result with
  | ok a => exact sameBy_pure rfl
  | error reason => exact sameBy_reject rfl

/-- An attribute that is trimmed before it is read is read alike. -/
theorem sameBy_readAttribute {α : Type} (h : e.Padded e') (name : String)
    (read : String → Except String α) :
    SameBy id (readAttribute e name read) (readAttribute e' name read) := by
  have hvalue := h.attribute? name
  unfold readAttribute
  generalize e.attribute? name = value, e'.attribute? name = value' at hvalue ⊢
  cases hvalue with
  | some hv =>
    dsimp only
    -- trimming leaves one text of both values
    rw [trim_of_pads hv.pads]
    exact sameBy_acceptValue ..
  | none => exact sameBy_pure rfl

/-- The greatest length is read alike. -/
private theorem sameBy_readMaxLength (h : e.Padded e') :
    SameBy id (readMaxLength e) (readMaxLength e') := by
  have htrimmed : (e'.attribute? "MaxLength").map Text.trim =
      (e.attribute? "MaxLength").map Text.trim :=
    (rel_eq (rel_map (h.attribute? "MaxLength") fun _ _ hv => (trim_of_pads hv.pads).symm)).symm
  unfold readMaxLength
  rw [htrimmed]
  split
  -- there is no greatest length
  · exact sameBy_pure rfl
  · split
    -- the word for the greatest length is compared after trimming too
    · exact sameBy_pure rfl
    -- a number
    · exact (sameBy_acceptValue ..).bindEq fun _ => sameBy_pure rfl

/-! ### What every record has -/

/-- The documentation is the same, since texts are not padded. -/
private theorem readDocumentation_of_padded (h : e.Padded e') :
    readDocumentation e' = readDocumentation e := by
  -- a text is in a child, and children are found by their names
  have htext {d d' : Element} (hd : d.Padded d') (name : String) :
      documentationText d name = documentationText d' name := by
    refine rel_eq (rel_bind (hd.child? name) fun c c' hc => ?_)
    rw [hc.text_eq]
    cases Text.nonBlank? c.text with
    | none => exact .none
    | some text => exact .some rfl
  refine (rel_eq (rel_map (h.child? "Documentation") fun d d' hd => ?_)).symm
  rw [htext hd, htext hd]

/-- Only the texts of the annotations differ. -/
private theorem readAnnotations_of_padded (h : e.Padded e') :
    (readAnnotations e).map Annotation.withoutText =
      (readAnnotations e').map Annotation.withoutText := by
  unfold readAnnotations
  rw [List.map_map, List.map_map]
  refine map_eq_map_of_forall₂ h.qualifiedAttributes fun a a' ha => ?_
  simp only [Function.comp_apply, Annotation.withoutText, ha.name_eq]

/-- What every record bears is read alike but for its annotations. -/
theorem sameBy_readMetadata (h : e.Padded e') :
    SameBy (Option.map Metadata.withoutTexts) (readMetadata e) (readMetadata e') := by
  refine (sameBy_requireAttribute h (by decide)).bindEq fun name => sameBy_pure ?_
  rw [Option.map_map, Option.map_map]
  refine congrArg (fun make => name.map make) (funext fun n => ?_)
  simp only [Function.comp_apply, Metadata.withoutTexts, readDocumentation_of_padded h,
    readAnnotations_of_padded h]

/-- The accesses of the accessors are read alike. -/
private theorem sameBy_readAccessors (h : e.Padded e') :
    SameBy id (readAccessors e) (readAccessors e') :=
  (sameBy_readAttribute h ..).bindEq fun _ => (sameBy_readAttribute h ..).bindEq fun _ =>
    sameBy_pure rfl

/-- References to properties are read alike, since names are not padded. -/
theorem sameBy_readPropertyRefs (h : e.Padded e') :
    SameBy id (readPropertyRefs e) (readPropertyRefs e') := by
  have hrefs := SameBy.collect (f := id) (h.namedChildren "PropertyRef") fun r r' hr =>
    (sameBy_requireAttribute hr (by decide : "Name" ∉ typedNames)).imp fun _ _ => congrArg _
  exact hrefs.imp fun as bs => by simp

/-! ### Members -/

/-- A member of an enum is read alike. -/
private theorem sameBy_readEnumMember (h : e.Padded e') :
    SameBy (Option.map Prod.fst) (readEnumMember e) (readEnumMember e') := by
  refine (sameBy_requireAttribute h (by decide)).bindEq fun name => ?_
  cases name with
  | none => exact sameBy_pure rfl
  | some name => exact (sameBy_readAttribute h ..).bindEq fun _ => sameBy_pure rfl

/-- A property is read alike but for its annotations. -/
private theorem sameBy_readProperty (h : e.Padded e') :
    SameBy (Option.map Property.withoutTexts) (readProperty e) (readProperty e') := by
  refine (sameBy_readMetadata h).bindOption (sameBy_pure rfl) fun m m' hm => ?_
  refine (sameBy_requireAttribute h (by decide)).bindEq fun typeName => ?_
  cases typeName with
  | none => exact sameBy_pure rfl
  | some typeName =>
    -- all attributes from here on but the default value are typed
    refine (sameBy_readAttribute h ..).bindEq fun nullable => ?_
    refine (sameBy_readMaxLength h).bindEq fun maxLength => ?_
    refine (sameBy_readAttribute h ..).bindEq fun concurrency => ?_
    refine (sameBy_readAttribute h ..).bindEq fun generation => ?_
    refine (sameBy_readAccessors h).bindEq fun accesses => sameBy_pure ?_
    -- a default value is a text of its own and not padded
    rw [attribute?_of_padded h (by decide)]
    simp only [Option.map_some, Property.withoutTexts]
    rw [hm]

/-- A navigation property is read alike but for its annotations. -/
private theorem sameBy_readNavigationProperty (h : e.Padded e') :
    SameBy (Option.map NavigationProperty.withoutTexts) (readNavigationProperty e)
      (readNavigationProperty e') := by
  refine (sameBy_readMetadata h).bindOption (sameBy_pure rfl) fun m m' hm => ?_
  refine (sameBy_requireAttribute h (by decide)).bindEq fun relationship => ?_
  refine (sameBy_requireAttribute h (by decide)).bindEq fun fromRole => ?_
  refine (sameBy_requireAttribute h (by decide)).bindEq fun toRole => ?_
  refine (sameBy_readAccessors h).bindEq fun accesses => ?_
  dsimp only
  -- the three names are the same, so they are all there or not
  split
  · refine sameBy_pure ?_
    simp only [Option.map_some, NavigationProperty.withoutTexts]
    rw [hm]
  · exact sameBy_pure rfl

/-- A member of an entity type is read alike but for its annotations. -/
private theorem sameBy_readEntityMember (h : e.Padded e') :
    SameBy (Option.map EntityMember.withoutTexts) (EntityMember.read e) (EntityMember.read e') := by
  unfold EntityMember.read
  rw [h.localName_eq]
  split
  · refine (sameBy_readProperty h).bindOption (sameBy_pure rfl) fun p p' hp => sameBy_pure ?_
    simp only [Option.map_some, EntityMember.withoutTexts, hp]
  · split
    · refine (sameBy_readNavigationProperty h).bindOption (sameBy_pure rfl) fun n n' hn =>
        sameBy_pure ?_
      simp only [Option.map_some, EntityMember.withoutTexts, hn]
    · exact sameBy_pure rfl

/-! ### Declarations -/

/-- An enum type is read alike but for the texts in it. -/
theorem sameBy_readEnumType (h : e.Padded e') :
    SameBy (Option.map fun t => t.1.withoutTexts) (readEnumType e) (readEnumType e') := by
  refine (sameBy_readMetadata h).bindOption (sameBy_pure rfl) fun m m' hm => ?_
  refine (sameBy_readAttribute h ..).bindEq fun underlying => ?_
  refine (sameBy_readAttribute h ..).bindEq fun isFlags => ?_
  refine (SameBy.collect (h.namedChildren "Member") fun _ _ => sameBy_readEnumMember).bind
    fun members members' hmembers => sameBy_pure ?_
  -- what it bears is the same but for annotations, and so are its members
  simp only [Option.map_some, EnumType.withoutTexts]
  rw [hm, hmembers]

/-- A member of a complex type is read alike but for its annotations. -/
private theorem sameBy_readComplexMember (h : e.Padded e') :
    SameBy (Option.map fun p => p.1.withoutTexts) (readComplexMember e) (readComplexMember e') :=
  (sameBy_readProperty h).bindOption (sameBy_pure rfl) fun _ _ hp => sameBy_pure (congrArg some hp)

/-- A complex type is read alike but for the texts in it. -/
theorem sameBy_readComplexType (h : e.Padded e') :
    SameBy (Option.map fun t => t.1.withoutTexts) (readComplexType e) (readComplexType e') := by
  refine (sameBy_readMetadata h).bindOption (sameBy_pure rfl) fun m m' hm => ?_
  refine (SameBy.collect (h.namedChildren "Property") fun _ _ => sameBy_readComplexMember).bind
    fun properties properties' hproperties => sameBy_pure ?_
  simp only [Option.map_some, ComplexType.withoutTexts, List.map_map]
  rw [hm]
  exact congrArg _ (congrArg _ hproperties)

/-- A key is read alike. -/
private theorem sameBy_readKey (h : e.Padded e') :
    SameBy (Option.map Prod.fst) (readKey e) (readKey e') := by
  have hkey := h.child? "Key"
  unfold readKey
  generalize e.child? "Key" = key, e'.child? "Key" = key' at hkey ⊢
  cases hkey with
  | none => exact sameBy_pure rfl
  | some hk => exact (sameBy_readPropertyRefs hk).bindEq fun _ => sameBy_pure rfl

/-- An entity type is read alike but for the texts in it. -/
theorem sameBy_readEntityType (h : e.Padded e') :
    SameBy (Option.map fun t => t.1.withoutTexts) (readEntityType e) (readEntityType e') := by
  refine (sameBy_readMetadata h).bindOption (sameBy_pure rfl) fun m m' hm => ?_
  refine (sameBy_readAttribute h ..).bindEq fun isAbstract => ?_
  refine (sameBy_readAttribute h ..).bindEq fun access => ?_
  refine (sameBy_readKey h).bind fun key key' hkey => ?_
  refine (SameBy.collect h.children fun _ _ => sameBy_readEntityMember).bind
    fun members members' hmembers => sameBy_pure ?_
  -- members of both kinds are read in one pass and picked out behind it
  obtain ⟨hproperties, hnavigations⟩ := properties_eq_of_map_eq hmembers
  rw [attribute?_of_padded h (by decide)]
  simp only [Option.map_some, EntityType.withoutTexts]
  rw [hm, hkey, hproperties, hnavigations]

/-- An entity set is read alike but for its annotations. -/
private theorem sameBy_readEntitySet (h : e.Padded e') :
    SameBy (Option.map EntitySet.withoutTexts) (readEntitySet e) (readEntitySet e') := by
  refine (sameBy_readMetadata h).bindOption (sameBy_pure rfl) fun m m' hm => ?_
  refine (sameBy_requireAttribute h (by decide)).bindEq fun entityType => sameBy_pure ?_
  cases entityType with
  | none => rfl
  | some entityType =>
    simp only [Option.map_some, EntitySet.withoutTexts]
    rw [hm]

/-- An entity container is read alike but for the texts in it. -/
theorem sameBy_readEntityContainer (h : e.Padded e') :
    SameBy (Option.map fun c => c.1.withoutTexts) (readEntityContainer e)
      (readEntityContainer e') := by
  refine (sameBy_readMetadata h).bindOption (sameBy_pure rfl) fun m m' hm => ?_
  refine (sameBy_readAttribute h ..).bindEq fun lazyLoading => ?_
  refine (SameBy.collect (h.namedChildren "EntitySet") fun _ _ => sameBy_readEntitySet).bind
    fun sets sets' hsets => sameBy_pure ?_
  simp only [Option.map_some, EntityContainer.withoutTexts]
  rw [hm, hsets]

end

end EntityModel
