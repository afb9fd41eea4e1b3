import EntityModel.Proofs.ElementSpans
import EntityModel.Proofs.FaultCodes
import EntityModel.Proofs.LabelPlaces
import EntityModel.Proofs.RejectedDocuments
import EntityModel.Proofs.RepeatedNames

/-!
# Reports of duplicates

Names must be unique in groups: the types of a schema, its associations, its containers, the members
of each type.  A group is checked kind by kind, while a document may mix the kinds.  Each element
that is not the first of its name is reported once, with the first one; but first means first in the
order of checking, so in a group of several kinds an element can be reported as a repetition of one
that stands behind it.

* `NameGroup`, `nameGroups`     the groups of a schema element
* `filter_isDuplicate_validate` the reports are those of the groups, one after the other
* `duplicates_by_group`         when they are the reports in the order of the document
-/

namespace EntityModel

open Markup (Element)

/-! ### Elements with a record -/

/-- The element has a record: nothing that it needs is missing. -/
def isRecorded (x : Element) : Bool :=
  if x.localName = "Member" then (readEnumMember x).value.isSome
  else (Declaration.read x).value.isSome || (EntityMember.read x).value.isSome

section

variable {ρ σ : Type} {value : Element → Option ρ} {P : Element → ρ → σ → Prop}
  {xs : List Element} {rs : List ρ} {ps : List σ}

/-- What is made of records and places in step is made of the elements with a record. -/
theorem InStep.map_zip (h : InStep value P xs rs ps) {α : Type} {F : ρ × σ → α}
    {G : Element → α} (hkept : ∀ x ∈ xs, isRecorded x = (value x).isSome)
    (hF : ∀ x ∈ xs, ∀ r p, value x = some r → P x r p → F (r, p) = G x) :
    (rs.zip ps).map F = (xs.filter isRecorded).map G := by
  induction h with
  | nil => rfl
  | kept hr hp _ ih =>
    obtain ⟨hx, hrest⟩ := List.forall_mem_cons.mp hkept
    obtain ⟨hFx, hFrest⟩ := List.forall_mem_cons.mp hF
    rw [List.zip_cons_cons, List.map_cons, hFx _ _ hr hp, ih hrest hFrest,
      List.filter_cons_of_pos (by rw [hx, hr]; rfl), List.map_cons]
  | dropped hn _ ih =>
    -- an element without a record adds nothing on either side
    obtain ⟨hx, hrest⟩ := List.forall_mem_cons.mp hkept
    rw [ih hrest (List.forall_mem_cons.mp hF).2, List.filter_cons_of_neg (by simp [hx, hn])]

/-- The names and places of records are those of their elements. -/
theorem InStep.entries (h : InStep value P xs rs ps) (name : ρ → String) (place : σ → Span)
    (hkept : ∀ x ∈ xs, isRecorded x = (value x).isSome)
    (hat : ∀ x r p, value x = some r → P x r p → NameAt "Name" (name r, place p) x) :
    (rs.map name).zip (ps.map place) = (xs.filter isRecorded).map entry := by
  rw [List.zip_map]
  refine h.map_zip hkept fun x _ r p hr hp => ?_
  obtain ⟨hname, hplace⟩ := hat x r p hr hp
  simp only at hname hplace
  simp [entry, nameOf, hname, hplace]

end

/-- The kinds of element that records are made of. -/
inductive RecordKind where
  | enumType
  | complexType
  | entityType
  | association
  | entityContainer
  | property
  | navigationProperty
  | enumMember

namespace RecordKind

/-- The name of the elements of a kind. -/
def elementName : RecordKind → String
  | enumType => "EnumType"
  | complexType => "ComplexType"
  | entityType => "EntityType"
  | association => "Association"
  | entityContainer => "EntityContainer"
  | property => "Property"
  | navigationProperty => "NavigationProperty"
  | enumMember => "Member"

/-- Whether the reader of a kind makes a record of an element. -/
def makesRecord : RecordKind → Element → Bool
  | enumType, x => (readEnumType x).value.isSome
  | complexType, x => (readComplexType x).value.isSome
  | entityType, x => (readEntityType x).value.isSome
  | association, x => (readAssociation x).value.isSome
  | entityContainer, x => (readEntityContainer x).value.isSome
  | property, x => (readProperty x).value.isSome
  | navigationProperty, x => (readNavigationProperty x).value.isSome
  | enumMember, x => (readEnumMember x).value.isSome

end RecordKind

/-- An element has a record if the reader of its kind makes one. -/
theorem isRecorded_of_kind (kind : RecordKind) {x : Element}
    (h : x.localName = kind.elementName) : isRecorded x = kind.makesRecord x := by
  -- each kind has its own branch in the readers of declarations and members
  cases kind <;>
    simp [isRecorded, Declaration.read, EntityMember.read, h, RecordKind.elementName,
      RecordKind.makesRecord]

/-- What the reader of a kind makes of the children of that kind tells which have a record. -/
theorem forall_isRecorded {ρ : Type} (kind : RecordKind) {value : Element → Option ρ}
    (hvalue : ∀ x, kind.makesRecord x = (value x).isSome) (e : Element) :
    ∀ x ∈ e.namedChildren kind.elementName, isRecorded x = (value x).isSome := by
  intro x hx
  have hname : x.localName = kind.elementName := by simpa using (List.mem_filter.mp hx).2
  rw [isRecorded_of_kind kind hname, hvalue]

/-! ### Groups of names -/

/-- Children of some kinds whose names must be unique, and what is reported of one that is not the
    first of its name.  The kinds are in the order in which they are checked. -/
structure NameGroup where
  owner : Element
  kinds : List String
  fault : Element → Element → Fault

namespace NameGroup

/-- The elements of a group in the order in which they are checked. -/
def checked (g : NameGroup) : List Element :=
  g.kinds.flatMap fun kind => (g.owner.namedChildren kind).filter isRecorded

/-- The elements of a group in the order of the document. -/
def written (g : NameGroup) : List Element :=
  (g.owner.children.filter fun x => g.kinds.contains x.localName).filter isRecorded

/-- The declarations of some kinds. -/
def declarations (kind : DeclarationKind) (kinds : List String) (e : Element) : NameGroup :=
  ⟨e, kinds, fun x first => .duplicateDeclaration kind (nameOf x) x.span first.span⟩

/-- The members of a type. -/
def members (kinds : List String) (x : Element) : NameGroup :=
  ⟨x, kinds, fun y first => .duplicateMember (nameOf x) (nameOf y) y.span first.span⟩

/-- The members of an enum. -/
def enumMembers (x : Element) : NameGroup :=
  ⟨x, ["Member"], fun y first => .duplicateEnumMember (nameOf x) (nameOf y) y.span first.span⟩

end NameGroup

/-- The elements of a kind that have a record. -/
def recordedChildren (e : Element) (kind : String) : List Element :=
  (e.namedChildren kind).filter isRecorded

/-- The groups of a schema element. -/
def nameGroups (e : Element) : List NameGroup :=
  [NameGroup.declarations .type ["EntityType", "ComplexType", "EnumType"] e,
    NameGroup.declarations .association ["Association"] e,
    NameGroup.declarations .entityContainer ["EntityContainer"] e] ++
  (recordedChildren e "EntityType").map (NameGroup.members ["Property", "NavigationProperty"]) ++
  (recordedChildren e "ComplexType").map (NameGroup.members ["Property"]) ++
  (recordedChildren e "EnumType").map NameGroup.enumMembers

/-- What all groups have in common. -/
structure NameGroup.Regular (e : Element) (g : NameGroup) : Prop where
  contains : e.Contains g.owner
  kinds_nodup : g.kinds.Nodup
  tellsPlaces : TellsPlaces g.fault

/-- An element with a record stands in the owner of its group. -/
private theorem contains_of_mem_recordedChildren {e x : Element} {kind : String}
    (h : x ∈ recordedChildren e kind) : e.Contains x :=
  .single (mem_namedChildren (List.mem_filter.mp h).1)

/-- All groups are alike in what the counting of repetitions needs. -/
private theorem regular_of_mem_nameGroups {e : Element} : ∀ g ∈ nameGroups e, g.Regular e := by
  -- each of the three faults tells the place of the element and of the first of its name
  have htells : ∀ kind, TellsPlaces fun x first =>
      .duplicateDeclaration kind (nameOf x) x.span first.span := by
    intro kind x first y second h
    obtain ⟨-, -, hspan, hfirst⟩ := Fault.duplicateDeclaration.inj h
    exact ⟨hspan, hfirst⟩
  have hmembers : ∀ owner, TellsPlaces fun x first =>
      .duplicateMember owner (nameOf x) x.span first.span := by
    intro owner x first y second h
    obtain ⟨-, -, hspan, hfirst⟩ := Fault.duplicateMember.inj h
    exact ⟨hspan, hfirst⟩
  have henum : ∀ owner, TellsPlaces fun x first =>
      .duplicateEnumMember owner (nameOf x) x.span first.span := by
    intro owner x first y second h
    obtain ⟨-, -, hspan, hfirst⟩ := Fault.duplicateEnumMember.inj h
    exact ⟨hspan, hfirst⟩
  simp only [nameGroups, List.forall_mem_append, List.forall_mem_map]
  refine ⟨⟨⟨?_, ?_⟩, ?_⟩, ?_⟩
  -- the three groups of declarations
  · simp only [List.forall_mem_cons]
    exact ⟨⟨e.contains_self, by simp [NameGroup.declarations], htells _⟩,
      ⟨e.contains_self, List.nodup_singleton _, htells _⟩,
      ⟨e.contains_self, List.nodup_singleton _, htells _⟩, nofun⟩
  -- members of entity types, of complex types and of enum types
  · exact fun x hx => ⟨contains_of_mem_recordedChildren hx, by simp [NameGroup.members],
      hmembers _⟩
  · exact fun x hx => ⟨contains_of_mem_recordedChildren hx, List.nodup_singleton _, hmembers _⟩
  · exact fun x hx => ⟨contains_of_mem_recordedChildren hx, List.nodup_singleton _, henum _⟩

/-! ### Both orders of a group -/

/-- The children of some kinds, kind by kind, are all children of these kinds. -/
private theorem perm_filter_kinds {kinds : List String} (hkinds : kinds.Nodup) (xs : List Element) :
    (kinds.flatMap fun kind => xs.filter fun x => x.localName == kind).Perm
      (xs.filter fun x => kinds.contains x.localName) := by
  induction kinds with
  | nil => simp
  | cons kind kinds ih =>
    obtain ⟨hnot, hrest⟩ := List.nodup_cons.mp hkinds
    rw [List.flatMap_cons]
    -- children of the first kind and of the others make up the children of all kinds
    have hsplit := List.filter_append_perm (fun x : Element => x.localName == kind)
      (xs.filter fun x => (kind :: kinds).contains x.localName)
    refine .trans (.append ?_ ((ih hrest).trans ?_)) hsplit
    -- of the kinds in question the first one leaves its own children
    · rw [List.filter_filter]
      refine .of_eq (List.filter_congr fun x _ => ?_)
      by_cases hx : x.localName = kind <;> simp [hx]
    -- and the other kinds leave the rest
    · rw [List.filter_filter]
      refine .of_eq (List.filter_congr fun x _ => ?_)
      by_cases hx : x.localName = kind
      · simp [hx, hnot]
      · simp [hx]

/-- Checking goes through the elements of a group in an order of its own. -/
private theorem NameGroup.checked_perm_written {g : NameGroup} (h : g.kinds.Nodup) :
    g.checked.Perm g.written := by
  have hperm := (perm_filter_kinds h g.owner.children).filter isRecorded
  rw [List.filter_flatMap] at hperm
  exact hperm

/-- A group of one kind is checked in the order of the document. -/
private theorem NameGroup.checked_eq_written {g : NameGroup} {kind : String}
    (h : g.kinds = [kind]) : g.checked = g.written := by
  -- for a single kind both ways of choosing the children are the same
  have hkind : (g.owner.children.filter fun x => g.kinds.contains x.localName) =
      g.owner.namedChildren kind := by
    refine List.filter_congr fun x _ => ?_
    simp [h, beq_eq_decide]
  rw [checked, written, hkind, h, List.flatMap_singleton]

/-- The elements of a group stand among the children of its owner in their order. -/
private theorem NameGroup.written_sublist (g : NameGroup) : g.written.Sublist g.owner.children :=
  List.filter_sublist.trans List.filter_sublist

/-- The elements of a group are at places of their own in either order. -/
private theorem NameGroup.distinct_checked {g : NameGroup} (h : g.kinds.Nodup)
    (hspans : DistinctSpans g.owner.children) : DistinctSpans g.checked :=
  (hspans.of_sublist g.written_sublist).perm (checked_perm_written h).symm

/-! ### What is checked -/

section

variable {e : Element} {s : Schema} {m : SourceMap}

/-- The names of the types are those of the elements that are types. -/
private theorem typeNames_eq (h : m.Follows e s) :
    typeNames s m =
      (NameGroup.declarations .type ["EntityType", "ComplexType", "EnumType"] e).checked.map
        entry := by
  -- the three kinds of type, each with its own list of records and places
  rw [typeNames, NameGroup.checked,
    h.entityTypes.entries _ _ (forall_isRecorded .entityType (fun _ => Option.isSome_map.symm) e),
    h.complexTypes.entries _ _ (forall_isRecorded .complexType (fun _ => Option.isSome_map.symm) e),
    h.enumTypes.entries _ _ (forall_isRecorded .enumType (fun _ => Option.isSome_map.symm) e)]
  · simp [NameGroup.declarations]
  -- the name of a record is that of its element, and its place is the span of the element
  · exact fun x t p ht hp => ⟨(records_of_value accounts_readEnumType ht).name, hp.span⟩
  · exact fun x t p ht hp => ⟨(records_of_value accounts_readComplexType ht).name, hp.span⟩
  · exact fun x t p ht hp => ⟨(records_of_value accounts_readEntityType ht).name, hp.span⟩

/-- The names of the associations are those of their elements. -/
private theorem associationNames_eq (h : m.Follows e s) :
    associationNames s m =
      (NameGroup.declarations .association ["Association"] e).checked.map entry := by
  rw [associationNames, NameGroup.checked,
    h.associations.entries _ _ (forall_isRecorded .association (fun _ => Option.isSome_map.symm) e)]
  · simp [NameGroup.declarations]
  · exact fun x a p ha hp => ⟨(records_of_value accounts_readAssociation ha).name, hp.span⟩

/-- The names of the containers are those of their elements. -/
private theorem containerNames_eq (h : m.Follows e s) :
    containerNames s m =
      (NameGroup.declarations .entityContainer ["EntityContainer"] e).checked.map entry := by
  have hentries := h.entityContainers.entries (·.name) id
    (forall_isRecorded .entityContainer (fun _ => Option.isSome_map.symm) e)
    fun x c p hc hp => ⟨(records_of_value accounts_readEntityContainer hc).name, hp⟩
  -- the source map holds the places of containers as they are
  rw [List.map_id] at hentries
  rw [containerNames, hentries, NameGroup.checked]
  simp [NameGroup.declarations]

/-- Places of members are spans, so their names are entries as they stand. -/
theorem entries_members {ρ : Type} {value : Element → Option ρ} {name : ρ → String}
    (kind : RecordKind) {x : Element} {rs : List ρ} {ps : List Span}
    (h : InStep value AtElement (x.namedChildren kind.elementName) rs ps)
    (hvalue : ∀ y, kind.makesRecord y = (value y).isSome)
    (hname : ∀ y r, value y = some r → BearsName y (name r)) :
    (rs.map name).zip ps = (recordedChildren x kind.elementName).map entry := by
  have hentries := h.entries name id (forall_isRecorded kind hvalue x)
    fun y r p hr hp => ⟨hname y r hr, hp⟩
  rwa [List.map_id] at hentries

/-- The names of properties are those of their elements. -/
private theorem properties_eq {x : Element} {properties : List Property} {places : List Span}
    (h : InStep (fun y => (readProperty y).value) AtElement (x.namedChildren "Property") properties
      places) :
    (properties.map (·.name)).zip places = (recordedChildren x "Property").map entry :=
  entries_members .property h (fun _ => rfl) fun y _ hp => ((accounts_readProperty y).records hp).name

/-- The names of the members of an entity type are those of their elements, properties first. -/
private theorem entityMemberNames_eq {x : Element} {t : EntityType} {p : TypeSpans}
    (h : p.LocatesEntity x t) :
    entityMemberNames t p =
      (NameGroup.members ["Property", "NavigationProperty"] x).checked.map entry := by
  have hnavigation : (t.navigationProperties.map (·.name)).zip p.navigationProperties =
      (recordedChildren x "NavigationProperty").map entry :=
    entries_members .navigationProperty h.navigationProperties (fun _ => rfl)
      fun y _ hn => ((accounts_readNavigationProperty y).records hn).name
  rw [entityMemberNames, properties_eq h.properties, hnavigation]
  simp [NameGroup.members, NameGroup.checked, recordedChildren]

/-- The names of the members of a complex type are those of its properties. -/
private theorem complexMemberNames_eq {x : Element} {t : ComplexType} {p : TypeSpans}
    (h : p.LocatesComplex x t) :
    complexMemberNames t p = (NameGroup.members ["Property"] x).checked.map entry := by
  rw [complexMemberNames, properties_eq h.properties]
  simp [NameGroup.members, NameGroup.checked, recordedChildren]

/-- The names of the members of an enum are those of their elements. -/
private theorem enumMemberNames_eq {x : Element} {t : EnumType} {p : EnumSpans}
    (h : p.Locates x t) : enumMemberNames t p = (NameGroup.enumMembers x).checked.map entry := by
  rw [enumMemberNames, entries_members .enumMember h.members (fun _ => Option.isSome_map.symm)
    fun _ _ hm => records_of_value accounts_readEnumMember hm]
  simp [NameGroup.enumMembers, NameGroup.checked, recordedChildren, RecordKind.elementName]

/-! ### What is reported -/

/-- The reports on a group, in the order of checking. -/
def NameGroup.faults (g : NameGroup) : List Fault := repetitionFaults g.fault g.checked

/-- All children of elements in this one are at places of their own. -/
def DistinctPlaces (e : Element) : Prop := ∀ x, e.Contains x → DistinctSpans x.children

/-- Repetitions of names are repetitions of elements. -/
private theorem NameGroup.repeated_checked {g : NameGroup} (hg : g.Regular e)
    (h : DistinctPlaces e) : repeated (g.checked.map entry) =
      (repetitions g.checked).map fun p => ⟨nameOf p.1, p.1.span, p.2.span⟩ :=
  repeated_entries (distinct_checked hg.kinds_nodup (h _ hg.contains))

/-- The reports on declarations are those of the three groups of declarations. -/
private theorem declarationFaults_eq (hm : m.Follows e s) (h : DistinctPlaces e) :
    declarationFaults s m =
      [NameGroup.declarations .type ["EntityType", "ComplexType", "EnumType"] e,
        .declarations .association ["Association"] e,
        .declarations .entityContainer ["EntityContainer"] e].flatMap NameGroup.faults := by
  -- repetitions of names become reports of the group
  have hgroup : ∀ kind kinds, .declarations kind kinds e ∈ nameGroups e →
      duplicateDeclarations kind ((NameGroup.declarations kind kinds e).checked.map entry) =
        (NameGroup.declarations kind kinds e).faults := by
    intro kind kinds hg
    rw [duplicateDeclarations, NameGroup.repeated_checked (regular_of_mem_nameGroups _ hg) h,
      List.map_map]
    rfl
  rw [declarationFaults, typeNames_eq hm, associationNames_eq hm, containerNames_eq hm,
    hgroup _ _ (by simp [nameGroups]), hgroup _ _ (by simp [nameGroups]),
    hgroup _ _ (by simp [nameGroups])]
  simp

/-- The reports on the members of one type. -/
theorem duplicateMembers_eq {x : Element} {kinds : List String} {name : String}
    (hname : BearsName x name) (hg : (NameGroup.members kinds x).Regular e)
    (h : DistinctPlaces e) :
    duplicateMembers name ((NameGroup.members kinds x).checked.map entry) =
      (NameGroup.members kinds x).faults := by
  -- the type bears the name that its members are reported under
  have hown : nameOf x = name := by
    rw [nameOf, hname]
    rfl
  rw [duplicateMembers, NameGroup.repeated_checked hg h, List.map_map, ← hown]
  rfl

/-- What is reported of the members of records is reported of the groups of their elements. -/
theorem InStep.flatMap_faults {ρ σ : Type} (kind : RecordKind) {value : Element → Option ρ}
    {P : Element → ρ → σ → Prop} {rs : List ρ} {ps : List σ} {F : ρ × σ → List Fault}
    {group : Element → NameGroup} (h : InStep value P (e.namedChildren kind.elementName) rs ps)
    (hvalue : ∀ x, kind.makesRecord x = (value x).isSome)
    (hF : ∀ x ∈ recordedChildren e kind.elementName, ∀ r p, value x = some r → P x r p →
      F (r, p) = (group x).faults) :
    (rs.zip ps).flatMap F =
      ((recordedChildren e kind.elementName).map group).flatMap NameGroup.faults := by
  -- record by record, each of which belongs to an element
  have hmap : (rs.zip ps).map F =
      (recordedChildren e kind.elementName).map fun x => (group x).faults := by
    refine h.map_zip (forall_isRecorded kind hvalue e) fun x hx r p hr hp => hF x ?_ r p hr hp
    refine List.mem_filter.mpr ⟨hx, ?_⟩
    rw [forall_isRecorded kind hvalue e x hx, hr]
    rfl
  rw [List.flatMap_def, hmap, List.flatMap_map, List.flatMap_def]

/-- The reports on members are those of the groups of both kinds of type. -/
private theorem memberFaults_eq (hm : m.Follows e s) (h : DistinctPlaces e) :
    memberFaults s m =
      ((recordedChildren e "EntityType").map
          (NameGroup.members ["Property", "NavigationProperty"]) ++
        (recordedChildren e "ComplexType").map (NameGroup.members ["Property"])).flatMap
          NameGroup.faults := by
  rw [memberFaults, List.flatMap_append]
  congr 1
  -- entity types first
  · refine InStep.flatMap_faults .entityType hm.entityTypes (fun _ => Option.isSome_map.symm) ?_
    intro x hx t p ht hp
    have hgroup : .members ["Property", "NavigationProperty"] x ∈ nameGroups e := by
      simp only [nameGroups, List.mem_append, List.mem_map]
      exact .inl (.inl (.inr ⟨x, hx, rfl⟩))
    dsimp only
    rw [entityMemberNames_eq hp]
    exact duplicateMembers_eq (records_of_value accounts_readEntityType ht).name
      (regular_of_mem_nameGroups _ hgroup) h
  -- then complex types
  · refine InStep.flatMap_faults .complexType hm.complexTypes (fun _ => Option.isSome_map.symm) ?_
    intro x hx t p ht hp
    have hgroup : .members ["Property"] x ∈ nameGroups e := by
      simp only [nameGroups, List.mem_append, List.mem_map]
      exact .inl (.inr ⟨x, hx, rfl⟩)
    dsimp only
    rw [complexMemberNames_eq hp]
    exact duplicateMembers_eq (records_of_value accounts_readComplexType ht).name
      (regular_of_mem_nameGroups _ hgroup) h

/-- The reports on members of enums are those of the groups of enum types. -/
private theorem enumMemberFaults_eq (hm : m.Follows e s) (h : DistinctPlaces e) :
    enumMemberFaults s m =
      ((recordedChildren e "EnumType").map .enumMembers).flatMap NameGroup.faults := by
  refine InStep.flatMap_faults .enumType hm.enumTypes (fun _ => Option.isSome_map.symm) ?_
  intro x hx t p ht hp
  have hgroup : .enumMembers x ∈ nameGroups e := by
    simp only [nameGroups, List.mem_append, List.mem_map]
    exact .inr ⟨x, hx, rfl⟩
  -- the reports name the enum
  have hown : nameOf x = t.name := by
    rw [nameOf, (records_of_value accounts_readEnumType ht).name]
    rfl
  dsimp only
  rw [enumMemberNames_eq hp, duplicateEnumMembers,
    NameGroup.repeated_checked (regular_of_mem_nameGroups _ hgroup) h, List.map_map, ← hown]
  rfl

/-- The codes of duplicates. -/
def duplicateCodes : List Diagnostic.Code :=
  [.duplicateDeclaration, .duplicateMember, .duplicateEnumMember]

/-- The fault is one of duplicates. -/
def isDuplicate (f : Fault) : Bool := duplicateCodes.contains f.code

/-- Among duplicates all are kept. -/
private theorem filter_isDuplicate_eq_self {faults : List Fault}
    (h : ∀ f ∈ faults, f.code ∈ duplicateCodes) : faults.filter isDuplicate = faults :=
  List.filter_eq_self.mpr fun f hf => List.contains_iff_mem.mpr (h f hf)

/-- Among other faults none is. -/
private theorem filter_isDuplicate_eq_nil {faults : List Fault}
    (h : ∀ f ∈ faults, f.code ∉ duplicateCodes) : faults.filter isDuplicate = [] :=
  List.filter_eq_nil_iff.mpr fun f hf hmem => h f hf (List.contains_iff_mem.mp hmem)

/-- The duplicates that the rules report are those of the groups, one after the other. -/
theorem filter_isDuplicate_validate (hm : m.Follows e s) (h : DistinctPlaces e) :
    (validate s m).filter isDuplicate = (nameGroups e).flatMap NameGroup.faults := by
  -- equal and unknown roles have codes of their own
  have hroles : ∀ f ∈ roleFaults s m, f.code ∉ duplicateCodes := by
    intro f hf
    rcases code_of_mem_roleFaults hf with hcode | hcode <;> rw [hcode] <;> decide
  simp only [validate, List.filter_append]
  -- three of the seven groups of rules report duplicates, and they report nothing else
  rw [filter_isDuplicate_eq_self fun f hf => code_of_mem_declarationFaults hf ▸ by decide,
    filter_isDuplicate_eq_self fun f hf => code_of_mem_memberFaults hf ▸ by decide,
    filter_isDuplicate_eq_nil hroles,
    filter_isDuplicate_eq_nil fun f hf => code_of_mem_keyFaults hf ▸ by decide,
    filter_isDuplicate_eq_self fun f hf => code_of_mem_enumMemberFaults hf ▸ by decide,
    filter_isDuplicate_eq_nil fun f hf => code_of_mem_inheritanceFaults hf ▸ by decide,
    filter_isDuplicate_eq_nil fun f hf => code_of_mem_nameFaults hf ▸ by decide,
    declarationFaults_eq hm h, memberFaults_eq hm h, enumMemberFaults_eq hm h]
  simp only [nameGroups, List.flatMap_append, List.append_nil, List.append_assoc]

end

/-! ### Readings without a fault -/

/-- The names of elements that declare something. -/
def declarationKinds : List String :=
  ["EntityType", "ComplexType", "EnumType", "Association", "EntityContainer"]

/-- A reader that reports nothing leaves nothing out. -/
theorem Accounts.isSome {ρ : Type} {R : (Element → Prop) → Element → ρ → Prop}
    {r : Reading (Option ρ)} {x : Element} (h : Accounts R r x) (hnil : r.faults = []) :
    r.value.isSome = true := by
  cases hvalue : r.value with
  | some a => rfl
  -- an element that is left out is blamed in some fault
  | none =>
    obtain ⟨f, hf, -⟩ := h.none_blamed hvalue
    rw [hnil] at hf
    exact absurd hf List.not_mem_nil

/-- If a list is read without a fault, each of its elements is. -/
theorem faults_eq_nil_of_collect {α : Type} {read : Element → Reading (Option α)}
    {xs : List Element} {x : Element} (h : (Reading.collect read xs).faults = []) (hx : x ∈ xs) :
    (read x).faults = [] := by
  rw [Reading.faults_collect, List.flatMap_eq_nil_iff] at h
  exact h x hx

section

variable {x y : Element}

/-- An element that is read without a fault has a name. -/
theorem exists_name_of_faults_eq_nil {α : Type} {next : Option Metadata → Reading α}
    (h : (readMetadata x >>= next).faults = []) : ∃ name, x.attribute? "Name" = some name := by
  cases hname : x.attribute? "Name" with
  | some name => exact ⟨name, rfl⟩
  | none =>
    rw [readMetadata_of_none hname] at h
    exact nomatch (List.append_eq_nil_iff.mp h).1

/-- If a schema is read without a fault, each of its children is. -/
private theorem faults_declaration_eq_nil {e : Element} (h : (Schema.read e).faults = [])
    (hx : x ∈ e.children) : (Declaration.read x).faults = [] := by
  simp only [Schema.read, Reading.faults_bind, List.append_eq_nil_iff] at h
  exact faults_eq_nil_of_collect h.2.1 hx

/-- A declaration that is read without a fault has a record. -/
private theorem isRecorded_declaration (h : (Declaration.read x).faults = [])
    (hkind : x.localName ∈ declarationKinds) : isRecorded x = true := by
  simp only [declarationKinds, List.mem_cons, List.not_mem_nil, or_false] at hkind
  rcases hkind with hx | hx | hx | hx | hx
  -- the five kinds, each with the reader of its own
  · rw [isRecorded_of_kind .entityType hx]
    exact (accounts_readEntityType x).isSome (by simpa [Declaration.read, hx] using h)
  · rw [isRecorded_of_kind .complexType hx]
    exact (accounts_readComplexType x).isSome (by simpa [Declaration.read, hx] using h)
  · rw [isRecorded_of_kind .enumType hx]
    exact (accounts_readEnumType x).isSome (by simpa [Declaration.read, hx] using h)
  · rw [isRecorded_of_kind .association hx]
    exact (accounts_readAssociation x).isSome (by simpa [Declaration.read, hx] using h)
  · rw [isRecorded_of_kind .entityContainer hx]
    exact (accounts_readEntityContainer x).isSome (by simpa [Declaration.read, hx] using h)

/-- A member of an entity type that is read without a fault has a record. -/
private theorem isRecorded_entityMember (hx : x.localName = "EntityType")
    (h : (Declaration.read x).faults = []) (hy : y ∈ x.children)
    (hkind : y.localName ∈ ["Property", "NavigationProperty"]) : isRecorded y = true := by
  have hnil : (readEntityType x).faults = [] := by simpa [Declaration.read, hx] using h
  unfold readEntityType at hnil
  obtain ⟨name, hname⟩ := exists_name_of_faults_eq_nil hnil
  rw [readMetadata_of_some hname] at hnil
  simp only [Reading.faults_bind, Reading.value_pure, List.append_eq_nil_iff] at hnil
  -- both kinds of member are read in one pass over all children
  have hread := faults_eq_nil_of_collect hnil.2.2.2.2.1 hy
  simp only [List.mem_cons, List.not_mem_nil, or_false] at hkind
  rcases hkind with hk | hk
  · rw [isRecorded_of_kind .property hk]
    exact (accounts_readProperty y).isSome (by simpa [EntityMember.read, hk] using hread)
  · rw [isRecorded_of_kind .navigationProperty hk]
    exact (accounts_readNavigationProperty y).isSome (by simpa [EntityMember.read, hk] using hread)

/-- A property of a complex type that is read without a fault has a record. -/
private theorem isRecorded_complexMember (hx : x.localName = "ComplexType")
    (h : (Declaration.read x).faults = []) (hy : y ∈ x.children) (hkind : y.localName = "Property") :
    isRecorded y = true := by
  have hnil : (readComplexType x).faults = [] := by simpa [Declaration.read, hx] using h
  unfold readComplexType at hnil
  obtain ⟨name, hname⟩ := exists_name_of_faults_eq_nil hnil
  rw [readMetadata_of_some hname] at hnil
  simp only [Reading.faults_bind, Reading.value_pure, List.append_eq_nil_iff] at hnil
  have hread := faults_eq_nil_of_collect hnil.2.1 (List.mem_filter.mpr ⟨hy, by simpa using hkind⟩)
  rw [isRecorded_of_kind .property hkind]
  exact (accounts_readProperty y).isSome (by simpa [readComplexMember] using hread)

/-- A member of an enum that is read without a fault has a record. -/
private theorem isRecorded_memberOfEnum (hx : x.localName = "EnumType")
    (h : (Declaration.read x).faults = []) (hy : y ∈ x.children) (hkind : y.localName = "Member") :
    isRecorded y = true := by
  have hnil : (readEnumType x).faults = [] := by simpa [Declaration.read, hx] using h
  unfold readEnumType at hnil
  obtain ⟨name, hname⟩ := exists_name_of_faults_eq_nil hnil
  rw [readMetadata_of_some hname] at hnil
  simp only [Reading.faults_bind, Reading.value_pure, List.append_eq_nil_iff] at hnil
  have hread := faults_eq_nil_of_collect hnil.2.2.2.1
    (List.mem_filter.mpr ⟨hy, by simpa using hkind⟩)
  rw [isRecorded_of_kind .enumMember hkind]
  exact (accounts_readEnumMember y).isSome hread

end

/-- Where reading reports nothing, the groups hold all children of their kinds. -/
private theorem isRecorded_of_faults_eq_nil {e : Element} (h : (Schema.read e).faults = []) :
    ∀ g ∈ nameGroups e, ∀ x ∈ g.owner.children, x.localName ∈ g.kinds → isRecorded x = true := by
  have howner : ∀ kind, ∀ x ∈ recordedChildren e kind,
      x.localName = kind ∧ (Declaration.read x).faults = [] := by
    intro kind x hx
    have hchild := (List.mem_filter.mp hx).1
    refine ⟨by simpa using (List.mem_filter.mp hchild).2, ?_⟩
    exact faults_declaration_eq_nil h (mem_namedChildren hchild)
  simp only [nameGroups, List.forall_mem_append, List.forall_mem_map]
  refine ⟨⟨⟨?_, ?_⟩, ?_⟩, ?_⟩
  -- declarations
  · intro g hg x hx hkind
    simp only [List.mem_cons, List.not_mem_nil, or_false] at hg
    have howner : g.owner = e := by obtain rfl | rfl | rfl := hg <;> rfl
    have hkinds : g.kinds ⊆ declarationKinds := by
      obtain rfl | rfl | rfl := hg <;> simp [NameGroup.declarations, declarationKinds]
    rw [howner] at hx
    exact isRecorded_declaration (faults_declaration_eq_nil h hx) (hkinds hkind)
  -- members of an entity type
  · intro x hx y hy hkind
    exact isRecorded_entityMember (howner _ x hx).1 (howner _ x hx).2 hy hkind
  -- members of a complex type
  · intro x hx y hy hkind
    exact isRecorded_complexMember (howner _ x hx).1 (howner _ x hx).2 hy
      (List.mem_singleton.mp hkind)
  -- members of an enum
  · intro x hx y hy hkind
    exact isRecorded_memberOfEnum (howner _ x hx).1 (howner _ x hx).2 hy
      (List.mem_singleton.mp hkind)

/-! ### Documents -/

/-- The schema element of a document stands in its root. -/
private theorem exists_root_of_schemaElement {source : String} {e : Element}
    (h : Model.schemaElement source = .ok e) :
    ∃ root, Markup.parse source = .ok root ∧ root.Contains e := by
  unfold Model.schemaElement at h
  cases hroot : Markup.parse source with
  | error f =>
    rw [hroot] at h
    exact nomatch h
  | ok root =>
    rw [hroot] at h
    dsimp only at h
    -- the root is the schema element or holds it
    cases he : schemaElement? root with
    | none =>
      rw [he] at h
      exact nomatch h
    | some s =>
      rw [he] at h
      obtain rfl := Except.ok.inj h
      exact ⟨root, rfl, contains_of_schemaElement? he⟩

/-- The children of the elements of a document end one after the other. -/
theorem pairwise_stop_lt {source : String} {e x : Element}
    (h : Model.schemaElement source = .ok e) (hx : e.Contains x) :
    x.children.Pairwise fun a b => a.span.stop < b.span.stop := by
  obtain ⟨root, hroot, he⟩ := exists_root_of_schemaElement h
  exact Markup.pairwise_stop_lt_of_parse hroot (he.trans hx)

/-- All children of the elements of a document are at places of their own. -/
private theorem distinctPlaces_of_schemaElement {source : String} {e : Element}
    (h : Model.schemaElement source = .ok e) : DistinctPlaces e := by
  intro x hx
  -- two elements at one place would end there both
  refine List.pairwise_map.mpr ((pairwise_stop_lt h hx).imp fun hlt heq => ?_)
  rw [heq] at hlt
  exact absurd hlt (Nat.lt_irrefl _)

/-- The duplicates that are reported of a document are those of its groups, in the order in which
    each group is checked.  Each name is reported as often as in the order of the document, but the
    reports are the same exactly if the first element of each name is the same in both orders; so it
    is in a group of one kind.  The groups hold all elements of their kinds, if all of them could be
    read. -/
theorem duplicates_by_group {source : String} {e : Element}
    (h : Model.schemaElement source = .ok e) :
    (validate (Schema.read e).value.1 (Schema.read e).value.2).filter isDuplicate =
      (nameGroups e).flatMap (fun g => repetitionFaults g.fault g.checked) ∧
    ∀ g ∈ nameGroups e,
      g.written.Sublist g.owner.children ∧
      (g.written.Pairwise fun a b => a.span.stop < b.span.stop) ∧
      ((Schema.read e).faults = [] →
        ∀ x ∈ g.owner.children, x.localName ∈ g.kinds → x ∈ g.written) ∧
      (((repetitions g.checked).map fun p => nameOf p.1).Perm
        ((repetitions g.written).map fun p => nameOf p.1)) ∧
      ((repetitionFaults g.fault g.checked).Perm (repetitionFaults g.fault g.written) ↔
        ∀ x ∈ g.written, firstNamed g.checked x = firstNamed g.written x) ∧
      (∀ kind, g.kinds = [kind] → g.checked = g.written) := by
  have hplaces := distinctPlaces_of_schemaElement h
  refine ⟨filter_isDuplicate_validate (follows_read e) hplaces, fun g hg => ?_⟩
  have hregular := regular_of_mem_nameGroups g hg
  have hsub := g.written_sublist
  have hdistinct := (hplaces _ hregular.contains).of_sublist hsub
  have hperm := NameGroup.checked_perm_written hregular.kinds_nodup
  refine ⟨hsub, (pairwise_stop_lt h hregular.contains).sublist hsub, ?_,
    perm_names_repetitions hdistinct hperm, ?_, ?_⟩
  -- what is read without a fault has a record, so it is in the group
  · intro hnil x hx hkind
    have hrecorded := isRecorded_of_faults_eq_nil hnil g hg x hx hkind
    exact List.mem_filter.mpr
      ⟨List.mem_filter.mpr ⟨hx, List.contains_iff_mem.mpr hkind⟩, hrecorded⟩
  · exact perm_faults_iff hregular.tellsPlaces hdistinct hperm
  · exact fun kind hkind => NameGroup.checked_eq_written hkind

/-- A complex type before an entity type of the same name. -/
def mixedDocument : String :=
  "<Schema Namespace='N'><ComplexType Name='A'/><EntityType Name='A'/></Schema>"

/-- An element of the given kind with the name that both types have. -/
def typeElement (kind : String) (span : Span) : Element :=
  ⟨⟨none, kind⟩, [⟨⟨none, "Name"⟩, "A"⟩], [], "", span⟩

/-- The complex type of the document. -/
def mixedComplexType : Element := typeElement "ComplexType" ⟨22, 45, by omega⟩

/-- The entity type of the document. -/
def mixedEntityType : Element := typeElement "EntityType" ⟨45, 67, by omega⟩

/-- The schema element of the document. -/
def mixedElement : Element :=
  ⟨⟨none, "Schema"⟩, [⟨⟨none, "Namespace"⟩, "N"⟩], [mixedComplexType, mixedEntityType], "",
    ⟨0, 76, by omega⟩⟩

/-- The schema element of the document with two types of one name. -/
private theorem schemaElement_mixedDocument :
    Model.schemaElement mixedDocument = .ok mixedElement := by
  cbv

/-- The types of the document. -/
def mixedTypes : NameGroup :=
  .declarations .type ["EntityType", "ComplexType", "EnumType"] mixedElement

/-- One repetition is reported, but it is that of the type which stands first. -/
theorem mixed_types_are_reported_in_checking_order :
    ((repetitions mixedTypes.checked).map fun p => nameOf p.1).Perm
      ((repetitions mixedTypes.written).map fun p => nameOf p.1) ∧
    ¬ (repetitionFaults mixedTypes.fault mixedTypes.checked).Perm
      (repetitionFaults mixedTypes.fault mixedTypes.written) := by
  obtain ⟨-, hgroups⟩ := duplicates_by_group schemaElement_mixedDocument
  obtain ⟨-, -, -, hnames, hsame, -⟩ := hgroups mixedTypes List.mem_cons_self
  refine ⟨hnames, fun hperm => ?_⟩
  -- the group in both orders
  have hwritten : mixedTypes.written = [mixedComplexType, mixedEntityType] := by cbv
  have hchecked : mixedTypes.checked = [mixedEntityType, mixedComplexType] := by cbv
  -- the entity type is the first of its name in one order and the second in the other one
  have hleft : (firstNamed [mixedEntityType, mixedComplexType] mixedEntityType).map
      (·.span.start) = some 45 := by cbv
  have hright : (firstNamed [mixedComplexType, mixedEntityType] mixedEntityType).map
      (·.span.start) = some 22 := by cbv
  have hfirst := hsame.mp hperm mixedEntityType
  rw [hwritten, hchecked] at hfirst
  rw [hfirst (by simp), hright] at hleft
  exact absurd hleft (by decide)

/-- The duplicates that are reported need not be those in the order of the document. -/
theorem duplicate_may_be_reported_at_first :
    ¬ (∀ source e, Model.schemaElement source = .ok e →
      ((validate (Schema.read e).value.1 (Schema.read e).value.2).filter isDuplicate).Perm
        ((nameGroups e).flatMap fun g => repetitionFaults g.fault g.written)) := by
  intro h
  have hperm := h _ _ schemaElement_mixedDocument
  -- the type that stands first is the one reported
  have hchecked : (nameGroups mixedElement).flatMap NameGroup.faults =
      [.duplicateDeclaration .type "A" ⟨22, 45, by omega⟩ ⟨45, 67, by omega⟩] := by cbv
  -- while in the order of the document it would be the other one
  have hwritten : (nameGroups mixedElement).flatMap (fun g => repetitionFaults g.fault g.written) =
      [.duplicateDeclaration .type "A" ⟨45, 67, by omega⟩ ⟨22, 45, by omega⟩] := by cbv
  rw [filter_isDuplicate_validate (follows_read mixedElement)
    (distinctPlaces_of_schemaElement schemaElement_mixedDocument), hchecked, hwritten] at hperm
  exact absurd (List.perm_singleton.mp hperm) (by decide)

end EntityModel
