import EntityModel.Model
import EntityModel.Proofs.Nesting
import Mathlib.Data.List.Basic

/-!
# Places of faults

A fault points at its own place and at those of its contexts.  What a reader reports lies at the
elements that it reads, and so do the places in the source map; a check along the source map points
at nothing else.  So whatever is true of the spans of all elements is true of every place that a
fault points at.

* `pointsTo_readSchema`   what is reported and kept of a schema lies at its elements
* `pointsTo_validate`     what the rules of a schema report lies at places of its source map
* `pointsTo_faultsOf`     both together
-/

namespace EntityModel

open Markup (Element)

variable {P : Span → Prop}

/-! ### What points where -/

/-- The fault points only at spans of this kind. -/
def Fault.PointsTo (P : Span → Prop) (f : Fault) : Prop :=
  P f.span ∧ ∀ c ∈ f.contexts, P c.1

/-- The element and all in it have spans of this kind. -/
def Markup.Element.AllSpans (P : Span → Prop) (e : Element) : Prop :=
  ∀ x, e.Contains x → P x.span

/-- A reading reports only faults that point to spans of this kind, and its value is as said. -/
structure Reading.PointsTo (P : Span → Prop) {α : Type} (V : α → Prop) (r : Reading α) : Prop where
  faults : ∀ f ∈ r.faults, f.PointsTo P
  value : V r.value

/-- A reading points to spans of this kind, whatever its value. -/
abbrev Reading.Points (P : Span → Prop) {α : Type} (r : Reading α) : Prop :=
  r.PointsTo P fun _ => True

/-- A fault without contexts points to its place. -/
theorem Fault.pointsTo_of_span {f : Fault} (h : P f.span) (hc : f.contexts = []) : f.PointsTo P :=
  ⟨h, by rw [hc]; exact fun _ h => absurd h List.not_mem_nil⟩

/-- The element itself has such a span. -/
private theorem Markup.Element.AllSpans.self {e : Element} (h : e.AllSpans P) : P e.span :=
  h e e.contains_self

/-- What stands in the element has such spans too. -/
theorem Markup.Element.AllSpans.of_contains {e x : Element} (h : e.AllSpans P)
    (hx : e.Contains x) : x.AllSpans P := fun y hy => h y (hx.trans hy)

/-- The children have such spans too. -/
theorem Markup.Element.AllSpans.child {e x : Element} (h : e.AllSpans P)
    (hx : x ∈ e.children) : x.AllSpans P := h.of_contains (.single hx)

/-- So have the children of one name. -/
private theorem Markup.Element.AllSpans.namedChild {e x : Element} {name : String}
    (h : e.AllSpans P)
    (hx : x ∈ e.namedChildren name) : x.AllSpans P := h.child (List.mem_filter.mp hx).1

/-- So has the first child of a name. -/
theorem Markup.Element.AllSpans.child? {e x : Element} {name : String} (h : e.AllSpans P)
    (hx : e.child? name = some x) : x.AllSpans P := h.child (List.mem_of_find?_eq_some hx)

namespace Reading

variable {α β : Type} {V : α → Prop} {W : β → Prop}

/-- A pure reading reports nothing. -/
private theorem pointsTo_pure {a : α} (h : V a) : (pure a : Reading α).PointsTo P V :=
  ⟨fun _ hf => absurd hf List.not_mem_nil, h⟩

/-- Sequencing points to what both parts point to. -/
theorem PointsTo.bind {x : Reading α} {f : α → Reading β} (hx : x.PointsTo P V)
    (hf : ∀ a, V a → (f a).PointsTo P W) : (x >>= f).PointsTo P W := by
  have hrest := hf x.value hx.value
  refine ⟨?_, hrest.value⟩
  -- the faults of the second part come behind those of the first
  rw [faults_bind]
  exact List.forall_mem_append.mpr ⟨hx.faults, hrest.faults⟩

/-- What is said of the value may be weakened. -/
theorem PointsTo.mono {x : Reading α} {V' : α → Prop} (hx : x.PointsTo P V)
    (h : ∀ a, V a → V' a) : x.PointsTo P V' := ⟨hx.faults, h _ hx.value⟩

/-- Going without a value points to the place of the fault. -/
theorem pointsTo_reject {f : Fault} {V : Option α → Prop} (h : P f.span) (hc : f.contexts = [])
    (hv : V none) : (reject f : Reading (Option α)).PointsTo P V :=
  ⟨List.forall_mem_singleton.mpr (Fault.pointsTo_of_span h hc), hv⟩

/-- Going without a value says nothing of one. -/
private theorem pointsTo_none {V : α → Prop} :
    (pure none : Reading (Option α)).PointsTo P fun o => ∀ a ∈ o, V a :=
  pointsTo_pure fun _ h => nomatch h

/-- A value that is kept is as said. -/
private theorem pointsTo_some {V : α → Prop} {a : α} (h : V a) :
    (pure (some a) : Reading (Option α)).PointsTo P fun o => ∀ a ∈ o, V a :=
  pointsTo_pure fun _ hb => Option.some.inj hb ▸ h

/-- Reading a list points to what reading its elements points to. -/
theorem pointsTo_collect {read : Element → Reading (Option α)} {xs : List Element}
    (h : ∀ x ∈ xs, (read x).PointsTo P fun o => ∀ a ∈ o, V a) :
    (collect read xs).PointsTo P fun as => ∀ a ∈ as, V a := by
  constructor
  -- a fault of the list is one of some element in it
  · intro f hf
    rw [faults_collect] at hf
    obtain ⟨x, hx, hf⟩ := List.mem_flatMap.mp hf
    exact (h x hx).faults f hf
  -- and so is a value
  · intro a ha
    rw [value_collect] at ha
    obtain ⟨x, hx, hxa⟩ := List.mem_filterMap.mp ha
    exact (h x hx).value a hxa

/-- Reading a list points where its elements do, whatever is kept of them. -/
private theorem points_collect {read : Element → Reading (Option α)} {xs : List Element}
    (h : ∀ x ∈ xs, (read x).Points P) : (collect read xs).Points P :=
  (pointsTo_collect (V := fun _ => True) fun x hx =>
    (h x hx).mono fun _ _ _ _ => True.intro).mono fun _ _ => True.intro

end Reading

open Reading (pointsTo_pure pointsTo_reject pointsTo_none pointsTo_some pointsTo_collect
  points_collect)

/-! ### Places in a source map -/

/-- All places of an enum type are of this kind. -/
structure EnumSpans.All (P : Span → Prop) (p : EnumSpans) : Prop where
  span : P p.span
  members : ∀ x ∈ p.members, P x

/-- All places of a complex or entity type are of this kind. -/
structure TypeSpans.All (P : Span → Prop) (p : TypeSpans) : Prop where
  span : P p.span
  key : ∀ x ∈ p.key, P x
  properties : ∀ x ∈ p.properties, P x
  navigationProperties : ∀ x ∈ p.navigationProperties, P x

/-- All places of an association are of this kind. -/
structure AssociationSpans.All (P : Span → Prop) (p : AssociationSpans) : Prop where
  span : P p.span
  ends : ∀ x ∈ p.ends, P x
  principal : ∀ x ∈ p.principal, P x
  dependent : ∀ x ∈ p.dependent, P x

/-- All places in a source map are of this kind. -/
structure SourceMap.All (P : Span → Prop) (m : SourceMap) : Prop where
  enumTypes : ∀ p ∈ m.enumTypes, p.All P
  complexTypes : ∀ p ∈ m.complexTypes, p.All P
  entityTypes : ∀ p ∈ m.entityTypes, p.All P
  associations : ∀ p ∈ m.associations, p.All P
  entityContainers : ∀ x ∈ m.entityContainers, P x

/-- All places of a declaration are of this kind. -/
def Declaration.All (P : Span → Prop) : Declaration → Prop
  | enumType _ p => p.All P
  | complexType _ p => p.All P
  | entityType _ p => p.All P
  | association _ p => p.All P
  | entityContainer _ x => P x

/-- A declaration that is read as some record is kept with the places of the record. -/
theorem pointsTo_declaration {e : Element} {ρ σ : Type} {read : Element → Reading (Option (ρ × σ))}
    {V : σ → Prop} {make : ρ → σ → Declaration}
    (hread : (read e).PointsTo P fun o => ∀ p ∈ o, V p.2)
    (hmake : ∀ r p, V p → (make r p).All P) :
    (read e >>= fun o => pure (o.map fun p => make p.1 p.2)).PointsTo P
      fun o => ∀ d ∈ o, d.All P := by
  refine hread.bind fun o ho => ?_
  cases o with
  -- nothing is kept without a record
  | none => exact pointsTo_none
  | some p => exact pointsTo_some (hmake p.1 p.2 (ho p rfl))

/-- The places of the declarations of one kind are those that the source map has of them. -/
private theorem all_filterMap {ρ σ : Type} {V : σ → Prop} {ds : List Declaration}
    {pick : Declaration → Option (ρ × σ)} (hds : ∀ d ∈ ds, d.All P)
    (hpick : ∀ d p, pick d = some p → d.All P → V p.2) :
    ∀ p ∈ (ds.filterMap pick).map (·.2), V p := by
  -- a place of the kind belongs to a declaration, all of whose places are as said
  refine List.forall_mem_map.mpr fun p hp => ?_
  obtain ⟨d, hd, hdp⟩ := List.mem_filterMap.mp hp
  exact hpick d p hdp (hds d hd)

/-! ### Attributes -/

section

variable {e : Element} (he : e.AllSpans P)

include he

/-- An attribute that is missing is reported at its element. -/
private theorem points_requireAttribute (name : String) : (requireAttribute e name).Points P := by
  unfold requireAttribute
  split
  · exact pointsTo_pure True.intro
  · exact pointsTo_reject he.self rfl True.intro

/-- A value that cannot be read is reported at the element. -/
private theorem points_acceptValue {α : Type} (name text : String) (value : Except String α) :
    (acceptValue e name text value).Points P := by
  cases value with
  | ok a => exact pointsTo_pure True.intro
  | error reason => exact pointsTo_reject he.self rfl True.intro

/-- So is the value of an attribute that may be missing. -/
private theorem points_readAttribute {α : Type} (name : String) (read : String → Except String α) :
    (readAttribute e name read).Points P := by
  unfold readAttribute
  split
  · exact pointsTo_pure True.intro
  · exact points_acceptValue he _ _ _

/-- So is the greatest length. -/
private theorem points_readMaxLength : (readMaxLength e).Points P := by
  unfold readMaxLength
  split
  · exact pointsTo_pure True.intro
  -- the word for the greatest length needs no reading
  · split
    · exact pointsTo_pure True.intro
    · exact (points_acceptValue he _ _ _).bind fun _ _ => pointsTo_pure True.intro

/-- What every record bears is read at its element. -/
private theorem points_readMetadata : (readMetadata e).Points P :=
  (points_requireAttribute he "Name").bind fun _ _ => pointsTo_pure True.intro

/-- The accesses of the accessors are read at the element. -/
private theorem points_readAccessors : (readAccessors e).Points P :=
  (points_readAttribute he _ _).bind fun _ _ =>
    (points_readAttribute he _ _).bind fun _ _ => pointsTo_pure True.intro

/-- References to properties are read at their own elements. -/
private theorem points_readPropertyRefs : (readPropertyRefs e).Points P :=
  points_collect fun _ hx => points_requireAttribute (he.namedChild hx) "Name"

/-! ### Members -/

/-- The member of an enum is kept with the span of its element. -/
private theorem pointsTo_readEnumMember :
    (readEnumMember e).PointsTo P fun o => ∀ m ∈ o, P m.2 := by
  refine (points_requireAttribute he "Name").bind fun name _ => ?_
  cases name with
  -- a member without a name is left out, but its fault is reported
  | none => exact pointsTo_none
  | some name =>
    exact (points_readAttribute he _ _).bind fun value _ => pointsTo_some he.self

/-- A property is read at its element. -/
private theorem points_readProperty : (readProperty e).Points P := by
  refine (points_readMetadata he).bind fun metadata _ => ?_
  cases metadata with
  | none => exact pointsTo_pure True.intro
  | some metadata =>
    refine (points_requireAttribute he "Type").bind fun typeName _ => ?_
    cases typeName with
    -- without a type the rest is not even looked at
    | none => exact pointsTo_pure True.intro
    | some typeName =>
      exact (points_readAttribute he _ _).bind fun _ _ =>
        (points_readMaxLength he).bind fun _ _ =>
        (points_readAttribute he _ _).bind fun _ _ =>
        (points_readAttribute he _ _).bind fun _ _ =>
        (points_readAccessors he).bind fun _ _ => pointsTo_pure True.intro

/-- A navigation property is read at its element. -/
private theorem points_readNavigationProperty : (readNavigationProperty e).Points P := by
  refine (points_readMetadata he).bind fun metadata _ => ?_
  cases metadata with
  | none => exact pointsTo_pure True.intro
  | some metadata =>
    refine (points_requireAttribute he _).bind fun relationship _ =>
      (points_requireAttribute he _).bind fun fromRole _ =>
      (points_requireAttribute he _).bind fun toRole _ =>
      (points_readAccessors he).bind fun _ _ => ?_
    -- three attributes are required, and with one of them missing no record is made
    cases relationship <;> cases fromRole <;> cases toRole <;> exact pointsTo_pure True.intro

/-- The place of a member of an entity type. -/
def EntityMember.span : EntityMember → Span
  | property _ x => x
  | navigation _ x => x

/-- A member of an entity type is kept with the span of its element. -/
private theorem pointsTo_readEntityMember :
    (EntityMember.read e).PointsTo P fun o => ∀ m ∈ o, P m.span := by
  unfold EntityMember.read
  split
  -- a property
  · refine (points_readProperty he).bind fun p _ => ?_
    cases p with
    | none => exact pointsTo_none
    | some p => exact pointsTo_some he.self
  · split
    -- a navigation property
    · refine (points_readNavigationProperty he).bind fun n _ => ?_
      cases n with
      | none => exact pointsTo_none
      | some n => exact pointsTo_some he.self
    -- anything else is neither kept nor reported
    · exact pointsTo_none

/-! ### Declarations -/

/-- An enum type is kept with the places of itself and its members. -/
private theorem pointsTo_readEnumType :
    (readEnumType e).PointsTo P fun o => ∀ p ∈ o, p.2.All P := by
  refine (points_readMetadata he).bind fun metadata _ => ?_
  cases metadata with
  | none => exact pointsTo_none
  | some metadata =>
    -- the two attributes come first, then the members
    refine (points_readAttribute he _ _).bind fun _ _ =>
      (points_readAttribute he _ _).bind fun _ _ =>
      (pointsTo_collect fun x hx => pointsTo_readEnumMember (he.namedChild hx)).bind
        fun members hmembers => pointsTo_some ?_
    exact ⟨he.self, List.forall_mem_map.mpr hmembers⟩

/-- A property of a complex type is kept with the span of its element. -/
private theorem pointsTo_readComplexMember :
    (readComplexMember e).PointsTo P fun o => ∀ p ∈ o, P p.2 := by
  refine (points_readProperty he).bind fun p _ => ?_
  cases p with
  | none => exact pointsTo_none
  | some p => exact pointsTo_some he.self

/-- A complex type is kept with the places of itself and its properties. -/
private theorem pointsTo_readComplexType :
    (readComplexType e).PointsTo P fun o => ∀ p ∈ o, p.2.All P := by
  refine (points_readMetadata he).bind fun metadata _ => ?_
  cases metadata with
  | none => exact pointsTo_none
  | some metadata =>
    refine (pointsTo_collect fun x hx => pointsTo_readComplexMember (he.namedChild hx)).bind
      fun properties hproperties => pointsTo_some ?_
    -- it has neither a key nor navigation properties
    exact {
      span := he.self
      key := fun _ h => nomatch h
      properties := List.forall_mem_map.mpr hproperties
      navigationProperties := fun _ h => absurd h List.not_mem_nil }

/-- A key is kept with the span of its element. -/
private theorem pointsTo_readKey : (readKey e).PointsTo P fun o => ∀ p ∈ o, P p.2 := by
  unfold readKey
  split
  -- a type need not have a key
  · exact pointsTo_none
  · rename_i key hkey
    exact (points_readPropertyRefs (he.child? hkey)).bind fun _ _ =>
      pointsTo_some (he.child? hkey).self

/-- An entity type is kept with the places of itself, its key and its members. -/
private theorem pointsTo_readEntityType :
    (readEntityType e).PointsTo P fun o => ∀ p ∈ o, p.2.All P := by
  refine (points_readMetadata he).bind fun metadata _ => ?_
  cases metadata with
  | none => exact pointsTo_none
  | some metadata =>
    -- attributes, key and members in the order in which they are read
    refine (points_readAttribute he _ _).bind fun _ _ =>
      (points_readAttribute he _ _).bind fun _ _ =>
      (pointsTo_readKey he).bind fun key hkey =>
      (pointsTo_collect fun x hx => pointsTo_readEntityMember (he.child hx)).bind
        fun members hmembers => pointsTo_some ?_
    refine ⟨he.self, ?_, ?_, ?_⟩
    -- the place of the key is that of its element
    · intro x hx
      obtain ⟨p, hp, rfl⟩ := Option.map_eq_some_iff.mp hx
      exact hkey p hp
    -- both lists are picked from the members, each with the place of its member
    · refine List.forall_mem_map.mpr fun p hp => ?_
      obtain ⟨m, hm, hmp⟩ := List.mem_filterMap.mp hp
      cases m with
      | property q x => exact Option.some.inj hmp ▸ hmembers _ hm
      | navigation n x => exact nomatch hmp
    · refine List.forall_mem_map.mpr fun p hp => ?_
      obtain ⟨m, hm, hmp⟩ := List.mem_filterMap.mp hp
      cases m with
      | property q x => exact nomatch hmp
      | navigation n x => exact Option.some.inj hmp ▸ hmembers _ hm

/-- An end of an association is read at its element. -/
private theorem points_readEnd : (readEnd e).Points P := by
  -- the multiplicity is required, and then interpreted
  have hmultiplicity : (readMultiplicity e).Points P := by
    refine (points_requireAttribute he _).bind fun text _ => ?_
    cases text with
    | none => exact pointsTo_pure True.intro
    | some text => exact points_acceptValue he _ _ _
  refine (points_requireAttribute he _).bind fun typeName _ =>
    (points_requireAttribute he _).bind fun role _ =>
    hmultiplicity.bind fun multiplicity _ => ?_
  cases typeName <;> cases role <;> cases multiplicity <;> exact pointsTo_pure True.intro

/-- The half of a constraint is kept with the span of its element; a missing one is reported at the
    constraint. -/
theorem pointsTo_readHalf (name : String) :
    (readHalf e name).PointsTo P fun o => ∀ p ∈ o, P p.2 := by
  unfold readHalf
  split
  · exact pointsTo_reject he.self rfl fun _ h => nomatch h
  · rename_i half hhalf
    have hspans := he.child? hhalf
    refine (points_requireAttribute hspans _).bind fun role _ => ?_
    cases role with
    | none => exact pointsTo_none
    | some role =>
      exact (points_readPropertyRefs hspans).bind fun _ _ => pointsTo_some hspans.self

/-- Both halves of a constraint are kept with the spans of their elements. -/
private theorem pointsTo_readHalves :
    (readHalves e).PointsTo P fun p => (∀ h ∈ p.1, P h.2) ∧ ∀ h ∈ p.2, P h.2 := by
  unfold readHalves
  split
  -- without a constraint there are no halves
  · exact pointsTo_pure ⟨fun _ h => (nomatch h), fun _ h => nomatch h⟩
  · rename_i constraint hconstraint
    have hspans := he.child? hconstraint
    exact (pointsTo_readHalf hspans _).bind fun _ hprincipal =>
      (pointsTo_readHalf hspans _).bind fun _ hdependent =>
      pointsTo_pure ⟨hprincipal, hdependent⟩

/-- An association is kept with the places of itself, its ends and the halves of its constraint. -/
private theorem pointsTo_readAssociation :
    (readAssociation e).PointsTo P fun o => ∀ p ∈ o, p.2.All P := by
  refine (points_readMetadata he).bind fun metadata _ => ?_
  cases metadata with
  | none => exact pointsTo_none
  | some metadata =>
    refine (points_collect fun x hx => points_readEnd (he.namedChild hx)).bind fun ends _ => ?_
    split
    -- two ends can be read
    · refine (pointsTo_readHalves he).bind fun halves hhalves => pointsTo_some ?_
      obtain ⟨principal, dependent⟩ := halves
      refine ⟨he.self, List.forall_mem_map.mpr fun x hx => (he.namedChild hx).self, ?_, ?_⟩
      -- the place of the principal half
      · intro x hx
        obtain ⟨h, hh, rfl⟩ := Option.map_eq_some_iff.mp hx
        exact hhalves.1 h hh
      -- the place of the dependent half
      · intro x hx
        obtain ⟨h, hh, rfl⟩ := Option.map_eq_some_iff.mp hx
        exact hhalves.2 h hh
    · split
      -- the ends are two, but not both of them can be read
      · exact pointsTo_none
      -- the ends are other than two
      · exact pointsTo_reject he.self rfl fun _ h => nomatch h

/-- An entity container is kept with the span of its element. -/
private theorem pointsTo_readEntityContainer :
    (readEntityContainer e).PointsTo P fun o => ∀ p ∈ o, P p.2 := by
  -- entity sets are read at their own elements and kept without a place
  have hset : ∀ x ∈ e.namedChildren "EntitySet", (readEntitySet x).Points P := by
    intro x hx
    refine (points_readMetadata (he.namedChild hx)).bind fun metadata _ => ?_
    cases metadata with
    | none => exact pointsTo_pure True.intro
    | some metadata =>
      exact (points_requireAttribute (he.namedChild hx) _).bind fun _ _ =>
        pointsTo_pure True.intro
  refine (points_readMetadata he).bind fun metadata _ => ?_
  cases metadata with
  | none => exact pointsTo_none
  | some metadata =>
    exact (points_readAttribute he _ _).bind fun _ _ =>
      (points_collect hset).bind fun _ _ => pointsTo_some he.self

/-! ### The schema -/

/-- A declaration is kept with the places that its reader keeps. -/
private theorem pointsTo_readDeclaration :
    (Declaration.read e).PointsTo P fun o => ∀ d ∈ o, d.All P := by
  unfold Declaration.read
  split
  · exact pointsTo_declaration (pointsTo_readEnumType he) fun _ _ h => h
  split
  · exact pointsTo_declaration (pointsTo_readComplexType he) fun _ _ h => h
  split
  · exact pointsTo_declaration (pointsTo_readEntityType he) fun _ _ h => h
  split
  · exact pointsTo_declaration (pointsTo_readAssociation he) fun _ _ h => h
  split
  · exact pointsTo_declaration (pointsTo_readEntityContainer he) fun _ _ h => h
  · exact pointsTo_none

/-- What is reported of a schema lies at its elements, and so do the places in its source map. -/
theorem pointsTo_readSchema : (Schema.read e).PointsTo P fun p => p.2.All P := by
  refine (points_requireAttribute he _).bind fun name _ =>
    (pointsTo_collect fun x hx => pointsTo_readDeclaration (he.child hx)).bind
      fun ds hds => pointsTo_pure ?_
  -- each list of the source map is picked from the declarations
  constructor <;>
  · refine all_filterMap hds fun d p hp hd => ?_
    -- each kind of declaration is told by its constructor
    cases d <;> cases hp
    exact hd

end

/-! ### Rules -/

/-- A repetition stands at the place of a name, and its first occurrence at another. -/
private theorem places_of_mem_repeatedAfter {seen names : List (String × Span)} {r : Repetition}
    (hseen : ∀ p ∈ seen, P p.2) (hnames : ∀ p ∈ names, P p.2)
    (h : r ∈ repeatedAfter seen names) : P r.span ∧ P r.first := by
  induction names generalizing seen with
  | nil => exact absurd h List.not_mem_nil
  | cons p rest ih =>
    obtain ⟨name, span⟩ := p
    obtain ⟨hspan, hrest⟩ := List.forall_mem_cons.mp hnames
    -- the first name either stands among those seen or joins them
    rw [repeatedAfter] at h
    split at h
    · rename_i first hfirst
      rcases List.mem_cons.mp h with rfl | h
      -- the one seen before has a place among those seen
      · obtain ⟨before, after, hsplit, -⟩ := List.lookup_eq_some_iff.mp hfirst
        exact ⟨hspan, hseen (name, first) (by simp [hsplit])⟩
      · exact ih hseen hrest h
    · refine ih ?_ hrest h
      exact List.forall_mem_append.mpr ⟨hseen, List.forall_mem_singleton.mpr hspan⟩

/-- What is paired with places has them. -/
theorem forall_mem_zip {α : Type} {xs : List α} {spans : List Span} (h : ∀ x ∈ spans, P x) :
    ∀ p ∈ xs.zip spans, P p.2 := fun _ hp => h _ (List.of_mem_zip hp).2

/-- A place that may be missing, with another one to fall back on. -/
theorem place_getD {o : Option Span} {x : Span} (ho : ∀ y ∈ o, P y) (hx : P x) :
    P (o.getD x) := by
  cases o with
  | none => exact hx
  | some y => exact ho y rfl

/-- The repetitions in a list of names are reported at places of the names. -/
theorem pointsTo_repeated {names : List (String × Span)} {make : Repetition → Fault}
    (hspan : ∀ r, (make r).span = r.span)
    (hcontexts : ∀ r, ∀ c ∈ (make r).contexts, c.1 = r.first)
    (h : ∀ p ∈ names, P p.2) : ∀ f ∈ (repeated names).map make, f.PointsTo P := by
  refine List.forall_mem_map.mpr fun r hr => ?_
  obtain ⟨hr, hfirst⟩ :=
    places_of_mem_repeatedAfter (fun _ hp => absurd hp List.not_mem_nil) h hr
  refine ⟨by rw [hspan r]; exact hr, fun c hc => ?_⟩
  rw [hcontexts r c hc]
  exact hfirst

/-- A declaration of a name that is taken is reported at its own place and that of the first. -/
private theorem pointsTo_duplicateDeclarations {kind : DeclarationKind}
    {names : List (String × Span)}
    (h : ∀ p ∈ names, P p.2) : ∀ f ∈ duplicateDeclarations kind names, f.PointsTo P :=
  pointsTo_repeated (fun _ => rfl) (fun _ c hc => by rw [List.mem_singleton.mp hc]) h

/-- So is a member of a type. -/
private theorem pointsTo_duplicateMembers {owner : String} {names : List (String × Span)}
    (h : ∀ p ∈ names, P p.2) : ∀ f ∈ duplicateMembers owner names, f.PointsTo P :=
  pointsTo_repeated (fun _ => rfl) (fun _ c hc => by rw [List.mem_singleton.mp hc]) h

/-- So is a member of an enum. -/
private theorem pointsTo_duplicateEnumMembers {owner : String} {names : List (String × Span)}
    (h : ∀ p ∈ names, P p.2) : ∀ f ∈ duplicateEnumMembers owner names, f.PointsTo P :=
  pointsTo_repeated (fun _ => rfl) (fun _ c hc => by rw [List.mem_singleton.mp hc]) h

section

variable {s : Schema} {m : SourceMap} (hm : m.All P)

include hm

/-- Repeated declarations are reported at places of declarations. -/
private theorem pointsTo_declarationFaults : ∀ f ∈ declarationFaults s m, f.PointsTo P := by
  -- the three kinds of type share their names
  have htypes : ∀ p ∈ typeNames s m, P p.2 := by
    unfold typeNames
    refine List.forall_mem_append.mpr ⟨List.forall_mem_append.mpr ⟨?_, ?_⟩, ?_⟩
    · exact forall_mem_zip (List.forall_mem_map.mpr fun p hp => (hm.entityTypes p hp).span)
    · exact forall_mem_zip (List.forall_mem_map.mpr fun p hp => (hm.complexTypes p hp).span)
    · exact forall_mem_zip (List.forall_mem_map.mpr fun p hp => (hm.enumTypes p hp).span)
  have hassociations : ∀ p ∈ associationNames s m, P p.2 :=
    forall_mem_zip (List.forall_mem_map.mpr fun p hp => (hm.associations p hp).span)
  have hcontainers : ∀ p ∈ containerNames s m, P p.2 := forall_mem_zip hm.entityContainers
  exact List.forall_mem_append.mpr ⟨List.forall_mem_append.mpr
    ⟨pointsTo_duplicateDeclarations htypes, pointsTo_duplicateDeclarations hassociations⟩,
    pointsTo_duplicateDeclarations hcontainers⟩

/-- Repeated members are reported at places of members. -/
private theorem pointsTo_memberFaults : ∀ f ∈ memberFaults s m, f.PointsTo P := by
  unfold memberFaults
  refine List.forall_mem_append.mpr ⟨?_, ?_⟩
  -- entity types have members of two kinds
  · intro f hf
    obtain ⟨⟨t, p⟩, htp, hf⟩ := List.mem_flatMap.mp hf
    have hp := hm.entityTypes p (List.of_mem_zip htp).2
    exact pointsTo_duplicateMembers (List.forall_mem_append.mpr
      ⟨forall_mem_zip hp.properties, forall_mem_zip hp.navigationProperties⟩) f hf
  -- complex types have properties only
  · intro f hf
    obtain ⟨⟨t, p⟩, htp, hf⟩ := List.mem_flatMap.mp hf
    have hp := hm.complexTypes p (List.of_mem_zip htp).2
    exact pointsTo_duplicateMembers (forall_mem_zip hp.properties) f hf

/-- Repeated members of an enum are reported at places of members. -/
private theorem pointsTo_enumMemberFaults : ∀ f ∈ enumMemberFaults s m, f.PointsTo P := by
  intro f hf
  obtain ⟨⟨t, p⟩, htp, hf⟩ := List.mem_flatMap.mp hf
  have hp := hm.enumTypes p (List.of_mem_zip htp).2
  exact pointsTo_duplicateEnumMembers (forall_mem_zip hp.members) f hf

/-- A role is reported at its end or half, or at the association where that has no place. -/
private theorem pointsTo_roleFaults : ∀ f ∈ roleFaults s m, f.PointsTo P := by
  intro f hf
  obtain ⟨⟨a, p⟩, hap, hf⟩ := List.mem_flatMap.mp hf
  have hp := hm.associations p (List.of_mem_zip hap).2
  -- an equal role is reported at the second end, an unknown one at its half of the constraint
  rcases cases_of_mem_associationFaults hf with rfl | ⟨role, rfl | rfl⟩
  · refine Fault.pointsTo_of_span (place_getD (fun x hx => ?_) hp.span) rfl
    exact hp.ends x (List.mem_of_getElem? hx)
  · exact Fault.pointsTo_of_span (place_getD hp.principal hp.span) rfl
  · exact Fault.pointsTo_of_span (place_getD hp.dependent hp.span) rfl

/-- A key is reported at its element, or at the type where it has no place. -/
private theorem pointsTo_keyFaults : ∀ f ∈ keyFaults s m, f.PointsTo P := by
  intro f hf
  obtain ⟨⟨t, p⟩, htp, hf⟩ := List.mem_flatMap.mp hf
  have hp := hm.entityTypes p (List.of_mem_zip htp).2
  obtain ⟨name, -, rfl⟩ := List.mem_map.mp hf
  exact Fault.pointsTo_of_span (place_getD hp.key hp.span) rfl

/-- A cycle is reported at the places of its types. -/
private theorem pointsTo_inheritanceFaults : ∀ f ∈ inheritanceFaults s m, f.PointsTo P := by
  intro f hf
  obtain ⟨members, -, hf⟩ := List.mem_filterMap.mp hf
  -- each type on the cycle is at its own place
  have hplaces : ∀ p ∈ members.filterMap (entityAt s m), P p.2 := by
    intro p hp
    obtain ⟨i, -, hi⟩ := List.mem_filterMap.mp hp
    obtain ⟨⟨t, spans⟩, hentry, rfl⟩ := Option.map_eq_some_iff.mp hi
    exact (hm.entityTypes spans (List.of_mem_zip (List.mem_of_getElem? hentry)).2).span
  -- the first type bears the fault, and the others are its contexts
  obtain ⟨first, others, hmembers, rfl⟩ := cycleFault?_eq_some_iff.mp hf
  rw [hmembers] at hplaces
  obtain ⟨hfirst, hothers⟩ := List.forall_mem_cons.mp hplaces
  exact ⟨hfirst, List.forall_mem_map.mpr hothers⟩

/-- The names of a kind of record and of its members are at their places. -/
private theorem span_namedPlaces : ∀ n ∈ namedPlaces s m, P n.span := by
  have hplaces : ∀ (kind : NameKind) (names : List String) (spans : List Span),
      (∀ x ∈ spans, P x) → ∀ n ∈ places kind names spans, P n.span := by
    intro kind names spans h
    exact List.forall_mem_map.mpr fun p hp => forall_mem_zip h p hp
  unfold namedPlaces
  refine List.forall_mem_append.mpr ⟨List.forall_mem_append.mpr ⟨List.forall_mem_append.mpr
    ⟨List.forall_mem_append.mpr ⟨?_, ?_⟩, ?_⟩, ?_⟩, ?_⟩
  all_goals
    intro n hn
    obtain ⟨⟨r, p⟩, hrp, hn⟩ := List.mem_flatMap.mp hn
    have hp := (List.of_mem_zip hrp).2
    -- the name of the record comes first, then those of its members
    rcases List.mem_cons.mp hn with rfl | hn
  -- an enum type and its members
  · exact (hm.enumTypes p hp).span
  · exact hplaces _ _ _ (hm.enumTypes p hp).members n hn
  -- a complex type and its properties
  · exact (hm.complexTypes p hp).span
  · exact hplaces _ _ _ (hm.complexTypes p hp).properties n hn
  -- an entity type and its members of both kinds
  · exact (hm.entityTypes p hp).span
  · rcases List.mem_append.mp hn with hn | hn
    · exact hplaces _ _ _ (hm.entityTypes p hp).properties n hn
    · exact hplaces _ _ _ (hm.entityTypes p hp).navigationProperties n hn
  -- an association and its ends
  · exact (hm.associations p hp).span
  · exact hplaces _ _ _ (hm.associations p hp).ends n hn
  -- an entity container and its sets, which have no places of their own
  · exact hm.entityContainers p hp
  · obtain ⟨x, -, rfl⟩ := List.mem_map.mp hn
    exact hm.entityContainers p hp

/-- A name that is no identifier is reported at its place. -/
private theorem pointsTo_nameFaults : ∀ f ∈ nameFaults s m, f.PointsTo P :=
  List.forall_mem_map.mpr fun n hn =>
    Fault.pointsTo_of_span (span_namedPlaces hm n (List.mem_filter.mp hn).1) rfl

/-- What the rules of a schema report lies at places of its source map. -/
theorem pointsTo_validate : ∀ f ∈ validate s m, f.PointsTo P := by
  unfold validate
  simp only [List.forall_mem_append]
  -- the rules one after the other, in the order in which they are checked
  exact ⟨⟨⟨⟨⟨⟨pointsTo_declarationFaults hm, pointsTo_memberFaults hm⟩, pointsTo_roleFaults hm⟩,
    pointsTo_keyFaults hm⟩, pointsTo_enumMemberFaults hm⟩, pointsTo_inheritanceFaults hm⟩,
    pointsTo_nameFaults hm⟩

end

/-- Everything that is wrong with a schema element lies at elements in it. -/
theorem pointsTo_faultsOf {e : Element} (he : e.AllSpans P) :
    ∀ f ∈ Model.faultsOf e, f.PointsTo P := by
  have hread := pointsTo_readSchema he
  rw [Model.faultsOf_eq]
  exact List.forall_mem_append.mpr ⟨hread.faults, pointsTo_validate hread.value⟩

end EntityModel
