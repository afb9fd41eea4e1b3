import EntityModel.Proofs.Accounting

/-!
# Source maps follow the elements of a schema

`InStep` ties a list of records and a list of places to the elements that both are read from: an
element that can be read has its record and its place at one position, and an element that cannot be
read has neither.  A source map that is read together with a schema is in step with it, list by
list, but for the ends of associations: all `End` elements have a place, whether or not they can be
read.

* `InStep.length_eq`, `InStep.exists_of_mem_zip`   what lists in step have in common
* `inStep_all_iff`                                 when places of all elements are in step
* `locates_readEntityType` and its likes           the places of a record and of its members
* `follows_read`                                   those of a schema
-/

namespace EntityModel

open Markup (Element)

/-! ### Records and places in step -/

/-- Records and places of a list of elements, side by side: an element that is read has both at one
    position, and one that is not has neither. -/
inductive InStep {ρ σ : Type} (value : Element → Option ρ) (P : Element → ρ → σ → Prop) :
    List Element → List ρ → List σ → Prop
  | nil : InStep value P [] [] []
  | kept {x : Element} {r : ρ} {p : σ} {xs : List Element} {rs : List ρ} {ps : List σ}
      (h : value x = some r) (hp : P x r p) (rest : InStep value P xs rs ps) :
      InStep value P (x :: xs) (r :: rs) (p :: ps)
  | dropped {x : Element} {xs : List Element} {rs : List ρ} {ps : List σ} (h : value x = none)
      (rest : InStep value P xs rs ps) : InStep value P (x :: xs) rs ps

/-- The place is the span of the element. -/
def AtElement {ρ : Type} (x : Element) (_ : ρ) (p : Span) : Prop := p = x.span

section

variable {ρ σ : Type} {value : Element → Option ρ} {P : Element → ρ → σ → Prop}
  {xs : List Element} {rs : List ρ} {ps : List σ}

/-- There are as many records as places. -/
theorem InStep.length_eq (h : InStep value P xs rs ps) : rs.length = ps.length := by
  induction h with
  | nil => rfl
  | kept _ _ _ ih => rw [List.length_cons, List.length_cons, ih]
  | dropped _ _ ih => exact ih

/-- A record and a place at one position are those of one element. -/
theorem InStep.exists_of_mem_zip (h : InStep value P xs rs ps) {r : ρ} {p : σ}
    (hmem : (r, p) ∈ rs.zip ps) : ∃ x ∈ xs, value x = some r ∧ P x r p := by
  -- the pair at the front is that of the element read there, and the others are those of later ones
  induction h with
  | nil => exact absurd hmem List.not_mem_nil
  | kept hr hp _ ih =>
    rw [List.zip_cons_cons, List.mem_cons] at hmem
    obtain heq | hmem := hmem
    · obtain ⟨rfl, rfl⟩ := Prod.mk.inj heq
      exact ⟨_, List.mem_cons_self, hr, hp⟩
    · obtain ⟨x, hx, hxr⟩ := ih hmem
      exact ⟨x, List.mem_cons_of_mem _ hx, hxr⟩
  | dropped _ _ ih =>
    obtain ⟨x, hx, hxr⟩ := ih hmem
    exact ⟨x, List.mem_cons_of_mem _ hx, hxr⟩

/-- Records and places that are read together are in step. -/
theorem inStep_filterMap {f : Element → Option (ρ × σ)}
    (h : ∀ x ∈ xs, ∀ r p, f x = some (r, p) → P x r p) :
    InStep (fun x => (f x).map (·.1)) P xs ((xs.filterMap f).map (·.1))
      ((xs.filterMap f).map (·.2)) := by
  induction xs with
  | nil => exact .nil
  | cons x xs ih =>
    obtain ⟨hx, hrest⟩ := List.forall_mem_cons.mp h
    -- an element that is not read leaves both lists as they are
    cases hf : f x with
    | none =>
      rw [List.filterMap_cons_none hf]
      exact .dropped (by rw [hf]; rfl) (ih hrest)
    | some p =>
      rw [List.filterMap_cons_some hf]
      exact .kept (by rw [hf]; rfl) (hx p.1 p.2 hf) (ih hrest)

/-- Records that are each read with the span of their element are in step with these spans. -/
theorem inStep_withSpans (value : Element → Option ρ) (xs : List Element) :
    InStep value AtElement xs
      ((xs.filterMap fun x => (value x).map fun r => (r, x.span)).map (·.1))
      ((xs.filterMap fun x => (value x).map fun r => (r, x.span)).map (·.2)) := by
  have hspan : ∀ x ∈ xs, ∀ r p, ((value x).map fun r => (r, x.span)) = some (r, p) →
      AtElement x r p := by
    intro x _ r p hx
    obtain ⟨r', -, heq⟩ := Option.map_eq_some_iff.mp hx
    exact (Prod.mk.inj heq).2.symm
  simpa only [Option.map_map, Function.comp_def, Option.map_id'] using inStep_filterMap hspan

/-- Places of all elements are in step with the records of those that are read exactly if all of
    them are. -/
theorem inStep_all_iff :
    InStep value AtElement xs (xs.filterMap value) (xs.map (·.span)) ↔
      (xs.filterMap value).length = xs.length := by
  constructor
  · intro h
    rw [h.length_eq, List.length_map]
  -- where all are read, none of the places is left over
  · rw [List.filterMap_length_eq_length]
    intro hall
    induction xs with
    | nil => exact .nil
    | cons x xs ih =>
      obtain ⟨hx, hrest⟩ := List.forall_mem_cons.mp hall
      obtain ⟨r, hr⟩ := Option.isSome_iff_exists.mp hx
      rw [List.filterMap_cons_some hr]
      exact .kept hr rfl (ih hrest)

end

/-! ### Children of one kind -/

/-- Where all children of an element are read by what they are, those of one kind are read by the
    reader for it. -/
theorem filterMap_dispatched {δ α β : Type} {dispatch : Element → Reading (Option δ)}
    {read : Element → Reading (Option α)} (kind : String) (make : Element → α → δ)
    (pick : δ → Option β) (project : Element → α → β)
    (hread : ∀ x, x.localName = kind → dispatch x = do
      let a ← read x
      pure (a.map (make x)))
    (hpick : ∀ x a, pick (make x a) = some (project x a))
    (hother : ∀ x, x.localName ≠ kind → ∀ d, (dispatch x).value = some d → pick d = none)
    (e : Element) :
    (Reading.collect dispatch e.children).value.filterMap pick =
      (e.namedChildren kind).filterMap fun x => (read x).value.map (project x) := by
  rw [Reading.value_collect, List.filterMap_filterMap, Element.namedChildren,
    List.filterMap_filter]
  -- an element of the kind is read by the reader for it, and any other is not picked
  refine List.filterMap_congr fun x _ => ?_
  by_cases hx : x.localName = kind
  · rw [if_pos (beq_iff_eq.mpr hx), hread x hx, Reading.value_bind, Reading.value_pure]
    cases (read x).value with
    | none => rfl
    | some a => exact hpick x a
  · rw [if_neg (mt beq_iff_eq.mp hx)]
    cases hd : (dispatch x).value with
    | none => rfl
    | some d => exact hother x hx d hd

/-- The declarations of one kind and their places are read in step. -/
theorem inStep_declarations {ρ σ : Type} {P : Element → ρ → σ → Prop}
    {read : Element → Reading (Option (ρ × σ))} (kind : String) (make : ρ → σ → Declaration)
    (pick : Declaration → Option (ρ × σ))
    (hread : ∀ x, x.localName = kind → Declaration.read x = do
      let a ← read x
      pure (a.map fun p => make p.1 p.2))
    (hpick : ∀ p, pick (make p.1 p.2) = some p)
    (hother : ∀ d, d.elementName ≠ kind → pick d = none)
    (hP : ∀ x r p, (read x).value = some (r, p) → P x r p) (e : Element) :
    InStep (fun x => (read x).value.map (·.1)) P (e.namedChildren kind)
      (((Reading.collect Declaration.read e.children).value.filterMap pick).map (·.1))
      (((Reading.collect Declaration.read e.children).value.filterMap pick).map (·.2)) := by
  -- a declaration is picked only from an element of its own kind
  have hkind := filterMap_dispatched kind (fun _ p => make p.1 p.2) pick (fun _ p => p) hread
    (fun _ p => hpick p) (fun x hx d hd => hother d fun h =>
      hx ((Declaration.elementName_of_read hd).trans h)) e
  simp only [Option.map_id'] at hkind
  rw [hkind]
  exact inStep_filterMap fun x _ r p h => hP x r p h

/-- The members of one kind of an entity type and their places are read in step. -/
theorem inStep_entityMembers {ρ : Type} {read : Element → Reading (Option ρ)} (kind : String)
    (make : ρ → Span → EntityMember) (pick : EntityMember → Option (ρ × Span))
    (hread : ∀ x, x.localName = kind → EntityMember.read x = do
      let a ← read x
      pure (a.map (make · x.span)))
    (hpick : ∀ r p, pick (make r p) = some (r, p))
    (hother : ∀ m, m.elementName ≠ kind → pick m = none) (e : Element) :
    InStep (fun x => (read x).value) AtElement (e.namedChildren kind)
      (((Reading.collect EntityMember.read e.children).value.filterMap pick).map (·.1))
      (((Reading.collect EntityMember.read e.children).value.filterMap pick).map (·.2)) := by
  rw [filterMap_dispatched kind (fun x r => make r x.span) pick (fun x r => (r, x.span)) hread
    (fun x r => hpick r x.span) (fun x hx m hm => hother m fun h =>
      hx ((EntityMember.elementName_of_read hm).trans h)) e]
  exact inStep_withSpans (fun x => (read x).value) _

/-! ### Places of one declaration -/

/-- The places of an enum type are those of the element and of its members. -/
structure EnumSpans.Locates (x : Element) (t : EnumType) (p : EnumSpans) : Prop where
  span : p.span = x.span
  members : InStep (fun y => (readEnumMember y).value.map (·.1)) AtElement
    (x.namedChildren "Member") t.members p.members

/-- The places of a complex type are those of the element and of its properties. -/
structure TypeSpans.LocatesComplex (x : Element) (t : ComplexType) (p : TypeSpans) : Prop where
  span : p.span = x.span
  properties : InStep (fun y => (readProperty y).value) AtElement
    (x.namedChildren "Property") t.properties p.properties

/-- The places of an entity type are those of the element, of its first key element and of its
    members. -/
structure TypeSpans.LocatesEntity (x : Element) (t : EntityType) (p : TypeSpans) : Prop where
  span : p.span = x.span
  key : p.key = (x.child? "Key").map (·.span)
  properties : InStep (fun y => (readProperty y).value) AtElement
    (x.namedChildren "Property") t.properties p.properties
  navigationProperties : InStep (fun y => (readNavigationProperty y).value) AtElement
    (x.namedChildren "NavigationProperty") t.navigationProperties p.navigationProperties

/-- The half of a constraint is read from the first element of its name in the first constraint
    element, and this is its place. -/
def HalfAt (x : Element) (name : String) (half : ConstraintHalf) (place : Option Span) : Prop :=
  ∃ constraint y, x.child? "ReferentialConstraint" = some constraint ∧
    constraint.child? name = some y ∧ y.attribute? "Role" = some half.role ∧ place = some y.span

/-- The places of an association are those of the element and of the halves of its constraint.  The
    ends are all `End` elements that can be read, while all that there are have places, so ends and
    places are in step exactly if there are two `End` elements. -/
structure AssociationSpans.Locates (x : Element) (a : Association) (p : AssociationSpans) :
    Prop where
  span : p.span = x.span
  ends_eq : a.ends = (x.namedChildren "End").filterMap fun y => (readEnd y).value
  places_eq : p.ends = (x.namedChildren "End").map (·.span)
  inStep_iff : InStep (fun y => (readEnd y).value) AtElement (x.namedChildren "End") a.ends p.ends ↔
    (x.namedChildren "End").length = 2
  halves : ∀ c ∈ a.constraint, HalfAt x "Principal" c.principal p.principal ∧
    HalfAt x "Dependent" c.dependent p.dependent

/-- An enum type that is read has the places of its element and of its members. -/
private theorem locates_readEnumType {x : Element} {t : EnumType} {p : EnumSpans}
    (h : (readEnumType x).value = some (t, p)) : p.Locates x t := by
  unfold readEnumType at h
  -- without a name nothing is read
  obtain ⟨_, -, h⟩ := exists_of_readMetadata h rfl
  obtain ⟨rfl, rfl⟩ := Prod.mk.inj (Option.some.inj h)
  refine ⟨rfl, ?_⟩
  simp only [Reading.value_collect]
  refine inStep_filterMap fun y _ m q hy => ?_
  -- a member that is read has the span of its element
  unfold readEnumMember at hy
  obtain ⟨_, -, hy⟩ := exists_of_requireAttribute hy rfl
  exact (Prod.mk.inj (Option.some.inj hy)).2.symm

/-- A complex type that is read has the places of its element and of its properties. -/
private theorem locates_readComplexType {x : Element} {t : ComplexType} {p : TypeSpans}
    (h : (readComplexType x).value = some (t, p)) : p.LocatesComplex x t := by
  unfold readComplexType at h
  obtain ⟨_, -, h⟩ := exists_of_readMetadata h rfl
  obtain ⟨rfl, rfl⟩ := Prod.mk.inj (Option.some.inj h)
  refine ⟨rfl, ?_⟩
  simp only [Reading.value_collect]
  exact inStep_withSpans (fun y => (readProperty y).value) _

/-- The place of a key is that of the first key element, which is always read. -/
private theorem place_readKey (x : Element) :
    (readKey x).value.map (·.2) = (x.child? "Key").map (·.span) := by
  unfold readKey
  cases x.child? "Key" <;> rfl

/-- An entity type that is read has the places of its element, of its key and of its members. -/
theorem locates_readEntityType {x : Element} {t : EntityType} {p : TypeSpans}
    (h : (readEntityType x).value = some (t, p)) : p.LocatesEntity x t := by
  unfold readEntityType at h
  obtain ⟨_, -, h⟩ := exists_of_readMetadata h rfl
  obtain ⟨rfl, rfl⟩ := Prod.mk.inj (Option.some.inj h)
  refine ⟨rfl, place_readKey x, ?_, ?_⟩
  -- both kinds of members are picked from the same list of children
  · exact inStep_entityMembers "Property" .property EntityMember.property?
      (fun y hy => by rw [EntityMember.read, if_pos hy]) (fun _ _ => rfl)
      (fun m hm => by cases m <;> first | rfl | exact absurd rfl hm) x
  · exact inStep_entityMembers "NavigationProperty" .navigation EntityMember.navigation?
      (fun y hy => by rw [EntityMember.read, if_neg (by rw [hy]; decide), if_pos hy])
      (fun _ _ => rfl) (fun m hm => by cases m <;> first | rfl | exact absurd rfl hm) x

/-- A half of a constraint that is read has the place of its element. -/
theorem halfAt_of_readHalf {x constraint : Element} {name : String} {half : ConstraintHalf}
    {place : Span} (hconstraint : x.child? "ReferentialConstraint" = some constraint)
    (h : (readHalf constraint name).value = some (half, place)) :
    HalfAt x name half (some place) := by
  unfold readHalf at h
  cases hchild : constraint.child? name with
  | none =>
    rw [hchild] at h
    exact nomatch h
  | some y =>
    rw [hchild] at h
    obtain ⟨role, hrole, h⟩ := exists_of_requireAttribute h rfl
    obtain ⟨rfl, rfl⟩ := Prod.mk.inj (Option.some.inj h)
    exact ⟨constraint, y, hconstraint, hchild, hrole, rfl⟩

/-- A constraint is there only if both halves are read. -/
private theorem halfAt_of_readHalves {x : Element} {c : ReferentialConstraint}
    (h : joinHalves (readHalves x).value.1 (readHalves x).value.2 = some c) :
    HalfAt x "Principal" c.principal ((readHalves x).value.1.map (·.2)) ∧
      HalfAt x "Dependent" c.dependent ((readHalves x).value.2.map (·.2)) := by
  unfold readHalves at h ⊢
  cases hconstraint : x.child? "ReferentialConstraint" with
  | none =>
    rw [hconstraint] at h
    exact nomatch h
  | some constraint =>
    rw [hconstraint] at h
    simp only [Reading.value_bind, Reading.value_pure] at h ⊢
    -- a half that is not read leaves the association without its constraint
    cases hprincipal : (readHalf constraint "Principal").value with
    | none =>
      rw [hprincipal] at h
      exact nomatch h
    | some principal =>
      cases hdependent : (readHalf constraint "Dependent").value with
      | none =>
        rw [hprincipal, hdependent] at h
        exact nomatch h
      | some dependent =>
        rw [hprincipal, hdependent] at h
        obtain rfl := Option.some.inj h
        exact ⟨halfAt_of_readHalf hconstraint hprincipal,
          halfAt_of_readHalf hconstraint hdependent⟩

/-- An association that is read has the places of its element, of its ends and of its halves. -/
private theorem locates_readAssociation {x : Element} {a : Association} {p : AssociationSpans}
    (h : (readAssociation x).value = some (a, p)) : p.Locates x a := by
  unfold readAssociation at h
  obtain ⟨_, -, h⟩ := exists_of_readMetadata h rfl
  simp only [Reading.value_bind] at h
  split at h
  · rename_i first second hends
    obtain ⟨rfl, rfl⟩ := Prod.mk.inj (Option.some.inj h)
    rw [Reading.value_collect] at hends
    refine ⟨rfl, hends.symm, rfl, ?_, fun c hc => halfAt_of_readHalves hc⟩
    -- the ends are read in order, so the places of all are theirs unless there are others
    show InStep _ AtElement _ [first, second] _ ↔ _
    rw [← hends, inStep_all_iff, hends]
    exact eq_comm
  · split at h
    · exact nomatch h
    · exact nomatch h

/-- An entity container that is read has the place of its element. -/
private theorem locates_readEntityContainer {x : Element} {c : EntityContainer} {p : Span}
    (h : (readEntityContainer x).value = some (c, p)) : AtElement x c p := by
  unfold readEntityContainer at h
  obtain ⟨_, -, h⟩ := exists_of_readMetadata h rfl
  exact (Prod.mk.inj (Option.some.inj h)).2.symm

/-! ### Places of a schema -/

/-- Every list of the source map is in step with the list of records that it gives the places of,
    down to the members of each record. -/
structure SourceMap.Follows (e : Element) (s : Schema) (m : SourceMap) : Prop where
  enumTypes : InStep (fun x => (readEnumType x).value.map (·.1)) EnumSpans.Locates
    (e.namedChildren "EnumType") s.enumTypes m.enumTypes
  complexTypes : InStep (fun x => (readComplexType x).value.map (·.1)) TypeSpans.LocatesComplex
    (e.namedChildren "ComplexType") s.complexTypes m.complexTypes
  entityTypes : InStep (fun x => (readEntityType x).value.map (·.1)) TypeSpans.LocatesEntity
    (e.namedChildren "EntityType") s.entityTypes m.entityTypes
  associations : InStep (fun x => (readAssociation x).value.map (·.1)) AssociationSpans.Locates
    (e.namedChildren "Association") s.associations m.associations
  entityContainers : InStep (fun x => (readEntityContainer x).value.map (·.1)) AtElement
    (e.namedChildren "EntityContainer") s.entityContainers m.entityContainers

/-- The source map that is read with a schema follows the elements of both. -/
theorem follows_read (e : Element) :
    (Schema.read e).value.2.Follows e (Schema.read e).value.1 := by
  rw [Schema.value_read]
  -- each kind of declaration by itself
  refine ⟨?_, ?_, ?_, ?_, ?_⟩
  · exact inStep_declarations "EnumType" .enumType Declaration.enumType?
      (fun x hx => by simp [Declaration.read, hx]) (fun _ => rfl)
      (fun d hd => by cases d <;> first | rfl | exact absurd rfl hd)
      (fun _ _ _ => locates_readEnumType) e
  · exact inStep_declarations "ComplexType" .complexType Declaration.complexType?
      (fun x hx => by simp [Declaration.read, hx]) (fun _ => rfl)
      (fun d hd => by cases d <;> first | rfl | exact absurd rfl hd)
      (fun _ _ _ => locates_readComplexType) e
  · exact inStep_declarations "EntityType" .entityType Declaration.entityType?
      (fun x hx => by simp [Declaration.read, hx]) (fun _ => rfl)
      (fun d hd => by cases d <;> first | rfl | exact absurd rfl hd)
      (fun _ _ _ => locates_readEntityType) e
  · exact inStep_declarations "Association" .association Declaration.association?
      (fun x hx => by simp [Declaration.read, hx]) (fun _ => rfl)
      (fun d hd => by cases d <;> first | rfl | exact absurd rfl hd)
      (fun _ _ _ => locates_readAssociation) e
  · exact inStep_declarations "EntityContainer" .entityContainer Declaration.entityContainer?
      (fun x hx => by simp [Declaration.read, hx]) (fun _ => rfl)
      (fun d hd => by cases d <;> first | rfl | exact absurd rfl hd)
      (fun _ _ _ => locates_readEntityContainer) e

end EntityModel
