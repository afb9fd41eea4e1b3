import EntityModel.Schema.OfElement
import Mathlib.Data.List.Forall2

/-!
# Schemas and source maps run in parallel

The rules of a schema are checked along its source map, so a record without a place would go
unchecked.  A source map is parallel to a schema if each record has its place and each member of it
has one too; the two that are read from one element always are.

* `flatMap_zip_eq_nil_iff`   a check along the source map is a check of every record
* `parallel_read`            what is read together is parallel
-/

namespace EntityModel

open Markup (Element)

/-! ### Places of single records -/

/-- Each member of the enum type has a place. -/
def EnumSpans.Places (p : EnumSpans) (t : EnumType) : Prop :=
  t.members.length = p.members.length

/-- Each property of the complex type has a place. -/
def TypeSpans.PlacesComplex (p : TypeSpans) (t : ComplexType) : Prop :=
  t.properties.length = p.properties.length

/-- Each member of the entity type has a place. -/
def TypeSpans.PlacesEntity (p : TypeSpans) (t : EntityType) : Prop :=
  t.properties.length = p.properties.length ∧
    t.navigationProperties.length = p.navigationProperties.length

/-- Each end of the association has a place.  There may be places of other ends, which were there
    but could not be read. -/
def AssociationSpans.Places (p : AssociationSpans) (a : Association) : Prop :=
  a.ends.length ≤ p.ends.length

/-- Each record of the schema, and each member of one, has a place. -/
structure SourceMap.Parallel (m : SourceMap) (s : Schema) : Prop where
  enumTypes : List.Forall₂ (fun t p => p.Places t) s.enumTypes m.enumTypes
  complexTypes : List.Forall₂ (fun t p => p.PlacesComplex t) s.complexTypes m.complexTypes
  entityTypes : List.Forall₂ (fun t p => p.PlacesEntity t) s.entityTypes m.entityTypes
  associations : List.Forall₂ (fun a p => p.Places a) s.associations m.associations
  entityContainers : s.entityContainers.length = m.entityContainers.length

/-! ### Checks along a source map -/

/-- Where records and places run in parallel, a check of each record at its place finds nothing
    exactly when each record is right. -/
theorem flatMap_zip_eq_nil_iff {α β γ : Type} {P : α → β → Prop} {Q : α → Prop}
    {f : α × β → List γ} {xs : List α} {ys : List β} (h : List.Forall₂ P xs ys)
    (hf : ∀ x y, P x y → (f (x, y) = [] ↔ Q x)) :
    (xs.zip ys).flatMap f = [] ↔ ∀ x ∈ xs, Q x := by
  -- record and place go together, and so do what is left of both lists
  induction h with
  | nil => simp
  | cons hp _ ih =>
    rw [List.zip_cons_cons, List.flatMap_cons, List.append_eq_nil_iff, hf _ _ hp, ih,
      List.forall_mem_cons]

/-- Where records and places run in parallel, what each record gives at its place is what it gives. -/
theorem flatMap_zip_eq_flatMap {α β γ : Type} {P : α → β → Prop} {f : α × β → List γ}
    {g : α → List γ} {xs : List α} {ys : List β} (h : List.Forall₂ P xs ys)
    (hf : ∀ x y, P x y → f (x, y) = g x) : (xs.zip ys).flatMap f = xs.flatMap g := by
  induction h with
  | nil => rfl
  | cons hp _ ih => rw [List.zip_cons_cons, List.flatMap_cons, List.flatMap_cons, hf _ _ hp, ih]

/-- Names at their places, where there are enough of those, are all the names. -/
theorem map_fst_zip_names {α : Type} {name : α → String} {xs : List α} {spans : List Span}
    (h : xs.length ≤ spans.length) :
    ((xs.map name).zip spans).map (·.1) = xs.map name :=
  List.map_fst_zip (by rw [List.length_map]; exact h)

/-! ### What is read together -/

/-- Each member of an enum type that is read has a place. -/
private theorem places_of_readEnumType {e : Element} {t : EnumType} {p : EnumSpans}
    (h : (readEnumType e).value = some (t, p)) : p.Places t := by
  unfold readEnumType at h
  -- without a name nothing is read
  obtain ⟨_, -, h⟩ := exists_of_readMetadata h rfl
  obtain ⟨rfl, rfl⟩ := Prod.mk.inj (Option.some.inj h)
  simp [EnumSpans.Places]

/-- Each property of a complex type that is read has a place. -/
private theorem places_of_readComplexType {e : Element} {t : ComplexType} {p : TypeSpans}
    (h : (readComplexType e).value = some (t, p)) : p.PlacesComplex t := by
  unfold readComplexType at h
  obtain ⟨_, -, h⟩ := exists_of_readMetadata h rfl
  obtain ⟨rfl, rfl⟩ := Prod.mk.inj (Option.some.inj h)
  simp [TypeSpans.PlacesComplex]

/-- Each member of an entity type that is read has a place. -/
private theorem places_of_readEntityType {e : Element} {t : EntityType} {p : TypeSpans}
    (h : (readEntityType e).value = some (t, p)) : p.PlacesEntity t := by
  unfold readEntityType at h
  obtain ⟨_, -, h⟩ := exists_of_readMetadata h rfl
  obtain ⟨rfl, rfl⟩ := Prod.mk.inj (Option.some.inj h)
  simp [TypeSpans.PlacesEntity]

/-- The two ends of an association are among the elements that have a place as ends. -/
private theorem places_of_readAssociation {e : Element} {a : Association} {p : AssociationSpans}
    (h : (readAssociation e).value = some (a, p)) : p.Places a := by
  unfold readAssociation at h
  obtain ⟨_, -, h⟩ := exists_of_readMetadata h rfl
  simp only [Reading.value_bind] at h
  -- there are no more ends than elements for them
  have hcount : (Reading.collect readEnd (e.namedChildren "End")).value.length ≤
      (e.namedChildren "End").length := by
    rw [Reading.value_collect]
    exact List.length_filterMap_le _ _
  split at h
  · rename_i hends
    rw [hends] at hcount
    obtain ⟨rfl, rfl⟩ := Prod.mk.inj (Option.some.inj h)
    simpa [AssociationSpans.Places, Association.ends] using hcount
  · split at h
    · exact nomatch h
    · exact nomatch h

/-- Each member of the declaration has a place. -/
def Declaration.Placed : Declaration → Prop
  | enumType t p => p.Places t
  | complexType t p => p.PlacesComplex t
  | entityType t p => p.PlacesEntity t
  | association a p => p.Places a
  | entityContainer .. => True

/-- Each member of a declaration that is read has a place. -/
private theorem placed_of_read {e : Element} {d : Declaration}
    (h : (Declaration.read e).value = some d) : d.Placed := by
  have hread := Declaration.isReadFrom_of_read h
  cases d with
  | enumType t p => exact places_of_readEnumType hread.2
  | complexType t p => exact places_of_readComplexType hread.2
  | entityType t p => exact places_of_readEntityType hread.2
  | association a p => exact places_of_readAssociation hread.2
  | entityContainer c p => exact True.intro

/-- Where each declaration is placed, the records of one kind run in parallel to their places. -/
theorem forall₂_of_placed {α β : Type} {R : α → β → Prop} {ds : List Declaration}
    {pick : Declaration → Option (α × β)} (hds : ∀ d ∈ ds, d.Placed)
    (hpick : ∀ d p, pick d = some p → d.Placed → R p.1 p.2) :
    List.Forall₂ R ((ds.filterMap pick).map (·.1)) ((ds.filterMap pick).map (·.2)) := by
  -- both lists are picked from the same pairs
  rw [List.forall₂_map_left_iff, List.forall₂_map_right_iff, List.forall₂_same]
  intro p hp
  obtain ⟨d, hd, hsome⟩ := List.mem_filterMap.mp hp
  exact hpick d p hsome (hds d hd)

/-- The source map of a schema that was read is parallel to it. -/
theorem parallel_read (e : Element) : (Schema.read e).value.2.Parallel (Schema.read e).value.1 := by
  have hds : ∀ d ∈ (Reading.collect Declaration.read e.children).value, d.Placed := by
    intro d hd
    rw [Reading.value_collect] at hd
    obtain ⟨x, -, hx⟩ := List.mem_filterMap.mp hd
    exact placed_of_read hx
  rw [Schema.value_read]
  -- each kind of declaration by itself
  constructor
  · refine forall₂_of_placed hds fun d p hp hplaced => ?_
    cases d <;> cases hp
    exact hplaced
  · refine forall₂_of_placed hds fun d p hp hplaced => ?_
    cases d <;> cases hp
    exact hplaced
  · refine forall₂_of_placed hds fun d p hp hplaced => ?_
    cases d <;> cases hp
    exact hplaced
  · refine forall₂_of_placed hds fun d p hp hplaced => ?_
    cases d <;> cases hp
    exact hplaced
  · -- a container has no list of places of its own
    simp [Schema.ofDeclarations, SourceMap.ofDeclarations]

end EntityModel
