import EntityModel.Proofs.Nesting
import EntityModel.Schema.OfElement
import Mathlib.Data.List.Forall2

/-!
# What the elements of a model record

`InOrder` ties a list of records to a list of elements: each element has its record, in order, or is
one that may be left out.  The relations below say so of a schema and of everything in it, down to
the names that a key refers to, and only look at names and attributes of the elements.  If nothing
may be left out, there is exactly one record for each element.

* `inOrder_collect`   what a reader of single elements makes of a list of them
-/

namespace EntityModel

open Markup (Element)

/-! ### Records in the order of their elements -/

/-- The records stand in the order of the elements that they are records of, and an element without
    a record is one that may be left out. -/
inductive InOrder {ρ : Type} (leftOut : Element → Prop) (R : Element → ρ → Prop) :
    List Element → List ρ → Prop
  | nil : InOrder leftOut R [] []
  | kept {x : Element} {r : ρ} {xs : List Element} {rs : List ρ} (h : R x r)
      (rest : InOrder leftOut R xs rs) : InOrder leftOut R (x :: xs) (r :: rs)
  | skipped {x : Element} {xs : List Element} {rs : List ρ} (h : leftOut x)
      (rest : InOrder leftOut R xs rs) : InOrder leftOut R (x :: xs) rs

/-! ### The record of each kind of element -/

/-- The element has the name. -/
def BearsName (e : Element) (name : String) : Prop := e.attribute? "Name" = some name

/-- The enum member records the element. -/
def EnumMember.Records (e : Element) (m : EnumMember) : Prop := BearsName e m.name

/-- The scalar property records the element. -/
structure Property.Records (e : Element) (p : Property) : Prop where
  name : BearsName e p.name
  typeName : e.attribute? "Type" = some p.typeName

/-- The navigation property records the element. -/
structure NavigationProperty.Records (e : Element) (n : NavigationProperty) : Prop where
  name : BearsName e n.name
  relationship : e.attribute? "Relationship" = some n.relationship
  fromRole : e.attribute? "FromRole" = some n.fromRole
  toRole : e.attribute? "ToRole" = some n.toRole

/-- The association end records the element. -/
structure AssociationEnd.Records (e : Element) (r : AssociationEnd) : Prop where
  role : e.attribute? "Role" = some r.role
  typeName : e.attribute? "Type" = some r.typeName
  multiplicity :
    (e.attribute? "Multiplicity").bind Multiplicity.vocabulary.read? = some r.multiplicity

/-- The entity set records the element. -/
structure EntitySet.Records (e : Element) (s : EntitySet) : Prop where
  name : BearsName e s.name
  entityType : e.attribute? "EntityType" = some s.entityType

section

variable (leftOut : Element → Prop)

/-- The names are those of the property references below the element. -/
def RecordsRefs (e : Element) (names : List String) : Prop :=
  InOrder leftOut BearsName (e.namedChildren "PropertyRef") names

/-- The enum type records the element. -/
structure EnumType.Records (e : Element) (t : EnumType) : Prop where
  name : BearsName e t.name
  members : InOrder leftOut EnumMember.Records (e.namedChildren "Member") t.members

/-- The complex type records the element. -/
structure ComplexType.Records (e : Element) (t : ComplexType) : Prop where
  name : BearsName e t.name
  properties : InOrder leftOut Property.Records (e.namedChildren "Property") t.properties

/-- The entity type records the element, and its key the first key element. -/
structure EntityType.Records (e : Element) (t : EntityType) : Prop where
  name : BearsName e t.name
  key : ∀ k, e.child? "Key" = some k → ∃ names, t.key = some names ∧ RecordsRefs leftOut k names
  noKey : e.child? "Key" = none → t.key = none
  properties : InOrder leftOut Property.Records (e.namedChildren "Property") t.properties
  navigationProperties :
    InOrder leftOut NavigationProperty.Records (e.namedChildren "NavigationProperty")
      t.navigationProperties

/-- The half of a constraint records the first element of its name below the constraint. -/
def ConstraintHalf.Records (name : String) (constraint : Element) (h : ConstraintHalf) : Prop :=
  ∃ e, constraint.child? name = some e ∧ e.attribute? "Role" = some h.role ∧
    RecordsRefs leftOut e h.properties

/-- The referential constraint records the element. -/
structure ReferentialConstraint.Records (e : Element) (c : ReferentialConstraint) : Prop where
  principal : ConstraintHalf.Records leftOut "Principal" e c.principal
  dependent : ConstraintHalf.Records leftOut "Dependent" e c.dependent

/-- The association records the element, and its constraint the first constraint element. -/
structure Association.Records (e : Element) (a : Association) : Prop where
  name : BearsName e a.name
  ends : InOrder leftOut AssociationEnd.Records (e.namedChildren "End") a.ends
  constraint :
    InOrder leftOut (ReferentialConstraint.Records leftOut)
      (e.child? "ReferentialConstraint").toList a.constraint.toList

/-- The entity container records the element. -/
structure EntityContainer.Records (e : Element) (c : EntityContainer) : Prop where
  name : BearsName e c.name
  entitySets : InOrder leftOut EntitySet.Records (e.namedChildren "EntitySet") c.entitySets

/-- The schema records the element: each kind of declaration, in the order of the document. -/
structure Schema.Records (e : Element) (s : Schema) : Prop where
  enumTypes :
    InOrder leftOut (EnumType.Records leftOut) (e.namedChildren "EnumType") s.enumTypes
  complexTypes :
    InOrder leftOut (ComplexType.Records leftOut) (e.namedChildren "ComplexType") s.complexTypes
  entityTypes :
    InOrder leftOut (EntityType.Records leftOut) (e.namedChildren "EntityType") s.entityTypes
  associations :
    InOrder leftOut (Association.Records leftOut) (e.namedChildren "Association") s.associations
  entityContainers :
    InOrder leftOut (EntityContainer.Records leftOut) (e.namedChildren "EntityContainer")
      s.entityContainers

end

/-! ### Faults in an element -/

/-- One of the faults points at the element or at one in it. -/
def Blamed (faults : List Fault) (e : Element) : Prop :=
  ∃ f ∈ faults, ∃ x, e.Contains x ∧ f.span = x.span

/-- Every element in `e` that one of the faults points into may be left out. -/
def Excuses (leftOut : Element → Prop) (faults : List Fault) (e : Element) : Prop :=
  ∀ x, e.Contains x → Blamed faults x → leftOut x

theorem Blamed.of_mem {faults : List Fault} {f : Fault} {e : Element} (hf : f ∈ faults)
    (h : f.span = e.span) : Blamed faults e := ⟨f, hf, e, e.contains_self, h⟩

/-- More faults blame no less. -/
theorem Blamed.mono {faults more : List Fault} {e : Element} (h : Blamed faults e)
    (hsub : faults ⊆ more) : Blamed more e := by
  obtain ⟨f, hf, x, hx, hspan⟩ := h
  exact ⟨f, hsub hf, x, hx, hspan⟩

/-- Who is blamed for something in it is blamed. -/
theorem Blamed.of_contains {faults : List Fault} {e x : Element} (hx : e.Contains x)
    (h : Blamed faults x) : Blamed faults e := by
  obtain ⟨f, hf, y, hy, hspan⟩ := h
  exact ⟨f, hf, y, hx.trans hy, hspan⟩

/-- What excuses an element and some faults excuses what is in it and fewer faults. -/
theorem Excuses.mono {leftOut : Element → Prop} {faults fewer : List Fault} {e x : Element}
    (h : Excuses leftOut faults e) (hx : e.Contains x) (hsub : fewer ⊆ faults) :
    Excuses leftOut fewer x :=
  fun y hy hb => h y (hx.trans hy) (hb.mono hsub)

/-! ### Readers that lose nothing silently -/

/-- What a reader makes of an element: without a record the element is blamed, and a record is one
    of the element in which only what is blamed has been left out. -/
structure Accounts {ρ : Type} (R : (Element → Prop) → Element → ρ → Prop)
    (r : Reading (Option ρ)) (e : Element) : Prop where
  none_blamed : r.value = none → Blamed r.faults e
  some_records : ∀ a, r.value = some a → ∀ leftOut, Excuses leftOut r.faults e → R leftOut e a

theorem mem_namedChildren {e x : Element} {name : String} (h : x ∈ e.namedChildren name) :
    x ∈ e.children := (List.mem_filter.mp h).1

/-- The faults of an element of a list are faults of the list. -/
theorem faults_subset_collect {ρ : Type} {read : Element → Reading (Option ρ)}
    {xs : List Element} {x : Element} (h : x ∈ xs) :
    (read x).faults ⊆ (Reading.collect read xs).faults := by
  rw [Reading.faults_collect]
  exact fun f hf => List.mem_flatMap.mpr ⟨x, h, hf⟩

/-- What a reader of single elements makes of those children of an element that it is for, where
    it reads all of them or gives something else for the others. -/
theorem inOrder_collect_filter {ρ δ : Type} {R : Element → ρ → Prop} {leftOut : Element → Prop}
    {read : Element → Reading (Option δ)} (select : Element → Bool) (pick : δ → Option ρ)
    {xs : List Element}
    (hkept : ∀ x ∈ xs, select x = true → ∀ d, (read x).value = some d →
      ∃ r, pick d = some r ∧ R x r)
    (hskipped : ∀ x ∈ xs, select x = true → (read x).value = none → leftOut x)
    (hother : ∀ x ∈ xs, select x = false → ∀ d, (read x).value = some d → pick d = none) :
    InOrder leftOut R (xs.filter select) ((Reading.collect read xs).value.filterMap pick) := by
  rw [Reading.value_collect, List.filterMap_filterMap]
  induction xs with
  | nil => exact .nil
  | cons x xs ih =>
    have hrest := ih (fun y hy => hkept y (List.mem_cons_of_mem _ hy))
      (fun y hy => hskipped y (List.mem_cons_of_mem _ hy))
      (fun y hy => hother y (List.mem_cons_of_mem _ hy))
    have hx := List.mem_cons_self (a := x) (l := xs)
    by_cases hs : select x = true
    · rw [List.filter_cons_of_pos hs]
      cases hv : (read x).value with
      | none =>
        rw [List.filterMap_cons_none (by simp [hv])]
        exact .skipped (hskipped x hx hs hv) hrest
      | some d =>
        obtain ⟨r, hpick, hr⟩ := hkept x hx hs d hv
        rw [List.filterMap_cons_some (b := r) (by simp [hv, hpick])]
        exact .kept hr hrest
    · have hs' : select x = false := by simpa using hs
      rw [List.filter_cons_of_neg hs]
      have hnone : (read x).value.bind pick = none := by
        cases hv : (read x).value with
        | none => rfl
        | some d => exact hother x hx hs' d hv
      rw [List.filterMap_cons_none (by exact hnone)]
      exact hrest

/-- What a reader of single elements makes of a list of them. -/
theorem inOrder_collect {ρ δ : Type} {R : Element → ρ → Prop} {leftOut : Element → Prop}
    {read : Element → Reading (Option δ)} {pick : δ → ρ} {xs : List Element}
    (hkept : ∀ x ∈ xs, ∀ d, (read x).value = some d → R x (pick d))
    (hskipped : ∀ x ∈ xs, (read x).value = none → leftOut x) :
    InOrder leftOut R xs ((Reading.collect read xs).value.map pick) := by
  have h := inOrder_collect_filter (R := R) (fun _ => true) (fun d => some (pick d))
    (fun x hx _ d hd => ⟨pick d, rfl, hkept x hx d hd⟩)
    (fun x hx _ hn => hskipped x hx hn) (fun x _ hf => nomatch hf)
  rw [List.filter_eq_self.mpr fun _ _ => rfl, List.filterMap_eq_map'] at h
  exact h

end EntityModel
