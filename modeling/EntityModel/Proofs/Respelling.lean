import EntityModel.Generation.File
import EntityModel.Proofs.SideBySide
import EntityModel.Proofs.Spellings

/-!
# References in other spellings

A reference to a declaration may be spelled in several ways.  Two schemas that differ only in how
their references are spelled are taken through generation side by side: each look-up of one agrees
with the look-up of the other, up to the spelling of what is found, and nothing that is written
shows the spelling of a reference.  Only a failure names its reference as it stands.

* `Schema.Respelled`                 schemas that differ in the spelling of references
* `agree_resolveNavigation`          navigation properties lead to the same target
* `agree_body`, `agree_generate`     what is generated for one is generated for the other
-/

namespace EntityModel

/-! ### Other spellings -/

/-- The references are spellings of the name of one declaration, or the same reference. -/
inductive Schema.Respells (s : Schema) : String → String → Prop
  | refl (r : String) : Respells s r r
  | type {t : ResolvedType} {r' r : String} (ht : t ∈ s.types) (h' : s.Spelling t.name r')
      (h : s.Spelling t.name r) : Respells s r' r
  | association {a : Association} {r' r : String} (ha : a ∈ s.associations)
      (h' : s.Spelling a.name r') (h : s.Spelling a.name r) : Respells s r' r

/-- The failures differ at most in the spelling of the reference that leads nowhere. -/
structure UnresolvedReference.Respelled (s : Schema) (u' u : UnresolvedReference) : Prop where
  kind : u'.kind = u.kind
  name : s.Respells u'.name u.name
  referencedBy : u'.referencedBy = u.referencedBy

/-- The navigation property with its relationship in another spelling. -/
inductive NavigationProperty.Respelled (s : Schema) :
    NavigationProperty → NavigationProperty → Prop
  | mk (n : NavigationProperty) (r : String) (h : s.Respells r n.relationship) :
      Respelled s { n with relationship := r } n

/-- The end with its type in another spelling. -/
inductive AssociationEnd.Respelled (s : Schema) : AssociationEnd → AssociationEnd → Prop
  | mk (x : AssociationEnd) (r : String) (h : s.Respells r x.typeName) :
      Respelled s { x with typeName := r } x

/-- The association with the types of its ends in other spellings. -/
inductive Association.Respelled (s : Schema) : Association → Association → Prop
  | mk (a : Association) (x y : AssociationEnd) (hx : x.Respelled s a.first)
      (hy : y.Respelled s a.second) : Respelled s { a with first := x, second := y } a

/-- The set with its type in another spelling. -/
inductive EntitySet.Respelled (s : Schema) : EntitySet → EntitySet → Prop
  | mk (e : EntitySet) (r : String) (h : s.Respells r e.entityType) :
      Respelled s { e with entityType := r } e

/-- The container with the types of its sets in other spellings. -/
inductive EntityContainer.Respelled (s : Schema) : EntityContainer → EntityContainer → Prop
  | mk (c : EntityContainer) (sets : List EntitySet)
      (h : List.Forall₂ (EntitySet.Respelled s) sets c.entitySets) :
      Respelled s { c with entitySets := sets } c

/-- The entity type with its base type and its relationships in other spellings. -/
inductive EntityType.Respelled (s : Schema) : EntityType → EntityType → Prop
  | mk (t : EntityType) (base : Option String) (navigations : List NavigationProperty)
      (hbase : Option.Rel s.Respells base t.baseType)
      (hnavigations :
        List.Forall₂ (NavigationProperty.Respelled s) navigations t.navigationProperties) :
      Respelled s { t with baseType := base, navigationProperties := navigations } t

/-- The schema with base types, relationships, types of ends and types of sets in other
    spellings. -/
inductive Schema.Respelled : Schema → Schema → Prop
  | mk (s : Schema) (entityTypes : List EntityType) (associations : List Association)
      (entityContainers : List EntityContainer)
      (ht : List.Forall₂ (EntityType.Respelled s) entityTypes s.entityTypes)
      (ha : List.Forall₂ (Association.Respelled s) associations s.associations)
      (hc : List.Forall₂ (EntityContainer.Respelled s) entityContainers s.entityContainers) :
      Respelled { s with
        entityTypes := entityTypes
        associations := associations
        entityContainers := entityContainers } s

/-- The same type, but for spellings. -/
inductive ResolvedType.Respelled (s : Schema) : ResolvedType → ResolvedType → Prop
  | entity {t' t : EntityType} (h : t'.Respelled s t) : Respelled s (.entity t') (.entity t)
  | complex (t : ComplexType) : Respelled s (.complex t) (.complex t)
  | enum (t : EnumType) : Respelled s (.enum t) (.enum t)

/-- Spellings of one name have one local name. -/
theorem Schema.Respells.localName_eq {s : Schema} (hs : s.WellFormed) {r' r : String}
    (h : s.Respells r' r) : s.localName r' = s.localName r := by
  cases h with
  -- without dots in it the name is found from every spelling
  | refl => rfl
  | type ht h' h =>
    have hname := not_mem_dot_of_isIdentifier (hs.isIdentifier_type ht)
    rw [localName_of_spelling hname h', localName_of_spelling hname h]
  | association ha h' h =>
    have hname := not_mem_dot_of_isIdentifier (hs.isIdentifier_association ha)
    rw [localName_of_spelling hname h', localName_of_spelling hname h]

/-! ### Look-ups side by side -/

section

variable {s s' : Schema}

/-- Local names are the same in both schemas. -/
theorem Schema.Respelled.localName_eq (h : s'.Respelled s) : s'.localName = s.localName := by
  cases h
  rfl

/-- Two failures to find the same thing. -/
theorem agree_orUnresolved {α β : Type} {R : α → β → Prop} {kind : ReferenceKind}
    {r' r owner : String} {x : Option α} {y : Option β} (hr : s.Respells r' r)
    (h : Option.Rel R x y) :
    Agree (UnresolvedReference.Respelled s) R (orUnresolved kind r' owner x)
      (orUnresolved kind r owner y) := by
  cases h with
  | some hab => exact .ok hab
  | none => exact .error ⟨rfl, hr, rfl⟩

/-- The same type is found in both schemas, but for spellings. -/
private theorem rel_findType? (h : s'.Respelled s) (name : String) :
    Option.Rel (ResolvedType.Respelled s) (s'.findType? name) (s.findType? name) := by
  cases h with
  | mk _ entityTypes associations containers ht _ _ =>
    -- only entity types have references of their own, the other two are the same
    have hentity := rel_find? (p := fun t => t.name == name) (q := fun t => t.name == name) ht
      fun _ _ h => by cases h; rfl
    have hother : Option.Rel (ResolvedType.Respelled s)
        (((s.complexTypes.find? fun t => t.name == name).map ResolvedType.complex).or
          ((s.enumTypes.find? fun t => t.name == name).map ResolvedType.enum))
        (((s.complexTypes.find? fun t => t.name == name).map ResolvedType.complex).or
          ((s.enumTypes.find? fun t => t.name == name).map ResolvedType.enum)) := by
      cases s.complexTypes.find? fun t => t.name == name with
      | some t => exact .some (.complex t)
      | none =>
        cases s.enumTypes.find? fun t => t.name == name with
        | some t => exact .some (.enum t)
        | none => exact .none
    exact rel_or (rel_map hentity fun _ _ h => .entity h) hother

/-- The same association is found in both schemas, but for spellings. -/
private theorem rel_findAssociation? (h : s'.Respelled s) (name : String) :
    Option.Rel (Association.Respelled s) (s'.findAssociation? name) (s.findAssociation? name) := by
  cases h with
  | mk _ entityTypes associations containers _ ha _ =>
    exact rel_find? ha fun _ _ h => by cases h; rfl

variable {r' r : String}

/-- A type of a scalar property is mapped to the same in both schemas. -/
private theorem agree_mapType (h : s'.Respelled s) (name owner : String) :
    Agree (UnresolvedReference.Respelled s) Eq (CSharp.mapType s' name owner)
      (CSharp.mapType s name owner) := by
  unfold CSharp.mapType
  cases Primitive.read? name with
  | some p => exact .ok rfl
  | none =>
    -- the type is found by its local name, and only its name is written
    dsimp only
    unfold Schema.resolveType
    rw [h.localName_eq]
    refine (agree_orUnresolved (.refl name) (rel_findType? h _)).map fun _ _ ht => ?_
    cases ht with
    | entity ht => cases ht; rfl
    | complex t => rfl
    | enum t => rfl

/-- The same entity type is found from two spellings of a reference. -/
private theorem agree_resolveEntityType (hs : s.WellFormed) (h : s'.Respelled s)
    (hr : s.Respells r' r) (owner : String) :
    Agree (UnresolvedReference.Respelled s) (EntityType.Respelled s)
      (s'.resolveEntityType r' owner) (s.resolveEntityType r owner) := by
  unfold Schema.resolveEntityType
  rw [h.localName_eq, hr.localName_eq hs]
  -- what is found is an entity type in both schemas or in neither
  refine agree_orUnresolved hr (rel_bind (rel_findType? h _) fun _ _ ht => ?_)
  cases ht with
  | entity ht => exact .some ht
  | complex t => exact .none
  | enum t => exact .none

/-- The same association is found from two spellings of a reference. -/
private theorem agree_resolveAssociation (hs : s.WellFormed) (h : s'.Respelled s)
    (hr : s.Respells r' r) (owner : String) :
    Agree (UnresolvedReference.Respelled s) (Association.Respelled s)
      (s'.resolveAssociation r' owner) (s.resolveAssociation r owner) := by
  unfold Schema.resolveAssociation
  rw [h.localName_eq, hr.localName_eq hs]
  exact agree_orUnresolved hr (rel_findAssociation? h _)

variable {a' a : Association}

/-- The same end has the role in both associations. -/
private theorem agree_findEnd (h : a'.Respelled s a) (role : String) :
    Agree (UnresolvedReference.Respelled s) (AssociationEnd.Respelled s) (a'.findEnd role)
      (a.findEnd role) := by
  cases h with
  | mk _ x y hx hy =>
    have hends : List.Forall₂ (AssociationEnd.Respelled s) [x, y] a.ends :=
      .cons hx (.cons hy .nil)
    exact agree_orUnresolved (.refl role) (rel_find? hends fun _ _ h => by cases h; rfl)

/-- The same end is opposite to the role in both associations. -/
private theorem agree_oppositeEnd (h : a'.Respelled s a) (role : String) :
    Agree (UnresolvedReference.Respelled s) (AssociationEnd.Respelled s) (a'.oppositeEnd role)
      (a.oppositeEnd role) := by
  cases h with
  | mk _ x y hx hy =>
    -- the roles are what the search looks at, and they are the same
    have hfirst : x.role = a.first.role := by cases hx; rfl
    have hsecond : y.role = a.second.role := by cases hy; rfl
    unfold Association.oppositeEnd
    dsimp only
    rw [hfirst, hsecond]
    split
    · exact .ok hy
    · split
      · exact .ok hx
      · exact .error ⟨rfl, .refl role, rfl⟩

/-- The way back is the same in both schemas. -/
private theorem agree_inverseNavigation (hs : s.WellFormed) (h : s'.Respelled s)
    (ha : a'.Respelled s a) (role : String) :
    Agree (UnresolvedReference.Respelled s) Eq (s'.inverseNavigation a' role)
      (s.inverseNavigation a role) := by
  have hname : a'.name = a.name := by cases ha; rfl
  unfold Schema.inverseNavigation
  -- the end, the one across, the type at the end and its properties are found side by side
  refine (agree_findEnd ha role).bind fun x' x hx => ?_
  refine (agree_oppositeEnd ha role).bind fun y' y hy => ?_
  rw [hname]
  cases hx with
  | mk _ r hr =>
    refine (agree_resolveEntityType hs h hr a.name).bind fun t' t ht => ?_
    cases hy with
    | mk _ q _ =>
      cases ht with
      | mk _ base navigations _ hnavigations =>
        refine .ok (rel_eq (rel_map (rel_find? hnavigations fun _ _ hn => ?_) fun _ _ hn => ?_))
        · cases hn with
          | mk n r hr =>
            -- a property follows the association in both schemas or in neither
            unfold Schema.follows
            rw [h.localName_eq, hr.localName_eq hs]
        · cases hn
          rfl

end

namespace Generation

open CSharp (Step)

variable {s s' : Schema} {settings : Settings}

/-! ### Members side by side -/

/-- The same target, but for spellings in its association. -/
structure NavigationTarget.Respelled (s : Schema) (target' target : NavigationTarget) : Prop where
  association : target'.association.Respelled s target.association
  multiplicity : target'.multiplicity = target.multiplicity
  typeName : target'.typeName = target.typeName
  inverse : target'.inverse = target.inverse

/-- A navigation property leads to the same target, but for spellings. -/
theorem agree_resolveNavigation (hs : s.WellFormed) (h : s'.Respelled s) (owner : String)
    {n' n : NavigationProperty} (hn : n'.Respelled s n) :
    Agree (UnresolvedReference.Respelled s) (NavigationTarget.Respelled s)
      (resolveNavigation s' owner n') (resolveNavigation s owner n) := by
  cases hn with
  | mk _ r hr =>
    unfold resolveNavigation
    -- association, end, other end, far type and the way back, one after the other
    refine (agree_resolveAssociation hs h hr owner).bind fun a' a ha => ?_
    have hname : a'.name = a.name := by cases ha; rfl
    refine (agree_findEnd ha n.toRole).bind fun x' x hx => ?_
    refine (agree_findEnd ha n.fromRole).bind fun _ _ _ => ?_
    rw [hname]
    cases hx with
    | mk _ q hq =>
      refine (agree_resolveEntityType hs h hq a.name).bind fun t' t ht => ?_
      refine (agree_inverseNavigation hs h ha n.toRole).bind fun i' i hi => .ok ?_
      exact ⟨ha, rfl, by cases ht; rfl, hi⟩

/-- What is written for a navigation property does not show the spelling of its references. -/
private theorem agree_navigationSteps (hs : s.WellFormed) (h : s'.Respelled s)
    (collection : CollectionType) (lazyLoading : Bool) (owner : String)
    {n' n : NavigationProperty} (hn : n'.Respelled s n) :
    Agree (UnresolvedReference.Respelled s) Eq
      (navigationSteps s' collection lazyLoading owner n').outcome
      (navigationSteps s collection lazyLoading owner n).outcome := by
  rw [outcome_navigationSteps, outcome_navigationSteps]
  refine (agree_resolveNavigation hs h owner hn).map fun target' target htarget => ?_
  -- the targets are taken apart, as most of their parts are equal
  obtain ⟨association', multiplicity', typeName', inverse'⟩ := target'
  obtain ⟨association, multiplicity, typeName, inverse⟩ := target
  obtain ⟨ha, hmultiplicity, htypeName, hinverse⟩ := htarget
  dsimp only at ha hmultiplicity htypeName hinverse
  subst hmultiplicity htypeName hinverse
  cases ha
  cases hn
  rfl

/-- What is written for a scalar property does not show the spelling of its references. -/
private theorem agree_propertySteps (h : s'.Respelled s) (owner : String) (isKey : Bool)
    (p : Property) :
    Agree (UnresolvedReference.Respelled s) Eq (propertySteps s' owner isKey p).outcome
      (propertySteps s owner isKey p).outcome := by
  rw [outcome_propertySteps, outcome_propertySteps]
  exact (agree_mapType h p.typeName owner).map fun _ _ hmapped => by rw [hmapped]

/-! ### Bodies side by side -/

/-- Both schemas decide on lazy loading in the same way. -/
private theorem loadsLazily_eq (h : s'.Respelled s) :
    loadsLazily settings s' = loadsLazily settings s := by
  cases h with
  | mk _ entityTypes associations containers _ _ hc =>
    -- the containers differ in their sets only
    have hflags : containers.map (·.lazyLoading) = s.entityContainers.map (·.lazyLoading) :=
      map_eq_map_of_forall₂ hc fun _ _ h => by cases h; rfl
    have hfirst := congrArg (List.findSome? id) hflags
    rw [List.findSome?_map, List.findSome?_map] at hfirst
    unfold loadsLazily
    exact congrArg (fun flag => settings.lazyLoading.getD (Option.getD flag false)) hfirst

/-- The same declaration, but for spellings. -/
inductive Item.Respelled (s : Schema) : Item → Item → Prop
  | enumType (t : EnumType) : Respelled s (.enumType t) (.enumType t)
  | complexType (t : ComplexType) : Respelled s (.complexType t) (.complexType t)
  | entityContainer {c' c : EntityContainer} (h : c'.Respelled s c) :
      Respelled s (.entityContainer c') (.entityContainer c)
  | entityType {t' t : EntityType} (h : t'.Respelled s t) :
      Respelled s (.entityType t') (.entityType t)

/-- Runs over one list come out alike, with the same results. -/
theorem agree_mapM_eq {α β ε : Type} {E : ε → ε → Prop} {f g : α → Except ε β} (as : List α)
    (hfg : ∀ a, Agree E Eq (f a) (g a)) : Agree E Eq (as.mapM f) (as.mapM g) := by
  have hsame : List.Forall₂ Eq as as := List.forall₂_eq_eq_eq ▸ rfl
  have h : Agree E (List.Forall₂ Eq) (as.mapM f) (as.mapM g) := by
    refine Agree.mapM hsame ?_
    rintro a _ rfl
    exact hfg a
  rwa [List.forall₂_eq_eq_eq] at h

/-- The base type that is written is the same in both schemas. -/
private theorem agree_resolveBase (hs : s.WellFormed) (h : s'.Respelled s) {t' t : EntityType}
    (ht : t'.Respelled s t) :
    Agree (UnresolvedReference.Respelled s) Eq (resolveBase s' t') (resolveBase s t) := by
  cases ht with
  | mk _ base navigations hbase _ =>
    unfold resolveBase
    dsimp only
    -- a type has a base in both schemas or in neither
    cases hb : t.baseType with
    | none =>
      rw [hb] at hbase
      cases hbase
      exact .ok rfl
    | some r =>
      rw [hb] at hbase
      cases hbase with
      | some hr =>
        exact (agree_resolveEntityType hs h hr t.name).map fun _ _ hb => by cases hb; rfl

/-- What is written for a declaration does not show the spelling of its references. -/
theorem agree_body (hs : s.WellFormed) (h : s'.Respelled s) {item' item : Item}
    (hitem : item'.Respelled s item) :
    Agree (UnresolvedReference.Respelled s) Eq (body settings s' item').outcome
      (body settings s item).outcome := by
  cases hitem with
  -- an enum type refers to nothing, the other kinds through their members
  | enumType t => exact .ok rfl
  | complexType t =>
    show Agree _ _ (complexSteps settings s' t).outcome (complexSteps settings s t).outcome
    rw [outcome_complexSteps, outcome_complexSteps]
    exact (agree_mapM_eq _ fun p => agree_propertySteps h t.name false p).map
      fun _ _ hmembers => by rw [hmembers]
  | @entityContainer c' c hc =>
    cases hc with
    | mk _ sets hsets =>
      show Agree _ _ (containerSteps settings s' _).outcome (containerSteps settings s c).outcome
      rw [outcome_containerSteps, outcome_containerSteps]
      have hmembers : Agree (UnresolvedReference.Respelled s) (List.Forall₂ Eq)
          (containerMembers s' { c with entitySets := sets }) (containerMembers s c) := by
        -- set by set, each of which names its type in its own spelling
        refine Agree.mapM hsets fun set' set hset => ?_
        cases hset with
        | mk _ r hr =>
          exact (agree_resolveEntityType hs h hr c.name).map fun _ _ ht => by cases ht; rfl
      rw [List.forall₂_eq_eq_eq] at hmembers
      exact hmembers.map fun _ _ hmembers => by rw [hmembers]; rfl
  | @entityType t' t ht =>
    show Agree _ _ (entitySteps settings s' t').outcome (entitySteps settings s t).outcome
    rw [outcome_entitySteps, outcome_entitySteps]
    -- the base type, the properties and the navigation properties are made side by side
    refine (agree_resolveBase hs h ht).bind fun base' base hbase => ?_
    rw [hbase, loadsLazily_eq h]
    cases ht with
    | mk _ _ navigations _ hnavigations =>
      have hproperties := agree_mapM_eq t.properties fun p =>
        agree_propertySteps h t.name (t.keyContains p.name) p
      have hsteps : Agree (UnresolvedReference.Respelled s) (List.Forall₂ Eq)
          (navigations.mapM fun n => (navigationSteps s' settings.collectionType
            (loadsLazily settings s) t.name n).outcome)
          (t.navigationProperties.mapM fun n => (navigationSteps s settings.collectionType
            (loadsLazily settings s) t.name n).outcome) :=
        Agree.mapM hnavigations fun _ _ hn => agree_navigationSteps hs h _ _ t.name hn
      rw [List.forall₂_eq_eq_eq] at hsteps
      refine hproperties.bind fun _ _ hproperties => hsteps.bind fun _ _ hsteps => .ok ?_
      rw [hproperties, hsteps]
      rfl

/-! ### Schemas side by side -/

/-- The declarations of both schemas are planned side by side. -/
private theorem forall₂_plan (h : s'.Respelled s) :
    List.Forall₂ (Item.Respelled s) (plan s') (plan s) := by
  cases h with
  | mk _ entityTypes associations containers ht _ hc =>
    -- enum types and complex types are the same in both
    have hsame : ∀ {α : Type} {item : α → Item} (as : List α),
        (∀ a, Item.Respelled s (item a) (item a)) →
        List.Forall₂ (Item.Respelled s) (as.map item) (as.map item) := by
      intro α item as hitem
      rw [List.forall₂_map_left_iff, List.forall₂_map_right_iff]
      exact List.forall₂_same.mpr fun a _ => hitem a
    unfold plan
    refine List.rel_append (List.rel_append (List.rel_append (hsame _ .enumType)
      (hsame _ .complexType)) ?_) ?_
    · rw [List.forall₂_map_left_iff, List.forall₂_map_right_iff]
      exact hc.imp fun _ _ h => .entityContainer h
    · rw [List.forall₂_map_left_iff, List.forall₂_map_right_iff]
      exact ht.imp fun _ _ h => .entityType h

/-- The files of a body do not show which of two declarations it belongs to that differ in
    spellings alone. -/
private theorem filesOf_eq {layout : Layout} {name : String}
    {pieces' pieces : List (Item × List Step)}
    (h : List.Forall₂ (fun p' p => p'.1.Respelled s p.1 ∧ p'.2 = p.2) pieces' pieces) :
    filesOf layout name pieces' = filesOf layout name pieces := by
  unfold filesOf
  cases layout with
  -- one file of all bodies, which are equal
  | singleFile =>
    dsimp only
    rw [map_eq_map_of_forall₂ h fun _ _ hp => hp.2]
  | filePerDeclaration =>
    refine map_eq_map_of_forall₂ h ?_
    rintro ⟨item', steps'⟩ ⟨item, steps⟩ ⟨hitem, hsteps⟩
    dsimp only at hitem hsteps ⊢
    -- the name and the imports of a file do not depend on spellings
    subst hsteps
    cases hitem with
    | enumType t => rfl
    | complexType t => rfl
    | entityContainer hc => cases hc; rfl
    | entityType ht => cases ht; rfl

/-- The same files are generated for both schemas, or generation fails on the same reference. -/
theorem agree_generate (hs : s.WellFormed) (h : s'.Respelled s) :
    Agree (UnresolvedReference.Respelled s) Eq (generate settings s').outcome
      (generate settings s).outcome := by
  -- the schemas have one name, so their files have one namespace
  have hname : s'.name = s.name := by cases h; rfl
  rw [outcome_generate, outcome_generate, hname]
  have hpieces : Agree (UnresolvedReference.Respelled s)
      (List.Forall₂ fun p' p => p'.1.Respelled s p.1 ∧ p'.2 = p.2)
      ((plan s').mapM fun item => (piece settings s' item).outcome)
      ((plan s).mapM fun item => (piece settings s item).outcome) := by
    refine Agree.mapM (forall₂_plan h) fun item' item hitem => ?_
    rw [outcome_piece, outcome_piece]
    exact (agree_body hs h hitem).map fun _ _ hsteps => ⟨hitem, hsteps⟩
  exact hpieces.map fun _ _ => filesOf_eq

end Generation

end EntityModel
