import EntityModel.Model
import EntityModel.Proofs.SideBySide
import EntityModel.Proofs.SourceMaps

/-!
# Labels point at what they are about

A rule that is broken is reported by names and at places.  Since the source map follows the elements
of the schema, the places are those of the elements that bear the names.  Only the roles of an
association can be reported elsewhere: if one of its first two `End` elements cannot be read, the
ends and the places of `End` elements do not belong together.

* `NamesAt`, `exists_of_mem_repeated`   names along a source map, and the repetitions among them
* `endsLead_or_drifted`                 the ends of an association and their places
* `isAbout_of_mem_validate`             each label is at what the message is about
* `source_map_follows_elements`         this and the source map together
-/

namespace EntityModel

open Markup (Element)

/-! ### Names at elements -/

/-- The name, with its place, is that of the element. -/
def NameAt (key : String) (p : String × Span) (x : Element) : Prop :=
  x.attribute? key = some p.1 ∧ p.2 = x.span

/-- The names, with their places, are those of some of the elements, in their order. -/
abbrev NamesAt (key : String) (names : List (String × Span)) (xs : List Element) : Prop :=
  List.SublistForall₂ (NameAt key) names xs

/-- Two elements, one behind the other, bear the name. -/
structure BothBear (key name : String) (xs : List Element) (first second : Element) : Prop where
  inOrder : [first, second].Sublist xs
  first_bears : first.attribute? key = some name
  second_bears : second.attribute? key = some name

section

variable {key : String} {xs ys : List Element} {names more : List (String × Span)}

/-- Names at two lists of elements are, one behind the other, names at the elements of both. -/
theorem NamesAt.append (h : NamesAt key names xs) (h' : NamesAt key more ys) :
    NamesAt key (names ++ more) (xs ++ ys) := by
  obtain ⟨xs', hnames, hxs⟩ := List.sublistForall₂_iff.mp h
  obtain ⟨ys', hmore, hys⟩ := List.sublistForall₂_iff.mp h'
  exact List.sublistForall₂_iff.mpr ⟨xs' ++ ys', List.rel_append hnames hmore, hxs.append hys⟩

/-- Each of the names is that of one of the elements. -/
theorem NamesAt.exists_of_mem (h : NamesAt key names xs) {p : String × Span} (hp : p ∈ names) :
    ∃ x ∈ xs, NameAt key p x := by
  obtain ⟨ys, hnames, hys⟩ := List.sublistForall₂_iff.mp h
  obtain ⟨y, hy, hname⟩ := exists_of_mem_forall₂ hnames hp
  exact ⟨y, hys.subset hy, hname⟩

/-- Some of the names are names of some of the elements. -/
theorem NamesAt.of_sublist (h : NamesAt key names xs) (hsub : more.Sublist names) :
    NamesAt key more xs := by
  -- an element whose name is not among the chosen ones is passed over
  induction h generalizing more with
  | nil => rw [List.sublist_nil.mp hsub]; exact .nil
  | cons hname _ ih =>
    cases hsub with
    | cons _ hsub => exact .cons_right (ih hsub)
    | cons_cons _ hsub => exact .cons hname (ih hsub)
  | cons_right _ ih => exact .cons_right (ih hsub)

/-- Names of records that are in step with their places are names at the elements. -/
theorem InStep.namesAt {ρ σ : Type} {value : Element → Option ρ} {P : Element → ρ → σ → Prop}
    {rs : List ρ} {ps : List σ} {name : ρ → String} {place : σ → Span}
    (h : InStep value P xs rs ps)
    (hname : ∀ x r p, value x = some r → P x r p → NameAt key (name r, place p) x) :
    NamesAt key ((rs.map name).zip (ps.map place)) xs := by
  induction h with
  -- an element that is not read gives neither a name nor a place
  | nil => exact .nil
  | kept hr hp _ ih => exact .cons (hname _ _ _ hr hp) ih
  | dropped _ _ ih => exact .cons_right ih

/-- A repetition stands behind its first occurrence. -/
private theorem sublist_of_mem_repeatedAfter {seen : List (String × Span)} {r : Repetition}
    (h : r ∈ repeatedAfter seen names) :
    [(r.name, r.first), (r.name, r.span)].Sublist (seen ++ names) := by
  -- by the names that are looked through; those seen before grow by one at each step
  induction names generalizing seen with
  | nil => exact absurd h List.not_mem_nil
  | cons p rest ih =>
    obtain ⟨name, span⟩ := p
    rw [repeatedAfter] at h
    -- either this name was seen before, or the repetition is among the later ones
    split at h
    · rename_i first hfirst
      rcases List.mem_cons.mp h with rfl | h
      · obtain ⟨before, after, hsplit, -⟩ := List.lookup_eq_some_iff.mp hfirst
        have hseen : [(name, first)].Sublist seen :=
          List.singleton_sublist.mpr (by simp [hsplit])
        have hhere : [(name, span)].Sublist ((name, span) :: rest) :=
          List.singleton_sublist.mpr List.mem_cons_self
        exact hseen.append hhere
      -- the later ones are found with this name left out
      · exact (ih h).trans ((List.sublist_cons_self _ rest).append_left seen)
    · have hlater := ih h
      rwa [List.append_assoc] at hlater

/-- A repetition is at an element that bears the name, and its first occurrence at one before. -/
theorem exists_of_mem_repeated (h : NamesAt key names xs) {r : Repetition}
    (hr : r ∈ repeated names) :
    ∃ first second, BothBear key r.name xs first second ∧ r.first = first.span ∧
      r.span = second.span := by
  -- the two are taken as a list of names themselves, and their elements come from that
  have hpair : [(r.name, r.first), (r.name, r.span)].Sublist names :=
    sublist_of_mem_repeatedAfter hr
  obtain ⟨ys, hnames, hys⟩ := List.sublistForall₂_iff.mp (h.of_sublist hpair)
  obtain ⟨first, ys, hfirst, hrest, rfl⟩ := List.forall₂_cons_left_iff.mp hnames
  obtain ⟨second, ys, hsecond, hnone, rfl⟩ := List.forall₂_cons_left_iff.mp hrest
  obtain rfl := List.forall₂_nil_left_iff.mp hnone
  exact ⟨first, second, ⟨hys, hfirst.1, hsecond.1⟩, hfirst.2, hsecond.2⟩

end

/-! ### What a message is about -/

/-- The elements that declare names of a kind, in the order in which they are checked. -/
def DeclarationKind.elements (e : Element) : DeclarationKind → List Element
  | .type =>
    e.namedChildren "EntityType" ++ e.namedChildren "ComplexType" ++ e.namedChildren "EnumType"
  | .association => e.namedChildren "Association"
  | .entityContainer => e.namedChildren "EntityContainer"

/-- The elements with the members of a type, in the order in which they are checked. -/
def memberElements (x : Element) : List Element :=
  x.namedChildren "Property" ++ x.namedChildren "NavigationProperty"

/-- The elements that are complex types or entity types. -/
def structuredElements (e : Element) : List Element :=
  e.namedChildren "ComplexType" ++ e.namedChildren "EntityType"

/-- The elements of a kind of name. -/
def NameKind.elements (e : Element) : NameKind → List Element
  | .enumType => e.namedChildren "EnumType"
  | .enumMember => (e.namedChildren "EnumType").flatMap (·.namedChildren "Member")
  | .type => structuredElements e
  | .property => (structuredElements e).flatMap (·.namedChildren "Property")
  | .navigationProperty =>
    (e.namedChildren "EntityType").flatMap (·.namedChildren "NavigationProperty")
  | .association => e.namedChildren "Association"
  | .role => (e.namedChildren "Association").flatMap (·.namedChildren "End")
  | .entityContainer => e.namedChildren "EntityContainer"
  | .entitySet => (e.namedChildren "EntityContainer").flatMap (·.namedChildren "EntitySet")

/-- The attribute that holds a kind of name. -/
def NameKind.key : NameKind → String
  | .role => "Role"
  | _ => "Name"

/-- The place of a name is the element that bears it.  That of an entity set is the container with
    the set. -/
inductive NamedPlace.IsOf (e : Element) : NamedPlace → Prop
  | element {kind : NameKind} {name : String} {x : Element} (hkind : kind ≠ .entitySet)
      (hx : x ∈ kind.elements e) (hname : x.attribute? kind.key = some name) :
      IsOf e ⟨kind, name, x.span⟩
  | container {name : String} {c x : Element} (hc : c ∈ e.namedChildren "EntityContainer")
      (hx : x ∈ c.namedChildren "EntitySet") (hname : BearsName x name) :
      IsOf e ⟨.entitySet, name, c.span⟩

/-- The labels of the fault are at the elements that its message is about. -/
inductive Fault.IsAbout (e : Element) : Fault → Prop
  | duplicateDeclaration {kind : DeclarationKind} {name : String} {first second : Element}
      (h : BothBear "Name" name (kind.elements e) first second) :
      IsAbout e (.duplicateDeclaration kind name second.span first.span)
  | duplicateMember {owner member : String} {x first second : Element}
      (hx : x ∈ structuredElements e) (hname : BearsName x owner)
      (h : BothBear "Name" member (memberElements x) first second) :
      IsAbout e (.duplicateMember owner member second.span first.span)
  | duplicateEnumMember {owner member : String} {x first second : Element}
      (hx : x ∈ e.namedChildren "EnumType") (hname : BearsName x owner)
      (h : BothBear "Name" member (x.namedChildren "Member") first second) :
      IsAbout e (.duplicateEnumMember owner member second.span first.span)
  | duplicateRole {association role : String} {x first second : Element}
      (hx : x ∈ e.namedChildren "Association") (hname : BearsName x association)
      (h : BothBear "Role" role (x.namedChildren "End") first second) :
      IsAbout e (.duplicateRole association role second.span)
  | unknownRole {association role half firstRole secondRole : String} {x constraint y : Element}
      (hx : x ∈ e.namedChildren "Association") (hname : BearsName x association)
      (hconstraint : x.child? "ReferentialConstraint" = some constraint)
      (hhalf : half = "Principal" ∨ half = "Dependent") (hy : constraint.child? half = some y)
      (hrole : y.attribute? "Role" = some role) :
      IsAbout e (.unknownRole association role firstRole secondRole y.span)
  | undefinedKey {entityType property : String} {x key ref : Element}
      (hx : x ∈ e.namedChildren "EntityType") (hname : BearsName x entityType)
      (hkey : x.child? "Key" = some key) (href : ref ∈ key.namedChildren "PropertyRef")
      (hproperty : BearsName ref property) :
      IsAbout e (.undefinedKey entityType property key.span)
  | cyclicInheritance {first : String × Span} {others : List (String × Span)}
      (h : ∀ p ∈ first :: others, ∃ x ∈ e.namedChildren "EntityType", NameAt "Name" p x) :
      IsAbout e (.cyclicInheritance first others)
  | invalidName {kind : NameKind} {name : String} {place : Span}
      (h : NamedPlace.IsOf e ⟨kind, name, place⟩) : IsAbout e (.invalidName kind name place)

/-- One of the first two of more than two `End` elements cannot be read. -/
structure DriftedEnds (x : Element) : Prop where
  many : 2 < (x.namedChildren "End").length
  unread : ∃ y ∈ (x.namedChildren "End").take 2, (readEnd y).value = none

/-- The fault is one of the roles of an association with an `End` element that cannot be read before
    one that can, and its label is at any of the `End` elements. -/
inductive Fault.IsAtOtherEnd (e : Element) : Fault → Prop
  | duplicateRole {association role : String} {x y : Element}
      (hx : x ∈ e.namedChildren "Association") (hname : BearsName x association)
      (hdrifted : DriftedEnds x) (hy : y ∈ x.namedChildren "End") :
      IsAtOtherEnd e (.duplicateRole association role y.span)
  | invalidName {role : String} {x y : Element} (hx : x ∈ e.namedChildren "Association")
      (hdrifted : DriftedEnds x) (hy : y ∈ x.namedChildren "End") :
      IsAtOtherEnd e (.invalidName .role role y.span)

/-! ### Names of records -/

/-- What is read of an element accounts for it in full, if nothing is asked of what is left out. -/
theorem Accounts.records {ρ : Type} {R : (Element → Prop) → Element → ρ → Prop}
    {r : Reading (Option ρ)} {e : Element} (h : Accounts R r e) {a : ρ} (ha : r.value = some a) :
    R (fun _ => True) e a :=
  h.some_records a ha _ fun _ _ _ => True.intro

/-- Each record is that of one of the elements. -/
theorem InOrder.exists_of_mem {ρ : Type} {leftOut : Element → Prop} {R : Element → ρ → Prop}
    {xs : List Element} {rs : List ρ} (h : InOrder leftOut R xs rs) {r : ρ} (hr : r ∈ rs) :
    ∃ x ∈ xs, R x r := by
  induction h with
  | nil => exact absurd hr List.not_mem_nil
  | kept hx _ ih =>
    rcases List.mem_cons.mp hr with rfl | hr
    · exact ⟨_, List.mem_cons_self, hx⟩
    · obtain ⟨x, hx, hxr⟩ := ih hr
      exact ⟨x, List.mem_cons_of_mem _ hx, hxr⟩
  | skipped _ _ ih =>
    obtain ⟨x, hx, hxr⟩ := ih hr
    exact ⟨x, List.mem_cons_of_mem _ hx, hxr⟩

/-- A declaration that is read from an element records it. -/
theorem records_of_value {ρ σ : Type} {read : Element → Reading (Option (ρ × σ))}
    {R : (Element → Prop) → Element → ρ → Prop}
    (hacc : ∀ x, Accounts (fun leftOut x p => R leftOut x p.1) (read x) x) {x : Element} {r : ρ}
    (h : (read x).value.map (·.1) = some r) : R (fun _ => True) x r := by
  obtain ⟨p, hp, rfl⟩ := Option.map_eq_some_iff.mp h
  exact (hacc x).records hp

/-- Names of members that are in step with their places are names at the elements. -/
theorem namesAt_members {ρ : Type} {value : Element → Option ρ} {name : ρ → String}
    {xs : List Element} {rs : List ρ} {ps : List Span} (h : InStep value AtElement xs rs ps)
    (hname : ∀ x r, value x = some r → BearsName x (name r)) :
    NamesAt "Name" ((rs.map name).zip ps) xs := by
  have hat : NamesAt "Name" ((rs.map name).zip (ps.map id)) xs :=
    h.namesAt fun x r p hr hp => ⟨hname x r hr, hp⟩
  rwa [List.map_id] at hat

/-! ### Names of members -/

section

variable {x : Element}

/-- The members of an enum type are at its elements. -/
private theorem namesAt_enumMembers {t : EnumType} {p : EnumSpans} (h : p.Locates x t) :
    NamesAt "Name" (enumMemberNames t p) (x.namedChildren "Member") :=
  namesAt_members h.members fun _ _ hm => records_of_value accounts_readEnumMember hm

/-- The properties of a type are at its elements. -/
private theorem namesAt_properties {properties : List Property} {places : List Span}
    (h : InStep (fun y => (readProperty y).value) AtElement (x.namedChildren "Property") properties
      places) :
    NamesAt "Name" ((properties.map (·.name)).zip places) (x.namedChildren "Property") :=
  namesAt_members h fun y _ hp => ((accounts_readProperty y).records hp).name

/-- The navigation properties of an entity type are at its elements. -/
private theorem namesAt_navigationProperties {t : EntityType} {p : TypeSpans}
    (h : p.LocatesEntity x t) :
    NamesAt "Name" ((t.navigationProperties.map (·.name)).zip p.navigationProperties)
      (x.namedChildren "NavigationProperty") :=
  namesAt_members h.navigationProperties fun y _ hn =>
    ((accounts_readNavigationProperty y).records hn).name

end

/-! ### Ends of associations -/

/-- The ends of an association are read from its first two `End` elements, unless one of these
    cannot be read. -/
theorem endsLead_or_drifted {x : Element} {a : Association} {p : AssociationSpans}
    (h : p.Locates x a) :
    (∃ y z rest, x.namedChildren "End" = y :: z :: rest ∧ (readEnd y).value = some a.first ∧
      (readEnd z).value = some a.second) ∨ DriftedEnds x := by
  -- the ends are all that can be read, and there are two of them
  have hends : [a.first, a.second] =
      (x.namedChildren "End").filterMap fun y => (readEnd y).value := h.ends_eq
  have hunread : ∀ w ∈ (x.namedChildren "End").take 2, (readEnd w).value = none →
      DriftedEnds x := by
    intro w hw hnone
    refine ⟨?_, w, hw, hnone⟩
    -- something is left out, so there are more elements than ends
    have hfewer : ((x.namedChildren "End").filterMap fun y => (readEnd y).value).length <
        (x.namedChildren "End").length :=
      List.length_filterMap_lt_length_iff_exists.mpr ⟨w, List.mem_of_mem_take hw, hnone⟩
    rwa [← hends] at hfewer
  -- by the number of elements; fewer than two cannot give two ends
  match hxs : x.namedChildren "End" with
  | [] => rw [hxs] at hends; exact nomatch hends
  | [y] =>
    rw [hxs] at hends
    cases hy : (readEnd y).value with
    | none => simp [hy] at hends
    | some b => simp [hy] at hends
  | y :: z :: rest =>
    rw [hxs] at hends hunread
    cases hy : (readEnd y).value with
    | none => exact .inr (hunread y (by simp) hy)
    | some b =>
      cases hz : (readEnd z).value with
      | none => exact .inr (hunread z (by simp) hz)
      | some c =>
        -- both can be read, so they are the ends
        simp only [List.filterMap_cons, hy, hz] at hends
        obtain ⟨hfirst, hothers⟩ := List.cons.inj hends
        obtain ⟨hsecond, -⟩ := List.cons.inj hothers
        exact .inl ⟨y, z, rest, rfl, hfirst ▸ hy, hsecond ▸ hz⟩

/-! ### Names that must be identifiers -/

section

variable {e : Element}

/-- A name that is at an element of its kind is at its place. -/
private theorem isOf_element (kind : NameKind) {x : Element} {name : String} {place : Span}
    (hkind : kind ≠ .entitySet) (hx : x ∈ kind.elements e)
    (hname : NameAt kind.key (name, place) x) : NamedPlace.IsOf e ⟨kind, name, place⟩ := by
  obtain ⟨hname, rfl⟩ := hname
  exact .element hkind hx hname

/-- The names of the members of a record are those of its elements. -/
theorem isOf_places (kind : NameKind) {names : List String} {spans : List Span} {x : Element}
    {xs : List Element} {tag : String} (hkind : kind ≠ .entitySet)
    (helements : kind.elements e = xs.flatMap (·.namedChildren tag)) (hx : x ∈ xs)
    (h : NamesAt kind.key (names.zip spans) (x.namedChildren tag)) :
    ∀ n ∈ places kind names spans, n.IsOf e := by
  refine List.forall_mem_map.mpr fun p hp => ?_
  obtain ⟨y, hy, hname⟩ := h.exists_of_mem hp
  refine isOf_element kind hkind ?_ hname
  rw [helements]
  exact List.mem_flatMap.mpr ⟨x, hx, hy⟩

/-- The names of an enum type and of its members are at their places. -/
private theorem isOf_enumPlaces {x : Element} {t : EnumType} {p : EnumSpans}
    (hx : x ∈ e.namedChildren "EnumType") (hname : BearsName x t.name) (hp : p.Locates x t) :
    ∀ n ∈ enumPlaces t p, n.IsOf e :=
  List.forall_mem_cons.mpr ⟨isOf_element .enumType nofun hx ⟨hname, hp.span⟩,
    isOf_places .enumMember nofun rfl hx (namesAt_enumMembers hp)⟩

/-- The names of a complex type and of its properties are at their places. -/
private theorem isOf_complexPlaces {x : Element} {t : ComplexType} {p : TypeSpans}
    (hx : x ∈ e.namedChildren "ComplexType") (hname : BearsName x t.name)
    (hp : p.LocatesComplex x t) : ∀ n ∈ complexPlaces t p, n.IsOf e := by
  have hx : x ∈ structuredElements e := List.mem_append_left _ hx
  exact List.forall_mem_cons.mpr ⟨isOf_element .type nofun hx ⟨hname, hp.span⟩,
    isOf_places .property nofun rfl hx (namesAt_properties hp.properties)⟩

/-- The names of an entity type and of its members are at their places. -/
private theorem isOf_entityPlaces {x : Element} {t : EntityType} {p : TypeSpans}
    (hx : x ∈ e.namedChildren "EntityType") (hname : BearsName x t.name)
    (hp : p.LocatesEntity x t) : ∀ n ∈ entityPlaces t p, n.IsOf e := by
  have hx' : x ∈ structuredElements e := List.mem_append_right _ hx
  refine List.forall_mem_append.mpr ⟨List.forall_mem_cons.mpr ⟨?_, ?_⟩, ?_⟩
  · exact isOf_element .type nofun hx' ⟨hname, hp.span⟩
  · exact isOf_places .property nofun rfl hx' (namesAt_properties hp.properties)
  · exact isOf_places .navigationProperty nofun rfl hx (namesAt_navigationProperties hp)

/-- The roles of an association are at the elements of its ends, unless the ends have drifted. -/
private theorem isOf_associationPlaces {x : Element} {a : Association} {p : AssociationSpans}
    (hx : x ∈ e.namedChildren "Association") (hname : BearsName x a.name) (hp : p.Locates x a) :
    ∀ n ∈ associationPlaces a p,
      n.IsOf e ∨ (Fault.invalidName n.kind n.name n.span).IsAtOtherEnd e := by
  refine List.forall_mem_cons.mpr
    ⟨.inl (isOf_element .association nofun hx ⟨hname, hp.span⟩), fun n hn => ?_⟩
  obtain ⟨y, z, rest, hends, hy, hz⟩ | hdrifted := endsLead_or_drifted hp
  · refine .inl (isOf_places .role nofun rfl hx ?_ n hn)
    rw [hp.places_eq, hends]
    -- there are two ends, so the places of further elements are not looked at
    exact .cons ⟨((accounts_readEnd y).records hy).role, rfl⟩
      (.cons ⟨((accounts_readEnd z).records hz).role, rfl⟩ .nil)
  -- some element among the first two cannot be read, and the place is that of any of them
  · obtain ⟨q, hq, rfl⟩ := List.mem_map.mp hn
    have hplace : q.2 ∈ (x.namedChildren "End").map (·.span) :=
      hp.places_eq ▸ (List.of_mem_zip hq).2
    obtain ⟨y, hy, hspan⟩ := List.mem_map.mp hplace
    show _ ∨ (Fault.invalidName .role q.1 q.2).IsAtOtherEnd e
    rw [← hspan]
    exact .inr (.invalidName hx hdrifted hy)

/-- The sets of a container are at the container. -/
private theorem isOf_containerPlaces {x : Element} {c : EntityContainer} {p : Span}
    (hx : x ∈ e.namedChildren "EntityContainer")
    (hc : EntityContainer.Records (fun _ => True) x c) (hp : p = x.span) :
    ∀ n ∈ containerPlaces c p, n.IsOf e := by
  refine List.forall_mem_cons.mpr ⟨isOf_element .entityContainer nofun hx ⟨hc.name, hp⟩,
    List.forall_mem_map.mpr fun set hset => ?_⟩
  obtain ⟨y, hy, hrecords⟩ := hc.entitySets.exists_of_mem hset
  rw [hp]
  exact .container hx hy hrecords.name

end

/-! ### Rules -/

/-- Repetitions among names of declarations. -/
theorem isAbout_duplicateDeclarations {e : Element} {kind : DeclarationKind}
    {names : List (String × Span)} (h : NamesAt "Name" names (kind.elements e)) :
    ∀ f ∈ duplicateDeclarations kind names, f.IsAbout e := by
  refine List.forall_mem_map.mpr fun r hr => ?_
  obtain ⟨first, second, hboth, hfirst, hsecond⟩ := exists_of_mem_repeated h hr
  rw [hfirst, hsecond]
  exact .duplicateDeclaration hboth

section

variable {e x : Element} {a : Association} {p : AssociationSpans}

/-- That two ends play one role is reported at the second one, unless the ends have drifted. -/
private theorem isAbout_sameRoleFaults (hx : x ∈ e.namedChildren "Association")
    (hname : BearsName x a.name) (hp : p.Locates x a) :
    ∀ f ∈ sameRoleFaults a p, f.IsAbout e ∨ f.IsAtOtherEnd e := by
  intro f hf
  unfold sameRoleFaults at hf
  split at hf
  · rename_i hsame
    rw [List.mem_singleton.mp hf]
    obtain ⟨y, z, rest, hends, hy, hz⟩ | hdrifted := endsLead_or_drifted hp
    -- the second place is that of the second end
    · have hplace : p.ends[1]?.getD p.span = z.span := by rw [hp.places_eq, hends]; rfl
      have hboth : BothBear "Role" a.first.role (x.namedChildren "End") y z :=
        ⟨hends ▸ List.sublist_append_left [y, z] rest, ((accounts_readEnd y).records hy).role,
          hsame ▸ ((accounts_readEnd z).records hz).role⟩
      rw [hplace]
      exact .inl (.duplicateRole hx hname hboth)
    -- there are more than two elements, so there is a second place, whatever stands there
    · have hsecond : 1 < (x.namedChildren "End").length := Nat.lt_of_succ_lt hdrifted.many
      have hplace : p.ends[1]?.getD p.span = (x.namedChildren "End")[1].span := by
        simp [hp.places_eq, hsecond]
      rw [hplace]
      exact .inr (.duplicateRole hx hname hdrifted (List.getElem_mem hsecond))
  · exact absurd hf List.not_mem_nil

/-- An unknown role is reported at the half of the constraint that plays it. -/
theorem isAbout_unknownRoleFaults (hx : x ∈ e.namedChildren "Association")
    (hname : BearsName x a.name) {name : String} {half : ConstraintHalf} {place : Option Span}
    (hkind : name = "Principal" ∨ name = "Dependent") (hhalf : HalfAt x name half place)
    (other : Span) : ∀ f ∈ unknownRoleFaults a half (place.getD other), f.IsAbout e := by
  intro f hf
  -- the half is at its own element, so the place of the association is not needed
  obtain ⟨constraint, y, hconstraint, hy, hrole, rfl⟩ := hhalf
  rw [eq_of_mem_unknownRoleFaults hf]
  exact .unknownRole hx hname hconstraint hkind hy hrole

end

section

variable {e : Element} {s : Schema} {m : SourceMap} (hm : m.Follows e s)

include hm

/-- Names that are declared twice are reported at the second of the two declarations. -/
private theorem isAbout_declarationFaults : ∀ f ∈ declarationFaults s m, f.IsAbout e := by
  -- the order in which the types are checked is not that of the document
  have htypes : NamesAt "Name" (typeNames s m) (DeclarationKind.elements e .type) := by
    refine NamesAt.append (NamesAt.append ?_ ?_) ?_
    · exact hm.entityTypes.namesAt fun x t p ht hp =>
        ⟨(records_of_value accounts_readEntityType ht).name, hp.span⟩
    · exact hm.complexTypes.namesAt fun x t p ht hp =>
        ⟨(records_of_value accounts_readComplexType ht).name, hp.span⟩
    · exact hm.enumTypes.namesAt fun x t p ht hp =>
        ⟨(records_of_value accounts_readEnumType ht).name, hp.span⟩
  have hassociations : NamesAt "Name" (associationNames s m)
      (DeclarationKind.elements e .association) :=
    hm.associations.namesAt fun x a p ha hp =>
      ⟨(records_of_value accounts_readAssociation ha).name, hp.span⟩
  have hcontainers : NamesAt "Name" (containerNames s m)
      (DeclarationKind.elements e .entityContainer) :=
    namesAt_members hm.entityContainers fun x c hc =>
      (records_of_value accounts_readEntityContainer hc).name
  exact List.forall_mem_append.mpr ⟨List.forall_mem_append.mpr
    ⟨isAbout_duplicateDeclarations htypes, isAbout_duplicateDeclarations hassociations⟩,
    isAbout_duplicateDeclarations hcontainers⟩

/-- Members that are declared twice are reported at the second of the two. -/
private theorem isAbout_memberFaults : ∀ f ∈ memberFaults s m, f.IsAbout e := by
  -- the argument is the same for the members of entity types and of complex types
  have hmembers : ∀ (x : Element) (owner : String) (names : List (String × Span)),
      x ∈ structuredElements e → BearsName x owner → NamesAt "Name" names (memberElements x) →
        ∀ f ∈ duplicateMembers owner names, f.IsAbout e := by
    intro x owner names hx hname hnames
    refine List.forall_mem_map.mpr fun r hr => ?_
    obtain ⟨first, second, hboth, hfirst, hsecond⟩ := exists_of_mem_repeated hnames hr
    rw [hfirst, hsecond]
    exact .duplicateMember hx hname hboth
  refine List.forall_mem_append.mpr ⟨fun f hf => ?_, fun f hf => ?_⟩
  · obtain ⟨⟨t, p⟩, htp, hf⟩ := List.mem_flatMap.mp hf
    obtain ⟨x, hx, ht, hp⟩ := hm.entityTypes.exists_of_mem_zip htp
    exact hmembers x t.name _ (List.mem_append_right _ hx)
      (records_of_value accounts_readEntityType ht).name
      ((namesAt_properties hp.properties).append (namesAt_navigationProperties hp)) f hf
  · obtain ⟨⟨t, p⟩, htp, hf⟩ := List.mem_flatMap.mp hf
    obtain ⟨x, hx, ht, hp⟩ := hm.complexTypes.exists_of_mem_zip htp
    -- a complex type has no navigation properties to be looked at
    have hnames : NamesAt "Name" (complexMemberNames t p) (memberElements x) := by
      have hnone : NamesAt "Name" [] (x.namedChildren "NavigationProperty") := .nil
      have hall := (namesAt_properties hp.properties).append hnone
      rwa [List.append_nil] at hall
    exact hmembers x t.name _ (List.mem_append_left _ hx)
      (records_of_value accounts_readComplexType ht).name hnames f hf

/-- Values of an enum that are declared twice are reported at the second of the two. -/
private theorem isAbout_enumMemberFaults : ∀ f ∈ enumMemberFaults s m, f.IsAbout e := by
  intro f hf
  obtain ⟨⟨t, p⟩, htp, hf⟩ := List.mem_flatMap.mp hf
  obtain ⟨x, hx, ht, hp⟩ := hm.enumTypes.exists_of_mem_zip htp
  obtain ⟨r, hr, rfl⟩ := List.mem_map.mp hf
  obtain ⟨first, second, hboth, hfirst, hsecond⟩ :=
    exists_of_mem_repeated (namesAt_enumMembers hp) hr
  rw [hfirst, hsecond]
  exact .duplicateEnumMember hx (records_of_value accounts_readEnumType ht).name hboth

/-- A role is reported at the end or half that plays it, or at an end of an association whose ends
    have drifted. -/
private theorem isAbout_roleFaults : ∀ f ∈ roleFaults s m, f.IsAbout e ∨ f.IsAtOtherEnd e := by
  intro f hf
  obtain ⟨⟨a, p⟩, hap, hf⟩ := List.mem_flatMap.mp hf
  obtain ⟨x, hx, ha, hp⟩ := hm.associations.exists_of_mem_zip hap
  have hname := (records_of_value accounts_readAssociation ha).name
  -- either both ends play the role, or a half of the constraint plays a role of neither
  rcases List.mem_append.mp hf with hf | hf
  · exact isAbout_sameRoleFaults hx hname hp f hf
  · refine .inl ?_
    cases hconstraint : a.constraint with
    | none =>
      rw [hconstraint] at hf
      exact absurd hf List.not_mem_nil
    | some c =>
      rw [hconstraint] at hf
      -- each half has its place from its own element
      obtain ⟨hprincipal, hdependent⟩ := hp.halves c hconstraint
      rcases List.mem_append.mp hf with hf | hf
      · exact isAbout_unknownRoleFaults hx hname (.inl rfl) hprincipal _ f hf
      · exact isAbout_unknownRoleFaults hx hname (.inr rfl) hdependent _ f hf

/-- A component of a key that is not declared is reported at the key. -/
private theorem isAbout_keyFaults : ∀ f ∈ keyFaults s m, f.IsAbout e := by
  intro f hf
  obtain ⟨⟨t, p⟩, htp, hf⟩ := List.mem_flatMap.mp hf
  obtain ⟨x, hx, ht, hp⟩ := hm.entityTypes.exists_of_mem_zip htp
  obtain ⟨property, hproperty, rfl⟩ := List.mem_map.mp hf
  -- there is a key with this component, so there is an element of the key as well
  have hmem : property ∈ t.key.getD [] := (List.mem_filter.mp hproperty).1
  have hrecords := records_of_value accounts_readEntityType ht
  cases hkey : x.child? "Key" with
  | none =>
    rw [hrecords.noKey hkey] at hmem
    exact absurd hmem List.not_mem_nil
  | some key =>
    obtain ⟨names, hnames, hrefs⟩ := hrecords.key key hkey
    rw [hnames] at hmem
    obtain ⟨ref, href, hname⟩ := InOrder.exists_of_mem hrefs hmem
    have hplace : p.key.getD p.span = key.span := by rw [hp.key, hkey]; rfl
    rw [hplace]
    exact .undefinedKey hx hrecords.name hkey href hname

/-- A cycle is reported at the entity types that are its members. -/
private theorem isAbout_inheritanceFaults : ∀ f ∈ inheritanceFaults s m, f.IsAbout e := by
  intro f hf
  obtain ⟨members, -, hf⟩ := List.mem_filterMap.mp hf
  obtain ⟨first, others, hmembers, rfl⟩ := cycleFault?_eq_some_iff.mp hf
  refine .cyclicInheritance fun p hp => ?_
  -- every member is an entity type at an index, with its place at the same one
  rw [← hmembers] at hp
  obtain ⟨i, -, hi⟩ := List.mem_filterMap.mp hp
  obtain ⟨⟨t, spans⟩, hentry, rfl⟩ := Option.map_eq_some_iff.mp hi
  obtain ⟨x, hx, ht, hplaces⟩ := hm.entityTypes.exists_of_mem_zip (List.mem_of_getElem? hentry)
  exact ⟨x, hx, (records_of_value accounts_readEntityType ht).name, hplaces.span⟩

/-- A name is reported at the element that bears it. -/
private theorem isAbout_nameFaults : ∀ f ∈ nameFaults s m, f.IsAbout e ∨ f.IsAtOtherEnd e := by
  have hplaces : ∀ n ∈ namedPlaces s m,
      n.IsOf e ∨ (Fault.invalidName n.kind n.name n.span).IsAtOtherEnd e := by
    simp only [namedPlaces, List.forall_mem_append, List.forall_mem_flatMap, Prod.forall]
    -- one case for each list of the schema, in the order of the check
    refine ⟨⟨⟨⟨fun t p htp n hn => ?_, fun t p htp n hn => ?_⟩, fun t p htp n hn => ?_⟩,
      fun a p hap => ?_⟩, fun c p hcp n hn => ?_⟩
    · obtain ⟨x, hx, ht, hp⟩ := hm.enumTypes.exists_of_mem_zip htp
      exact .inl (isOf_enumPlaces hx (records_of_value accounts_readEnumType ht).name hp n hn)
    · obtain ⟨x, hx, ht, hp⟩ := hm.complexTypes.exists_of_mem_zip htp
      exact .inl (isOf_complexPlaces hx (records_of_value accounts_readComplexType ht).name hp n hn)
    · obtain ⟨x, hx, ht, hp⟩ := hm.entityTypes.exists_of_mem_zip htp
      exact .inl (isOf_entityPlaces hx (records_of_value accounts_readEntityType ht).name hp n hn)
    · obtain ⟨x, hx, ha, hp⟩ := hm.associations.exists_of_mem_zip hap
      exact isOf_associationPlaces hx (records_of_value accounts_readAssociation ha).name hp
    · obtain ⟨x, hx, hc, hp⟩ := hm.entityContainers.exists_of_mem_zip hcp
      have hrecords := records_of_value accounts_readEntityContainer hc
      exact .inl (isOf_containerPlaces hx hrecords hp n hn)
  refine List.forall_mem_map.mpr fun n hn => ?_
  -- a name that is refused is one of all names
  exact (hplaces n (List.mem_filter.mp hn).1).imp_left .invalidName

/-- Every label is at what its message is about, but for roles of associations whose ends have
    drifted. -/
theorem isAbout_of_mem_validate : ∀ f ∈ validate s m, f.IsAbout e ∨ f.IsAtOtherEnd e := by
  unfold validate
  simp only [List.forall_mem_append]
  exact ⟨⟨⟨⟨⟨⟨fun f hf => .inl (isAbout_declarationFaults hm f hf),
    fun f hf => .inl (isAbout_memberFaults hm f hf)⟩, isAbout_roleFaults hm⟩,
    fun f hf => .inl (isAbout_keyFaults hm f hf)⟩,
    fun f hf => .inl (isAbout_enumMemberFaults hm f hf)⟩,
    fun f hf => .inl (isAbout_inheritanceFaults hm f hf)⟩, isAbout_nameFaults hm⟩

end

/-- The source map that is read with a schema follows its elements, list by list and position by
    position, and the labels of the rules are at the elements that their messages are about.  What
    is left out of this are the ends of an association with more than two `End` elements: the places
    of elements that cannot be read are among those of its ends, and a label for one of its roles is
    at another `End` element if one of the first two cannot be read. -/
theorem source_map_follows_elements (e : Element) :
    (Schema.read e).value.2.Follows e (Schema.read e).value.1 ∧
    ∀ f ∈ validate (Schema.read e).value.1 (Schema.read e).value.2,
      f.IsAbout e ∨ f.IsAtOtherEnd e :=
  ⟨follows_read e, isAbout_of_mem_validate (follows_read e)⟩

/-- A document of an association with three `End` elements, of which the second has no role. -/
def driftedDocument : List Char :=
  "<Schema Namespace='N'><Association Name='Billing'>".toList ++
    "<End Type='T' Role='payer' Multiplicity='1'/><End Type='T' Multiplicity='1'/>".toList ++
    "<End Type='T' Role='payer' Multiplicity='*'/></Association></Schema>".toList

/-- The place of the second `End` element. -/
def driftedPlace : Span := ⟨95, 127, by omega⟩

/-- What is known of a document by its characters holds of the document. -/
private theorem schemaElement_ofList {cs : List Char} {e : Element}
    (h : (Markup.parseChars cs).toOption.bind schemaElement? = some e) :
    Model.schemaElement (String.ofList cs) = .ok e := by
  obtain ⟨root, hroot, hschema⟩ := Option.bind_eq_some_iff.mp h
  unfold Model.schemaElement Markup.parse
  rw [String.toList_ofList]
  -- the document is accepted, as something was read from it
  cases hchars : Markup.parseChars cs with
  | error f => simp [hchars, Except.toOption] at hroot
  | ok r =>
    rw [hchars] at hroot
    obtain rfl := Option.some.inj hroot
    dsimp only
    rw [hschema]

/-- An association has more places than ends, and its fault is reported at an element that does not
    have the role. -/
def ShowsDrift (e : Element) : Prop :=
  (∃ p ∈ (Schema.read e).value.1.associations.zip (Schema.read e).value.2.associations,
    p.1.ends.length ≠ p.2.ends.length) ∧
  Fault.duplicateRole "Billing" "payer" driftedPlace ∈
    validate (Schema.read e).value.1 (Schema.read e).value.2 ∧
  ∀ x ∈ e.namedChildren "Association", ∀ y ∈ x.namedChildren "End",
    y.attribute? "Role" = some "payer" → y.span ≠ driftedPlace

instance : DecidablePred ShowsDrift :=
  fun _ => inferInstanceAs (Decidable (_ ∧ _ ∧ _))

/-- The document has such an element. -/
private theorem exists_driftedElement :
    ∃ e, Model.schemaElement (String.ofList driftedDocument) = .ok e ∧ ShowsDrift e := by
  -- one computation over all of the document
  have hany : ((Markup.parseChars driftedDocument).toOption.bind schemaElement?).any
      (fun e => decide (ShowsDrift e)) = true := by
    decide +kernel
  obtain ⟨e, he, hdrift⟩ := (Option.any_eq_true ..).mp hany
  exact ⟨e, schemaElement_ofList he, of_decide_eq_true hdrift⟩

/-- A source map can have a place more than an association has ends, and then the label of a role
    can be at an element that has no role at all. -/
theorem label_may_be_at_other_end :
    ¬ (∀ source e, Model.schemaElement source = .ok e →
      ∀ p ∈ (Schema.read e).value.1.associations.zip (Schema.read e).value.2.associations,
        p.1.ends.length = p.2.ends.length) ∧
    ¬ (∀ source e, Model.schemaElement source = .ok e →
      ∀ f ∈ validate (Schema.read e).value.1 (Schema.read e).value.2, f.IsAbout e) := by
  obtain ⟨e, helement, ⟨p, hp, hlength⟩, hlabel, hother⟩ := exists_driftedElement
  constructor
  · exact fun h => hlength (h _ _ helement p hp)
  · intro h
    have habout := h _ _ helement _ hlabel
    -- the fault is named, so that its cases can be told apart
    generalize hfault : Fault.duplicateRole "Billing" "payer" driftedPlace = f at habout
    cases habout with
    | duplicateRole hx hname hboth =>
      obtain ⟨-, rfl, hspan⟩ := Fault.duplicateRole.inj hfault
      -- the second of the two bears the role, which no element at this place does
      exact hother _ hx _ (hboth.inOrder.subset (by simp)) hboth.second_bears hspan.symm
    | _ => exact nomatch hfault

end EntityModel
