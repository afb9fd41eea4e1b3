import EntityModel.Proofs.Records
import Mathlib

/-!
# Nothing is lost silently

A reader that leaves a record out does so on one of several early exits, and each of them reports a
fault in the element that it was reading.  The lemmas below say this of every reader, from the
attributes of a member up to the whole schema; the main result reads it off for a schema element,
once for readings without a fault and once for the places that the faults point at.

* `accounts_readAssociation` and its likes   what each reader keeps and blames
* `read_records`                             the schema records its element
* `schema_accounts_for_element`              nothing is left out without a report
-/

namespace EntityModel

open Markup (Element)

/-! ### Ways to account for an element -/

section

variable {ρ : Type} {R : (Element → Prop) → Element → ρ → Prop} {r : Reading (Option ρ)}
  {e : Element}

/-- A record that accounts for the element by itself is an account of the reading. -/
private theorem accounts_of_value {a : ρ} (h : r.value = some a)
    (hR : ∀ leftOut, Excuses leftOut r.faults e → R leftOut e a) : Accounts R r e where
  none_blamed hn := nomatch h.symm.trans hn
  some_records b hb := by
    obtain rfl := Option.some.inj (h.symm.trans hb)
    exact hR

/-- A fault in the element accounts for going without a record. -/
private theorem accounts_of_blamed (h : r.value = none) (hb : Blamed r.faults e) :
    Accounts R r e where
  none_blamed _ := hb
  some_records _ ha := nomatch h.symm.trans ha

/-- Going without a record accounts for the element that the fault points at. -/
theorem accounts_reject {f : Fault} (h : f.span = e.span) : Accounts R (Reading.reject f) e :=
  accounts_of_blamed rfl (.of_mem List.mem_cons_self h)

/-- An attribute that a reader cannot go on without is there, or its fault accounts for the
    element. -/
private theorem accounts_required {field : String} {next : Option String → Reading (Option ρ)}
    (hnone : (next none).value = none)
    (hsome : ∀ value, e.attribute? field = some value → Accounts R (next (some value)) e) :
    Accounts R (requireAttribute e field >>= next) e := by
  cases h : e.attribute? field with
  | none =>
    rw [requireAttribute_of_none h]
    exact accounts_of_blamed hnone (.of_mem List.mem_cons_self rfl)
  | some value =>
    rw [requireAttribute_of_some h]
    exact hsome value h

/-- Metadata are read of an element with a name, and one without is accounted for by the fault. -/
private theorem accounts_named {next : Option Metadata → Reading (Option ρ)}
    (hnone : (next none).value = none)
    (hsome : ∀ name, e.attribute? "Name" = some name →
      Accounts R (next (some ⟨name, readDocumentation e, readAnnotations e⟩)) e) :
    Accounts R (readMetadata e >>= next) e := by
  cases h : e.attribute? "Name" with
  | none =>
    rw [readMetadata_of_none h]
    exact accounts_of_blamed hnone (.of_mem List.mem_cons_self rfl)
  | some name =>
    rw [readMetadata_of_some h]
    exact hsome name h

end

/-! ### Lists of children -/

section

variable {ρ α δ : Type} {R : (Element → Prop) → Element → ρ → Prop} {leftOut : Element → Prop}
  {e : Element} {kind : String}

/-- The children of one kind are read in order, where they are all that is read. -/
theorem inOrder_children {read : Element → Reading (Option α)} (pick : α → ρ)
    (hacc : ∀ x, Accounts (fun leftOut x a => R leftOut x (pick a)) (read x) x)
    (hex : Excuses leftOut (Reading.collect read (e.namedChildren kind)).faults e) :
    -- every child of the kind is read, so each of them gives a record or a fault
    InOrder leftOut (R leftOut) (e.namedChildren kind)
      ((Reading.collect read (e.namedChildren kind)).value.map pick) := by
  refine inOrder_collect ?_ ?_
  · intro x hx a ha
    exact (hacc x).some_records a ha leftOut
      (hex.mono (.single (mem_namedChildren hx)) (faults_subset_collect hx))
  · intro x hx hn
    exact hex x (.single (mem_namedChildren hx))
      (((hacc x).none_blamed hn).mono (faults_subset_collect hx))

/-- The children of one kind are read in order, where all children are read by what they are. -/
theorem inOrder_dispatched {dispatch : Element → Reading (Option δ)}
    {read : Element → Reading (Option α)} (kind : String) (make : Element → α → δ)
    (pick : δ → Option ρ) (project : α → ρ)
    (hread : ∀ x, x.localName = kind → dispatch x = do
      let a ← read x
      pure (a.map (make x)))
    (hpick : ∀ x a, pick (make x a) = some (project a))
    (hother : ∀ x, x.localName ≠ kind → ∀ d, (dispatch x).value = some d → pick d = none)
    (hacc : ∀ x, Accounts (fun leftOut x a => R leftOut x (project a)) (read x) x)
    (hex : Excuses leftOut (Reading.collect dispatch e.children).faults e) :
    InOrder leftOut (R leftOut) (e.namedChildren kind)
      ((Reading.collect dispatch e.children).value.filterMap pick) := by
  -- what a child of the kind is blamed for by its own reader is reported by the whole reading
  have hsub : ∀ x ∈ e.children, x.localName = kind →
      (read x).faults ⊆ (Reading.collect dispatch e.children).faults := by
    intro x hx hk f hf
    refine faults_subset_collect hx ?_
    rw [hread x hk]
    simpa using hf
  -- children of other kinds give declarations of other kinds, which are not picked
  refine inOrder_collect_filter (fun x => x.localName == kind) pick ?_ ?_ ?_
  · intro x hx hs d hd
    have hk : x.localName = kind := by simpa using hs
    rw [hread x hk] at hd
    obtain ⟨a, ha, rfl⟩ := Option.map_eq_some_iff.mp hd
    exact ⟨project a, hpick x a,
      (hacc x).some_records a ha leftOut (hex.mono (.single hx) (hsub x hx hk))⟩
  · intro x hx hs hn
    have hk : x.localName = kind := by simpa using hs
    rw [hread x hk] at hn
    exact hex x (.single hx)
      (((hacc x).none_blamed (Option.map_eq_none_iff.mp hn)).mono (hsub x hx hk))
  · intro x _ hs d hd
    exact hother x (by simpa using hs) d hd

end

/-! ### Members -/

/-- A reference is read from its name or reported. -/
private theorem accounts_propertyRef (e : Element) :
    Accounts (fun _ x name => BearsName x name) (requireAttribute e "Name") e := by
  cases h : e.attribute? "Name" with
  | none =>
    rw [requireAttribute_of_none h]
    exact accounts_reject rfl
  | some name =>
    rw [requireAttribute_of_some h]
    exact accounts_of_value rfl fun _ _ => h

/-- The references below an element are read in order. -/
theorem recordsRefs_readPropertyRefs {leftOut : Element → Prop} {e : Element}
    (h : Excuses leftOut (readPropertyRefs e).faults e) :
    RecordsRefs leftOut e (readPropertyRefs e).value := by
  have hin := inOrder_children (R := fun _ => BearsName) id accounts_propertyRef h
  rw [List.map_id] at hin
  exact hin

/-- A member of an enum type is read or reported. -/
theorem accounts_readEnumMember (e : Element) :
    Accounts (fun _ x m => EnumMember.Records x m.1) (readEnumMember e) e := by
  unfold readEnumMember
  exact accounts_required rfl fun _ hname => accounts_of_value rfl fun _ _ => hname

/-- A property is read or reported. -/
theorem accounts_readProperty (e : Element) :
    Accounts (fun _ => Property.Records) (readProperty e) e := by
  unfold readProperty
  -- one attribute after the other, each of them required
  refine accounts_named rfl fun name hname => ?_
  refine accounts_required rfl fun typeName htype => ?_
  exact accounts_of_value rfl fun _ _ => ⟨hname, htype⟩

/-- A navigation property is read or reported. -/
theorem accounts_readNavigationProperty (e : Element) :
    Accounts (fun _ => NavigationProperty.Records) (readNavigationProperty e) e := by
  unfold readNavigationProperty
  refine accounts_named rfl fun name hname => ?_
  -- the reader looks at all three, but without one of them nothing is read
  refine accounts_required rfl fun relationship hrel => ?_
  refine accounts_required rfl fun fromRole hfrom => ?_
  refine accounts_required rfl fun toRole hto => ?_
  exact accounts_of_value rfl fun _ _ => ⟨hname, hrel, hfrom, hto⟩

/-- A multiplicity is missing only with a fault on the end. -/
private theorem accounts_readMultiplicity (e : Element) :
    Accounts
      (fun _ x m => (x.attribute? "Multiplicity").bind Multiplicity.vocabulary.read? = some m)
      (readMultiplicity e) e := by
  unfold readMultiplicity
  refine accounts_required rfl fun text htext => ?_
  -- the attribute is there, but what it says may be refused
  cases hm : Multiplicity.vocabulary.read? text with
  | none =>
    refine accounts_of_blamed ?_ ?_
    · simp [Vocabulary.read, hm, acceptValue]
    · refine .of_mem (f := .invalidValue text "Multiplicity" Multiplicity.vocabulary.expected
        e.span) ?_ rfl
      simp [Vocabulary.read, hm, acceptValue]
  | some m =>
    refine accounts_of_value (a := m) ?_ fun _ _ => by simp [htext, hm]
    simp [Vocabulary.read, hm, acceptValue]

/-- An end is read or reported. -/
theorem accounts_readEnd (e : Element) :
    Accounts (fun _ => AssociationEnd.Records) (readEnd e) e := by
  unfold readEnd
  refine accounts_required rfl fun typeName htype => ?_
  refine accounts_required rfl fun role hrole => ?_
  -- the multiplicity has faults of its own, which are faults of the end
  have hacc := accounts_readMultiplicity e
  cases hm : (readMultiplicity e).value with
  | none =>
    refine accounts_of_blamed ?_ ((hacc.none_blamed hm).mono ?_)
    · simp [hm]
    · simp
  | some m =>
    refine accounts_of_value (a := ⟨role, typeName, m⟩) (by simp [hm]) fun _ _ => ?_
    exact ⟨hrole, htype, hacc.some_records m hm (fun _ => True) fun _ _ _ => True.intro⟩

/-- An entity set is read or reported. -/
private theorem accounts_readEntitySet (e : Element) :
    Accounts (fun _ => EntitySet.Records) (readEntitySet e) e := by
  unfold readEntitySet
  refine accounts_named rfl fun name hname => ?_
  refine accounts_required rfl fun entityType htype => ?_
  exact accounts_of_value rfl fun _ _ => ⟨hname, htype⟩

/-! ### Declarations -/

/-- An enum type is read or reported, with what it says of its members. -/
theorem accounts_readEnumType (e : Element) :
    Accounts (fun leftOut x p => EnumType.Records leftOut x p.1) (readEnumType e) e := by
  unfold readEnumType
  refine accounts_named rfl fun name hname => ?_
  refine accounts_of_value rfl fun leftOut hex => ⟨hname, ?_⟩
  -- whatever is excused in the whole is excused in the part
  have hmembers : Excuses leftOut
      (Reading.collect readEnumMember (e.namedChildren "Member")).faults e :=
    hex.mono e.contains_self fun f hf => by simp [hf]
  exact inOrder_children (R := fun _ => EnumMember.Records) Prod.fst
    accounts_readEnumMember hmembers

/-- A property of a complex type is read or reported. -/
private theorem accounts_readComplexMember (e : Element) :
    Accounts (fun _ x p => Property.Records x p.1) (readComplexMember e) e := by
  have hacc := accounts_readProperty e
  unfold readComplexMember
  -- the place is put beside the record and nothing is lost by that
  cases hp : (readProperty e).value with
  | none =>
    exact accounts_of_blamed (by simp [hp]) ((hacc.none_blamed hp).mono (by simp))
  | some p =>
    refine accounts_of_value (a := (p, e.span)) (by simp [hp]) fun leftOut hex => ?_
    exact hacc.some_records p hp leftOut (hex.mono e.contains_self (by simp))

/-- A complex type is read or reported, with what it says of its properties. -/
theorem accounts_readComplexType (e : Element) :
    Accounts (fun leftOut x p => ComplexType.Records leftOut x p.1) (readComplexType e) e := by
  unfold readComplexType
  refine accounts_named rfl fun name hname => ?_
  refine accounts_of_value rfl fun leftOut hex => ⟨hname, ?_⟩
  have hmembers : Excuses leftOut
      (Reading.collect readComplexMember (e.namedChildren "Property")).faults e :=
    hex.mono e.contains_self fun f hf => by simp [hf]
  exact inOrder_children (R := fun _ => Property.Records) Prod.fst
    accounts_readComplexMember hmembers

namespace EntityMember

/-- The name of the elements that a member is read from. -/
def elementName : EntityMember → String
  | property .. => "Property"
  | navigation .. => "NavigationProperty"

/-- A member is read from elements of its name only. -/
theorem elementName_of_read {e : Element} {m : EntityMember} (h : (read e).value = some m) :
    e.localName = m.elementName := by
  unfold read at h
  -- the two kinds of member, and everything else, which is not read at all
  split at h
  · rename_i hname
    obtain ⟨p, -, rfl⟩ := Option.map_eq_some_iff.mp h
    exact hname
  · split at h
    · rename_i hname
      obtain ⟨n, -, rfl⟩ := Option.map_eq_some_iff.mp h
      exact hname
    · exact nomatch h

end EntityMember

/-- What the key of an entity type records. -/
private theorem readKey_records {leftOut : Element → Prop} {e : Element}
    (hex : Excuses leftOut (readKey e).faults e) :
    (∀ k, e.child? "Key" = some k → ∃ p, (readKey e).value = some p ∧ RecordsRefs leftOut k p.1) ∧
      (e.child? "Key" = none → (readKey e).value = none) := by
  unfold readKey at hex ⊢
  -- the first element of a key is the one that is read
  constructor
  · intro k hk
    rw [hk] at hex ⊢
    refine ⟨_, rfl, ?_⟩
    exact recordsRefs_readPropertyRefs
      (hex.mono (.single (List.mem_of_find?_eq_some hk)) (by simp))
  · intro hk
    rw [hk]
    rfl

/-- An entity type is read or reported, with what it says of its members and its key. -/
theorem accounts_readEntityType (e : Element) :
    Accounts (fun leftOut x p => EntityType.Records leftOut x p.1) (readEntityType e) e := by
  unfold readEntityType
  refine accounts_named rfl fun name hname => ?_
  refine accounts_of_value rfl fun leftOut hex => ?_
  have hkeyFaults : Excuses leftOut (readKey e).faults e :=
    hex.mono e.contains_self fun f hf => by simp [hf]
  have hmembers : Excuses leftOut (Reading.collect EntityMember.read e.children).faults e :=
    hex.mono e.contains_self fun f hf => by simp [hf]
  obtain ⟨hkey, hnoKey⟩ := readKey_records hkeyFaults
  refine ⟨hname, ?_, ?_, ?_, ?_⟩
  · intro k hk
    obtain ⟨p, hp, hrefs⟩ := hkey k hk
    exact ⟨p.1, by simp [hp], hrefs⟩
  · intro hk
    simp [hnoKey hk]
  -- both kinds of member are read in one pass over all children and told apart afterwards
  · have hin := inOrder_dispatched (R := fun _ => Property.Records) "Property"
      (fun x p => EntityMember.property p x.span) (fun m => m.property?.map (·.1)) id
      (fun x hx => by rw [EntityMember.read, if_pos hx])
      (fun _ _ => rfl)
      (fun x hx m hm => by
        have := EntityMember.elementName_of_read hm
        cases m <;> simp_all [EntityMember.elementName, EntityMember.property?])
      accounts_readProperty hmembers
    simpa only [List.map_filterMap] using hin
  · have hin := inOrder_dispatched (R := fun _ => NavigationProperty.Records)
      "NavigationProperty" (fun x n => EntityMember.navigation n x.span)
      (fun m => m.navigation?.map (·.1)) id
      (fun x hx => by
        rw [EntityMember.read, if_neg (by rw [hx]; decide), if_pos hx])
      (fun _ _ => rfl)
      (fun x hx m hm => by
        have := EntityMember.elementName_of_read hm
        cases m <;> simp_all [EntityMember.elementName, EntityMember.navigation?])
      accounts_readNavigationProperty hmembers
    simpa only [List.map_filterMap] using hin

/-- A half of a constraint is read from the first element of its name, or reported. -/
private theorem accounts_readHalf (constraint : Element) (name : String) :
    Accounts (fun leftOut x p => ConstraintHalf.Records leftOut name x p.1)
      (readHalf constraint name) constraint := by
  unfold readHalf
  cases hchild : constraint.child? name with
  | none => exact accounts_reject rfl
  | some e =>
    have hmem : constraint.Contains e := .single (List.mem_of_find?_eq_some hchild)
    cases hrole : e.attribute? "Role" with
    -- the element is there without a role, and the fault is on the element
    | none =>
      dsimp only
      rw [requireAttribute_of_none hrole]
      exact accounts_of_blamed rfl (.of_contains hmem (.of_mem List.mem_cons_self rfl))
    | some role =>
      dsimp only
      rw [requireAttribute_of_some hrole]
      refine accounts_of_value rfl fun leftOut hex => ⟨e, hchild, hrole, ?_⟩
      exact recordsRefs_readPropertyRefs (hex.mono hmem fun f hf => by simp [hf])

/-- The constraint of an association is made of both halves of the first constraint element, which
    is blamed where one of them is missing. -/
private theorem inOrder_readHalves {leftOut : Element → Prop} {e : Element}
    (hex : Excuses leftOut (readHalves e).faults e) :
    InOrder leftOut (ReferentialConstraint.Records leftOut)
      (e.child? "ReferentialConstraint").toList
      (joinHalves (readHalves e).value.1 (readHalves e).value.2).toList := by
  unfold readHalves at hex ⊢
  cases hchild : e.child? "ReferentialConstraint" with
  | none => exact .nil
  | some c =>
    rw [hchild] at hex
    have hmem : e.Contains c := .single (List.mem_of_find?_eq_some hchild)
    have hfirst : Excuses leftOut (readHalf c "Principal").faults c :=
      hex.mono hmem fun f hf => by simp [hf]
    have hsecond : Excuses leftOut (readHalf c "Dependent").faults c :=
      hex.mono hmem fun f hf => by simp [hf]
    have hprincipal := accounts_readHalf c "Principal"
    have hdependent := accounts_readHalf c "Dependent"
    simp only [Reading.value_bind, Reading.value_pure, Option.toList_some]
    -- either half can be missing, and then the constraint is reported by that half
    cases hp : (readHalf c "Principal").value with
    | none => exact .skipped (hfirst c c.contains_self (hprincipal.none_blamed hp)) .nil
    | some p =>
      cases hd : (readHalf c "Dependent").value with
      | none => exact .skipped (hsecond c c.contains_self (hdependent.none_blamed hd)) .nil
      | some d =>
        refine .kept ⟨?_, ?_⟩ .nil
        · exact hprincipal.some_records p hp leftOut hfirst
        · exact hdependent.some_records d hd leftOut hsecond

/-- Where fewer records than elements are kept, an element could not be read. -/
private theorem exists_unread {ρ : Type} (read : Element → Reading (Option ρ)) (xs : List Element)
    (h : (Reading.collect read xs).value.length ≠ xs.length) :
    ∃ x ∈ xs, (read x).value = none := by
  rw [Reading.value_collect] at h
  -- if all of them could be read, none would be missing among the records
  by_contra hno
  refine h (List.filterMap_length_eq_length.mpr fun x hx => ?_)
  rw [Option.isSome_iff_ne_none]
  exact fun hn => hno ⟨x, hx, hn⟩

/-- An association is read or reported, with what it says of its ends and its constraint. -/
theorem accounts_readAssociation (e : Element) :
    Accounts (fun leftOut x p => Association.Records leftOut x p.1) (readAssociation e) e := by
  unfold readAssociation
  refine accounts_named rfl fun name hname => ?_
  by_cases hlen : (Reading.collect readEnd (e.namedChildren "End")).value.length = 2
  -- there are two ends, and they are the two elements that could be read
  · obtain ⟨first, second, hends⟩ := List.length_eq_two.mp hlen
    refine accounts_of_value
      (a := ({ name := name, documentation := readDocumentation e,
               annotations := readAnnotations e, first := first, second := second,
               constraint := joinHalves (readHalves e).value.1 (readHalves e).value.2 },
             { span := e.span, ends := (e.namedChildren "End").map (·.span),
               principal := (readHalves e).value.1.map (·.2),
               dependent := (readHalves e).value.2.map (·.2) }))
      (by simp [hends]) fun leftOut hex => ⟨hname, ?_, ?_⟩
    · have hendFaults : Excuses leftOut
          (Reading.collect readEnd (e.namedChildren "End")).faults e :=
        hex.mono e.contains_self fun f hf => by simp [hf]
      have hin := inOrder_children (R := fun _ => AssociationEnd.Records) id
        accounts_readEnd hendFaults
      rw [List.map_id, hends] at hin
      exact hin
    · exact inOrder_readHalves (hex.mono e.contains_self fun f hf => by simp [hends, hf])
  · have hshape : ∀ first second,
        (Reading.collect readEnd (e.namedChildren "End")).value ≠ [first, second] :=
      fun _ _ heq => hlen (by rw [heq]; rfl)
    by_cases hcount : (e.namedChildren "End").length = 2
    · -- no fault is reported for the association itself, so it has to come from one of its ends
      obtain ⟨x, hx, hn⟩ := exists_unread readEnd (e.namedChildren "End")
        (by rw [hcount]; exact hlen)
      have hblamed := ((accounts_readEnd x).none_blamed hn).mono (faults_subset_collect hx)
      refine accounts_of_blamed ?_
        ((Blamed.of_contains (.single (mem_namedChildren hx)) hblamed).mono ?_)
      · simp [hcount]
      · exact fun f hf => by simp [hf]
    -- there are not two elements, which is reported by their number
    · refine accounts_of_blamed ?_ (.of_mem
        (f := .endCount name (e.namedChildren "End").length e.span) ?_ rfl)
      · simp [hcount]
      · simp [hcount]

/-- An entity container is read or reported, with what it says of its sets. -/
theorem accounts_readEntityContainer (e : Element) :
    Accounts (fun leftOut x p => EntityContainer.Records leftOut x p.1) (readEntityContainer e)
      e := by
  unfold readEntityContainer
  refine accounts_named rfl fun name hname => ?_
  refine accounts_of_value rfl fun leftOut hex => ⟨hname, ?_⟩
  have hsets : Excuses leftOut
      (Reading.collect readEntitySet (e.namedChildren "EntitySet")).faults e :=
    hex.mono e.contains_self fun f hf => by simp [hf]
  have hin := inOrder_children (R := fun _ => EntitySet.Records) id
    accounts_readEntitySet hsets
  rw [List.map_id] at hin
  exact hin

/-! ### The schema -/

namespace Declaration

/-- The name of the elements that a declaration is read from. -/
def elementName : Declaration → String
  | enumType .. => "EnumType"
  | complexType .. => "ComplexType"
  | entityType .. => "EntityType"
  | association .. => "Association"
  | entityContainer .. => "EntityContainer"

/-- A declaration is read from elements of its name only. -/
theorem elementName_of_read {e : Element} {d : Declaration} (h : (read e).value = some d) :
    e.localName = d.elementName := by
  have hread := isReadFrom_of_read h
  cases d <;> exact hread.1

end Declaration

/-- The declarations of one kind are read in order. -/
theorem inOrder_declarations {ρ σ : Type} {R : (Element → Prop) → Element → ρ → Prop}
    {leftOut : Element → Prop} {e : Element} {read : Element → Reading (Option (ρ × σ))}
    (kind : String) (make : ρ → σ → Declaration) (pick : Declaration → Option (ρ × σ))
    (hread : ∀ x, x.localName = kind → Declaration.read x = do
      let a ← read x
      pure (a.map fun p => make p.1 p.2))
    (hpick : ∀ p, pick (make p.1 p.2) = some p)
    (hother : ∀ d, d.elementName ≠ kind → pick d = none)
    (hacc : ∀ x, Accounts (fun leftOut x p => R leftOut x p.1) (read x) x)
    (hex : Excuses leftOut (Reading.collect Declaration.read e.children).faults e) :
    InOrder leftOut (R leftOut) (e.namedChildren kind)
      (((Reading.collect Declaration.read e.children).value.filterMap pick).map (·.1)) := by
  rw [List.map_filterMap]
  refine inOrder_dispatched kind (fun _ p => make p.1 p.2) _ Prod.fst hread ?_ ?_ hacc hex
  · intro _ p
    rw [hpick p]
    rfl
  · intro x hx d hd
    -- the element would have had to bear the name of the kind
    have hname : d.elementName ≠ kind := fun h => hx ((Declaration.elementName_of_read hd).trans h)
    rw [hother d hname]
    rfl

/-- The schema records its element, apart from what the faults of its reading blame. -/
theorem read_records {leftOut : Element → Prop} {e : Element}
    (hex : Excuses leftOut (Schema.read e).faults e) :
    Schema.Records leftOut e (Schema.read e).value.1 := by
  have hds : Excuses leftOut (Reading.collect Declaration.read e.children).faults e :=
    hex.mono e.contains_self fun f hf => by simp [Schema.read, hf]
  rw [Schema.value_read]
  -- the five lists are picked from one pass over all children
  refine ⟨?_, ?_, ?_, ?_, ?_⟩
  · exact inOrder_declarations "EnumType" .enumType Declaration.enumType?
      (fun x hx => by simp [Declaration.read, hx]) (fun _ => rfl)
      (fun d hd => by cases d <;> first | rfl | exact absurd rfl hd) accounts_readEnumType hds
  · exact inOrder_declarations "ComplexType" .complexType Declaration.complexType?
      (fun x hx => by simp [Declaration.read, hx]) (fun _ => rfl)
      (fun d hd => by cases d <;> first | rfl | exact absurd rfl hd) accounts_readComplexType hds
  · exact inOrder_declarations "EntityType" .entityType Declaration.entityType?
      (fun x hx => by simp [Declaration.read, hx]) (fun _ => rfl)
      (fun d hd => by cases d <;> first | rfl | exact absurd rfl hd) accounts_readEntityType hds
  · exact inOrder_declarations "Association" .association Declaration.association?
      (fun x hx => by simp [Declaration.read, hx]) (fun _ => rfl)
      (fun d hd => by cases d <;> first | rfl | exact absurd rfl hd) accounts_readAssociation hds
  · exact inOrder_declarations "EntityContainer" .entityContainer Declaration.entityContainer?
      (fun x hx => by simp [Declaration.read, hx]) (fun _ => rfl)
      (fun d hd => by cases d <;> first | rfl | exact absurd rfl hd) accounts_readEntityContainer hds

/-- One of the faults is an error whose primary label lies in the element. -/
def Reported (faults : List Fault) (e : Element) : Prop :=
  ∃ f ∈ faults, f.diagnostic.isError = true ∧
    ∃ place, f.diagnostic.primarySpan? = some place ∧ e.span.Covers place

/-- Where spans nest, what is blamed has an error in it. -/
private theorem reported_of_blamed {faults : List Fault} {e : Element} (hn : e.Nested)
    (h : Blamed faults e) : Reported faults e := by
  -- the label of the fault is at the blamed element, which lies within this one
  obtain ⟨f, hf, x, hx, hspan⟩ := h
  refine ⟨f, hf, f.isError_diagnostic, f.span, f.primarySpan?_diagnostic, ?_⟩
  rw [hspan]
  exact hn.covers hx

/-- No element is lost silently.  A reading without a fault has one record for each element, in the
    order of the document; where spans nest, as they do in every parsed document, an element that
    is left out of what is kept has an error in it. -/
theorem schema_accounts_for_element (e : Element) :
    ((Schema.read e).faults = [] → Schema.Records (fun _ => False) e (Schema.read e).value.1) ∧
      (e.Nested → Schema.Records (Reported (Schema.read e).faults) e (Schema.read e).value.1) ∧
      (∀ source root, Markup.parse source = .ok root → root.Contains e → e.Nested) := by
  refine ⟨?_, ?_, ?_⟩
  -- without faults nothing can be blamed, so nothing is left out
  · intro hnil
    refine read_records fun x _ hb => ?_
    rw [hnil] at hb
    obtain ⟨f, hf, -⟩ := hb
    exact nomatch hf
  · intro hn
    exact read_records fun x hx hb => reported_of_blamed (hn.of_contains hx) hb
  · intro source root hparse he
    exact (Markup.nested_of_parse hparse).of_contains he

/-- A document with a property that has no type, and one that reads without a fault. -/
theorem untyped_property_is_accounted_for :
    (∃ source e, Markup.parse source = .ok e ∧
      (Schema.read e).value.1.entityTypes.map (·.properties) = [[]] ∧
      Schema.Records (Reported (Schema.read e).faults) e (Schema.read e).value.1) ∧
    (∃ e, (Schema.read e).faults = [] ∧ (Schema.read e).value.1.entityTypes.length = 1 ∧
      Schema.Records (fun _ => False) e (Schema.read e).value.1) := by
  constructor
  -- the property is left out and reported
  · let e : Element :=
      ⟨⟨none, "Schema"⟩, [⟨⟨none, "Namespace"⟩, "N"⟩],
        [⟨⟨none, "EntityType"⟩, [⟨⟨none, "Name"⟩, "T"⟩],
          [⟨⟨none, "Property"⟩, [⟨⟨none, "Name"⟩, "P"⟩], [], "", ⟨43, 63, by omega⟩⟩], "",
          ⟨22, 76, by omega⟩⟩], "", ⟨0, 85, by omega⟩⟩
    have hparse : Markup.parse ("<Schema Namespace='N'><EntityType Name='T'>" ++
        "<Property Name='P'/></EntityType></Schema>") = .ok e := by cbv
    obtain ⟨-, hreported, hnested⟩ := schema_accounts_for_element e
    exact ⟨_, e, hparse, by cbv, hreported (hnested _ e hparse e.contains_self)⟩
  -- nothing is left out
  · let e : Element :=
      ⟨⟨none, "Schema"⟩, [⟨⟨none, "Namespace"⟩, "N"⟩],
        [⟨⟨none, "EntityType"⟩, [⟨⟨none, "Name"⟩, "T"⟩], [], "", ⟨22, 47, by omega⟩⟩], "",
        ⟨0, 56, by omega⟩⟩
    exact ⟨e, by cbv, by cbv, (schema_accounts_for_element e).1 (by cbv)⟩

end EntityModel
