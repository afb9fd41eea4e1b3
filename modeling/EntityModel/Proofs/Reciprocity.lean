import EntityModel.Proofs.InverseNavigation

/-!
# Inverses of inverses

In an accepted schema the ends of an association play different roles and no two associations share
a name.  So the look-up from one end finds exactly the navigation properties of the type at that end
that lead to the other one, however they spell the association, and takes the first of them.  Where
each type declares one, the two are inverses of each other; both may be of one type.

* `inverseNavigation_eq_find?`          the look-up as a search among the properties that lead back
* `find?_follows_eq_some_iff`           what that search finds
* `inverse?_eq_inverseNavigation`       the inverse of a property that is given by its name
* `inverses_are_first_and_reciprocal`   which property is found, and when inverses come in pairs
-/

namespace EntityModel

/-- The ends of an association whose roles differ are found by their roles, and lie across from each
    other. -/
private theorem Association.oppositeEnd_of_ends {a : Association} {x y : AssociationEnd}
    (hroles : a.first.role ≠ a.second.role) (hends : a.ends = [x, y] ∨ a.ends = [y, x]) :
    a.findEnd x.role = .ok x ∧ a.oppositeEnd x.role = .ok y := by
  rw [findEnd_eq_ok_iff]
  unfold oppositeEnd
  -- whichever of the two ends the role is that of, the other one is across
  rcases hends with h | h
  · obtain ⟨rfl, rfl⟩ : a.first = x ∧ a.second = y := by simpa [ends] using h
    exact ⟨by simp [ends], if_pos rfl⟩
  · obtain ⟨rfl, rfl⟩ : a.first = y ∧ a.second = x := by simpa [ends] using h
    exact ⟨by simp [ends, hroles], by rw [if_neg hroles, if_pos rfl]⟩

namespace Schema

/-- The navigation property `n` of the entity type `t` leads along the association from the end `x`
    to the end `y`.  Its reference may be qualified or not. -/
structure Leads (s : Schema) (t : EntityType) (n : NavigationProperty) (a : Association)
    (x y : AssociationEnd) : Prop where
  mem : n ∈ t.navigationProperties
  fromRole : n.fromRole = x.role
  toRole : n.toRole = y.role
  association : s.resolveAssociation n.relationship t.name = .ok a

/-- The inverse of a navigation property that is given by its owner and its name. -/
def inverse? (s : Schema) (i : NavigationReference) : Option NavigationReference := do
  let t ← s.entityTypes.find? fun t => t.name == i.owner
  let n ← t.navigationProperties.find? fun n => n.name == i.property
  let a ← s.findAssociation? (s.localName n.relationship)
  (s.inverseNavigation a n.toRole).toOption.join

variable {s : Schema} {a : Association} {x y : AssociationEnd} {t : EntityType}
  {n : NavigationProperty}

/-- Where names are distinct, a property leads along an association exactly if it follows one of
    that name. -/
theorem leads_iff_follows (hs : s.WellFormed) (ha : a ∈ s.associations) :
    s.Leads t n a x y ↔ n ∈ t.navigationProperties ∧ s.follows n a.name x.role y.role = true := by
  -- the association is found by its name, which is that of one association only
  have hassociation :
      s.resolveAssociation n.relationship t.name = .ok a ↔ s.localName n.relationship = a.name := by
    rw [resolveAssociation_eq_ok_iff, findAssociation?, find?_key_eq_some_iff hs.associationNames,
      and_iff_right ha, eq_comm]
  rw [follows_iff, ← hassociation]
  constructor
  · intro h
    exact ⟨h.mem, h.fromRole, h.toRole, h.association⟩
  · rintro ⟨hmem, hfrom, hto, hresolves⟩
    exact ⟨hmem, hfrom, hto, hresolves⟩

/-- The search for a property that leads from one end to the other finds the first one declared. -/
theorem find?_follows_eq_some_iff (hs : s.WellFormed) (ha : a ∈ s.associations) :
    (t.navigationProperties.find? fun k => s.follows k a.name x.role y.role) = some n ↔
      ∃ before after, t.navigationProperties = before ++ n :: after ∧ s.Leads t n a x y ∧
        ∀ k ∈ before, ¬ s.Leads t k a x y := by
  -- the search asks for the roles and the name, which is to ask for where a property leads
  have hleads : ∀ k ∈ t.navigationProperties,
      (s.follows k a.name x.role y.role = true ↔ s.Leads t k a x y) := by
    intro k hk
    rw [leads_iff_follows hs ha, and_iff_right hk]
  rw [List.find?_eq_some_iff_append]
  constructor
  · rintro ⟨hfollows, before, after, hsplit, hbefore⟩
    have hmem : n ∈ t.navigationProperties := hsplit ▸ List.mem_append_right _ List.mem_cons_self
    refine ⟨before, after, hsplit, (hleads n hmem).mp hfollows, fun k hk => ?_⟩
    rw [← hleads k (hsplit ▸ List.mem_append_left _ hk)]
    simpa using hbefore k hk
  · rintro ⟨before, after, hsplit, hn, hbefore⟩
    refine ⟨(hleads n hn.mem).mpr hn, before, after, hsplit, fun k hk => ?_⟩
    have hno := hbefore k hk
    rw [← hleads k (hsplit ▸ List.mem_append_left _ hk)] at hno
    simpa using hno

/-- The look-up from an end takes the first property of the type there that leads to the other
    end. -/
theorem inverseNavigation_eq_find? (hroles : a.first.role ≠ a.second.role)
    (hends : a.ends = [x, y] ∨ a.ends = [y, x])
    (ht : s.resolveEntityType x.typeName a.name = .ok t) :
    s.inverseNavigation a x.role =
      .ok ((t.navigationProperties.find? fun n => s.follows n a.name x.role y.role).map fun n =>
        ⟨t.name, n.name⟩) := by
  -- the far end, the end across from it and its type are what the look-up asks for
  obtain ⟨hx, hy⟩ := Association.oppositeEnd_of_ends hroles hends
  unfold inverseNavigation
  rw [hx, hy]
  show s.resolveEntityType x.typeName a.name >>= _ = _
  rw [ht]
  rfl

/-- The inverse of a property that is given by its name is what the look-up from its far end
    finds. -/
theorem inverse?_eq_inverseNavigation (hs : s.WellFormed) (ht : t ∈ s.entityTypes)
    (hn : s.Leads t n a x y) :
    s.inverse? ⟨t.name, n.name⟩ = (s.inverseNavigation a y.role).toOption.join := by
  -- the owner and the property are found by their names, since these are distinct
  have htype : (s.entityTypes.find? fun u => u.name == t.name) = some t :=
    (find?_key_eq_some_iff hs.typeNames.of_append_left.of_append_left).mpr ⟨ht, rfl⟩
  have hmember : (t.navigationProperties.find? fun m => m.name == n.name) = some n :=
    (find?_key_eq_some_iff (hs.entityMembers t ht).of_append_right).mpr ⟨hn.mem, rfl⟩
  unfold inverse?
  rw [htype, Option.bind_eq_bind, Option.bind_some, hmember, Option.bind_eq_bind, Option.bind_some,
    resolveAssociation_eq_ok_iff.mp hn.association, hn.toRole]
  rfl

/-- Where the type at an end declares one property that leads to the other end, the look-up finds
    it. -/
theorem inverseNavigation_of_unique (hs : s.WellFormed) (ha : a ∈ s.associations)
    (hends : a.ends = [x, y] ∨ a.ends = [y, x])
    (ht : s.resolveEntityType x.typeName a.name = .ok t)
    (hn : ∀ k, s.Leads t k a x y ↔ k = n) :
    s.inverseNavigation a x.role = .ok (some ⟨t.name, n.name⟩) := by
  -- the property that leads there is found, and it is the only one
  have hfind : (t.navigationProperties.find? fun k => s.follows k a.name x.role y.role) =
      some n := by
    cases h : t.navigationProperties.find? fun k => s.follows k a.name x.role y.role with
    | none =>
      obtain ⟨hmem, hfollows⟩ := (leads_iff_follows hs ha).mp ((hn n).mpr rfl)
      exact absurd hfollows (List.find?_eq_none.mp h n hmem)
    | some k =>
      obtain ⟨_, _, -, hk, -⟩ := (find?_follows_eq_some_iff hs ha).mp h
      rw [(hn k).mp hk]
  rw [inverseNavigation_eq_find? (hs.roles a ha) hends ht, hfind]
  rfl

/-- The look-up from an end succeeds, and finds a property exactly where the type at the end
    declares one that leads to the other end; it is the first one declared.  Where each of the types
    declares one property that leads to the other end, each of the two is the inverse of the
    other. -/
theorem inverses_are_first_and_reciprocal {source : String} {u : EntityType}
    (hparse : Model.parse source = .ok s) (ha : a ∈ s.associations)
    (hends : a.ends = [x, y] ∨ a.ends = [y, x])
    (ht : s.resolveEntityType x.typeName a.name = .ok t)
    (hu : s.resolveEntityType y.typeName a.name = .ok u) :
    (∃ found, s.inverseNavigation a y.role = .ok found ∧
      (found.isSome = true ↔ ∃ m, s.Leads u m a y x) ∧
      ∀ i, found = some i ↔ ∃ before m after,
        u.navigationProperties = before ++ m :: after ∧ s.Leads u m a y x ∧
          (∀ k ∈ before, ¬ s.Leads u k a y x) ∧ i = ⟨u.name, m.name⟩) ∧
    ∀ n m, (∀ k, s.Leads t k a x y ↔ k = n) → (∀ k, s.Leads u k a y x ↔ k = m) →
      s.inverse? ⟨t.name, n.name⟩ = some ⟨u.name, m.name⟩ ∧
        s.inverse? ⟨u.name, m.name⟩ = some ⟨t.name, n.name⟩ := by
  have hs : s.WellFormed := wellFormed_of_parse hparse
  refine ⟨⟨_, inverseNavigation_eq_find? (hs.roles a ha) hends.symm hu, ?_, fun i => ?_⟩,
    fun n m hn hm => ?_⟩
  -- the look-up is a search among the properties of the type
  · rw [Option.isSome_map, List.find?_isSome]
    exact exists_congr fun k => (leads_iff_follows hs ha).symm
  · rw [Option.map_eq_some_iff]
    constructor
    · rintro ⟨m, hm, rfl⟩
      obtain ⟨before, after, hsplit, hlead, hbefore⟩ := (find?_follows_eq_some_iff hs ha).mp hm
      exact ⟨before, m, after, hsplit, hlead, hbefore, rfl⟩
    · rintro ⟨before, m, after, hsplit, hlead, hbefore, rfl⟩
      exact ⟨m, (find?_follows_eq_some_iff hs ha).mpr ⟨before, after, hsplit, hlead, hbefore⟩, rfl⟩
  -- each look-up finds the only property that leads back
  · have htmem : t ∈ s.entityTypes := mem_of_findType? (resolveEntityType_eq_ok_iff.mp ht)
    have humem : u ∈ s.entityTypes := mem_of_findType? (resolveEntityType_eq_ok_iff.mp hu)
    rw [inverse?_eq_inverseNavigation hs htmem ((hn n).mpr rfl),
      inverse?_eq_inverseNavigation hs humem ((hm m).mpr rfl),
      inverseNavigation_of_unique hs ha hends ht hn,
      inverseNavigation_of_unique hs ha hends.symm hu hm]
    exact ⟨rfl, rfl⟩

end Schema

/-! ### An association of a type with itself -/

/-- A document in which both ends of an association are of one type, and the association is spelled
    in two ways. -/
def reportingDocument : String :=
  "<Schema Namespace='Staff' Alias='Self'>
    <EntityType Name='Employee'>
      <NavigationProperty Name='Manager' Relationship='Staff.Reporting' FromRole='report'
        ToRole='manager'/>
      <NavigationProperty Name='Reports' Relationship='Self.Reporting' FromRole='manager'
        ToRole='report'/>
    </EntityType>
    <Association Name='Reporting'>
      <End Role='manager' Type='Employee' Multiplicity='0..1'/>
      <End Role='report' Type='Self.Employee' Multiplicity='*'/>
    </Association>
  </Schema>"

/-- Its navigation property from the report to the manager. -/
def managerProperty : NavigationProperty :=
  { name := "Manager"
    relationship := "Staff.Reporting"
    fromRole := "report"
    toRole := "manager" }

/-- Its navigation property from the manager to the reports. -/
def reportsProperty : NavigationProperty :=
  { name := "Reports"
    relationship := "Self.Reporting"
    fromRole := "manager"
    toRole := "report" }

/-- Its type. -/
def employeeType : EntityType :=
  { name := "Employee", navigationProperties := [managerProperty, reportsProperty] }

/-- Its association. -/
def reporting : Association :=
  { name := "Reporting"
    first := ⟨"manager", "Employee", .zeroOrOne⟩
    second := ⟨"report", "Self.Employee", .many⟩ }

/-- Its schema. -/
def reportingSchema : Schema :=
  { name := "Staff"
    aliasName := some "Self"
    entityTypes := [employeeType]
    associations := [reporting] }

set_option maxRecDepth 4000 in
theorem parse_reportingDocument : Model.parse reportingDocument = .ok reportingSchema :=
  Model.parse_eq_ok_of_chars String.toList_ofList (by decide +kernel)

/-- Only the first property leads to the manager. -/
private theorem leads_to_manager_iff (k : NavigationProperty) :
    reportingSchema.Leads employeeType k reporting reporting.second reporting.first ↔
      k = managerProperty := by
  constructor
  · rintro ⟨hmem, hfrom, -, -⟩
    rcases List.mem_pair.mp hmem with rfl | rfl
    · rfl
    · exact absurd hfrom (by decide)
  · rintro rfl
    exact ⟨List.mem_cons_self, rfl, rfl,
      Schema.resolveAssociation_eq_ok_iff.mpr (by decide)⟩

/-- Only the second property leads to the reports. -/
private theorem leads_to_reports_iff (k : NavigationProperty) :
    reportingSchema.Leads employeeType k reporting reporting.first reporting.second ↔
      k = reportsProperty := by
  constructor
  · rintro ⟨hmem, hfrom, -, -⟩
    rcases List.mem_pair.mp hmem with rfl | rfl
    · exact absurd hfrom (by decide)
    · rfl
  · rintro rfl
    exact ⟨List.mem_cons_of_mem _ List.mem_cons_self, rfl, rfl,
      Schema.resolveAssociation_eq_ok_iff.mpr (by decide)⟩

/-- The two properties of the type are inverses of each other. -/
theorem manager_and_reports_are_inverses :
    reportingSchema.inverse? ⟨"Employee", "Manager"⟩ = some ⟨"Employee", "Reports"⟩ ∧
      reportingSchema.inverse? ⟨"Employee", "Reports"⟩ = some ⟨"Employee", "Manager"⟩ ∧
      ∃ found, reportingSchema.inverseNavigation reporting "report" = .ok found ∧
        found.isSome = true := by
  obtain ⟨⟨found, hfound, hsome, -⟩, hinverse⟩ :=
    Schema.inverses_are_first_and_reciprocal (t := employeeType) (u := employeeType)
      parse_reportingDocument List.mem_cons_self (.inl rfl)
      (Schema.resolveEntityType_eq_ok_iff.mpr (by decide +kernel))
      (Schema.resolveEntityType_eq_ok_iff.mpr (by decide +kernel))
  obtain ⟨hreports, hmanager⟩ :=
    hinverse reportsProperty managerProperty leads_to_reports_iff leads_to_manager_iff
  exact ⟨hmanager, hreports, found, hfound,
    hsome.mpr ⟨managerProperty, (leads_to_manager_iff _).mpr rfl⟩⟩

end EntityModel
