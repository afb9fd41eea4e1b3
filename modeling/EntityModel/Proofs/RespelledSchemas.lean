import EntityModel.Proofs.Reciprocity
import EntityModel.Proofs.Respelling

/-!
# One schema in several spellings

The rules of a schema hold in every spelling of its references, since base types are followed by
their local names.  So a document may spell its references as it likes: each declaration is found
behind the namespace and behind the alias, and the same files are generated.  The one exception is
an alias that begins with the namespace and a dot, behind which nothing is found.

* `wellFormed_of_respelled`          the rules of a schema do not depend on spellings
* `spellings_are_interchangeable`    spellings lead to one declaration and to the same files
-/

namespace EntityModel

/-! ### The rules of a schema -/

section

variable {s s' : Schema} {t' t b' b : EntityType}

/-- An entity type has the same name in other spellings. -/
theorem EntityType.Respelled.name_eq (h : t'.Respelled s t) : t'.name = t.name := by
  cases h
  rfl

/-- An entity type has a base type of the same name in other spellings. -/
private theorem EntityType.Respelled.baseName?_eq (hs : s.WellFormed) (h : s'.Respelled s)
    (ht : t'.Respelled s t) : s'.baseName? t' = s.baseName? t := by
  cases ht with
  | mk _ base navigations hbase _ =>
    unfold Schema.baseName?
    rw [h.localName_eq]
    exact rel_eq (rel_map hbase fun _ _ hr => hr.localName_eq hs)

/-- The entity types are the same, but for spellings. -/
private theorem Schema.Respelled.forall₂_entityTypes (h : s'.Respelled s) :
    List.Forall₂ (EntityType.Respelled s) s'.entityTypes s.entityTypes := by
  cases h
  assumption

/-- A base type in one schema is one in the other. -/
theorem isBase_of_respelled (hs : s.WellFormed) (h : s'.Respelled s) (ht : t'.Respelled s t)
    (hb : s'.IsBase t' b') : ∃ b, s.IsBase t b ∧ b'.Respelled s b := by
  -- the base type is in the list, and its name is the one that was asked for
  obtain ⟨b, hmem, hbb⟩ := exists_of_mem_forall₂ h.forall₂_entityTypes hb.1
  refine ⟨b, ⟨hmem, ?_⟩, hbb⟩
  rw [← ht.baseName?_eq hs h, hb.2, hbb.name_eq]

/-- A base type in the schema is one in other spellings. -/
private theorem respelled_isBase (hs : s.WellFormed) (h : s'.Respelled s) (ht : t'.Respelled s t)
    (hb : s.IsBase t b) : ∃ b', s'.IsBase t' b' ∧ b'.Respelled s b := by
  obtain ⟨b', hmem, hbb⟩ := exists_of_mem_forall₂ h.forall₂_entityTypes.flip hb.1
  refine ⟨b', ⟨hmem, ?_⟩, hbb⟩
  rw [ht.baseName?_eq hs h, hb.2, EntityType.Respelled.name_eq hbb]

/-- An ancestor in the schema is one in other spellings. -/
private theorem respelled_inherits (hs : s.WellFormed) (h : s'.Respelled s) (ht : t'.Respelled s t)
    (hb : s.Inherits t b) : ∃ b', s'.Inherits t' b' ∧ b'.Respelled s b := by
  -- step by step towards the ancestor
  induction hb with
  | refl => exact ⟨t', .refl, ht⟩
  | tail _ hstep ih =>
    obtain ⟨u', hu, huu⟩ := ih
    obtain ⟨b', hb, hbb⟩ := respelled_isBase hs h huu hstep
    exact ⟨b', hu.tail hb, hbb⟩

/-- A proper ancestor in other spellings is one in the schema. -/
private theorem transGen_of_respelled (hs : s.WellFormed) (h : s'.Respelled s)
    (ht : t'.Respelled s t) (hb : Relation.TransGen s'.IsBase t' b') :
    ∃ b, Relation.TransGen s.IsBase t b ∧ b'.Respelled s b := by
  induction hb with
  | single hstep =>
    obtain ⟨b, hb, hbb⟩ := isBase_of_respelled hs h ht hstep
    exact ⟨b, .single hb, hbb⟩
  | tail _ hstep ih =>
    obtain ⟨u, hu, huu⟩ := ih
    obtain ⟨b, hb, hbb⟩ := isBase_of_respelled hs h huu hstep
    exact ⟨b, hu.tail hb, hbb⟩

/-- The members of an entity type bear the same names in other spellings. -/
theorem memberNames_of_respelled (ht : t'.Respelled s t) :
    t'.properties.map (·.name) ++ t'.navigationProperties.map (·.name) =
      t.properties.map (·.name) ++ t.navigationProperties.map (·.name) := by
  cases ht with
  | mk _ base navigations _ hnavigations =>
    have hnames : navigations.map (·.name) = t.navigationProperties.map (·.name) :=
      map_eq_map_of_forall₂ hnavigations fun _ _ h => by cases h; rfl
    dsimp only
    rw [hnames]

/-- The schema declares the same names in other spellings. -/
private theorem declaredNames_of_respelled (h : s'.Respelled s) :
    s'.declaredNames = s.declaredNames := by
  cases h with
  -- the names of the three kinds of declarations that refer to others, each by itself
  | mk _ entityTypes associations containers ht ha hc =>
    have hentities : (entityTypes.flatMap fun t =>
        t.name :: (t.properties.map (·.name) ++ t.navigationProperties.map (·.name))) =
        s.entityTypes.flatMap fun t =>
          t.name :: (t.properties.map (·.name) ++ t.navigationProperties.map (·.name)) :=
      flatMap_eq_flatMap_of_forall₂ ht fun _ _ h => by
        rw [h.name_eq, memberNames_of_respelled h]
    have hassociations : (associations.flatMap fun a => a.name :: a.ends.map (·.role)) =
        s.associations.flatMap fun a => a.name :: a.ends.map (·.role) :=
      flatMap_eq_flatMap_of_forall₂ ha fun a' a h => by
        cases h with
        | mk _ x y hx hy =>
          cases hx
          cases hy
          rfl
    have hcontainers : (containers.flatMap fun c => c.name :: c.entitySets.map (·.name)) =
        s.entityContainers.flatMap fun c => c.name :: c.entitySets.map (·.name) :=
      flatMap_eq_flatMap_of_forall₂ hc fun c' c h => by
        cases h with
        | mk _ sets hsets =>
          have hnames : sets.map (·.name) = c.entitySets.map (·.name) :=
            map_eq_map_of_forall₂ hsets fun _ _ h => by cases h; rfl
          dsimp only
          rw [hnames]
    unfold Schema.declaredNames
    dsimp only
    rw [hentities, hassociations, hcontainers]

/-- The associations are the same, but for spellings. -/
private theorem Schema.Respelled.forall₂_associations (h : s'.Respelled s) :
    List.Forall₂ (Association.Respelled s) s'.associations s.associations := by
  cases h
  assumption

/-- The entity containers are the same, but for spellings. -/
private theorem Schema.Respelled.forall₂_entityContainers (h : s'.Respelled s) :
    List.Forall₂ (EntityContainer.Respelled s) s'.entityContainers s.entityContainers := by
  cases h
  assumption

/-- An association has the same roles and the same constraint in other spellings. -/
theorem roles_of_respelled {a' a : Association} (h : a'.Respelled s a) :
    a'.first.role = a.first.role ∧ a'.second.role = a.second.role ∧
      a'.constraint = a.constraint := by
  cases h with
  | mk _ x y hx hy =>
    cases hx
    cases hy
    exact ⟨rfl, rfl, rfl⟩

/-- A schema keeps its rules in other spellings. -/
theorem wellFormed_of_respelled (hs : s.WellFormed) (h : s'.Respelled s) : s'.WellFormed := by
  -- the names of all declarations, and each declaration with the one that it is in other spellings
  have hentityNames : s'.entityNames = s.entityNames :=
    map_eq_map_of_forall₂ h.forall₂_entityTypes fun _ _ ht => ht.name_eq
  have hassociationNames : s'.associations.map (·.name) = s.associations.map (·.name) :=
    map_eq_map_of_forall₂ h.forall₂_associations fun _ _ ha => by cases ha; rfl
  have hcontainerNames : s'.entityContainers.map (·.name) = s.entityContainers.map (·.name) :=
    map_eq_map_of_forall₂ h.forall₂_entityContainers fun _ _ hc => by cases hc; rfl
  have hentity : ∀ t' ∈ s'.entityTypes, ∃ t ∈ s.entityTypes, t'.Respelled s t :=
    fun _ ht' => exists_of_mem_forall₂ h.forall₂_entityTypes ht'
  have hassociation : ∀ a' ∈ s'.associations, ∃ a ∈ s.associations, a'.Respelled s a :=
    fun _ ha' => exists_of_mem_forall₂ h.forall₂_associations ha'
  have hothers : s'.complexTypes = s.complexTypes ∧ s'.enumTypes = s.enumTypes := by
    cases h
    exact ⟨rfl, rfl⟩
  refine {
    typeNames := ?_
    associationNames := ?_
    containerNames := ?_
    entityMembers := fun t' ht' => ?_
    complexMembers := hothers.1 ▸ hs.complexMembers
    enumMembers := hothers.2 ▸ hs.enumMembers
    roles := fun a' ha' => ?_
    constraintRoles := fun a' ha' c hc half hhalf => ?_
    keys := fun t' ht' k hk => ?_
    acyclic := fun t' ht' hcycle => ?_
    identifiers := declaredNames_of_respelled h ▸ hs.identifiers }
  · rw [hentityNames, hothers.1, hothers.2]
    exact hs.typeNames
  · rw [hassociationNames]
    exact hs.associationNames
  · rw [hcontainerNames]
    exact hs.containerNames
  · obtain ⟨t, ht, htt⟩ := hentity t' ht'
    rw [memberNames_of_respelled htt]
    exact hs.entityMembers t ht
  · obtain ⟨a, ha, haa⟩ := hassociation a' ha'
    obtain ⟨hfirst, hsecond, -⟩ := roles_of_respelled haa
    rw [hfirst, hsecond]
    exact hs.roles a ha
  · obtain ⟨a, ha, haa⟩ := hassociation a' ha'
    obtain ⟨hfirst, hsecond, hconstraint⟩ := roles_of_respelled haa
    rw [hconstraint] at hc
    obtain ⟨x, hx, hrole⟩ := hs.constraintRoles a ha c hc half hhalf
    -- the role is that of the first or of the second end
    rcases List.mem_pair.mp hx with rfl | rfl
    · exact ⟨a'.first, List.mem_cons_self, hfirst.trans hrole⟩
    · exact ⟨a'.second, List.mem_cons_of_mem _ List.mem_cons_self, hsecond.trans hrole⟩
  · obtain ⟨t, ht, htt⟩ := hentity t' ht'
    have hkey : t'.key = t.key := by cases htt; rfl
    -- the component is declared by an ancestor, and so it is by that ancestor in other spellings
    obtain ⟨b, hb, hdeclares⟩ := hs.keys t ht k (hkey ▸ hk)
    obtain ⟨b', hb', hbb⟩ := respelled_inherits hs h htt hb
    have hsame : b'.declares k = b.declares k := by cases hbb; rfl
    exact ⟨b', hb', hsame.trans hdeclares⟩
  · obtain ⟨t, ht, htt⟩ := hentity t' ht'
    obtain ⟨b, hb, hbb⟩ := transGen_of_respelled hs h htt hcycle
    -- both are the type in other spellings, so they are one
    have hmem : b ∈ s.entityTypes := by
      obtain ⟨_, -, hstep⟩ := Relation.TransGen.tail'_iff.mp hb
      exact hstep.1
    obtain rfl : b = t := Schema.eq_of_name_eq hs.typeNames.of_append_left.of_append_left hmem ht
      (hbb.name_eq.symm.trans htt.name_eq)
    exact hs.acyclic b ht hb

end

/-! ### Interchangeable spellings -/

open Generation in
/-- A declaration is found under its name, behind the namespace, and behind the alias exactly where
    that does not begin with the namespace and a dot.  A schema with references in other such
    spellings keeps its rules, and the same files are generated for it: where generation fails, it
    fails on the same reference. -/
theorem spellings_are_interchangeable {source : String} {s : Schema}
    (hparse : Model.parse source = .ok s) :
    (∀ t ∈ s.types, ∀ owner,
      s.resolveType t.name owner = .ok t ∧
        s.resolveType (s.name ++ "." ++ t.name) owner = .ok t ∧
        ∀ q ∈ s.aliasName,
          (¬ s.Hides q → s.resolveType (q ++ "." ++ t.name) owner = .ok t) ∧
            (s.Hides q → s.resolveType (q ++ "." ++ t.name) owner =
              .error ⟨.type, q ++ "." ++ t.name, owner⟩)) ∧
    (∀ a ∈ s.associations, ∀ owner,
      s.resolveAssociation a.name owner = .ok a ∧
        s.resolveAssociation (s.name ++ "." ++ a.name) owner = .ok a ∧
        ∀ q ∈ s.aliasName,
          (¬ s.Hides q → s.resolveAssociation (q ++ "." ++ a.name) owner = .ok a) ∧
            (s.Hides q → s.resolveAssociation (q ++ "." ++ a.name) owner =
              .error ⟨.association, q ++ "." ++ a.name, owner⟩)) ∧
    ∀ s', s'.Respelled s → s'.WellFormed ∧ ∀ settings,
      Agree (UnresolvedReference.Respelled s) Eq (generate settings s').outcome
        (generate settings s).outcome := by
  -- what is accepted is well formed, and all that follows is about such schemas
  have hs : s.WellFormed := wellFormed_of_parse hparse
  refine ⟨fun t ht owner => ?_, fun a ha owner => ?_, fun s' h =>
    ⟨wellFormed_of_respelled hs h, fun settings => agree_generate hs h⟩⟩
  · have hname := Schema.not_mem_dot_of_isIdentifier (hs.isIdentifier_type ht)
    refine ⟨Schema.resolveType_of_spelling hs ht .bare owner,
      Schema.resolveType_of_spelling hs ht .namespaced owner, fun q hq => ⟨fun hvisible => ?_,
      fun hhides => Schema.resolveType_of_hides hs hname hhides owner⟩⟩
    exact Schema.resolveType_of_spelling hs ht (.aliased hq hvisible) owner
  · have hname := Schema.not_mem_dot_of_isIdentifier (hs.isIdentifier_association ha)
    refine ⟨Schema.resolveAssociation_of_spelling hs ha .bare owner,
      Schema.resolveAssociation_of_spelling hs ha .namespaced owner, fun q hq =>
      ⟨fun hvisible => ?_, fun hhides => Schema.resolveAssociation_of_hides hs hname hhides owner⟩⟩
    exact Schema.resolveAssociation_of_spelling hs ha (.aliased hq hvisible) owner

/-- The schema of reports and managers with its references in other spellings. -/
def respelledReporting : Schema :=
  { reportingSchema with
    entityTypes :=
      [{ employeeType with
        navigationProperties :=
          [{ managerProperty with relationship := "Self.Reporting" },
            { reportsProperty with relationship := "Reporting" }] }]
    associations :=
      [{ reporting with
        first := ⟨"manager", "Staff.Employee", .zeroOrOne⟩
        second := ⟨"report", "Employee", .many⟩ }] }

/-- The alias does not begin with the namespace and a dot. -/
private theorem not_hides_self : ¬ reportingSchema.Hides "Self" := by
  rintro ⟨inner, h⟩
  have hhead := congrArg (fun q => q.toList[1]?) h
  simp [reportingSchema] at hhead

/-- The references are spelled otherwise, and nothing else is changed. -/
private theorem respelled_respelledReporting : respelledReporting.Respelled reportingSchema := by
  -- each reference is behind the alias, behind the namespace or bare
  have hreporting : ∀ {r' r}, reportingSchema.Spelling "Reporting" r' →
      reportingSchema.Spelling "Reporting" r → reportingSchema.Respells r' r :=
    fun h' h => .association (a := reporting) List.mem_cons_self h' h
  have hemployee : ∀ {r' r}, reportingSchema.Spelling "Employee" r' →
      reportingSchema.Spelling "Employee" r → reportingSchema.Respells r' r :=
    fun h' h => .type (t := .entity employeeType) List.mem_cons_self h' h
  have hself : ∀ name, reportingSchema.Spelling name ("Self" ++ "." ++ name) :=
    fun _ => .aliased rfl not_hides_self
  -- from the inside out: the properties, the ends, and then the schema
  have hmanager := NavigationProperty.Respelled.mk managerProperty "Self.Reporting"
    (hreporting (hself "Reporting") .namespaced)
  have hreports := NavigationProperty.Respelled.mk reportsProperty "Reporting"
    (hreporting .bare (hself "Reporting"))
  have hfirst := AssociationEnd.Respelled.mk reporting.first "Staff.Employee"
    (hemployee .namespaced .bare)
  have hsecond := AssociationEnd.Respelled.mk reporting.second "Employee"
    (hemployee .bare (hself "Employee"))
  exact .mk reportingSchema _ _ _
    (.cons (.mk employeeType none _ .none (.cons hmanager (.cons hreports .nil))) .nil)
    (.cons (.mk reporting _ _ hfirst hsecond) .nil) .nil

/-- The type is found behind the alias, and the other spellings give the same files. -/
theorem reporting_has_same_files_in_other_spellings :
    reportingSchema.resolveType "Self.Employee" "Reporting" = .ok (.entity employeeType) ∧
      ∃ files, (Generation.generate {} reportingSchema).outcome = .ok files ∧
        (Generation.generate {} respelledReporting).outcome = .ok files := by
  obtain ⟨htypes, -, hrespelled⟩ := spellings_are_interchangeable parse_reportingDocument
  obtain ⟨-, hagree⟩ := hrespelled _ respelled_respelledReporting
  -- the files of the schema itself are there, so those of the other have to agree
  obtain ⟨files, hfiles⟩ : ∃ files, (Generation.generate {} reportingSchema).outcome = .ok files :=
    failure?_eq_none_iff.mp (by decide +kernel)
  obtain ⟨-, -, halias⟩ := htypes (.entity employeeType) List.mem_cons_self "Reporting"
  refine ⟨(halias "Self" rfl).1 not_hides_self, files, hfiles, ?_⟩
  have h := hagree {}
  rw [hfiles] at h
  cases hsame : (Generation.generate {} respelledReporting).outcome with
  | ok files' =>
    rw [hsame] at h
    cases h with
    | ok h => rw [h]
  -- a failure does not agree with files
  | error u =>
    rw [hsame] at h
    cases h

/-! ### An alias behind the namespace -/

/-- A document whose alias begins with its namespace and a dot. -/
def hiddenAliasDocument : String :=
  "<Schema Namespace='Shop' Alias='Shop.Model'>
    <EntityType Name='Order'/>
    <EntityType Name='Invoice' BaseType='Shop.Model.Order'/>
  </Schema>"

/-- Its schema. -/
def hiddenAliasSchema : Schema :=
  { name := "Shop"
    aliasName := some "Shop.Model"
    entityTypes := [{ name := "Order" }, { name := "Invoice", baseType := "Shop.Model.Order" }] }

set_option maxRecDepth 4000 in
/-- The document is accepted. -/
private theorem parse_hiddenAliasDocument :
    Model.parse hiddenAliasDocument = .ok hiddenAliasSchema :=
  Model.parse_eq_ok_of_chars String.toList_ofList (by decide +kernel)

/-- A type need not be found behind the alias, and generation may fail for want of it. -/
theorem type_may_be_missing_behind_alias :
    ¬ ∀ (source : String) (s : Schema), Model.parse source = .ok s →
      ∀ t ∈ s.types, ∀ q ∈ s.aliasName, ∀ owner,
        s.resolveType (q ++ "." ++ t.name) owner = .ok t := by
  intro h
  have hfound := h hiddenAliasDocument hiddenAliasSchema parse_hiddenAliasDocument
    (.entity { name := "Order" }) List.mem_cons_self "Shop.Model" rfl "Invoice"
  -- what would be found is not there under the local name
  rw [Schema.resolveType_eq_ok_iff] at hfound
  exact absurd hfound (by decide +kernel)

end EntityModel
