import EntityModel.Proofs.References
import EntityModel.Proofs.WellFormed
import EntityModel.Proofs.WrittenProperties

/-!
# The way back along an association

The inverse of a navigation property is looked for from the far end of its association: it is the
first navigation property of the type there that follows the association back.  Which property asked
is not looked at, so an inverse leads back to it only where the same look-up from the near end finds
it: the property has to belong to the type of the near end and to be the first of its kind there.

* `inverseNavigation_eq_some_iff`      what the look-up from the far end finds
* `inverseNavigation_opposite_iff`     what the look-up from the near end finds
* `inverse_leads_back_iff_first`       when annotations come in pairs
-/

namespace EntityModel

/-! ### Ends across from each other -/

namespace Association

variable {a : Association} {role : String} {x y : AssociationEnd}

/-- Where roles differ, an end is across from the one that is across from it. -/
private theorem oppositeEnd_comm (hroles : a.first.role ≠ a.second.role)
    (hx : a.findEnd role = .ok x) (hy : a.oppositeEnd role = .ok y) :
    x.role = role ∧ a.findEnd y.role = .ok y ∧ a.oppositeEnd y.role = .ok x := by
  have hfind := findEnd_eq_ok_iff.mp hx
  unfold oppositeEnd at hy
  -- the role is that of one of the two ends, and the other one is across
  by_cases hfirst : a.first.role = role
  · rw [if_pos hfirst] at hy
    obtain rfl := Except.ok.inj hy
    obtain rfl : a.first = x := by simpa [ends, hfirst] using hfind
    refine ⟨hfirst, findEnd_eq_ok_iff.mpr ?_, ?_⟩
    · simp [ends, hroles]
    · unfold oppositeEnd
      rw [if_neg hroles, if_pos rfl]
  · rw [if_neg hfirst] at hy
    by_cases hsecond : a.second.role = role
    · rw [if_pos hsecond] at hy
      obtain rfl := Except.ok.inj hy
      obtain rfl : a.second = x := by simpa [ends, hfirst, hsecond] using hfind
      refine ⟨hsecond, findEnd_eq_ok_iff.mpr ?_, ?_⟩
      · simp [ends]
      · unfold oppositeEnd
        rw [if_pos rfl]
    · rw [if_neg hsecond] at hy
      cases hy

end Association

/-! ### The look-up -/

namespace Schema

variable {s : Schema}

/-- A navigation property follows an association by its two roles and by its name. -/
theorem follows_iff {n : NavigationProperty} {association fromRole toRole : String} :
    s.follows n association fromRole toRole = true ↔
      n.fromRole = fromRole ∧ n.toRole = toRole ∧ s.localName n.relationship = association := by
  simp [follows, and_assoc]

/-- What is found is the first navigation property of the type at the far end that follows the
    association back. -/
theorem inverseNavigation_eq_some_iff {a : Association} {role : String} {i : NavigationReference} :
    s.inverseNavigation a role = .ok (some i) ↔
      ∃ x y t m, a.findEnd role = .ok x ∧ a.oppositeEnd role = .ok y ∧
        s.findType? (s.localName x.typeName) = some (.entity t) ∧
        (t.navigationProperties.find? fun n => s.follows n a.name role y.role) = some m ∧
        i = ⟨t.name, m.name⟩ := by
  unfold inverseNavigation
  constructor
  -- the look-up goes to the far end, to the one across and to the type there
  · intro h
    obtain ⟨x, hx, h⟩ := bind_eq_ok_iff.mp h
    obtain ⟨y, hy, h⟩ := bind_eq_ok_iff.mp h
    obtain ⟨t, ht, h⟩ := bind_eq_ok_iff.mp h
    obtain ⟨m, hm, rfl⟩ := Option.map_eq_some_iff.mp (Except.ok.inj h)
    exact ⟨x, y, t, m, hx, hy, resolveEntityType_eq_ok_iff.mp ht, hm, rfl⟩
  · rintro ⟨x, y, t, m, hx, hy, ht, hm, rfl⟩
    refine bind_eq_ok_iff.mpr ⟨x, hx, bind_eq_ok_iff.mpr ⟨y, hy, bind_eq_ok_iff.mpr
      ⟨t, resolveEntityType_eq_ok_iff.mpr ht, ?_⟩⟩⟩
    rw [hm]
    rfl

/-- Looked up from the near end, it is the first one of the type there that follows the association
    in the direction of the far end. -/
theorem inverseNavigation_opposite_iff {a : Association} {role : String} {x y : AssociationEnd}
    {i : NavigationReference} (hroles : a.first.role ≠ a.second.role)
    (hx : a.findEnd role = .ok x) (hy : a.oppositeEnd role = .ok y) :
    s.inverseNavigation a y.role = .ok (some i) ↔
      ∃ t n, s.findType? (s.localName y.typeName) = some (.entity t) ∧
        (t.navigationProperties.find? fun k => s.follows k a.name y.role role) = some n ∧
        i = ⟨t.name, n.name⟩ := by
  obtain ⟨hrole, hyend, hopposite⟩ := Association.oppositeEnd_comm hroles hx hy
  rw [inverseNavigation_eq_some_iff]
  constructor
  -- from the near end the two ends change places
  · rintro ⟨y', x', t, n, hy', hx', ht, hn, rfl⟩
    obtain rfl := Except.ok.inj (hyend.symm.trans hy')
    obtain rfl := Except.ok.inj (hopposite.symm.trans hx')
    rw [hrole] at hn
    exact ⟨t, n, ht, hn, rfl⟩
  · rintro ⟨t, n, ht, hn, rfl⟩
    refine ⟨y, x, t, n, hyend, hopposite, ht, ?_, rfl⟩
    rw [hrole]
    exact hn

end Schema

/-! ### Names of members -/

/-- The expression for the name of a member tells the names of its type and of itself, since neither
    has a dot in it. -/
private theorem nameOf_member_inj {type member type' member' : String}
    (htype : Text.isIdentifier type = true) (hmember : Text.isIdentifier member = true) :
    CSharp.nameOf (type ++ "." ++ member) = CSharp.nameOf (type' ++ "." ++ member') ↔
      type = type' ∧ member = member' := by
  -- the expression has the same letters around the two names in every case
  have hchars : CSharp.nameOf (type ++ "." ++ member) = CSharp.nameOf (type' ++ "." ++ member') ↔
      type.toList ++ '.' :: member.toList = type'.toList ++ '.' :: member'.toList := by
    unfold CSharp.nameOf
    rw [← String.toList_inj]
    simp only [String.toList_append]
    rw [List.append_left_inj, List.append_right_inj]
    simp
  -- no identifier has a dot in it, so the first dot stands between the two names
  have hdot : Text.continuesName '.' = false := Text.continuesName_of_separator (by simp)
  rw [hchars, List.append_cons_inj_of_notMem (Text.not_mem_of_isIdentifier htype hdot)
      (Text.not_mem_of_isIdentifier hmember hdot),
    String.toList_inj, String.toList_inj, and_iff_right rfl]

/-- The names of an entity type and of its members are identifiers. -/
private theorem Schema.WellFormed.entityIdentifiers {s : Schema} (hs : s.WellFormed)
    {t : EntityType} (ht : t ∈ s.entityTypes) :
    Text.isIdentifier t.name = true ∧
      ∀ n ∈ t.navigationProperties, Text.isIdentifier n.name = true := by
  have hdeclared : ∀ name ∈ t.name ::
      (t.properties.map (·.name) ++ t.navigationProperties.map (·.name)),
      name ∈ s.declaredNames := by
    intro name hname
    unfold declaredNames
    simp only [List.mem_append]
    exact .inl (.inl (.inr (List.mem_flatMap.mpr ⟨t, ht, hname⟩)))
  refine ⟨hs.identifiers _ (hdeclared _ List.mem_cons_self), fun n hn => ?_⟩
  have hmem : n.name ∈ t.navigationProperties.map (·.name) := List.mem_map_of_mem hn
  exact hs.identifiers _
    (hdeclared _ (List.mem_cons_of_mem _ (List.mem_append_right _ hmem)))

/-! ### Annotations -/

namespace Generation

variable {settings : Settings} {s : Schema} {files : List GeneratedFile} {t : EntityType}
  {n : NavigationProperty}

/-- A navigation property is annotated with what the look-up from its far end finds. -/
theorem carries_inverse_iff (hs : s.WellFormed) (hfiles : (generate settings s).outcome = .ok files)
    (ht : t ∈ s.entityTypes) (hn : n ∈ t.navigationProperties) {arguments : List String} :
    Carries settings s t n.name "InverseProperty" arguments ↔
      ∃ a i, s.findAssociation? (s.localName n.relationship) = some a ∧
        s.inverseNavigation a n.toRole = .ok (some i) ∧
        arguments = [CSharp.nameOf (i.owner ++ "." ++ i.property)] := by
  -- the property resolves, or there would be no files
  obtain ⟨steps, hsteps⟩ := exists_body hfiles ht
  obtain ⟨target, htarget, hcarries⟩ := carries_navigation_iff hsteps (hs.entityMembers t ht) hn
  obtain ⟨ha, -, hinverse⟩ := resolveNavigation_eq_ok htarget
  rw [hcarries, mem_navigationAttributes_iff, ha]
  simp [hinverse]

/-- The inverse that a navigation property is annotated with belongs to the type at the far end and
    follows the same association back.  It is itself annotated with the property that it is the
    inverse of exactly where that is the first one of the type at the near end that follows the
    association in its direction. -/
theorem inverse_leads_back_iff_first {source : String} (hparse : Model.parse source = .ok s)
    (hfiles : (generate settings s).outcome = .ok files) (ht : t ∈ s.entityTypes)
    (hn : n ∈ t.navigationProperties) {arguments : List String}
    (h : Carries settings s t n.name "InverseProperty" arguments) :
    ∃ a x y u m, s.findAssociation? (s.localName n.relationship) = some a ∧
      a.findEnd n.toRole = .ok x ∧ a.oppositeEnd n.toRole = .ok y ∧
      s.findType? (s.localName x.typeName) = some (.entity u) ∧ u ∈ s.entityTypes ∧
      m ∈ u.navigationProperties ∧ s.follows m a.name n.toRole y.role = true ∧
      arguments = [CSharp.nameOf (u.name ++ "." ++ m.name)] ∧
      (Carries settings s u m.name "InverseProperty"
          [CSharp.nameOf (t.name ++ "." ++ n.name)] ↔
        s.findType? (s.localName y.typeName) = some (.entity t) ∧
          (t.navigationProperties.find? fun k => s.follows k a.name y.role n.toRole) = some n) := by
  have hs : s.WellFormed := wellFormed_of_parse hparse
  obtain ⟨a, i, ha, hi, rfl⟩ := (carries_inverse_iff hs hfiles ht hn).mp h
  obtain ⟨x, y, u, m, hx, hy, hu, hm, rfl⟩ := Schema.inverseNavigation_eq_some_iff.mp hi
  have hmem : u ∈ s.entityTypes := Schema.mem_of_findType? hu
  have hmmem : m ∈ u.navigationProperties := List.mem_of_find?_eq_some hm
  have hfollows : s.follows m a.name n.toRole y.role = true := by
    simpa using List.find?_some hm
  -- the property found follows the same association
  obtain ⟨-, hto, hrelationship⟩ := Schema.follows_iff.mp hfollows
  have hname : a.name = s.localName n.relationship := by simpa using List.find?_some ha
  have hsame : s.findAssociation? (s.localName m.relationship) = some a := by
    rw [hrelationship, hname]
    exact ha
  have hroles : a.first.role ≠ a.second.role := hs.roles a (List.mem_of_find?_eq_some ha)
  refine ⟨a, x, y, u, m, ha, hx, hy, hu, hmem, hmmem, hfollows, rfl, ?_⟩
  rw [carries_inverse_iff hs hfiles hmem hmmem, hsame, hto]
  -- both annotations are that of one look-up, made from opposite ends
  constructor
  · rintro ⟨b, j, hb, hj, hback⟩
    obtain rfl := Option.some.inj hb
    obtain ⟨t', n', ht', hn', rfl⟩ := (Schema.inverseNavigation_opposite_iff hroles hx hy).mp hj
    -- one name leads to one type and to one of its members
    obtain ⟨htype, hmembers⟩ := hs.entityIdentifiers ht
    obtain ⟨htname, hnname⟩ :=
      (nameOf_member_inj htype (hmembers n hn)).mp (List.singleton_inj.mp hback)
    obtain rfl : t = t' := Schema.eq_of_name_eq hs.typeNames.of_append_left.of_append_left ht
      (Schema.mem_of_findType? ht') htname
    obtain rfl : n = n' := List.inj_on_of_nodup_map (hs.entityMembers t ht).of_append_right hn
      (List.mem_of_find?_eq_some hn') hnname
    exact ⟨ht', hn'⟩
  -- the first property of the near type is what the look-up from the near end finds
  · rintro ⟨htype, hfirst⟩
    exact ⟨a, ⟨t.name, n.name⟩, rfl, (Schema.inverseNavigation_opposite_iff hroles hx hy).mpr
      ⟨t, n, htype, hfirst, rfl⟩, rfl⟩

/-! ### Two properties with one inverse -/

/-- A document in which two navigation properties of one type follow an association. -/
def ordersDocument : String :=
  "<Schema Namespace='Sales'>
    <EntityType Name='Order'>
      <NavigationProperty Name='BillTo' Relationship='Buys' FromRole='order' ToRole='customer'/>
      <NavigationProperty Name='ShipTo' Relationship='Buys' FromRole='order' ToRole='customer'/>
    </EntityType>
    <EntityType Name='Customer'>
      <NavigationProperty Name='Order' Relationship='Buys' FromRole='customer' ToRole='order'/>
    </EntityType>
    <Association Name='Buys'>
      <End Role='order' Type='Order' Multiplicity='1'/>
      <End Role='customer' Type='Customer' Multiplicity='1'/>
    </Association>
  </Schema>"

/-- Its first type. -/
def orderType : EntityType :=
  { name := "Order"
    navigationProperties :=
      [{ name := "BillTo", relationship := "Buys", fromRole := "order", toRole := "customer" },
        { name := "ShipTo", relationship := "Buys", fromRole := "order", toRole := "customer" }] }

/-- Its second type. -/
def customerType : EntityType :=
  { name := "Customer"
    navigationProperties :=
      [{ name := "Order", relationship := "Buys", fromRole := "customer", toRole := "order" }] }

/-- Its association. -/
def buysAssociation : Association :=
  { name := "Buys"
    first := ⟨"order", "Order", .one⟩
    second := ⟨"customer", "Customer", .one⟩ }

/-- Its schema. -/
def ordersSchema : Schema :=
  { name := "Sales"
    entityTypes := [orderType, customerType]
    associations := [buysAssociation] }

set_option maxRecDepth 4000 in
theorem parse_ordersDocument : Model.parse ordersDocument = .ok ordersSchema :=
  Model.parse_eq_ok_of_chars String.toList_ofList (by decide +kernel)

private theorem exists_ordersFiles : ∃ files, (generate {} ordersSchema).outcome = .ok files :=
  failure?_eq_none_iff.mp (by decide)

/-- Of two properties with one inverse, it does not lead back to the second. -/
theorem second_of_two_properties_is_not_led_back_to :
    Carries {} ordersSchema orderType "ShipTo" "InverseProperty" ["nameof(Customer.Order)"] ∧
      ∃ u ∈ ordersSchema.entityTypes, ∃ m ∈ u.navigationProperties,
        ["nameof(Customer.Order)"] = [CSharp.nameOf (u.name ++ "." ++ m.name)] ∧
        ordersSchema.follows m "Buys" "customer" "order" = true ∧
        ¬ Carries {} ordersSchema u m.name "InverseProperty" ["nameof(Order.ShipTo)"] := by
  have h : Carries {} ordersSchema orderType "ShipTo" "InverseProperty"
      ["nameof(Customer.Order)"] := by
    decide +kernel
  obtain ⟨files, hfiles⟩ := exists_ordersFiles
  obtain ⟨a, x, y, u, m, ha, -, hy, -, hu, hm, hfollows, hname, hback⟩ :=
    inverse_leads_back_iff_first parse_ordersDocument hfiles List.mem_cons_self
      (List.mem_cons_of_mem _ List.mem_cons_self) h
  obtain rfl : a = buysAssociation := by
    rw [← Option.some_inj, ← ha]
    decide +kernel
  obtain rfl : y = buysAssociation.first := (Except.ok.inj hy).symm
  refine ⟨h, u, hu, m, hm, hname, hfollows, fun hcarries => ?_⟩
  exact absurd (hback.mp hcarries) (by decide +kernel)

/-- An annotation need not come in a pair: the inverse of the second property leads back to the
    first one. -/
theorem inverse_may_lead_back_elsewhere :
    ¬ ∀ (settings : Settings) (source : String) (s : Schema) (files : List GeneratedFile),
      Model.parse source = .ok s → (generate settings s).outcome = .ok files →
        ∀ t ∈ s.entityTypes, ∀ n ∈ t.navigationProperties, ∀ type member,
          Carries settings s t n.name "InverseProperty"
              [CSharp.nameOf (type ++ "." ++ member)] →
            ∃ u ∈ s.entityTypes, ∃ m ∈ u.navigationProperties, u.name = type ∧
              m.name = member ∧ Carries settings s u m.name "InverseProperty"
                [CSharp.nameOf (t.name ++ "." ++ n.name)] := by
  intro h
  obtain ⟨files, hfiles⟩ := exists_ordersFiles
  have hpair := h {} ordersDocument ordersSchema files parse_ordersDocument hfiles orderType
    List.mem_cons_self _ (List.mem_cons_of_mem _ List.mem_cons_self) "Customer" "Order"
    (by decide +kernel)
  exact absurd hpair (by decide +kernel)

end Generation

end EntityModel
