import EntityModel.Proofs.WellFormed
import EntityModel.Proofs.WrittenProperties

/-!
# Foreign keys of navigation properties

The foreign key of a navigation property is the first property in the half of the referential
constraint for its near role.  It is written only where the property leads to one entity at most.
Halves are told apart by their role alone, so the property of the principal end has a foreign key as
well; and whether a type declares what a half lists is not looked at.  Where both halves are about
one role, the dependent one is never found.

* `foreignKey?_eq_some_iff`             which property of a constraint counts
* `foreign_key_follows_near_role`       when a navigation property has a foreign key, and which
* `halves_are_found_by_role`            which half is found for which role
-/

namespace EntityModel

/-- The half of a constraint that counts for a role: the principal one if it is about that role, and
    else the dependent one. -/
def ReferentialConstraint.halfFor (c : ReferentialConstraint) (role : String) : ConstraintHalf :=
  if c.principal.role = role then c.principal else c.dependent

/-- The foreign key for a role is the first property of the half for it. -/
theorem Association.foreignKey?_eq_some_iff {a : Association} {role property : String} :
    a.foreignKey? role = some property ↔
      ∃ c, a.constraint = some c ∧ (c.halfFor role).role = role ∧
        (c.halfFor role).properties.head? = some property := by
  unfold foreignKey? half?
  -- without a constraint there is no half
  cases a.constraint with
  | none => simp
  | some c =>
    simp only [Option.bind_some, Option.some.injEq, exists_eq_left']
    unfold ReferentialConstraint.halves ReferentialConstraint.halfFor
    -- the halves are looked at in this order, so a principal half hides the dependent one
    by_cases hprincipal : c.principal.role = role
    · simp [hprincipal]
    · by_cases hdependent : c.dependent.role = role <;> simp [hprincipal, hdependent]

namespace Generation

variable {settings : Settings} {s : Schema} {files : List GeneratedFile} {t : EntityType}
  {n : NavigationProperty}

/-- A navigation property has a foreign key exactly where it leads to one entity at most and the
    half of the constraint for its near role lists a property; it is the first one listed. -/
theorem foreign_key_follows_near_role {source : String} (hparse : Model.parse source = .ok s)
    (hfiles : (generate settings s).outcome = .ok files) (ht : t ∈ s.entityTypes)
    (hn : n ∈ t.navigationProperties) :
    ∃ a x, s.findAssociation? (s.localName n.relationship) = some a ∧
      a.findEnd n.toRole = .ok x ∧ ∀ arguments,
        Carries settings s t n.name "ForeignKey" arguments ↔
          x.multiplicity ≠ .many ∧ ∃ c property, a.constraint = some c ∧
            (c.halfFor n.fromRole).role = n.fromRole ∧
            (c.halfFor n.fromRole).properties.head? = some property ∧
            arguments = [CSharp.nameOf property] := by
  have hs : s.WellFormed := wellFormed_of_parse hparse
  obtain ⟨steps, hsteps⟩ := exists_body hfiles ht
  obtain ⟨target, htarget, hcarries⟩ := carries_navigation_iff hsteps (hs.entityMembers t ht) hn
  obtain ⟨ha, ⟨x, hx, hmultiplicity⟩, -⟩ := resolveNavigation_eq_ok htarget
  refine ⟨target.association, x, ha, hx, fun arguments => ?_⟩
  rw [hcarries, mem_navigationAttributes_iff, hmultiplicity]
  -- what is found for the near role is the first property of the half that counts for it
  have hkey : (∃ p, target.association.foreignKey? n.fromRole = some p ∧
      arguments = [CSharp.nameOf p]) ↔
      ∃ c property, target.association.constraint = some c ∧
        (c.halfFor n.fromRole).role = n.fromRole ∧
        (c.halfFor n.fromRole).properties.head? = some property ∧
        arguments = [CSharp.nameOf property] := by
    simp only [Association.foreignKey?_eq_some_iff]
    constructor
    -- the same parts in another order
    · rintro ⟨p, ⟨c, hc, hrole, hp⟩, harguments⟩
      exact ⟨c, p, hc, hrole, hp, harguments⟩
    · rintro ⟨c, p, hc, hrole, hp, harguments⟩
      exact ⟨p, ⟨c, hc, hrole, hp⟩, harguments⟩
  rw [← hkey]
  simp

/-! ### Keys at both ends -/

/-- A document of two types that each lead to one entity of the other. -/
def billingDocument : String :=
  "<Schema Namespace='Sales'>
    <EntityType Name='Order'>
      <Property Name='Id' Type='Int32'/>
      <NavigationProperty Name='Invoice' Relationship='Billing' FromRole='order' ToRole='invoice'/>
    </EntityType>
    <EntityType Name='Invoice'>
      <NavigationProperty Name='Order' Relationship='Billing' FromRole='invoice' ToRole='order'/>
    </EntityType>
    <Association Name='Billing'>
      <End Role='order' Type='Order' Multiplicity='1'/>
      <End Role='invoice' Type='Invoice' Multiplicity='1'/>
      <ReferentialConstraint>
        <Principal Role='order'><PropertyRef Name='Id'/></Principal>
        <Dependent Role='invoice'><PropertyRef Name='OrderId'/></Dependent>
      </ReferentialConstraint>
    </Association>
  </Schema>"

/-- Its first type. -/
def billedOrder : EntityType :=
  { name := "Order"
    properties := [{ name := "Id", typeName := "Int32" }]
    navigationProperties :=
      [{ name := "Invoice", relationship := "Billing", fromRole := "order", toRole := "invoice" }] }

/-- Its second type. -/
def invoice : EntityType :=
  { name := "Invoice"
    navigationProperties :=
      [{ name := "Order", relationship := "Billing", fromRole := "invoice", toRole := "order" }] }

/-- Its association, in which the order is the principal end. -/
def billing : Association :=
  { name := "Billing"
    first := ⟨"order", "Order", .one⟩
    second := ⟨"invoice", "Invoice", .one⟩
    constraint := some ⟨⟨"order", ["Id"]⟩, ⟨"invoice", ["OrderId"]⟩⟩ }

/-- Its schema. -/
def billingSchema : Schema :=
  { name := "Sales", entityTypes := [billedOrder, invoice], associations := [billing] }

set_option maxRecDepth 4000 in
private theorem parse_billingDocument : Model.parse billingDocument = .ok billingSchema :=
  Model.parse_eq_ok_of_chars String.toList_ofList (by decide +kernel)

private theorem exists_billingFiles : ∃ files, (generate {} billingSchema).outcome = .ok files :=
  failure?_eq_none_iff.mp (by decide)

/-- The invoice leads to its order by what the dependent half lists. -/
theorem invoice_leads_to_order_by_dependent_half :
    Carries {} billingSchema invoice "Order" "ForeignKey" ["nameof(OrderId)"] := by
  obtain ⟨files, hfiles⟩ := exists_billingFiles
  obtain ⟨a, x, ha, hx, hcarries⟩ :=
    foreign_key_follows_near_role parse_billingDocument hfiles
      (List.mem_cons_of_mem _ List.mem_cons_self)
      (List.mem_cons_self : _ ∈ invoice.navigationProperties)
  obtain rfl : a = billing := by
    rw [← Option.some_inj, ← ha]
    decide +kernel
  obtain rfl : x = billing.first := (Except.ok.inj hx).symm
  exact (hcarries _).mpr ⟨by decide, _, "OrderId", rfl, rfl, rfl, rfl⟩

/-- The order leads to its invoice by a property of its own that the dependent half does not list,
    and the invoice to its order by one that neither it nor an ancestor of it declares. -/
theorem foreign_key_may_be_principal_or_undeclared :
    ∃ source s files, Model.parse source = .ok s ∧ (generate {} s).outcome = .ok files ∧
      (∃ t ∈ s.entityTypes, ∃ n ∈ t.navigationProperties, ∃ a c,
        s.findAssociation? (s.localName n.relationship) = some a ∧ a.constraint = some c ∧
        Carries {} s t n.name "ForeignKey" [CSharp.nameOf "Id"] ∧
        "Id" ∉ c.dependent.properties) ∧
      ∃ t ∈ s.entityTypes, ∃ n ∈ t.navigationProperties,
        Carries {} s t n.name "ForeignKey" [CSharp.nameOf "OrderId"] ∧
        ¬ ∃ b, s.Inherits t b ∧ b.declares "OrderId" = true := by
  obtain ⟨files, hfiles⟩ := exists_billingFiles
  refine ⟨billingDocument, billingSchema, files, parse_billingDocument, hfiles,
    ⟨billedOrder, List.mem_cons_self, _, List.mem_cons_self, billing, _, by decide +kernel, rfl,
      by decide +kernel, by decide⟩,
    invoice, List.mem_cons_of_mem _ List.mem_cons_self, _, List.mem_cons_self, by decide +kernel,
    ?_⟩
  -- neither the invoice nor any type it inherits from has the property
  have hundeclared : billingSchema.ancestorDeclares invoice "OrderId" = false := by decide +kernel
  rw [← Schema.ancestorDeclares_iff (by decide +kernel) (List.mem_cons_of_mem _ List.mem_cons_self),
    hundeclared]
  exact nofun

end Generation

/-! ### Halves and roles -/

section

variable {a : Association} {c : ReferentialConstraint} {role : String}

/-- The half that is found for a role is the one that counts for it, if that is about the role. -/
theorem Association.half?_eq (hc : a.constraint = some c) :
    a.half? role = if (c.halfFor role).role = role then some (c.halfFor role) else none := by
  unfold half? ReferentialConstraint.halves ReferentialConstraint.halfFor
  rw [hc]
  -- of the two halves the principal one is looked at first
  by_cases hprincipal : c.principal.role = role
  · simp [hprincipal]
  · by_cases hdependent : c.dependent.role = role <;> simp [hprincipal, hdependent]

/-- A half that counts for its own role is found there, and the foreign key is its first property. -/
theorem Association.half?_of_halfFor {h : ConstraintHalf} (hc : a.constraint = some c)
    (hh : c.halfFor h.role = h) :
    a.half? h.role = some h ∧ a.foreignKey? h.role = h.properties.head? := by
  -- the half counts for its role and is about it
  have hhalf : a.half? h.role = some h := by rw [half?_eq hc, hh, if_pos rfl]
  refine ⟨hhalf, ?_⟩
  unfold foreignKey?
  rw [hhalf, Option.bind_some]

/-- A role that neither half is about has no half and no foreign key. -/
theorem Association.half?_eq_none (hc : a.constraint = some c) (hp : role ≠ c.principal.role)
    (hd : role ≠ c.dependent.role) : a.half? role = none ∧ a.foreignKey? role = none := by
  -- the look-up passes over both halves
  have hhalf : a.half? role = none := by
    rw [half?_eq hc]
    unfold ReferentialConstraint.halfFor
    rw [if_neg hp.symm, if_neg hd.symm]
  refine ⟨hhalf, ?_⟩
  unfold foreignKey?
  rw [hhalf, Option.bind_none]

/-- Both halves of a constraint are about ends of their association, and the principal half is found
    for its role.  Where the halves are about different roles the dependent half is found for its
    role too, and so each end has a half; where they share a role the principal half stands in front
    of the dependent one, and one end has none.  No other role has a half. -/
theorem halves_are_found_by_role {source : String} {s : Schema}
    (hparse : Model.parse source = .ok s) (ha : a ∈ s.associations) (hc : a.constraint = some c) :
    (∀ h ∈ c.halves, ∃ x ∈ a.ends, x.role = h.role) ∧
      (a.half? c.principal.role = some c.principal ∧
        a.foreignKey? c.principal.role = c.principal.properties.head?) ∧
      (c.principal.role ≠ c.dependent.role →
        (a.half? c.dependent.role = some c.dependent ∧
          a.foreignKey? c.dependent.role = c.dependent.properties.head?) ∧
        ∀ x ∈ a.ends, ∃ h ∈ c.halves, a.half? x.role = some h) ∧
      (c.principal.role = c.dependent.role →
        (a.half? c.dependent.role = some c.principal ∧
          a.foreignKey? c.dependent.role = c.principal.properties.head?) ∧
        ∃ x ∈ a.ends, a.half? x.role = none) ∧
      ∀ role, role ≠ c.principal.role → role ≠ c.dependent.role →
        a.half? role = none ∧ a.foreignKey? role = none := by
  have hs : s.WellFormed := wellFormed_of_parse hparse
  have hroles := hs.roles a ha
  have hends := hs.constraintRoles a ha c hc
  -- the principal half counts for its own role in any case
  have hprincipal := Association.half?_of_halfFor (h := c.principal) hc (if_pos rfl)
  obtain ⟨x, hx, hxrole⟩ := hends c.principal List.mem_cons_self
  obtain ⟨y, hy, hyrole⟩ := hends c.dependent (List.mem_cons_of_mem _ List.mem_cons_self)
  refine ⟨hends, hprincipal, fun hdiffer => ?_, fun hshare => ?_, fun role hp hd =>
    Association.half?_eq_none hc hp hd⟩
  -- the dependent half counts for its role since the principal one is about another
  · have hdependent := Association.half?_of_halfFor (h := c.dependent) hc (if_neg hdiffer)
    refine ⟨hdependent, fun z hz => ?_⟩
    -- of two ends, one is that of the principal half and the other that of the dependent one
    have hz : z.role = c.principal.role ∨ z.role = c.dependent.role := by
      rw [← hxrole, ← hyrole] at hdiffer ⊢
      rcases List.mem_pair.mp hx with rfl | rfl <;> rcases List.mem_pair.mp hy with rfl | rfl <;>
        rcases List.mem_pair.mp hz with rfl | rfl <;> simp_all
    rcases hz with hz | hz
    · exact ⟨c.principal, List.mem_cons_self, hz ▸ hprincipal.1⟩
    · exact ⟨c.dependent, List.mem_cons_of_mem _ List.mem_cons_self, hz ▸ hdependent.1⟩
  · refine ⟨hshare ▸ hprincipal, ?_⟩
    -- the halves share the role of one end, so the other end has no half
    rcases List.mem_pair.mp hx with rfl | rfl
    · have hother : a.second.role ≠ c.principal.role := hxrole ▸ hroles.symm
      exact ⟨a.second, List.mem_cons_of_mem _ List.mem_cons_self,
        (Association.half?_eq_none hc hother (hshare ▸ hother)).1⟩
    · have hother : a.first.role ≠ c.principal.role := hxrole ▸ hroles
      exact ⟨a.first, List.mem_cons_self,
        (Association.half?_eq_none hc hother (hshare ▸ hother)).1⟩

end

/-- The role of the invoice has the dependent half, and the role of the order the principal one. -/
theorem billing_halves_are_found :
    Generation.billing.half? "order" = some ⟨"order", ["Id"]⟩ ∧
      Generation.billing.half? "invoice" = some ⟨"invoice", ["OrderId"]⟩ ∧
      Generation.billing.foreignKey? "invoice" = some "OrderId" ∧
      Generation.billing.half? "Order" = none := by
  obtain ⟨-, ⟨hprincipal, -⟩, hdiffer, -, hother⟩ :=
    halves_are_found_by_role Generation.parse_billingDocument List.mem_cons_self rfl
  obtain ⟨⟨hdependent, hkey⟩, -⟩ := hdiffer (by decide)
  exact ⟨hprincipal, hdependent, hkey, (hother "Order" (by decide) (by decide)).1⟩

/-- A document with a constraint whose halves are both about one end. -/
def sharedRoleDocument : String :=
  "<Schema Namespace='Sales'>
    <EntityType Name='Order'>
      <Property Name='Id' Type='Int32'/>
    </EntityType>
    <EntityType Name='Invoice'>
      <Property Name='OrderId' Type='Int32'/>
    </EntityType>
    <Association Name='Billing'>
      <End Role='order' Type='Order' Multiplicity='1'/>
      <End Role='invoice' Type='Invoice' Multiplicity='1'/>
      <ReferentialConstraint>
        <Principal Role='order'><PropertyRef Name='Id'/></Principal>
        <Dependent Role='order'><PropertyRef Name='OrderId'/></Dependent>
      </ReferentialConstraint>
    </Association>
  </Schema>"

/-- Its association. -/
def sharedRole : Association :=
  { name := "Billing"
    first := ⟨"order", "Order", .one⟩
    second := ⟨"invoice", "Invoice", .one⟩
    constraint := some ⟨⟨"order", ["Id"]⟩, ⟨"order", ["OrderId"]⟩⟩ }

/-- Its schema. -/
def sharedRoleSchema : Schema :=
  { name := "Sales"
    entityTypes :=
      [{ name := "Order", properties := [{ name := "Id", typeName := "Int32" }] },
        { name := "Invoice", properties := [{ name := "OrderId", typeName := "Int32" }] }]
    associations := [sharedRole] }

set_option maxRecDepth 4000 in
private theorem parse_sharedRoleDocument : Model.parse sharedRoleDocument = .ok sharedRoleSchema :=
  Model.parse_eq_ok_of_chars String.toList_ofList (by decide +kernel)

/-- The dependent half need not be found for its role, nor its first property be the foreign key. -/
theorem dependent_half_may_be_hidden :
    ¬ ∀ (source : String) (s : Schema), Model.parse source = .ok s →
      ∀ a ∈ s.associations, ∀ c ∈ a.constraint,
        a.half? c.dependent.role = some c.dependent ∧
          a.foreignKey? c.dependent.role = c.dependent.properties.head? := by
  intro h
  -- the halves of the document are both about the order
  have hbilling := h sharedRoleDocument sharedRoleSchema parse_sharedRoleDocument sharedRole
    List.mem_cons_self _ rfl
  exact absurd hbilling.1 (by decide)

end EntityModel
