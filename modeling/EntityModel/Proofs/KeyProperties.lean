import EntityModel.Proofs.KeyReferences
import EntityModel.Proofs.WellFormed
import EntityModel.Proofs.WrittenProperties

/-!
# Key properties

The rules of a schema look for a key property on the entity type and on its ancestors; the nearest
type that declares it is the one whose class holds the property.  Whether the property is marked in
that class depends on the key of that class alone.  So a key is marked in full where a type declares
the properties of its key itself, and a property of its key that it inherits is marked only if the
ancestor has it in a key of its own.

* `existsUnique_nearest`              which type a key reference is about
* `key_is_marked_by_declaring_type`   when the property of a key reference is marked
-/

namespace EntityModel

namespace Schema

/-- Going from an entity type along its base types, the first type that declares the property. -/
inductive Nearest (s : Schema) (property : String) : EntityType → EntityType → Prop where
  | here {t : EntityType} (hdeclares : t.declares property = true) : Nearest s property t t
  | above {t b d : EntityType} (hdeclares : t.declares property = false) (hbase : s.IsBase t b)
    (hnearest : Nearest s property b d) : Nearest s property t d

variable {s : Schema} {property : String} {t b d : EntityType}

/-- The first type that declares a property does declare it. -/
theorem Nearest.declares (h : s.Nearest property t d) : d.declares property = true := by
  induction h with
  | here hdeclares => exact hdeclares
  | above _ _ _ ih => exact ih

/-- The first type that declares a property is the type itself or an ancestor. -/
private theorem Nearest.inherits (h : s.Nearest property t d) : s.Inherits t d := by
  induction h with
  | here => exact .refl
  | above _ hbase _ ih => exact .head hbase ih

/-- Ancestors are entity types of the schema. -/
theorem Inherits.mem (h : s.Inherits t b) (ht : t ∈ s.entityTypes) : b ∈ s.entityTypes := by
  induction h with
  | refl => exact ht
  | tail _ hbase _ => exact hbase.1

/-- Where the type or an ancestor declares a property, there is a first one that does. -/
private theorem Declares.exists_nearest (h : s.Declares t property) :
    ∃ d, s.Nearest property t d := by
  obtain ⟨b, htb, hdeclares⟩ := h
  -- from the type that declares it back to the type that the search begins at
  induction htb using Relation.ReflTransGen.head_induction_on with
  | refl => exact ⟨b, .here hdeclares⟩
  | @head t c hbase _ ih =>
    obtain ⟨d, hd⟩ := ih
    by_cases ht : t.declares property = true
    · exact ⟨t, .here ht⟩
    · exact ⟨d, .above (by simpa using ht) hbase hd⟩

/-- Where names are distinct, base types are determined, and so is the first type that declares a
    property. -/
theorem Nearest.unique (hn : s.entityNames.Nodup) {d' : EntityType} (h : s.Nearest property t d)
    (h' : s.Nearest property t d') : d = d' := by
  -- two searches from one type take the same steps, since it has one base type at most
  induction h with
  | here hdeclares =>
    cases h' with
    | here => rfl
    | above hno => simp [hdeclares] at hno
  | above hno hbase _ ih =>
    cases h' with
    | here hdeclares => simp [hno] at hdeclares
    | above _ hbase' hnearest =>
      have hb := (base?_eq_some_iff hn).mpr hbase
      have hb' := (base?_eq_some_iff hn).mpr hbase'
      obtain rfl := Option.some.inj (hb.symm.trans hb')
      exact ih hnearest

/-- In a well-formed schema a key reference is about one type: the nearest that declares it. -/
theorem existsUnique_nearest (hs : s.WellFormed) (ht : t ∈ s.entityTypes)
    (hk : property ∈ t.key.getD []) : ∃! d, s.Nearest property t d := by
  -- distinct names and a declaring ancestor are what the rules of a schema say of keys
  have hn : s.entityNames.Nodup := hs.typeNames.of_append_left.of_append_left
  obtain ⟨d, hd⟩ := Declares.exists_nearest (hs.keys t ht property hk)
  exact ⟨d, hd, fun d' hd' => hd'.unique hn hd⟩

end Schema

/-- What a type declares are the names of its properties. -/
theorem EntityType.declares_iff {t : EntityType} {name : String} :
    t.declares name = true ↔ ∃ q ∈ t.properties, q.name = name := by
  simp [declares, property?]

/-- What a key contains are the properties it lists. -/
theorem EntityType.keyContains_iff {t : EntityType} {name : String} :
    t.keyContains name = true ↔ name ∈ t.key.getD [] := by
  unfold keyContains
  cases t.key <;> simp

namespace Generation

variable {settings : Settings} {s : Schema} {files : List GeneratedFile} {t : EntityType}
  {p : String}

/-- The class of an entity type holds every property that the type declares. -/
private theorem exists_written_of_declares (hfiles : (generate settings s).outcome = .ok files)
    (ht : t ∈ s.entityTypes) (hp : t.declares p = true) :
    ∃ w ∈ classProperties settings s t, w.line.name = p := by
  -- what a type declares is a scalar property, and each of these is written
  obtain ⟨q, hq, rfl⟩ := EntityType.declares_iff.mp hp
  obtain ⟨steps, hsteps⟩ := exists_body hfiles ht
  obtain ⟨mapped, hmapped⟩ := exists_mapped hsteps hq
  exact ⟨_, (mem_classProperties_iff hsteps).mpr (.inl ⟨q, hq, mapped, hmapped, rfl⟩), rfl⟩

/-- A property that a class declares is marked as a key exactly if the key of its type lists it. -/
theorem carries_key_iff (hs : s.WellFormed) (hfiles : (generate settings s).outcome = .ok files)
    (ht : t ∈ s.entityTypes) (hp : t.declares p = true) :
    Carries settings s t p "Key" [] ↔ p ∈ t.key.getD [] := by
  obtain ⟨q, hq, rfl⟩ := EntityType.declares_iff.mp hp
  obtain ⟨steps, hsteps⟩ := exists_body hfiles ht
  obtain ⟨mapped, -, hcarries⟩ := carries_scalar_iff hsteps (hs.entityMembers t ht) hq
  rw [hcarries, key_mem_propertyAttributes_iff, EntityType.keyContains_iff]

/-- The property of a key reference stands in the class of the nearest type that declares it, and is
    marked there exactly if that type has it in its own key; so it is marked where the type of the
    key declares it itself. -/
theorem key_is_marked_by_declaring_type {source : String} (hparse : Model.parse source = .ok s)
    (hfiles : (generate settings s).outcome = .ok files) (ht : t ∈ s.entityTypes)
    (hk : p ∈ t.key.getD []) :
    (∃! d, s.Nearest p t d) ∧
    (∀ d, s.Nearest p t d → d ∈ s.entityTypes ∧
      (∃ w ∈ classProperties settings s d, w.line.name = p) ∧
      (Carries settings s d p "Key" [] ↔ p ∈ d.key.getD [])) ∧
    (t.declares p = true → Carries settings s t p "Key" []) := by
  have hs : s.WellFormed := wellFormed_of_parse hparse
  refine ⟨Schema.existsUnique_nearest hs ht hk, ?_, ?_⟩
  · intro d hd
    have hdmem : d ∈ s.entityTypes := hd.inherits.mem ht
    exact ⟨hdmem, exists_written_of_declares hfiles hdmem hd.declares,
      carries_key_iff hs hfiles hdmem hd.declares⟩
  · exact fun hdeclares => (carries_key_iff hs hfiles ht hdeclares).mpr hk

/-! ### Keys over two types -/

/-- A document in which the key of a type is made of a property that it inherits and one of its
    own. -/
def tenantsDocument : String :=
  "<Schema Namespace='Shop'>
    <EntityType Name='Entity' Abstract='true'>
      <Property Name='TenantId' Type='Int32' Nullable='false'/>
    </EntityType>
    <EntityType Name='Customer' BaseType='Entity'>
      <Key><PropertyRef Name='TenantId'/><PropertyRef Name='Number'/></Key>
      <Property Name='Number' Type='Int32' Nullable='false'/>
    </EntityType>
  </Schema>"

/-- Its first type. -/
def tenantEntity : EntityType :=
  { name := "Entity"
    isAbstract := true
    properties := [{ name := "TenantId", typeName := "Int32", nullable := false }] }

/-- Its second type. -/
def tenantCustomer : EntityType :=
  { name := "Customer"
    baseType := some "Entity"
    key := some ["TenantId", "Number"]
    properties := [{ name := "Number", typeName := "Int32", nullable := false }] }

/-- Its schema. -/
def tenantsSchema : Schema := { name := "Shop", entityTypes := [tenantEntity, tenantCustomer] }

set_option maxRecDepth 4000 in
/-- The document is read to the schema. -/
private theorem parse_tenantsDocument : Model.parse tenantsDocument = .ok tenantsSchema :=
  Model.parse_eq_ok_of_chars String.toList_ofList (by decide +kernel)

/-- The document is generated. -/
private theorem exists_tenantsFiles : ∃ files, (generate {} tenantsSchema).outcome = .ok files :=
  failure?_eq_none_iff.mp (by decide)

/-- The property that the type declares itself is marked; the one that it inherits is not. -/
theorem own_part_of_key_is_marked :
    Carries {} tenantsSchema tenantCustomer "Number" "Key" [] ∧
      tenantsSchema.Nearest "TenantId" tenantCustomer tenantEntity ∧
      ¬ Carries {} tenantsSchema tenantEntity "TenantId" "Key" [] := by
  obtain ⟨files, hfiles⟩ := exists_tenantsFiles
  have ht : tenantCustomer ∈ tenantsSchema.entityTypes :=
    List.mem_cons_of_mem _ List.mem_cons_self
  have hnearest : tenantsSchema.Nearest "TenantId" tenantCustomer tenantEntity :=
    .above (by decide) ⟨List.mem_cons_self, by decide +kernel⟩ (.here (by decide))
  obtain ⟨-, -, hown⟩ := key_is_marked_by_declaring_type parse_tenantsDocument hfiles ht
    (show "Number" ∈ tenantCustomer.key.getD [] by decide)
  obtain ⟨-, hinherited, -⟩ := key_is_marked_by_declaring_type parse_tenantsDocument hfiles ht
    (show "TenantId" ∈ tenantCustomer.key.getD [] by decide)
  refine ⟨hown (by decide), hnearest, ?_⟩
  rw [(hinherited _ hnearest).2.2]
  decide

/-- A document can be accepted and generated in which a property of a key is not marked in the class
    of the nearest type that declares it. -/
theorem inherited_part_of_key_may_be_unmarked :
    ∃ source s files, Model.parse source = .ok s ∧ (generate {} s).outcome = .ok files ∧
      ∃ t ∈ s.entityTypes, ∃ p ∈ t.key.getD [], ∃ d, s.Nearest p t d ∧
        ¬ Carries {} s d p "Key" [] := by
  obtain ⟨files, hfiles⟩ := exists_tenantsFiles
  refine ⟨tenantsDocument, tenantsSchema, files, parse_tenantsDocument, hfiles, tenantCustomer,
    List.mem_cons_of_mem _ List.mem_cons_self, "TenantId", by decide, tenantEntity, ?_,
    by decide +kernel⟩
  exact .above (by decide) ⟨List.mem_cons_self, by decide +kernel⟩ (.here (by decide))

end Generation

end EntityModel
