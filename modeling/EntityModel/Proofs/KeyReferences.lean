import EntityModel.Proofs.BaseTypes
import EntityModel.Proofs.FaultCodes

/-!
# References of keys

The search for a key property follows base types, which may lead in a circle or nowhere.
`Schema.Search` describes it without a limit on its rounds: each round either ends the search or
adds the name of one more type to those met, and a name met again ends it.  So it ends within one
round more than there are entity types, whatever the base types are, and the limit built into
`declaresWithin` is never what decides.

* `Schema.Search.unique`          a search ends in one way
* `Schema.exists_search`          the search for a property ends, with the answer that is computed
* `undefined_keys_are_reported`   each key reference that leads nowhere is reported once, in order
-/

namespace EntityModel

namespace Schema

/-- The entity type or one of its ancestors declares the property. -/
def Declares (s : Schema) (t : EntityType) (property : String) : Prop :=
  ∃ b, s.Inherits t b ∧ b.declares property = true

/-- The search for a property that has come to the type `t`, having met the given names, ends with
    the given answer in so many rounds. -/
inductive Search (s : Schema) (property : String) :
    Nat → List String → EntityType → Bool → Prop where
  /-- The search has gone round a circle. -/
  | revisited {met : List String} {t : EntityType} (hmet : t.name ∈ met) :
    Search s property 1 met t false
  | declared {met : List String} {t : EntityType} (hmet : t.name ∉ met)
    (hdeclares : t.declares property = true) : Search s property 1 met t true
  | exhausted {met : List String} {t : EntityType} (hmet : t.name ∉ met)
    (hdeclares : t.declares property = false) (hbase : s.base? t = none) :
    Search s property 1 met t false
  | onward {rounds : Nat} {met : List String} {t b : EntityType} {answer : Bool}
    (hmet : t.name ∉ met) (hdeclares : t.declares property = false)
    (hbase : s.base? t = some b) (hrest : Search s property rounds (t.name :: met) b answer) :
    Search s property (rounds + 1) met t answer

/-- A search ends in one way. -/
theorem Search.unique {s : Schema} {property : String} {met : List String} {t : EntityType}
    {rounds rounds' : Nat} {answer answer' : Bool} (h : s.Search property rounds met t answer)
    (h' : s.Search property rounds' met t answer') : rounds = rounds' ∧ answer = answer' := by
  induction h generalizing rounds' answer' with
  | revisited hmet =>
    cases h' with
    | revisited => exact ⟨rfl, rfl⟩
    | declared hfresh => exact absurd hmet hfresh
    | exhausted hfresh => exact absurd hmet hfresh
    | onward hfresh => exact absurd hmet hfresh
  | declared hfresh hdeclares =>
    cases h' with
    | revisited hmet => exact absurd hmet hfresh
    | declared => exact ⟨rfl, rfl⟩
    | exhausted _ hno => simp [hdeclares] at hno
    | onward _ hno => simp [hdeclares] at hno
  | exhausted hfresh hno hbase =>
    cases h' with
    | revisited hmet => exact absurd hmet hfresh
    | declared _ hdeclares => simp [hno] at hdeclares
    | exhausted => exact ⟨rfl, rfl⟩
    | onward _ _ hsome => simp [hbase] at hsome
  | onward hfresh hno hbase _ ih =>
    cases h' with
    | revisited hmet => exact absurd hmet hfresh
    | declared _ hdeclares => simp [hno] at hdeclares
    | exhausted _ _ hnone => simp [hbase] at hnone
    | onward _ _ hbase' hrest =>
      obtain rfl := Option.some.inj (hbase.symm.trans hbase')
      obtain ⟨rfl, rfl⟩ := ih hrest
      exact ⟨rfl, rfl⟩

/-- The search ends before its limit where the names met are different names of entity types and
    the limit leaves a round for every other name and one more. -/
private theorem search_declaresWithin {s : Schema} (property : String) {steps : Nat}
    {met : List String}
    {t : EntityType} (ht : t ∈ s.entityTypes) (hmet : met.Nodup) (hnames : met ⊆ s.entityNames)
    (hsteps : met.length + steps = s.entityTypes.length + 1) :
    ∃ rounds ≤ steps, s.Search property rounds met t (s.declaresWithin property steps met t) := by
  -- each round meets one more name of an entity type, and there are only so many
  induction steps generalizing met t with
  | zero =>
    have hle := (hmet.subperm hnames).length_le
    simp only [entityNames, List.length_map] at hle
    omega
  | succ steps ih =>
    rw [declaresWithin_succ]
    by_cases hname : t.name ∈ met
    · rw [if_pos (by simpa using hname)]
      exact ⟨1, by omega, .revisited hname⟩
    rw [if_neg (by simpa using hname)]
    by_cases hdeclares : t.declares property = true
    · rw [if_pos hdeclares]
      exact ⟨1, by omega, .declared hname hdeclares⟩
    rw [if_neg hdeclares]
    rw [Bool.not_eq_true] at hdeclares
    cases hbase : s.base? t with
    | none => exact ⟨1, by omega, .exhausted hname hdeclares hbase⟩
    | some b =>
      have hsub : t.name :: met ⊆ s.entityNames :=
        List.cons_subset.mpr ⟨List.mem_map.mpr ⟨t, ht, rfl⟩, hnames⟩
      have hlen : (t.name :: met).length + steps = s.entityTypes.length + 1 := by
        rw [List.length_cons]
        omega
      obtain ⟨rounds, hle, hrest⟩ :=
        ih (isBase_of_base? hbase).1 (List.nodup_cons.mpr ⟨hname, hmet⟩) hsub hlen
      exact ⟨rounds + 1, by omega, .onward hname hdeclares hbase hrest⟩

/-- The search for a property ends, with the answer that is computed, whatever the names and the
    base types of the entity types are. -/
theorem exists_search {s : Schema} {t : EntityType} (ht : t ∈ s.entityTypes) (property : String) :
    ∃ rounds ≤ s.entityTypes.length + 1,
      s.Search property rounds [] t (s.ancestorDeclares t property) :=
  search_declaresWithin property ht List.nodup_nil (List.nil_subset _) (by simp)

/-- The properties that the keys of the entity types refer to, each with the type of the key. -/
def keyReferences (s : Schema) : List (EntityType × String) :=
  s.entityTypes.flatMap fun t => (t.key.getD []).map fun property => (t, property)

/-- The references of the keys along the places of their types. -/
private theorem keyReferences_eq {s : Schema} {m : SourceMap}
    (hm : m.entityTypes.length = s.entityTypes.length) :
    s.keyReferences = (s.entityTypes.zip m.entityTypes).flatMap fun p =>
      (p.1.key.getD []).map fun property => (p.1, property) := by
  have hfst : (s.entityTypes.zip m.entityTypes).map Prod.fst = s.entityTypes :=
    List.map_fst_zip (by omega)
  unfold keyReferences
  rw [← List.flatMap_map Prod.fst (fun t : EntityType => (t.key.getD []).map fun k => (t, k)), hfst]

end Schema

/-! ### Reported references -/

/-- The fault reports the reference of a key: it names both and points at the key. -/
def Fault.ReportsKey (s : Schema) (m : SourceMap) (f : Fault) (r : EntityType × String) : Prop :=
  ∃ p, (r.1, p) ∈ s.entityTypes.zip m.entityTypes ∧
    f = .undefinedKey r.1.name r.2 (p.key.getD p.span)

section

variable {s : Schema} {m : SourceMap}

/-- The check of keys reports the references that are not found, one by one. -/
private theorem keyFaults_reports (hm : m.entityTypes.length = s.entityTypes.length) :
    List.Forall₂ (Fault.ReportsKey s m) (keyFaults s m)
      (s.keyReferences.filter fun r => !s.ancestorDeclares r.1 r.2) := by
  -- both lists are images of the references with the places of their types
  let undefined : List ((EntityType × TypeSpans) × String) :=
    (s.entityTypes.zip m.entityTypes).flatMap fun p =>
      ((p.1.key.getD []).filter fun k => !s.ancestorDeclares p.1 k).map fun k => (p, k)
  have hfaults : keyFaults s m = undefined.map fun r =>
      .undefinedKey r.1.1.name r.2 (r.1.2.key.getD r.1.2.span) := by
    simp only [keyFaults, undefined, List.map_flatMap, List.map_map, Function.comp_def]
  have hreferences : (s.keyReferences.filter fun r => !s.ancestorDeclares r.1 r.2) =
      undefined.map fun r => (r.1.1, r.2) := by
    rw [Schema.keyReferences_eq hm]
    simp only [undefined, List.filter_flatMap, List.filter_map, List.map_flatMap, List.map_map,
      Function.comp_def]
  rw [hfaults, hreferences, List.forall₂_map_left_iff, List.forall₂_map_right_iff,
    List.forall₂_same]
  intro r hr
  obtain ⟨p, hp, hr⟩ := List.mem_flatMap.mp hr
  obtain ⟨k, -, rfl⟩ := List.mem_map.mp hr
  exact ⟨p.2, hp, rfl⟩

/-- Where the names of the entity types are distinct, the search for a property ends whatever the
    base types are, and finds it exactly if the type or an ancestor declares it; the key references
    that are not found are reported once each, in order, and no others. -/
theorem undefined_keys_are_reported (hn : s.entityNames.Nodup)
    (hm : m.entityTypes.length = s.entityTypes.length) :
    (∀ t ∈ s.entityTypes, ∀ property,
      (∃ rounds ≤ s.entityTypes.length + 1,
        s.Search property rounds [] t (s.ancestorDeclares t property)) ∧
      (s.ancestorDeclares t property = true ↔ s.Declares t property)) ∧
    open Classical in
    List.Forall₂ (Fault.ReportsKey s m)
      ((validate s m).filter fun f => f.code = .undefinedKey)
      (s.keyReferences.filter fun r => ¬ s.Declares r.1 r.2) := by
  classical
  refine ⟨fun t ht property =>
    ⟨Schema.exists_search ht property, Schema.ancestorDeclares_iff hn ht⟩, ?_⟩
  have hreferences : (s.keyReferences.filter fun r => ¬ s.Declares r.1 r.2) =
      s.keyReferences.filter fun r => !s.ancestorDeclares r.1 r.2 := by
    refine List.filter_congr fun r hr => ?_
    obtain ⟨t, ht, hr⟩ := List.mem_flatMap.mp hr
    obtain ⟨k, -, rfl⟩ := List.mem_map.mp hr
    have hiff : s.ancestorDeclares t k = true ↔ s.Declares t k :=
      Schema.ancestorDeclares_iff hn ht
    by_cases hk : s.ancestorDeclares t k = true
    · simp [hk, hiff.mp hk]
    · have hno : ¬ s.Declares t k := fun h => hk (hiff.mpr h)
      simp [hk, hno]
  rw [filter_undefinedKey_validate, hreferences]
  exact keyFaults_reports hm

end

/-- An entity type whose key names a property of its base type and one that is nowhere. -/
def ringLeft : EntityType :=
  { name := "Left", baseType := some "Ring.Right", key := some ["Id", "Code"] }

/-- The base type of `ringLeft`, which inherits from it in turn. -/
def ringRight : EntityType :=
  { name := "Right"
    baseType := some "Left"
    properties := [{ name := "Id", typeName := "Int32" }] }

/-- A schema in which base types lead in a circle. -/
def ringSchema : Schema := { name := "Ring", entityTypes := [ringLeft, ringRight] }

/-- Places for the types of `ringSchema`. -/
def ringPlaces : SourceMap where
  entityTypes :=
    [{ span := ⟨0, 10, by omega⟩, key := some ⟨2, 8, by omega⟩ }, { span := ⟨10, 20, by omega⟩ }]

/-- On a circle of base types the search ends, a property is found on the far side of it, and the
    one that is nowhere is reported. -/
theorem search_ends_on_ring :
    ringSchema.entityNames.Nodup ∧ ringPlaces.entityTypes.length = ringSchema.entityTypes.length ∧
    (∃ rounds ≤ 3, ringSchema.Search "Code" rounds [] ringLeft false) ∧
    ringSchema.Declares ringLeft "Id" ∧ ¬ ringSchema.Declares ringLeft "Code" ∧
    List.Forall₂ (Fault.ReportsKey ringSchema ringPlaces)
      ((validate ringSchema ringPlaces).filter fun f => f.code = .undefinedKey)
      [(ringLeft, "Code")] := by
  have hn : ringSchema.entityNames.Nodup := by decide
  have hm : ringPlaces.entityTypes.length = ringSchema.entityTypes.length := rfl
  obtain ⟨hsearch, hreports⟩ := undefined_keys_are_reported hn hm
  have hleft : ringLeft ∈ ringSchema.entityTypes := List.mem_cons_self
  have hid : ringSchema.Declares ringLeft "Id" := (hsearch _ hleft "Id").2.mp (by decide +kernel)
  have hcode : ringSchema.ancestorDeclares ringLeft "Code" = false := by decide +kernel
  have hnowhere : ¬ ringSchema.Declares ringLeft "Code" := by
    rw [← (hsearch _ hleft "Code").2, hcode]
    decide
  have hreferences : ringSchema.keyReferences = [(ringLeft, "Id"), (ringLeft, "Code")] := rfl
  refine ⟨hn, hm, ?_, hid, hnowhere, ?_⟩
  · have hend := (hsearch _ hleft "Code").1
    rw [hcode] at hend
    exact hend
  · rw [hreferences] at hreports
    simpa [hid, hnowhere] using hreports

end EntityModel
