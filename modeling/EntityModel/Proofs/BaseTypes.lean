import EntityModel.Proofs.Walk

/-!
# Ancestors of entity types

`Schema.IsBase` says what a base type is: an entity type of the schema under the local name that
another one refers to.  Where the names of the entity types are distinct, both checks that follow
base types agree with it: the walk by names that looks for a key property, and the walk by positions
that looks for cycles.

* `ancestorDeclares_iff`         a property is found exactly on the type or on one of its ancestors
* `inheritanceFaults_eq_nil_iff` no cycle is reported exactly when no type is its own ancestor
-/

namespace EntityModel

/-- Where keys are distinct, what is found under a key is the only element that has it. -/
theorem find?_key_eq_some_iff {α : Type} {key : α → String} {as : List α}
    (hn : (as.map key).Nodup) {k : String} {a : α} :
    (as.find? fun b => key b == k) = some a ↔ a ∈ as ∧ key a = k := by
  constructor
  · intro h
    exact ⟨List.mem_of_find?_eq_some h, by simpa using List.find?_some h⟩
  · rintro ⟨ha, rfl⟩
    -- the look-up finds something, and what it finds has the key that only one has
    cases h : as.find? fun b => key b == key a with
    | none =>
      have := List.find?_eq_none.mp h a ha
      simp at this
    | some b =>
      have hkey : key b = key a := by simpa using List.find?_some h
      rw [List.inj_on_of_nodup_map hn (List.mem_of_find?_eq_some h) ha hkey]

namespace Schema

/-- The names of the entity types. -/
def entityNames (s : Schema) : List String := s.entityTypes.map (·.name)

/-- The entity type `b` of the schema is the base type of `t`. -/
def IsBase (s : Schema) (t b : EntityType) : Prop :=
  b ∈ s.entityTypes ∧ s.baseName? t = some b.name

/-- The entity type `b` is `t` itself or an ancestor of it. -/
def Inherits (s : Schema) : EntityType → EntityType → Prop := Relation.ReflTransGen s.IsBase

/-! ### Types by name and by position -/

/-- Where names are distinct, two types of one name stand at one position. -/
theorem position_eq_of_name_eq {s : Schema} (hn : s.entityNames.Nodup) {i j : Nat}
    {t b : EntityType} (hi : s.entityTypes[i]? = some t) (hj : s.entityTypes[j]? = some b)
    (h : t.name = b.name) : i = j := by
  -- one name at two positions contradicts that the names are distinct
  have hi' : s.entityNames[i]? = some t.name := by simp [entityNames, hi]
  have hj' : s.entityNames[j]? = some t.name := by simp [entityNames, hj, h]
  obtain ⟨hilt, hige⟩ := List.getElem?_eq_some_iff.mp hi'
  obtain ⟨hjlt, hjge⟩ := List.getElem?_eq_some_iff.mp hj'
  exact (hn.getElem_inj_iff).mp (hige.trans hjge.symm)

/-- Where names are distinct, a name belongs to one type. -/
theorem eq_of_name_eq {s : Schema} (hn : s.entityNames.Nodup) {t b : EntityType}
    (ht : t ∈ s.entityTypes) (hb : b ∈ s.entityTypes) (h : t.name = b.name) : t = b :=
  List.inj_on_of_nodup_map hn ht hb h

/-- What is found as the last type of a name is a type of that name. -/
private theorem mem_of_lastEntityType? {s : Schema} {name : String} {t : EntityType}
    (h : s.lastEntityType? name = some t) : t ∈ s.entityTypes ∧ t.name = name := by
  unfold lastEntityType? at h
  exact ⟨List.mem_reverse.mp (List.mem_of_find?_eq_some h), by simpa using List.find?_some h⟩

/-- Where names are distinct, the last type of a name is the only one. -/
private theorem lastEntityType?_eq_some_iff {s : Schema} (hn : s.entityNames.Nodup) {name : String}
    {t : EntityType} : s.lastEntityType? name = some t ↔ t ∈ s.entityTypes ∧ t.name = name := by
  -- the last of the types is looked for from the end
  have hreverse : (s.entityTypes.reverse.map (·.name)).Nodup := by
    rw [List.map_reverse]
    exact List.nodup_reverse.mpr hn
  unfold lastEntityType?
  rw [find?_key_eq_some_iff hreverse, List.mem_reverse]

/-- Where names are distinct, the position of a name is that of its type. -/
theorem entityIndex?_eq_some_iff {s : Schema} (hn : s.entityNames.Nodup) {name : String}
    {i : Nat} :
    s.entityIndex? name = some i ↔ ∃ t, s.entityTypes[i]? = some t ∧ t.name = name := by
  unfold entityIndex?
  constructor
  · intro h
    obtain ⟨hlt, hname, -⟩ := List.findIdx?_eq_some_iff_getElem.mp h
    exact ⟨s.entityTypes[i], List.getElem?_eq_getElem hlt, by simpa using hname⟩
  · rintro ⟨t, ht, rfl⟩
    -- the first position of the name is that of some type of the name, and so of this one
    cases h : s.entityTypes.findIdx? fun b => b.name == t.name with
    | none =>
      have := List.findIdx?_eq_none_iff.mp h t (List.mem_of_getElem? ht)
      simp at this
    | some j =>
      obtain ⟨hlt, hname, -⟩ := List.findIdx?_eq_some_iff_getElem.mp h
      exact congrArg some
        (position_eq_of_name_eq hn (List.getElem?_eq_getElem hlt) ht (by simpa using hname))

/-! ### Properties of ancestors -/

/-- The base type that the search for a property goes on with. -/
def base? (s : Schema) (t : EntityType) : Option EntityType :=
  (s.baseName? t).bind s.lastEntityType?

/-- The search for a property goes on with a base type. -/
theorem isBase_of_base? {s : Schema} {t b : EntityType} (h : s.base? t = some b) :
    s.IsBase t b := by
  obtain ⟨name, hname, hlast⟩ := Option.bind_eq_some_iff.mp h
  obtain ⟨hb, rfl⟩ := mem_of_lastEntityType? hlast
  exact ⟨hb, hname⟩

/-- Where names are distinct, the search for a property goes on with every base type. -/
theorem base?_eq_some_iff {s : Schema} (hn : s.entityNames.Nodup) {t b : EntityType} :
    s.base? t = some b ↔ s.IsBase t b := by
  refine ⟨isBase_of_base?, ?_⟩
  rintro ⟨hb, hname⟩
  rw [base?, hname, Option.bind_some]
  exact (lastEntityType?_eq_some_iff hn).mpr ⟨hb, rfl⟩

/-- One step of the search for a property. -/
theorem declaresWithin_succ (s : Schema) (property : String) (steps : Nat) (met : List String)
    (t : EntityType) :
    s.declaresWithin property (steps + 1) met t =
      if met.contains t.name then false
      else if t.declares property then true
      else
        match s.base? t with
        | none => false
        | some b => s.declaresWithin property steps (t.name :: met) b := rfl

/-- A property that is found is declared by the type or by an ancestor. -/
private theorem inherits_of_declaresWithin {s : Schema} {property : String} {steps : Nat}
    {met : List String} {t : EntityType} (h : s.declaresWithin property steps met t = true) :
    ∃ b, s.Inherits t b ∧ b.declares property = true := by
  induction steps generalizing met t with
  -- the search ends for lack of steps, at a name met before, at a declaration or at a root
  | zero => exact absurd h (by simp [declaresWithin])
  | succ steps ih =>
    rw [declaresWithin_succ] at h
    split at h
    · exact absurd h (by decide)
    · split at h
      · rename_i hdeclares
        exact ⟨t, .refl, hdeclares⟩
      · cases hb : s.base? t with
        | none => simp [hb] at h
        | some c =>
          rw [hb] at h
          obtain ⟨b, hcb, hdeclares⟩ := ih h
          exact ⟨b, .head (isBase_of_base? hb) hcb, hdeclares⟩

/-- A property is found where a walk along base types that meets no name twice, and none of those
    met before, comes to a type that declares it. -/
private theorem declaresWithin_of_walk? {s : Schema} {property : String} {k steps : Nat}
    {met : List String} {t b : EntityType} (hk : k < steps)
    (hwalk : walk? s.base? k t = some b) (hb : b.declares property = true)
    (hmet : ∀ i c, i ≤ k → walk? s.base? i t = some c → c.name ∉ met)
    (hdistinct : ∀ i j c d, i < j → j ≤ k → walk? s.base? i t = some c →
      walk? s.base? j t = some d → c.name ≠ d.name) :
    s.declaresWithin property steps met t = true := by
  -- each step of the walk moves the name of the type it leaves to those that were met
  induction k generalizing steps met t with
  | zero =>
    obtain ⟨steps, rfl⟩ : ∃ n, steps = n + 1 := ⟨steps - 1, by omega⟩
    obtain rfl := Option.some.inj hwalk
    have hfresh := hmet 0 t (Nat.le_refl 0) rfl
    simp [declaresWithin_succ, hfresh, hb]
  | succ k ih =>
    obtain ⟨steps, rfl⟩ : ∃ n, steps = n + 1 := ⟨steps - 1, by omega⟩
    obtain ⟨c, htc, hcb⟩ := Option.bind_eq_some_iff.mp hwalk
    -- behind the first type the walk is one from the next
    have hshift : ∀ i, walk? s.base? (i + 1) t = walk? s.base? i c := by
      intro i
      rw [walk?, htc, Option.bind_some]
    have hrest : s.declaresWithin property steps (t.name :: met) c = true := by
      refine ih (by omega) hcb ?_ ?_
      · intro i d hi hd
        rw [← hshift] at hd
        have hne := hdistinct 0 (i + 1) t d (by omega) (by omega) rfl hd
        simp only [List.mem_cons, not_or]
        exact ⟨hne.symm, hmet (i + 1) d (by omega) hd⟩
      · intro i j d e hij hj hd he
        rw [← hshift] at hd he
        exact hdistinct (i + 1) (j + 1) d e (by omega) (by omega) hd he
    have hfresh := hmet 0 t (Nat.zero_le _) rfl
    -- the type itself is new and need not declare it, since the rest of the walk does
    rw [declaresWithin_succ, htc]
    simp [hfresh, hrest]

/-- A property is found exactly if the type or one of its ancestors declares it. -/
theorem ancestorDeclares_iff {s : Schema} (hn : s.entityNames.Nodup) {t : EntityType}
    (ht : t ∈ s.entityTypes) {property : String} :
    s.ancestorDeclares t property = true ↔
      ∃ b, s.Inherits t b ∧ b.declares property = true := by
  refine ⟨inherits_of_declaresWithin, ?_⟩
  rintro ⟨b, htb, hb⟩
  have hclosed : Closed s.base? s.entityTypes := fun _ _ h => (isBase_of_base? h).1
  have hreach : Relation.ReflTransGen (Leads s.base?) t b :=
    htb.lift id fun _ _ h => (base?_eq_some_iff hn).mpr h
  -- the shortest way to the ancestor meets no name twice, so the search does not turn back on it
  obtain ⟨k, hk, hwalk, hdistinct⟩ := exists_shortest_walk? hclosed ht hreach
  refine declaresWithin_of_walk? (Nat.lt_succ_of_lt hk) hwalk hb (fun _ _ _ _ => by simp) ?_
  intro i j c d hij hj hc hd hname
  have hcd := eq_of_name_eq hn (walk?_mem hclosed ht hc) (walk?_mem hclosed ht hd) hname
  exact hdistinct i j hij hj (by rw [hc, hd, hcd])

/-! ### Cycles of base types -/

/-- The base positions as a function. -/
def basePosition? (s : Schema) (i : Nat) : Option Nat := (s.baseTable[i]?).join

/-- The table of base positions holds the base position of every entity type. -/
theorem basePosition?_eq (s : Schema) (i : Nat) : s.basePosition? i = s.baseIndex? i := by
  unfold basePosition? baseTable
  rw [List.getElem?_toArray, List.getElem?_map]
  -- past the end of the table there is no type, and so no base position either
  by_cases hi : i < s.entityTypes.length
  · simp [List.getElem?_range hi]
  · simp [Nat.not_lt.mp hi, baseIndex?]

/-- Where names are distinct, base positions are the positions of base types. -/
theorem baseIndex?_eq_some_iff {s : Schema} (hn : s.entityNames.Nodup) {i j : Nat} :
    s.baseIndex? i = some j ↔
      ∃ t b, s.entityTypes[i]? = some t ∧ s.entityTypes[j]? = some b ∧ s.IsBase t b := by
  unfold baseIndex?
  constructor
  · intro h
    obtain ⟨t, ht, hj⟩ := Option.bind_eq_some_iff.mp h
    -- the type at the position is the one of its name
    split at hj
    · obtain ⟨name, hname, hj⟩ := Option.bind_eq_some_iff.mp hj
      obtain ⟨b, hb, rfl⟩ := (entityIndex?_eq_some_iff hn).mp hj
      exact ⟨t, b, ht, hb, List.mem_of_getElem? hb, hname⟩
    · simp at hj
  · rintro ⟨t, b, ht, hb, -, hname⟩
    rw [ht, Option.bind_some, if_pos ((entityIndex?_eq_some_iff hn).mpr ⟨t, ht, rfl⟩), hname,
      Option.bind_some]
    exact (entityIndex?_eq_some_iff hn).mpr ⟨b, hb, rfl⟩

/-- Base positions are positions of entity types. -/
theorem closed_basePosition? (s : Schema) :
    Closed s.basePosition? (List.range s.entityTypes.length) := by
  intro i j h
  rw [basePosition?_eq] at h
  -- whatever is found is a position in the list
  obtain ⟨t, -, hj⟩ := Option.bind_eq_some_iff.mp h
  split at hj
  · obtain ⟨name, -, hj⟩ := Option.bind_eq_some_iff.mp hj
    obtain ⟨hlt, -⟩ := List.findIdx?_eq_some_iff_getElem.mp hj
    exact List.mem_range.mpr hlt
  · simp at hj

/-- Walks by position are walks along base types. -/
theorem transGen_isBase_of_positions {s : Schema} (hn : s.entityNames.Nodup) {i j : Nat}
    (h : Relation.TransGen (Leads s.basePosition?) i j) :
    ∃ t b, s.entityTypes[i]? = some t ∧ s.entityTypes[j]? = some b ∧
      Relation.TransGen s.IsBase t b := by
  -- step by step, from the first type on
  induction h with
  | single hstep =>
    rw [Leads, basePosition?_eq] at hstep
    obtain ⟨t, b, ht, hb, hbase⟩ := (baseIndex?_eq_some_iff hn).mp hstep
    exact ⟨t, b, ht, hb, .single hbase⟩
  | tail _ hstep ih =>
    rw [Leads, basePosition?_eq] at hstep
    obtain ⟨t, c, ht, hc, htc⟩ := ih
    -- the type in the middle stands at one position
    obtain ⟨c', b, hc', hb, hbase⟩ := (baseIndex?_eq_some_iff hn).mp hstep
    obtain rfl := Option.some.inj (hc.symm.trans hc')
    exact ⟨t, b, ht, hb, htc.tail hbase⟩

/-- Walks along base types are walks by position. -/
theorem positions_of_transGen_isBase {s : Schema} (hn : s.entityNames.Nodup) {t b : EntityType}
    (h : Relation.TransGen s.IsBase t b) {i : Nat} (hi : s.entityTypes[i]? = some t) :
    ∃ j, s.entityTypes[j]? = some b ∧ Relation.TransGen (Leads s.basePosition?) i j := by
  -- step by step, with a position for every type on the way
  induction h with
  | single hbase =>
    obtain ⟨j, hj⟩ := List.mem_iff_getElem?.mp hbase.1
    refine ⟨j, hj, .single ?_⟩
    rw [Leads, basePosition?_eq]
    exact (baseIndex?_eq_some_iff hn).mpr ⟨_, _, hi, hj, hbase⟩
  | tail _ hbase ih =>
    obtain ⟨k, hk, hik⟩ := ih
    obtain ⟨j, hj⟩ := List.mem_iff_getElem?.mp hbase.1
    refine ⟨j, hj, hik.tail ?_⟩
    rw [Leads, basePosition?_eq]
    exact (baseIndex?_eq_some_iff hn).mpr ⟨_, _, hk, hj, hbase⟩

/-- No cycle is found exactly when no entity type is its own ancestor. -/
theorem inheritanceCycles_eq_nil_iff {s : Schema} (hn : s.entityNames.Nodup) :
    s.inheritanceCycles = [] ↔ ∀ t ∈ s.entityTypes, ¬ Relation.TransGen s.IsBase t t := by
  have hcycles : s.inheritanceCycles = cycles s.basePosition? s.entityTypes.length := rfl
  rw [hcycles, cycles_eq_nil_iff s.closed_basePosition?]
  constructor
  -- a type that is its own ancestor has a position that leads back to itself
  · intro h t ht htt
    obtain ⟨i, hi⟩ := List.mem_iff_getElem?.mp ht
    obtain ⟨j, hj, hij⟩ := positions_of_transGen_isBase hn htt hi
    obtain rfl := position_eq_of_name_eq hn hi hj rfl
    exact h i (List.getElem?_eq_some_iff.mp hi).1 hij
  · intro h i _ hii
    obtain ⟨t, b, ht, hb, htb⟩ := transGen_isBase_of_positions hn hii
    obtain rfl := Option.some.inj (ht.symm.trans hb)
    exact h t (List.mem_of_getElem? ht) htb

end Schema

/-! ### Faults -/

/-- Every cycle that is found is reported, where every type has a place. -/
theorem inheritanceFaults_eq_nil_iff {s : Schema} {m : SourceMap}
    (hm : m.entityTypes.length = s.entityTypes.length) :
    inheritanceFaults s m = [] ↔ s.inheritanceCycles = [] := by
  unfold inheritanceFaults
  constructor
  · intro h
    rw [List.filterMap_eq_nil_iff] at h
    by_contra hne
    obtain ⟨c, hc⟩ := List.exists_mem_of_ne_nil _ hne
    -- a cycle would go unreported only if none of its members had a place
    obtain ⟨k, hk, hlt⟩ := exists_mem_of_mem_cycles s.closed_basePosition? hc
    have hplace : (entityAt s m k).isSome := by
      simp [entityAt, hlt, hm]
    obtain ⟨place, hplace⟩ := Option.isSome_iff_exists.mp hplace
    have hmem : place ∈ c.filterMap (entityAt s m) := List.mem_filterMap.mpr ⟨k, hk, hplace⟩
    cases hplaces : c.filterMap (entityAt s m) with
    | nil =>
      rw [hplaces] at hmem
      exact List.not_mem_nil hmem
    | cons first others =>
      have hfault := cycleFault?_eq_some_iff.mpr ⟨first, others, hplaces, rfl⟩
      rw [h c hc] at hfault
      simp at hfault
  · intro h
    rw [h]
    rfl

end EntityModel
