import EntityModel.Proofs.BaseTypes
import EntityModel.Proofs.Components
import EntityModel.Proofs.FaultCodes
import EntityModel.Schema.Resolution
import Mathlib.Data.List.Forall2

/-!
# Inheritance cycles and their reports

An inheritance cycle is a group of entity types, in the order of the schema, each of which leads by
base types to exactly the types of the group.  The check of inheritance finds cycles as lists of
positions; here they are the groups of types at those positions.  They are also the cycles among the
strongly connected components of the graph of base positions.

* `mem_reportedCycles_iff`       the groups that are found are the inheritance cycles
* `reports_reportedCycles`       each is reported by one fault
* `perm_cyclicComponents`        the same faults from the strongly connected components
* `cycles_are_reported_once`     what the faults of inheritance say of a schema
-/

namespace EntityModel

namespace Schema

/-- Some entity types with their places, in the order of the schema, that form an inheritance cycle:
    what each of them leads to by base types are the types of the cycle, and no others. -/
structure IsCycle (s : Schema) (m : SourceMap) (c : List (EntityType × TypeSpans)) : Prop where
  ne_nil : c ≠ []
  sublist : c.Sublist (s.entityTypes.zip m.entityTypes)
  mem_iff : ∀ p ∈ c, ∀ t, t ∈ c.map (·.1) ↔ Relation.TransGen s.IsBase p.1 t

/-- The base type of an entity type as references to entity types are resolved. -/
def resolvedBase? (s : Schema) (t : EntityType) : Option EntityType :=
  t.baseType.bind fun name => (s.resolveEntityType name t.name).toOption

end Schema

/-- The fault reports a cycle: it names the types of the cycle and points at each of them, at the
    first as the construct at fault and at the others as context. -/
structure Fault.ReportsCycle (f : Fault) (c : List (EntityType × TypeSpans)) : Prop where
  message : f.diagnostic.message =
    "cyclic inheritance between " ++ Fault.quotedNames (c.map fun p => p.1.name)
  labels : f.diagnostic.labels.map (·.span) = c.map fun p => p.2.span
  primary : f.diagnostic.labels.map (·.isPrimary) = true :: List.replicate (c.length - 1) false

/-! ### Types at positions -/

/-- The entries at all positions of a list are the list. -/
private theorem filterMap_getElem?_range {α : Type} {xs : List α} {n : Nat} (h : xs.length ≤ n) :
    (List.range n).filterMap (fun i => xs[i]?) = xs := by
  induction xs generalizing n with
  | nil => simp
  | cons x xs ih =>
    rw [List.length_cons] at h
    obtain ⟨n, rfl⟩ : ∃ k, n = k + 1 := ⟨n - 1, by omega⟩
    -- the positions after the first are those of the tail
    rw [List.range_succ_eq_map, List.filterMap_cons, List.filterMap_map]
    simp only [List.getElem?_cons_zero, Function.comp_def, List.getElem?_cons_succ,
      Nat.succ_eq_add_one]
    rw [ih (by omega)]

namespace Schema

variable {s : Schema} {m : SourceMap}

/-- The entity types at some positions, with their places. -/
def typesAt (s : Schema) (m : SourceMap) (positions : List Nat) : List (EntityType × TypeSpans) :=
  positions.filterMap fun i => (s.entityTypes.zip m.entityTypes)[i]?

private theorem mem_typesAt_iff {positions : List Nat} {p : EntityType × TypeSpans} :
    p ∈ s.typesAt m positions ↔ ∃ i ∈ positions, (s.entityTypes.zip m.entityTypes)[i]? = some p :=
  List.mem_filterMap

/-- A type stands where its place stands. -/
theorem getElem?_of_zip {i : Nat} {p : EntityType × TypeSpans}
    (h : (s.entityTypes.zip m.entityTypes)[i]? = some p) : s.entityTypes[i]? = some p.1 :=
  (List.getElem?_zip_eq_some.mp h).1

/-- Every type of the schema has a place. -/
theorem exists_zip_of_getElem? (hm : m.entityTypes.length = s.entityTypes.length) {i : Nat}
    {t : EntityType} (h : s.entityTypes[i]? = some t) :
    ∃ p, (s.entityTypes.zip m.entityTypes)[i]? = some (t, p) := by
  have hlt := (List.getElem?_eq_some_iff.mp h).1
  refine ⟨m.entityTypes[i], List.getElem?_zip_eq_some.mpr ⟨h, ?_⟩⟩
  exact List.getElem?_eq_getElem (by omega)

/-- Where names are distinct, a type has one position among the types with places. -/
theorem zip_position_eq (hn : s.entityNames.Nodup) {i j : Nat} {p q : EntityType × TypeSpans}
    (hi : (s.entityTypes.zip m.entityTypes)[i]? = some p)
    (hj : (s.entityTypes.zip m.entityTypes)[j]? = some q) (h : p.1.name = q.1.name) : i = j :=
  position_eq_of_name_eq hn (getElem?_of_zip hi) (getElem?_of_zip hj) h

/-- The types at increasing positions stand in the order of the schema. -/
private theorem typesAt_visited_sublist (i : Nat) :
    (s.typesAt m (visited s.basePosition? s.entityTypes.length i)).Sublist
      (s.entityTypes.zip m.entityTypes) := by
  have hle : (s.entityTypes.zip m.entityTypes).length ≤ s.entityTypes.length := by
    rw [List.length_zip]
    omega
  -- all positions that are visited are positions of the schema, in increasing order
  have hsub : (s.typesAt m (visited s.basePosition? s.entityTypes.length i)).Sublist
      ((List.range s.entityTypes.length).filterMap fun i =>
        (s.entityTypes.zip m.entityTypes)[i]?) := List.filter_sublist.filterMap _
  rw [filterMap_getElem?_range hle] at hsub
  exact hsub

/-! ### The cycles that are found -/

/-- Where names are distinct, base positions lead where base types lead. -/
theorem transGen_positions_iff (hn : s.entityNames.Nodup) {i j : Nat} {t b : EntityType}
    (hi : s.entityTypes[i]? = some t) (hj : s.entityTypes[j]? = some b) :
    Relation.TransGen (Leads s.basePosition?) i j ↔ Relation.TransGen s.IsBase t b := by
  constructor
  · intro h
    obtain ⟨t', b', ht, hb, htb⟩ := transGen_isBase_of_positions hn h
    obtain rfl := Option.some.inj (hi.symm.trans ht)
    obtain rfl := Option.some.inj (hj.symm.trans hb)
    exact htb
  · intro h
    obtain ⟨k, hk, hik⟩ := positions_of_transGen_isBase hn h hi
    obtain rfl := position_eq_of_name_eq hn hj hk rfl
    exact hik

/-- The types that a type on a cycle leads to form an inheritance cycle. -/
theorem isCycle_typesAt (hn : s.entityNames.Nodup)
    (hm : m.entityTypes.length = s.entityTypes.length) {i : Nat} (hi : i < s.entityTypes.length)
    (hii : Relation.TransGen (Leads s.basePosition?) i i) :
    s.IsCycle m (s.typesAt m (visited s.basePosition? s.entityTypes.length i)) := by
  have hvisited : ∀ k, k ∈ visited s.basePosition? s.entityTypes.length i ↔
      Relation.TransGen (Leads s.basePosition?) i k :=
    fun k => mem_visited_iff s.closed_basePosition?
  constructor
  · obtain ⟨p, hp⟩ := exists_zip_of_getElem? hm (List.getElem?_eq_getElem hi)
    -- the type that was started from is on its own cycle
    exact List.ne_nil_of_mem (mem_typesAt_iff.mpr ⟨i, (hvisited i).mpr hii, hp⟩)
  · exact typesAt_visited_sublist i
  · -- any other type on the cycle leads back to the first one, and so to all that that one leads to
    intro p hp t
    obtain ⟨k, hk, hkp⟩ := mem_typesAt_iff.mp hp
    have hik := (hvisited k).mp hk
    have hki := transGen_back hii hik.to_reflTransGen
    rw [List.mem_map]
    constructor
    · rintro ⟨q, hq, rfl⟩
      obtain ⟨j, hj, hjq⟩ := mem_typesAt_iff.mp hq
      exact (transGen_positions_iff hn (getElem?_of_zip hkp) (getElem?_of_zip hjq)).mp
        (hki.trans ((hvisited j).mp hj))
    · intro h
      obtain ⟨j, hj, hkj⟩ := positions_of_transGen_isBase hn h (getElem?_of_zip hkp)
      obtain ⟨q, hq⟩ := exists_zip_of_getElem? hm hj
      exact ⟨(t, q), mem_typesAt_iff.mpr ⟨j, (hvisited j).mpr (hik.trans hkj), hq⟩, rfl⟩

/-- A type on one of two inheritance cycles that share a type is on the other. -/
theorem IsCycle.subset (hn : s.entityNames.Nodup) {c d : List (EntityType × TypeSpans)}
    (hc : s.IsCycle m c) (hd : s.IsCycle m d) {p : EntityType × TypeSpans} (hpc : p ∈ c)
    (hpd : p ∈ d) : c ⊆ d := by
  intro q hq
  -- what the shared type leads to by base types is on both
  have hlead := (hc.mem_iff p hpc q.1).mp (List.mem_map_of_mem hq)
  obtain ⟨q', hq', heq⟩ := List.mem_map.mp ((hd.mem_iff p hpd q.1).mpr hlead)
  obtain ⟨i, hi⟩ := List.mem_iff_getElem?.mp (hc.sublist.subset hq)
  obtain ⟨j, hj⟩ := List.mem_iff_getElem?.mp (hd.sublist.subset hq')
  obtain rfl := zip_position_eq hn hi hj (congrArg (·.name) heq.symm)
  obtain rfl := Option.some.inj (hi.symm.trans hj)
  exact hq'

/-- Inheritance cycles that share a type are one cycle. -/
private theorem IsCycle.eq_of_mem (hn : s.entityNames.Nodup) {c d : List (EntityType × TypeSpans)}
    (hc : s.IsCycle m c) (hd : s.IsCycle m d) {p : EntityType × TypeSpans} (hpc : p ∈ c)
    (hpd : p ∈ d) : c = d := by
  -- a cycle is a sublist, so it is told by its members once no type stands twice
  have hnodup : (s.entityTypes.zip m.entityTypes).Nodup := by
    refine List.nodup_iff_getElem?_ne_getElem?.mpr fun i j hij hj heq => ?_
    rw [List.getElem?_eq_getElem hj] at heq
    have := zip_position_eq hn heq (List.getElem?_eq_getElem hj) rfl
    omega
  refine (hnodup.perm_iff_eq_of_sublist hc.sublist hd.sublist).mp ?_
  refine (List.perm_ext_iff_of_nodup (hc.sublist.nodup hnodup) (hd.sublist.nodup hnodup)).mpr ?_
  exact fun q => ⟨fun h => hc.subset hn hd hpc hpd h, fun h => hd.subset hn hc hpd hpc h⟩

/-- The inheritance cycles that are found, as types with their places. -/
def reportedCycles (s : Schema) (m : SourceMap) : List (List (EntityType × TypeSpans)) :=
  s.inheritanceCycles.map (s.typesAt m)

/-- What is found are the nodes on the cycles of base positions. -/
theorem mem_inheritanceCycles_iff {c : List Nat} :
    c ∈ s.inheritanceCycles ↔ ∃ i < s.entityTypes.length,
      Relation.TransGen (Leads s.basePosition?) i i ∧
        c = visited s.basePosition? s.entityTypes.length i :=
  mem_cycles_iff s.closed_basePosition?

/-- The groups of types that are found are the inheritance cycles of the schema. -/
theorem mem_reportedCycles_iff (hn : s.entityNames.Nodup)
    (hm : m.entityTypes.length = s.entityTypes.length) {c : List (EntityType × TypeSpans)} :
    c ∈ s.reportedCycles m ↔ s.IsCycle m c := by
  constructor
  -- each group was visited from a node that leads back to itself
  · intro h
    obtain ⟨_, hc, rfl⟩ := List.mem_map.mp h
    obtain ⟨i, hi, hii, rfl⟩ := mem_inheritanceCycles_iff.mp hc
    exact isCycle_typesAt hn hm hi hii
  · intro h
    obtain ⟨p, hp⟩ := List.exists_mem_of_ne_nil _ h.ne_nil
    obtain ⟨i, hip⟩ := List.mem_iff_getElem?.mp (h.sublist.subset hp)
    have hi := getElem?_of_zip hip
    have hlt := (List.getElem?_eq_some_iff.mp hi).1
    have hii : Relation.TransGen (Leads s.basePosition?) i i :=
      (transGen_positions_iff hn hi hi).mpr ((h.mem_iff p hp p.1).mp (List.mem_map_of_mem hp))
    -- the cycle found from the position of one of its types is the cycle itself
    have hpfound := mem_typesAt_iff.mpr ⟨i, (mem_visited_iff s.closed_basePosition?).mpr hii, hip⟩
    rw [h.eq_of_mem hn (isCycle_typesAt hn hm hlt hii) hp hpfound]
    exact List.mem_map_of_mem (mem_inheritanceCycles_iff.mpr ⟨i, hlt, hii, rfl⟩)

/-- No inheritance cycle is found twice. -/
private theorem nodup_reportedCycles (hn : s.entityNames.Nodup)
    (hm : m.entityTypes.length = s.entityTypes.length) : (s.reportedCycles m).Nodup := by
  refine List.Nodup.map_on (fun c hc d hd heq => ?_) (nodup_cycles s.closed_basePosition?)
  obtain ⟨i, hi, hii, rfl⟩ := mem_inheritanceCycles_iff.mp hc
  obtain ⟨j, hj, hjj, rfl⟩ := mem_inheritanceCycles_iff.mp hd
  -- the type that the first cycle was visited from is one of its types
  obtain ⟨p, hp⟩ := exists_zip_of_getElem? hm (List.getElem?_eq_getElem hi)
  have hmem := mem_typesAt_iff.mpr ⟨i, (mem_visited_iff s.closed_basePosition?).mpr hii, hp⟩
  rw [heq] at hmem
  -- so the first position lies on the second cycle as well
  obtain ⟨k, hk, hkp⟩ := mem_typesAt_iff.mp hmem
  obtain rfl := zip_position_eq hn hp hkp rfl
  exact (visited_eq_of_transGen s.closed_basePosition? hjj
    ((mem_visited_iff s.closed_basePosition?).mp hk)).symm

/-! ### Chains of resolved base types -/

/-- Where names are distinct, base types are resolved to base types. -/
theorem resolvedBase?_eq_some_iff (hn : s.entityNames.Nodup) {t b : EntityType} :
    -- a base type is found by its name, and the name is that of one type only
    s.resolvedBase? t = some b ↔ s.IsBase t b := by
  unfold resolvedBase? IsBase baseName?
  cases t.baseType with
  | none => simp
  | some name =>
    have hok : (s.resolveEntityType name t.name).toOption = some b ↔
        s.resolveEntityType name t.name = .ok b := by
      cases s.resolveEntityType name t.name with
      | error u => simp [Except.toOption]
      | ok c => simp [Except.toOption]
    rw [Option.bind_some, hok, resolveEntityType_eq_ok_iff, findType?_eq_entity_iff,
      find?_key_eq_some_iff hn, Option.map_some, Option.some.injEq]
    exact and_congr_right fun _ => eq_comm

/-- Where no type is its own ancestor, every chain of resolved base types ends before it has come to
    as many types as there are. -/
private theorem exists_end_of_chain (hn : s.entityNames.Nodup)
    (hacyclic : ∀ t ∈ s.entityTypes, ¬ Relation.TransGen s.IsBase t t) {t : EntityType}
    (ht : t ∈ s.entityTypes) :
    ∃ k < s.entityTypes.length, ∃ b,
      walk? s.resolvedBase? k t = some b ∧ s.resolvedBase? b = none := by
  have hclosed : Closed s.resolvedBase? s.entityTypes :=
    fun _ _ h => ((resolvedBase?_eq_some_iff hn).mp h).1
  refine exists_end_of_walk? ?_
  -- a walk past all types would have come to a type twice, and so to its own ancestor
  by_contra hgo
  obtain ⟨n, b, -, hb, hcycle⟩ := exists_walk?_cycle hclosed ht hgo
  have hbb : Relation.TransGen s.IsBase b b :=
    hcycle.lift id fun _ _ h => (resolvedBase?_eq_some_iff hn).mp h
  exact hacyclic b (walk?_mem hclosed ht hb) hbb

end Schema

/-! ### Reports -/

section

variable {s : Schema} {m : SourceMap}

/-- What the positions of some types are reported as. -/
theorem filterMap_entityAt (positions : List Nat) :
    positions.filterMap (entityAt s m) =
      (s.typesAt m positions).map fun p => (p.1.name, p.2.span) := by
  unfold entityAt Schema.typesAt
  rw [List.map_filterMap]

/-- The fault of some types at positions reports these types. -/
private theorem exists_cycleFault? {positions : List Nat} (h : s.typesAt m positions ≠ []) :
    ∃ f, cycleFault? s m positions = some f ∧ f.ReportsCycle (s.typesAt m positions) := by
  cases htypes : s.typesAt m positions with
  | nil => exact absurd htypes h
  | cons p ps =>
    refine ⟨_, cycleFault?_eq_some_iff.mpr ⟨(p.1.name, p.2.span),
      ps.map fun q => (q.1.name, q.2.span), ?_, rfl⟩, ?_⟩
    · rw [filterMap_entityAt, htypes, List.map_cons]
    constructor
    -- the message names all the types
    · rw [Fault.message_diagnostic, Fault.message_cyclicInheritance]
      simp only [List.map_cons, List.map_map, Function.comp_def]
    -- each label points at the place of a type, and only the first is primary
    · simp only [Fault.diagnostic, Fault.contexts, Fault.span, List.map_cons, List.map_map,
        Function.comp_def]
    · simp [Fault.diagnostic, Fault.contexts, Function.comp_def, List.map_const']

/-- The check of inheritance reports the cycles that are found, one by one. -/
theorem reports_reportedCycles (hn : s.entityNames.Nodup)
    (hm : m.entityTypes.length = s.entityTypes.length) :
    List.Forall₂ Fault.ReportsCycle (inheritanceFaults s m) (s.reportedCycles m) := by
  -- a group without types would have no fault, and the pairing would slip
  have hrun : ∀ cycles : List (List Nat), (∀ c ∈ cycles, s.typesAt m c ≠ []) →
      List.Forall₂ Fault.ReportsCycle (cycles.filterMap (cycleFault? s m))
        (cycles.map (s.typesAt m)) := by
    intro cycles
    induction cycles with
    | nil => exact fun _ => .nil
    | cons c cycles ih =>
      intro h
      obtain ⟨hc, hrest⟩ := List.forall_mem_cons.mp h
      obtain ⟨f, hf, hreports⟩ := exists_cycleFault? hc
      rw [List.filterMap_cons, hf]
      exact .cons hreports (ih hrest)
  refine hrun _ fun c hc => ?_
  have hcycle := (Schema.mem_reportedCycles_iff hn hm).mp (List.mem_map_of_mem hc)
  exact hcycle.ne_nil

/-- However the strongly connected components are found and listed, the cycles among them have the
    faults of inheritance. -/
theorem perm_cyclicComponents {components : List (List Nat)}
    (h : StrongComponents s.baseIndex? s.entityTypes.length components) :
    ((cyclicComponents s.baseIndex? components).filterMap (cycleFault? s m)).Perm
      (inheritanceFaults s m) := by
  have hbase : s.basePosition? = s.baseIndex? := funext s.basePosition?_eq
  have hclosed := s.closed_basePosition?
  rw [hbase] at hclosed
  have hcycles : s.inheritanceCycles = cycles s.baseIndex? s.entityTypes.length := by
    rw [← hbase]
    rfl
  rw [inheritanceFaults, hcycles]
  exact (perm_cycles_of_components hclosed h).filterMap _

/-- A fault of inheritance is one of a cycle that is found. -/
theorem mem_validate_cyclicInheritance_iff {first : String × Span}
    {others : List (String × Span)} :
    Fault.cyclicInheritance first others ∈ validate s m ↔
      ∃ c ∈ s.reportedCycles m, first :: others = c.map fun p => (p.1.name, p.2.span) := by
  have hfilter : Fault.cyclicInheritance first others ∈ validate s m ↔
      Fault.cyclicInheritance first others ∈ inheritanceFaults s m := by
    rw [← filter_cyclicInheritance_validate, List.mem_filter]
    simp [Fault.code]
  rw [hfilter, inheritanceFaults, List.mem_filterMap]
  simp only [Schema.reportedCycles, List.mem_map, exists_exists_and_eq_and]
  refine exists_congr fun c => and_congr_right fun _ => ?_
  rw [cycleFault?_eq_some_iff, filterMap_entityAt]
  constructor
  · rintro ⟨_, _, h, heq⟩
    obtain ⟨rfl, rfl⟩ := Fault.cyclicInheritance.inj heq
    exact h.symm
  · exact fun h => ⟨first, others, h.symm, rfl⟩

/-- Where names are distinct, a type with its place is in a fault of inheritance exactly if it is
    its own ancestor. -/
private theorem labelled_iff (hn : s.entityNames.Nodup)
    (hm : m.entityTypes.length = s.entityTypes.length)
    {p : EntityType × TypeSpans} (hp : p ∈ s.entityTypes.zip m.entityTypes) :
    (∃ first others, Fault.cyclicInheritance first others ∈ validate s m ∧
      (p.1.name, p.2.span) ∈ first :: others) ↔ Relation.TransGen s.IsBase p.1 p.1 := by
  obtain ⟨i, hi⟩ := List.mem_iff_getElem?.mp hp
  constructor
  · rintro ⟨first, others, hfault, hmem⟩
    -- a label belongs to a type of some cycle, and that type is the one with this name
    obtain ⟨c, hc, heq⟩ := mem_validate_cyclicInheritance_iff.mp hfault
    have hcycle := (Schema.mem_reportedCycles_iff hn hm).mp hc
    rw [heq] at hmem
    obtain ⟨q, hq, hname⟩ := List.mem_map.mp hmem
    obtain ⟨j, hj⟩ := List.mem_iff_getElem?.mp (hcycle.sublist.subset hq)
    obtain rfl := Schema.zip_position_eq hn hi hj (Prod.mk.inj hname).1.symm
    obtain rfl := Option.some.inj (hi.symm.trans hj)
    exact (hcycle.mem_iff p hq p.1).mp (List.mem_map_of_mem hq)
  · intro h
    -- the type leads back to its own position, and the cycle visited from there is found
    have hii := (Schema.transGen_positions_iff hn (Schema.getElem?_of_zip hi)
      (Schema.getElem?_of_zip hi)).mpr h
    have hlt := (List.getElem?_eq_some_iff.mp (Schema.getElem?_of_zip hi)).1
    have hfound := List.mem_map_of_mem (f := s.typesAt m)
      (Schema.mem_inheritanceCycles_iff.mpr ⟨i, hlt, hii, rfl⟩)
    have hmem := Schema.mem_typesAt_iff.mpr
      ⟨i, (mem_visited_iff s.closed_basePosition?).mpr hii, hi⟩
    cases hc : (s.typesAt m (visited s.basePosition? s.entityTypes.length i)).map
        fun q => (q.1.name, q.2.span) with
    | nil =>
      -- a cycle is reported only where it has a type with a place
      rw [List.map_eq_nil_iff.mp hc] at hmem
      exact absurd hmem List.not_mem_nil
    | cons first others =>
      refine ⟨first, others, mem_validate_cyclicInheritance_iff.mpr ⟨_, hfound, hc.symm⟩, ?_⟩
      rw [← hc]
      exact List.mem_map.mpr ⟨p, hmem, rfl⟩

/-- Where the names of the entity types are distinct, the faults of inheritance are one for each
    inheritance cycle, which names and points at the types of the cycle in the order of the schema,
    at the first as the construct at fault; they are those of the cycles among the strongly
    connected components of the graph of base types, in whatever order these are found.  A type is
    in one exactly if following base types from it leads back to it.  Without such a fault the chain
    of base types from every type ends before it has come to as many types as there are. -/
theorem cycles_are_reported_once (hn : s.entityNames.Nodup)
    (hm : m.entityTypes.length = s.entityTypes.length) :
    (∃ cs : List (List (EntityType × TypeSpans)), cs.Nodup ∧ (∀ c, c ∈ cs ↔ s.IsCycle m c) ∧
      List.Forall₂ Fault.ReportsCycle
        ((validate s m).filter fun f => f.code = .cyclicInheritance) cs) ∧
    (∀ components, StrongComponents s.baseIndex? s.entityTypes.length components →
      ((cyclicComponents s.baseIndex? components).filterMap (cycleFault? s m)).Perm
        ((validate s m).filter fun f => f.code = .cyclicInheritance)) ∧
    (∀ p ∈ s.entityTypes.zip m.entityTypes,
      (∃ first others, Fault.cyclicInheritance first others ∈ validate s m ∧
        (p.1.name, p.2.span) ∈ first :: others) ↔ Relation.TransGen s.IsBase p.1 p.1) ∧
    ((∀ f ∈ validate s m, f.code ≠ .cyclicInheritance) → ∀ t ∈ s.entityTypes,
      ∃ k < s.entityTypes.length, ∃ b,
        walk? s.resolvedBase? k t = some b ∧ s.resolvedBase? b = none) := by
  refine ⟨⟨s.reportedCycles m, Schema.nodup_reportedCycles hn hm, ?_, ?_⟩, ?_, ?_, ?_⟩
  · exact fun c => Schema.mem_reportedCycles_iff hn hm
  · rw [filter_cyclicInheritance_validate]
    exact reports_reportedCycles hn hm
  · intro components h
    rw [filter_cyclicInheritance_validate]
    exact perm_cyclicComponents h
  · exact fun p hp => labelled_iff hn hm hp
  · intro hno t ht
    have hnil : inheritanceFaults s m = [] := by
      rw [← filter_cyclicInheritance_validate, List.filter_eq_nil_iff]
      exact fun f hf => by simpa using hno f hf
    have hcycles := (inheritanceFaults_eq_nil_iff hm).mp hnil
    exact Schema.exists_end_of_chain hn ((Schema.inheritanceCycles_eq_nil_iff hn).mp hcycles) ht

end

/-- An entity type that is the base type of no other. -/
def chainTail : EntityType := { name := "Tail", baseType := some "First" }

/-- Three entity types, each the base type of the one before it; the base type of the last is
    given. -/
def chainSchema (last : Option String) : Schema where
  name := "Chain"
  entityTypes :=
    [chainTail, { name := "First", baseType := some "Chain.Second" },
      { name := "Second", baseType := last }]

/-- Places for the types of `chainSchema`. -/
def chainPlaces : SourceMap where
  entityTypes :=
    [{ span := ⟨0, 1, by omega⟩ }, { span := ⟨1, 2, by omega⟩ }, { span := ⟨2, 3, by omega⟩ }]

/-- The base positions of `chainSchema` where the last type inherits from the second. -/
theorem leads_chain_iff {i j : Nat} :
    Leads (chainSchema (some "First")).baseIndex? i j ↔
      i = 0 ∧ j = 1 ∨ i = 1 ∧ j = 2 ∨ i = 2 ∧ j = 1 := by
  have h0 : (chainSchema (some "First")).baseIndex? 0 = some 1 := by decide +kernel
  have h1 : (chainSchema (some "First")).baseIndex? 1 = some 2 := by decide +kernel
  have h2 : (chainSchema (some "First")).baseIndex? 2 = some 1 := by decide +kernel
  unfold Leads
  match i with
  | 0 => simp [h0, eq_comm]
  | 1 => simp [h1, eq_comm]
  | 2 => simp [h2, eq_comm]
  | i + 3 => simp [Schema.baseIndex?, chainSchema]

/-- There the last two types form a component, and the first one a component of its own. -/
private theorem components_chain :
    StrongComponents (chainSchema (some "First")).baseIndex? 3 [[2, 1], [0]] := by
  -- the last two types lead to each other and to nothing else
  have hcycle : ∀ i j, (i = 1 ∨ i = 2) →
      Relation.ReflTransGen (Leads (chainSchema (some "First")).baseIndex?) i j →
      j = 1 ∨ j = 2 := by
    intro i j hi hij
    induction hij with
    | refl => exact hi
    | tail _ hstep ih =>
      have := leads_chain_iff.mp hstep
      omega
  -- no type has the first one as its base
  have hstart : ∀ j, Relation.ReflTransGen (Leads (chainSchema (some "First")).baseIndex?) j 0 →
      j = 0 := by
    intro j hj
    rcases hj.cases_tail with h | ⟨k, -, hstep⟩
    · exact h.symm
    · have := leads_chain_iff.mp hstep
      omega
  have hforth : Leads (chainSchema (some "First")).baseIndex? 1 2 := leads_chain_iff.mpr (by omega)
  have hback : Leads (chainSchema (some "First")).baseIndex? 2 1 := leads_chain_iff.mpr (by omega)
  -- from either of the two the other can be reached, and each from itself
  have hround : ∀ i j, (i = 1 ∨ i = 2) → (j = 1 ∨ j = 2) →
      Relation.ReflTransGen (Leads (chainSchema (some "First")).baseIndex?) i j := by
    rintro i j (rfl | rfl) (rfl | rfl)
    · exact .refl
    · exact .single hforth
    · exact .single hback
    · exact .refl
  refine ⟨by decide, fun i => ?_, fun c hc i hi j => ?_⟩
  · simp only [List.flatten_cons, List.flatten_nil, List.append_nil, List.cons_append,
      List.nil_append, List.mem_cons, List.not_mem_nil, or_false]
    omega
  · rw [List.mem_cons, List.mem_singleton] at hc
    rcases hc with rfl | rfl
    · simp only [List.mem_cons, List.not_mem_nil, or_false] at hi ⊢
      constructor
      · exact fun hj => ⟨hround i j hi.symm hj.symm, hround j i hj.symm hi.symm⟩
      · exact fun h => (hcycle i j hi.symm h.1).symm
    · obtain rfl := List.mem_singleton.mp hi
      rw [List.mem_singleton]
      constructor
      · rintro rfl
        exact ⟨.refl, .refl⟩
      · exact fun h => hstart j h.2

/-- Two types that inherit from each other are one cycle, reported once, and the type that leads
    into it is not reported; where the last type has no base type, the chain from the first ends. -/
theorem tail_of_cycle_is_not_reported :
    (chainSchema (some "First")).entityNames.Nodup ∧ (chainSchema none).entityNames.Nodup ∧
    chainPlaces.entityTypes.length = 3 ∧
    ((validate (chainSchema (some "First")) chainPlaces).filter
      fun f => f.code = .cyclicInheritance) =
        [.cyclicInheritance ("First", ⟨1, 2, by omega⟩) [("Second", ⟨2, 3, by omega⟩)]] ∧
    (∃! c, (chainSchema (some "First")).IsCycle chainPlaces c) ∧
    ((cyclicComponents (chainSchema (some "First")).baseIndex? [[2, 1], [0]]).filterMap
      (cycleFault? (chainSchema (some "First")) chainPlaces)).Perm
        [.cyclicInheritance ("First", ⟨1, 2, by omega⟩) [("Second", ⟨2, 3, by omega⟩)]] ∧
    ¬ Relation.TransGen (chainSchema (some "First")).IsBase chainTail chainTail ∧
    ∃ k < 3, ∃ b, walk? (chainSchema none).resolvedBase? k chainTail = some b ∧
      (chainSchema none).resolvedBase? b = none := by
  have hn : (chainSchema (some "First")).entityNames.Nodup := by decide
  have hn' : (chainSchema none).entityNames.Nodup := by decide
  have hfaults : ((validate (chainSchema (some "First")) chainPlaces).filter
      fun f => f.code = .cyclicInheritance) =
        [.cyclicInheritance ("First", ⟨1, 2, by omega⟩) [("Second", ⟨2, 3, by omega⟩)]] := by
    decide +kernel
  obtain ⟨⟨cs, -, hcs, hreports⟩, hcomponents, hlabels, -⟩ :=
    cycles_are_reported_once (m := chainPlaces) hn rfl
  obtain ⟨-, -, -, hends⟩ := cycles_are_reported_once (m := chainPlaces) hn' rfl
  refine ⟨hn, hn', rfl, hfaults, ?_, ?_, ?_, ?_⟩
  -- one fault stands for one cycle, so there is exactly one
  · rw [hfaults] at hreports
    obtain ⟨c, rest, -, hnil, rfl⟩ := List.forall₂_cons_left_iff.mp hreports
    obtain rfl := List.forall₂_nil_left_iff.mp hnil
    refine ⟨c, (hcs c).mp List.mem_cons_self, fun d hd => ?_⟩
    exact List.mem_singleton.mp ((hcs d).mpr hd)
  · rw [← hfaults]
    exact hcomponents _ components_chain
  · have htail := hlabels (chainTail, { span := ⟨0, 1, by omega⟩ }) List.mem_cons_self
    rw [← htail]
    -- a fault that labels the first type would be the one there is, and that does not
    rintro ⟨first, others, hfault, hmem⟩
    have hone : Fault.cyclicInheritance first others ∈
        (validate (chainSchema (some "First")) chainPlaces).filter
          fun f => f.code = .cyclicInheritance :=
      List.mem_filter.mpr ⟨hfault, decide_eq_true rfl⟩
    rw [hfaults, List.mem_singleton] at hone
    obtain ⟨rfl, rfl⟩ := Fault.cyclicInheritance.inj hone
    exact absurd hmem (by decide)
  · exact hends (by decide +kernel) chainTail List.mem_cons_self

end EntityModel
