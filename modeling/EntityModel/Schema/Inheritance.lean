import EntityModel.Schema.Basic
import EntityModel.Schema.Fault
import EntityModel.Schema.SourceMap

/-! # Base types

Every entity type has at most one base type, so following base types from a type is a walk that
either stops or runs into a cycle.  Cycles are found by walking as many steps as there are types:
a walk that is still going then has arrived in one.

* `trail_length_le`      a walk is no longer than asked for
* `ancestorDeclares`     whether a type or one of its ancestors declares a property
* `inheritanceCycles`    the cycles, in the order in which the types of the schema lead into them -/

namespace EntityModel

/-! ### Walks along a partial successor function -/

/-- The first `steps` stations of the walk from `i`, which ends early where there is no next. -/
def trail (next : Nat → Option Nat) : Nat → Nat → List Nat
  | 0, _ => []
  | steps + 1, i =>
    match next i with
    | none => []
    | some j => j :: trail next steps j

/-- A walk is no longer than asked for. -/
theorem trail_length_le (next : Nat → Option Nat) (steps i : Nat) :
    (trail next steps i).length ≤ steps := by
  induction steps generalizing i with
  | zero => simp [trail]
  | succ k ih =>
    simp only [trail]
    split
    · simp
    · simp only [List.length_cons]
      have := ih ‹Nat›
      omega

/-- Where the walk from `i` is after as many steps as there are nodes, if it is still going. -/
def landing? (next : Nat → Option Nat) (count i : Nat) : Option Nat :=
  let stations := trail next count i
  if stations.length = count then stations.getLast? else none

/-- The nodes below `count` that the walk from `i` visits, in increasing order. -/
def visited (next : Nat → Option Nat) (count i : Nat) : List Nat :=
  let stations := trail next count i
  (List.range count).filter stations.contains

/-- The cycles found before, and the one that the walk from `i` leads into if it is a new one. -/
def addCycle (next : Nat → Option Nat) (count : Nat) (found : List (List Nat)) (i : Nat) :
    List (List Nat) :=
  match landing? next count i with
  | none => found
  | some j =>
    -- several nodes can lead into one cycle
    if found.any (·.contains j) then found else found ++ [visited next count j]

/-- The cycles among the nodes below `count`: each once, in the order of the first node that leads
    into it, its members in increasing order. -/
def cycles (next : Nat → Option Nat) (count : Nat) : List (List Nat) :=
  (List.range count).foldl (addCycle next count) []

/-! ### Base types of a schema -/

namespace Schema

/-- The position of the first entity type of the given name. -/
def entityIndex? (s : Schema) (name : String) : Option Nat :=
  s.entityTypes.findIdx? fun t => t.name == name

/-- The position of the base type of the entity type at position `i`.  Only the first type of a name
    has a base in this sense, and the base is the first type of its name. -/
def baseIndex? (s : Schema) (i : Nat) : Option Nat :=
  (s.entityTypes[i]?).bind fun t =>
    if s.entityIndex? t.name = some i then (s.baseName? t).bind s.entityIndex? else none

/-- The base positions of all entity types, as a table. -/
def baseTable (s : Schema) : Array (Option Nat) :=
  ((List.range s.entityTypes.length).map s.baseIndex?).toArray

/-- The inheritance cycles of a schema, by the positions of the entity types in them. -/
def inheritanceCycles (s : Schema) : List (List Nat) :=
  let table := s.baseTable
  cycles (fun i => (table[i]?).join) s.entityTypes.length

/-- The last entity type of the given name. -/
def lastEntityType? (s : Schema) (name : String) : Option EntityType :=
  s.entityTypes.reverse.find? fun t => t.name == name

/-- Whether `t` declares the property or, following base types, one of its ancestors does.  A name
    met again ends the walk, which therefore needs no more steps than there are types. -/
def declaresWithin (s : Schema) (property : String) : Nat → List String → EntityType → Bool
  | 0, _, _ => false
  | steps + 1, met, t =>
    -- a walk that comes back to a name has gone round a cycle
    if met.contains t.name then false
    else if t.declares property then true
    else
      match (s.baseName? t).bind s.lastEntityType? with
      | none => false
      | some base => declaresWithin s property steps (t.name :: met) base

/-- Whether the entity type or one of its ancestors declares the property. -/
def ancestorDeclares (s : Schema) (t : EntityType) (property : String) : Bool :=
  s.declaresWithin property (s.entityTypes.length + 1) [] t

end Schema

/-! ### Faults -/

/-- The name and the span of the entity type at a position. -/
def entityAt (s : Schema) (m : SourceMap) (i : Nat) : Option (String × Span) :=
  (s.entityTypes.zip m.entityTypes)[i]?.map fun (t, spans) => (t.name, spans.span)

/-- The fault of one inheritance cycle. -/
def cycleFault? (s : Schema) (m : SourceMap) (members : List Nat) : Option Fault :=
  match members.filterMap (entityAt s m) with
  | [] => none
  | first :: others => some (.cyclicInheritance first others)

/-- A cycle is reported where it has a type with a place, with all such types. -/
theorem cycleFault?_eq_some_iff {s : Schema} {m : SourceMap} {members : List Nat} {f : Fault} :
    cycleFault? s m members = some f ↔
      ∃ first others, members.filterMap (entityAt s m) = first :: others ∧
        f = .cyclicInheritance first others := by
  unfold cycleFault?
  cases members.filterMap (entityAt s m) with
  | nil => simp
  | cons first others =>
    constructor
    · intro h
      exact ⟨first, others, rfl, (Option.some.inj h).symm⟩
    · rintro ⟨_, _, h, rfl⟩
      obtain ⟨rfl, rfl⟩ := List.cons.inj h
      rfl

/-- The inheritance cycles of a schema. -/
def inheritanceFaults (s : Schema) (m : SourceMap) : List Fault :=
  s.inheritanceCycles.filterMap (cycleFault? s m)

/-- Keys that name a property which neither the type nor an ancestor declares. -/
def keyFaults (s : Schema) (m : SourceMap) : List Fault :=
  (s.entityTypes.zip m.entityTypes).flatMap fun (t, spans) =>
    ((t.key.getD []).filter fun name => !s.ancestorDeclares t name).map fun name =>
      .undefinedKey t.name name (spans.key.getD spans.span)

end EntityModel
