import EntityModel.Settings.Value

/-! # TOML: tables

The tables of a TOML document while it is read.  A name stands for a value, a table or an array of
tables, and what may still be said of it depends on how it came up: a table is opened by its header
once, a header or a name with dots makes the tables on its way, and a name with dots adds only to
tables that no header has opened.

* `keys_alter`      a name is given its node, at the end where it is new
* `nodup_along`     and no name stands twice -/

namespace EntityModel.Toml

/-- How a table came up: on the way of a header, by a header of its own, or on the way of a name
    with dots. -/
inductive Origin where
  | implied
  | header
  | dotted
deriving DecidableEq, Repr

/-- What a name stands for: a value that is complete, a table, or an array of tables with the one
    under its last header apart and the others before it, last first. -/
inductive Node where
  | value (v : Value)
  | table (origin : Origin) (fields : List (String × Node))
  | tables (earlier : List (List (String × Node))) (last : List (String × Node))

/-- The names of a table with what they stand for. -/
abbrev Fields := List (String × Node)

mutual

/-- The value that a name stands for in the end. -/
def Node.toValue : Node → Value
  | .value v => v
  | .table _ fields => .map (fieldValues fields)
  | .tables earlier last => .sequence (tableValues earlier [.map (fieldValues last)])

/-- The names of a table with their values. -/
def fieldValues : List (String × Node) → List (String × Value)
  | [] => []
  | (name, node) :: rest => (name, node.toValue) :: fieldValues rest

/-- The tables of an array in their order, in front of others. -/
def tableValues : List (List (String × Node)) → List Value → List Value
  | [], behind => behind
  | fields :: earlier, behind => tableValues earlier (.map (fieldValues fields) :: behind)

end

/-! ### What a statement does -/

/-- Change what a name stands for, or add the name behind the others. -/
def alter (f : Option Node → Option Node) (name : String) : Fields → Option Fields
  | [] => (f none).map fun node => [(name, node)]
  | (key, node) :: rest =>
    if key = name then (f (some node)).map fun node => (key, node) :: rest
    else (alter f name rest).map ((key, node) :: ·)

/-- Go through a name on the way of a header.  In an array of tables the way leads through the last
    of them. -/
def throughHeader (f : Fields → Option Fields) : Option Node → Option Node
  | none => (f []).map (.table .implied)
  | some (.table origin fields) => (f fields).map (.table origin)
  | some (.tables earlier last) => (f last).map (.tables earlier)
  | some (.value _) => none

/-- Go through a name on the way of a name with dots, which may not lead into what a header has
    opened. -/
def throughDots (f : Fields → Option Fields) : Option Node → Option Node
  | none => (f []).map (.table .dotted)
  | some (.table .header _) => none
  | some (.table _ fields) => (f fields).map (.table .dotted)
  | some (.tables ..) | some (.value _) => none

/-- Do something to the table at the end of a way. -/
def along (through : (Fields → Option Fields) → Option Node → Option Node)
    (f : Fields → Option Fields) : List String → Fields → Option Fields
  | [] => f
  | name :: rest => alter (through (along through f rest)) name

/-- A value for a name that is new. -/
def newValue (v : Value) : Option Node → Option Node
  | none => some (.value v)
  | some _ => none

/-- A table under its own header, which may have been on the way of others before. -/
def newTable : Option Node → Option Node
  | none => some (.table .header [])
  | some (.table .implied fields) => some (.table .header fields)
  | some _ => none

/-- One more table in an array of them. -/
def newItem : Option Node → Option Node
  | none => some (.tables [] [])
  | some (.tables earlier last) => some (.tables (last :: earlier) [])
  | some _ => none

/-- A name, with the names in front of it if it has dots. -/
structure Path where
  way : List String
  name : String

/-- Add a named value to a table. -/
def addEntry (path : Path) (v : Value) : Fields → Option Fields :=
  along throughDots (alter (newValue v) path.name) path.way

/-- Open a table. -/
def openTable (path : Path) : Fields → Option Fields :=
  along throughHeader (alter newTable path.name) path.way

/-- Open the next table of an array. -/
def openItem (path : Path) : Fields → Option Fields :=
  along throughHeader (alter newItem path.name) path.way

/-! ### Names stand once -/

variable {f : Option Node → Option Node} {name : String} {fields after : Fields}

/-- A name is given its node where it stands, or behind all others where it is new. -/
theorem keys_alter (h : alter f name fields = some after) :
    after.map (·.1) = fields.map (·.1) ∨
      name ∉ fields.map (·.1) ∧ after.map (·.1) = fields.map (·.1) ++ [name] := by
  induction fields generalizing after with
  | nil =>
    obtain ⟨node, -, rfl⟩ := Option.map_eq_some_iff.mp h
    exact .inr ⟨List.not_mem_nil, rfl⟩
  | cons head rest ih =>
    obtain ⟨key, node⟩ := head
    rw [alter] at h
    split at h
    · obtain ⟨new, -, rfl⟩ := Option.map_eq_some_iff.mp h
      exact .inl rfl
    · next hne =>
      obtain ⟨rest', hrest, rfl⟩ := Option.map_eq_some_iff.mp h
      obtain hsame | ⟨hnew, hadded⟩ := ih hrest
      · exact .inl (congrArg (key :: ·) hsame)
      · exact .inr ⟨fun hmem => (List.mem_cons.mp hmem).elim (fun he => hne he.symm) hnew,
          congrArg (key :: ·) hadded⟩

/-- No name stands twice where one is changed or added. -/
theorem nodup_alter (hn : (fields.map (·.1)).Nodup) (h : alter f name fields = some after) :
    (after.map (·.1)).Nodup := by
  obtain hsame | ⟨hnew, hadded⟩ := keys_alter h
  · rwa [hsame]
  · rw [hadded, List.nodup_append]
    refine ⟨hn, by simp, fun a ha b hb => ?_⟩
    rw [List.mem_singleton.mp hb]
    rintro rfl
    exact hnew ha

/-- What is done at the end of a way leaves the names of the table it starts from distinct. -/
theorem nodup_along {through : (Fields → Option Fields) → Option Node → Option Node}
    {way : List String} (hn : (fields.map (·.1)).Nodup)
    (h : along through (alter f name) way fields = some after) : (after.map (·.1)).Nodup := by
  cases way with
  | nil => exact nodup_alter hn h
  | cons first rest => exact nodup_alter hn h

@[simp] theorem keys_fieldValues (fields : Fields) :
    (fieldValues fields).map (·.1) = fields.map (·.1) := by
  induction fields with
  | nil => rfl
  | cons head rest ih => exact congrArg (head.1 :: ·) ih

end EntityModel.Toml
