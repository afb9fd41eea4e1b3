import EntityModel.Settings.Toml.Scalar
import EntityModel.Settings.Toml.Table

/-! # TOML settings files

A settings file is a TOML document (version 1.1): named values and headers of tables, each on lines
of its own.  `parse` reads it into structured data, and any other text into nothing.

* `value`                  reads a value, arrays and inline tables included
* `Document.add`           what a statement does to the tables
* `nodup_names_of_parse`   the names of a document are distinct -/

namespace EntityModel.Toml

open Reader

/-! ### Blanks and comments -/

/-- Take the blanks in front. -/
def skipGap : Reader Unit := discard (takeWhile isGap)

/-- Take the blanks, line ends and comments in front; the flag tells that a comment is open. -/
def skipFrom (inComment : Bool) : Reader Unit
  | [] => some ((), [])
  | c :: rest =>
    if c = '\n' then skipFrom false rest
    else if inComment then if isControl c then none else skipFrom true rest
    else if isGap c then skipFrom false rest
    else if c = '#' then skipFrom true rest
    else some ((), c :: rest)

/-- Take the blanks, line ends and comments in front. -/
def skipLines : Reader Unit := skipFrom false

/-- Take the blanks in front, behind which the line has to end. -/
def endLine : Reader Unit := do
  skipGap
  match ← peek? with
  | none | some '\n' | some '#' => return
  | _ => failure

/-! ### Names -/

/-- The characters of a name without quotes. -/
def isBare (c : Char) : Bool := c.isAlphanum || c == '_' || c == '-'

/-- Take a name.  One in quotes stands on one line. -/
def simpleName : Reader String := do
  match ← get with
  | '"' :: '"' :: '"' :: _ | '\'' :: '\'' :: '\'' :: _ => failure
  | '"' :: _ | '\'' :: _ => text
  | _ =>
    let name ← takeWhile isBare
    guard !name.isEmpty
    return String.ofList name

/-- Take a name that may have dots, at most as many as there are rounds, with the names `way` in
    front of it. -/
def pathFrom (way : List String) : Nat → Reader Path
  | 0 => failure
  | rounds + 1 => do
    let name ← simpleName
    skipGap
    if ← accept ['.'] then
      skipGap
      pathFrom (way ++ [name]) rounds
    else return ⟨way, name⟩

/-- Take a name that may have dots. -/
def path : Reader Path := do pathFrom [] ((← get).length + 1)

/-! ### Values -/

/-- Take items up to the bracket that closes them, at most as many as there are rounds.  Commas
    separate them, and one may stand behind the last. -/
def itemsFrom {α : Type} (item : Reader α) (close : Char) : Nat → Reader (List α)
  | 0 => failure
  | rounds + 1 => do
    skipLines
    if ← accept [close] then return []
    let first ← item
    skipLines
    if ← accept [','] then return first :: (← itemsFrom item close rounds)
    expect [close]
    return [first]

/-- Take items up to the bracket that closes them. -/
def items {α : Type} (item : Reader α) (close : Char) : Reader (List α) := do
  itemsFrom item close ((← get).length + 1)

/-- Take a named value. -/
def entry (value : Reader Value) : Reader (Path × Value) := do
  let path ← path
  expect ['=']
  skipGap
  return (path, ← value)

/-- The value of an inline table. -/
def inlineTable (entries : List (Path × Value)) : Option Value :=
  (entries.foldlM (fun fields (path, v) => addEntry path v fields) []).map fun fields =>
    .map (fieldValues fields)

/-- Take a value in which arrays and inline tables lie within each other no deeper than `depth`. -/
def valueWithin : Nat → Reader Value
  | 0 => failure
  | depth + 1 => do
    match ← peek? with
    | some '"' | some '\'' => return .text (← text)
    | some '[' =>
      discard next
      return .sequence (← items (valueWithin depth) ']')
    | some '\x7b' =>
      discard next
      inlineTable (← items (entry (valueWithin depth)) '\x7d')
    | _ => wordValue? (← word)

/-- Take a value. -/
def value : Reader Value := do valueWithin ((← get).length + 1)

/-! ### Documents -/

/-- What stands on a line of its own. -/
inductive Statement where
  | entry (path : Path) (value : Value)
  | header (path : Path)
  | itemHeader (path : Path)

/-- Take a statement. -/
def statement : Reader Statement := do
  if ← accept ['[', '['] then
    skipGap
    let path ← path
    expect [']', ']']
    return .itemHeader path
  else if ← accept ['['] then
    skipGap
    let path ← path
    expect [']']
    return .header path
  else
    let (path, v) ← entry value
    return .entry path v

/-- The tables of a document, and the way to the one that the last header opened. -/
structure Document where
  fields : Fields := []
  opened : List String := []

namespace Document

/-- Add what a statement says.  A named value belongs to the table that is open. -/
def add (d : Document) : Statement → Option Document
  | .entry path v =>
    (along throughHeader (addEntry path v) d.opened d.fields).map fun fields =>
      { d with fields := fields }
  | .header path => (openTable path d.fields).map fun fields => ⟨fields, path.way ++ [path.name]⟩
  | .itemHeader path =>
    (openItem path d.fields).map fun fields => ⟨fields, path.way ++ [path.name]⟩

/-- A statement leaves the names of a document distinct. -/
theorem nodup_add {d after : Document} {s : Statement} (hn : (d.fields.map (·.1)).Nodup)
    (h : d.add s = some after) : (after.fields.map (·.1)).Nodup := by
  cases s with
  | entry path v =>
    obtain ⟨fields, hfields, rfl⟩ := Option.map_eq_some_iff.mp h
    -- outside of all tables the name itself is added there, else only the way is gone
    cases hopened : d.opened with
    | nil => exact nodup_along hn (hopened ▸ hfields)
    | cons first rest => exact nodup_alter hn (hopened ▸ hfields)
  | header path =>
    obtain ⟨fields, hfields, rfl⟩ := Option.map_eq_some_iff.mp h
    exact nodup_along hn hfields
  | itemHeader path =>
    obtain ⟨fields, hfields, rfl⟩ := Option.map_eq_some_iff.mp h
    exact nodup_along hn hfields

/-- Read statements, at most as many as there are rounds, up to the end of the text. -/
def read : Nat → Document → Reader Document
  | 0, _ => failure
  | rounds + 1, d => do
    skipLines
    if (← get).isEmpty then return d
    let s ← statement
    endLine
    let d ← d.add s
    read rounds d

/-- Whatever is read, the names stay distinct. -/
theorem nodup_read {rounds : Nat} {d after : Document} {cs rest : List Char}
    (hn : (d.fields.map (·.1)).Nodup) (h : (read rounds d).run cs = some (after, rest)) :
    (after.fields.map (·.1)).Nodup := by
  induction rounds generalizing d cs with
  | zero => exact nomatch h
  | succ rounds ih =>
    obtain ⟨⟨⟩, afterLines, -, h⟩ := run_bind_eq_some_iff.mp h
    obtain ⟨left, afterLook, -, h⟩ := run_bind_eq_some_iff.mp h
    split at h
    -- at the end of the text nothing is added
    · obtain ⟨rfl, -⟩ := Prod.mk.inj (Option.some.inj h)
      exact hn
    · obtain ⟨s, afterStatement, -, h⟩ := run_bind_eq_some_iff.mp h
      obtain ⟨⟨⟩, afterLine, -, h⟩ := run_bind_eq_some_iff.mp h
      obtain ⟨next, left, hadd, h⟩ := run_bind_eq_some_iff.mp h
      obtain ⟨added, hadded, hnext⟩ := Option.bind_eq_some_iff.mp hadd
      obtain ⟨rfl, -⟩ := Prod.mk.inj (Option.some.inj hnext)
      exact ih (nodup_add hn hadded) h

end Document

/-- A text less the byte order mark in front of it. -/
def dropMark : List Char → List Char
  | '\uFEFF' :: cs => cs
  | cs => cs

/-- A text with a line feed alone at the end of each line. -/
def unifyLines : List Char → List Char
  | [] => []
  | '\r' :: '\n' :: cs => '\n' :: unifyLines cs
  | c :: cs => c :: unifyLines cs

/-- The values of a document. -/
def parse (source : String) : Option Value :=
  let cs := unifyLines (dropMark source.toList)
  ((Document.read (cs.length + 1) {}).run' cs).map fun d => .map (fieldValues d.fields)

/-- The names in a document are distinct, so a setting has one value there at most. -/
theorem nodup_names_of_parse {source : String} {fields : List (String × Value)}
    (h : parse source = some (.map fields)) : (fields.map (·.1)).Nodup := by
  obtain ⟨d, hd, heq⟩ := Option.map_eq_some_iff.mp h
  obtain ⟨⟨_, rest⟩, hread, rfl⟩ := Option.map_eq_some_iff.mp hd
  rw [← Value.map.inj heq, keys_fieldValues]
  exact Document.nodup_read (d := {}) List.nodup_nil hread

/-- Settings files are TOML documents. -/
instance settingsFormat : SettingsFormat := ⟨parse⟩

end EntityModel.Toml
