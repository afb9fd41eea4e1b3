import EntityModel.Log
import EntityModel.Markup.Document
import EntityModel.Schema.OfElement
import EntityModel.Schema.Validation

/-! # From a document to a schema

A model document is read in three stages: its element tree, the schema in it, the rules of that
schema.  A fault of the first stage stands alone; those of the other two are gathered, and the
schema is handed out only if there are none.

* `faultsOf_eq`      the faults of a schema element are those of reading it and of its rules
* `parse_eq_ok_iff`  a document is accepted exactly when its schema element has no fault -/

namespace EntityModel.Model

open Markup (Element)

/-- No element of a document is a conceptual schema. -/
def missingSchema (root : Element) : Diagnostic :=
  ((Diagnostic.error .missingSchema "no conceptual model `Schema` element found").withLabel
    root.span "in this document").withHelp
    "expected a `Schema` root or `Edmx/Runtime/ConceptualModels/Schema`"

/-- The conceptual schema element of a document, or what is wrong with the document. -/
def schemaElement (source : String) : Except (List Diagnostic) Element :=
  match Markup.parse source with
  | .error f => .error [f.diagnostic]
  | .ok root =>
    match schemaElement? root with
    | none => .error [missingSchema root]
    | some e => .ok e

/-- Everything wrong with a schema element: what could not be read and which rules are broken. -/
def faultsOf (e : Element) : List Fault :=
  let r := Schema.read e
  r.faults ++ validate r.value.1 r.value.2

/-- The schema of a document, or everything that is wrong with it. -/
def parse (source : String) : Except (List Diagnostic) Schema := do
  let e ← schemaElement source
  if (faultsOf e).isEmpty then .ok (Schema.read e).value.1
  else .error ((faultsOf e).map Fault.diagnostic)

/-- A record of each inheritance cycle among some faults. -/
def cycleRecords (faults : List Fault) : List Record :=
  faults.filterMap fun f =>
    match f with
    | .cyclicInheritance first others =>
      some ⟨.debug, "Inheritance cycle detected",
        [("types", Fault.quotedNames ((first :: others).map (·.1)))]⟩
    | _ => none

/-- The record of an accepted schema. -/
def parsedRecord (s : Schema) : Record :=
  ⟨.info, "Schema parsed",
    [("namespace", s.name), ("entity_types", toString s.entityTypes.length),
      ("associations", toString s.associations.length)]⟩

/-- The records written while a document is read. -/
def parseRecords (source : String) : List Record :=
  match schemaElement source with
  | .error _ => []
  | .ok e =>
    let s := (Schema.read e).value.1
    ⟨.debug, "Reading schema", [("namespace", s.name)]⟩ ::
      cycleRecords (validate s (Schema.read e).value.2) ++
      if (faultsOf e).isEmpty then [parsedRecord s] else []

/-- The schema of a document, with the records written while it is read. -/
def read (source : String) : Traced (List Diagnostic) Schema :=
  ⟨parseRecords source, parse source⟩

@[simp] theorem outcome_read (source : String) : (read source).outcome = parse source := rfl

/-- The faults of a schema element are those of reading it and of its rules. -/
theorem faultsOf_eq (e : Element) :
    faultsOf e =
      (Schema.read e).faults ++ validate (Schema.read e).value.1 (Schema.read e).value.2 := rfl

/-- A document is accepted exactly when its schema element has no fault. -/
theorem parse_eq_ok_iff {source : String} {s : Schema} :
    parse source = .ok s ↔
      ∃ e, schemaElement source = .ok e ∧ faultsOf e = [] ∧ (Schema.read e).value.1 = s := by
  unfold parse
  cases h : schemaElement source with
  | error ds => simp [bind, Except.bind]
  | ok e =>
    simp only [bind, Except.bind, Except.ok.injEq, exists_eq_left']
    split
    · rename_i hf
      simp [List.isEmpty_iff.mp hf]
    · rename_i hf
      simp only [List.isEmpty_iff] at hf
      simp [hf]

/-- A document is accepted by its characters. -/
theorem parse_eq_ok_of_chars {source : String} {cs : List Char} {s : Schema}
    (hcs : source.toList = cs)
    (h : ((Markup.parseChars cs).toOption.bind schemaElement?).map
      (fun e => (faultsOf e, (Schema.read e).value.1)) = some ([], s)) :
    parse source = .ok s := by
  obtain ⟨e, he, hread⟩ := Option.map_eq_some_iff.mp h
  obtain ⟨root, hroot, hschema⟩ := Option.bind_eq_some_iff.mp he
  obtain ⟨hfaults, hs⟩ := Prod.mk.inj hread
  refine parse_eq_ok_iff.mpr ⟨e, ?_, hfaults, hs⟩
  have hparse : Markup.parse source = .ok root := by
    unfold Markup.parse
    rw [hcs]
    cases hchars : Markup.parseChars cs with
    | error f => rw [hchars] at hroot; exact nomatch hroot
    | ok r =>
      rw [hchars] at hroot
      exact congrArg _ (Option.some.inj hroot)
  unfold schemaElement
  rw [hparse]
  dsimp only
  rw [hschema]

end EntityModel.Model
