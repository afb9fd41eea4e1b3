/-! # Diagnostic codes

Every kind of problem in a model document has a code: `E0xx` for the markup, `E1xx` for the shape of
the model, `E2xx` for its rules.

* `text_injective`     no two kinds share a code
* `ofText?_text`       the code of a kind names that kind -/

namespace EntityModel.Diagnostic

/-- The kinds of problem a document can have. -/
inductive Code where
  /-- The document is not well-formed markup. -/
  | malformedMarkup
  /-- The document ends while an element is open. -/
  | unexpectedEnd
  /-- The document holds no conceptual schema. -/
  | missingSchema
  /-- An element lacks an attribute it needs. -/
  | missingAttribute
  /-- The value of an attribute cannot be interpreted. -/
  | invalidValue
  /-- An association has more or fewer than two ends. -/
  | endCount
  /-- A referential constraint lacks one of its halves. -/
  | missingElement
  /-- Two declarations share a name. -/
  | duplicateDeclaration
  /-- Both ends of an association play one role. -/
  | duplicateRole
  /-- A referential constraint names a role that its association does not declare. -/
  | unknownRole
  /-- A key refers to a property that is not there. -/
  | undefinedKey
  /-- Two members of an enum share a name. -/
  | duplicateEnumMember
  /-- An entity type is among its own ancestors. -/
  | cyclicInheritance
  /-- Two members of a type share a name. -/
  | duplicateMember
  /-- A name is not a simple identifier. -/
  | invalidName
deriving DecidableEq, Repr

namespace Code

/-- Every code, in increasing order. -/
def all : List Code :=
  [.malformedMarkup, .unexpectedEnd, .missingSchema, .missingAttribute, .invalidValue, .endCount,
    .missingElement, .duplicateDeclaration, .duplicateRole, .unknownRole, .undefinedKey,
    .duplicateEnumMember, .cyclicInheritance, .duplicateMember, .invalidName]

/-- The code as it is printed. -/
def text : Code → String
  | malformedMarkup => "E001"
  | unexpectedEnd => "E002"
  | missingSchema => "E100"
  | missingAttribute => "E101"
  | invalidValue => "E102"
  | endCount => "E103"
  | missingElement => "E104"
  | duplicateDeclaration => "E200"
  | duplicateRole => "E201"
  | unknownRole => "E202"
  | undefinedKey => "E203"
  | duplicateEnumMember => "E204"
  | cyclicInheritance => "E205"
  | duplicateMember => "E206"
  | invalidName => "E207"

/-- A short description of the kind of problem. -/
def description : Code → String
  | malformedMarkup => "malformed XML"
  | unexpectedEnd => "unexpected end of document"
  | missingSchema => "missing conceptual schema"
  | missingAttribute => "missing required attribute"
  | invalidValue => "invalid attribute value"
  | endCount => "invalid association end count"
  | missingElement => "missing required element"
  | duplicateDeclaration => "duplicate declaration"
  | duplicateRole => "duplicate association role"
  | unknownRole => "unknown constraint role"
  | undefinedKey => "undefined key property"
  | duplicateEnumMember => "duplicate enum member"
  | cyclicInheritance => "cyclic inheritance"
  | duplicateMember => "duplicate member"
  | invalidName => "invalid name"

/-- The kind that a printed code stands for. -/
def ofText? (s : String) : Option Code := all.find? fun c => c.text == s

private theorem mem_all (c : Code) : c ∈ all := by cases c <;> decide

/-- The code of a kind names that kind. -/
theorem ofText?_text (c : Code) : ofText? c.text = some c := by cases c <;> rfl

/-- No two kinds share a code. -/
theorem text_injective {c d : Code} (h : c.text = d.text) : c = d := by
  have hc := ofText?_text c
  rw [h, ofText?_text d] at hc
  exact (Option.some.inj hc).symm

end Code

end EntityModel.Diagnostic
