import EntityModel.Diagnostic.Basic

/-! # Faults in a model

Everything that can be wrong with the model of a well-formed document, as a cause: what is missing,
what cannot be read, which rule is broken and where.  `Fault.diagnostic` words it.

* `isError_diagnostic`      every fault is an error
* `primarySpan?_diagnostic` every fault points at the construct it is about -/

namespace EntityModel

/-- The kinds of declaration that share a space of names. -/
inductive DeclarationKind where
  | type
  | association
  | entityContainer
deriving DecidableEq, Repr

/-- The words for a kind of declaration. -/
def DeclarationKind.text : DeclarationKind → String
  | .type => "type"
  | .association => "association"
  | .entityContainer => "entity container"

/-- The kinds of name that must be simple identifiers. -/
inductive NameKind where
  | enumType
  | enumMember
  | type
  | property
  | navigationProperty
  | association
  | role
  | entityContainer
  | entitySet
deriving DecidableEq, Repr

/-- The words for a kind of name. -/
def NameKind.text : NameKind → String
  | .enumType => "enum type"
  | .enumMember => "enum member"
  | .type => "type"
  | .property => "property"
  | .navigationProperty => "navigation property"
  | .association => "association"
  | .role => "role"
  | .entityContainer => "entity container"
  | .entitySet => "entity set"

/-- What is wrong with a model, and where. -/
inductive Fault where
  /-- An element lacks an attribute that it needs. -/
  | missingAttribute (element missing : String) (span : Span)
  /-- The text of an attribute is not one of its values, for the reason given. -/
  | invalidValue (text name reason : String) (span : Span)
  /-- An association has other than two ends. -/
  | endCount (association : String) (count : Nat) (span : Span)
  /-- A referential constraint lacks the named half. -/
  | missingHalf (half : String) (span : Span)
  /-- A declaration has the name of an earlier one. -/
  | duplicateDeclaration (kind : DeclarationKind) (name : String) (span first : Span)
  /-- A member has the name of an earlier one of the same type. -/
  | duplicateMember (owner member : String) (span first : Span)
  /-- A member has the name of an earlier one of the same enum. -/
  | duplicateEnumMember (owner member : String) (span first : Span)
  /-- Both ends of an association have one role. -/
  | duplicateRole (association role : String) (span : Span)
  /-- A half of a constraint names a role other than the two of its association. -/
  | unknownRole (association role firstRole secondRole : String) (span : Span)
  /-- A key names a property that neither the type nor an ancestor declares. -/
  | undefinedKey (entityType property : String) (span : Span)
  /-- These entity types inherit from each other in a circle; the first is named apart from the
      others because the fault points at it. -/
  | cyclicInheritance (first : String × Span) (others : List (String × Span))
  /-- A name is not a simple identifier. -/
  | invalidName (kind : NameKind) (name : String) (span : Span)
deriving DecidableEq, Repr

namespace Fault

/-- The names of some types between backquotes, with commas between them. -/
def quotedNames (names : List String) : String :=
  ", ".intercalate (names.map fun n => "`" ++ n ++ "`")

/-- The code of a fault. -/
def code : Fault → Diagnostic.Code
  | missingAttribute .. => .missingAttribute
  | invalidValue .. => .invalidValue
  | endCount .. => .endCount
  | missingHalf .. => .missingElement
  | duplicateDeclaration .. => .duplicateDeclaration
  | duplicateMember .. => .duplicateMember
  | duplicateEnumMember .. => .duplicateEnumMember
  | duplicateRole .. => .duplicateRole
  | unknownRole .. => .unknownRole
  | undefinedKey .. => .undefinedKey
  | cyclicInheritance .. => .cyclicInheritance
  | invalidName .. => .invalidName

/-- The span of the construct that a fault is about. -/
def span : Fault → Span
  | missingAttribute _ _ s => s
  | invalidValue _ _ _ s => s
  | endCount _ _ s => s
  | missingHalf _ s => s
  | duplicateDeclaration _ _ s _ => s
  | duplicateMember _ _ s _ => s
  | duplicateEnumMember _ _ s _ => s
  | duplicateRole _ _ s => s
  | unknownRole _ _ _ _ s => s
  | undefinedKey _ _ s => s
  | cyclicInheritance first _ => first.2
  | invalidName _ _ s => s

/-- The message of a fault. -/
def message : Fault → String
  | missingAttribute element missing _ =>
    "`" ++ element ++ "` element is missing the `" ++ missing ++ "` attribute"
  | invalidValue text name _ _ =>
    "invalid value `" ++ text ++ "` for attribute `" ++ name ++ "`"
  | endCount association count _ =>
    "association `" ++ association ++ "` declares " ++ toString count ++ " ends"
  | missingHalf half _ => "referential constraint has no `" ++ half ++ "` element"
  | duplicateDeclaration kind name _ _ =>
    kind.text ++ " `" ++ name ++ "` is declared multiple times"
  | duplicateMember owner member _ _ =>
    "member `" ++ member ++ "` is declared twice on `" ++ owner ++ "`"
  | duplicateEnumMember owner member _ _ =>
    "enum `" ++ owner ++ "` declares member `" ++ member ++ "` more than once"
  | duplicateRole association role _ =>
    "both ends of association `" ++ association ++ "` use the role `" ++ role ++ "`"
  | unknownRole association role _ _ _ =>
    "referential constraint role `" ++ role ++ "` does not match any end of `" ++ association ++ "`"
  | undefinedKey entityType property _ =>
    "key of `" ++ entityType ++ "` refers to undefined property `" ++ property ++ "`"
  | cyclicInheritance first others =>
    "cyclic inheritance between " ++ quotedNames ((first :: others).map (·.1))
  | invalidName kind name _ => kind.text ++ " name `" ++ name ++ "` is not a valid identifier"

/-- The note on the construct that a fault is about. -/
def labelText : Fault → String
  | missingAttribute _ missing _ => "missing `" ++ missing ++ "`"
  | invalidValue _ _ reason _ => reason
  | endCount .. => "expected exactly two `End` elements"
  | missingHalf half _ => "missing `" ++ half ++ "`"
  | duplicateDeclaration .. => "duplicate declaration"
  | duplicateMember .. => "duplicate member"
  | duplicateEnumMember .. => "duplicate member"
  | duplicateRole .. => "duplicate role"
  | unknownRole .. => "unknown role"
  | undefinedKey .. => "undefined key property"
  | cyclicInheritance .. => "base type chain returns here"
  | invalidName .. => "declared here"

/-- The notes on constructs that a fault has to do with. -/
def contexts : Fault → List (Span × String)
  | duplicateDeclaration _ _ _ first => [(first, "first declared here")]
  | duplicateMember _ _ _ first => [(first, "first declared here")]
  | duplicateEnumMember _ _ _ first => [(first, "first declared here")]
  | cyclicInheritance _ others => others.map fun o => (o.2, "part of the cycle")
  | _ => []

/-- The hint that goes with a fault. -/
def help : Fault → Option String
  | duplicateDeclaration .. => some "declaration names must be unique within a schema"
  | duplicateRole .. => some "association ends must have distinct roles"
  | unknownRole _ _ firstRole secondRole _ =>
    some ("use one of the declared roles: `" ++ firstRole ++ "`, `" ++ secondRole ++ "`")
  | undefinedKey .. => some "key properties must be declared on the type or one of its base types"
  | cyclicInheritance .. => some "an entity type cannot inherit from itself"
  | invalidName .. =>
    some "names start with a letter or `_` and contain only letters, digits and `_`"
  | _ => none

/-- What a fault tells the reader. -/
def diagnostic (f : Fault) : Diagnostic where
  severity := .error
  message := f.message
  code := some f.code
  labels := ⟨f.span, f.labelText, true⟩ :: f.contexts.map fun c => ⟨c.1, c.2, false⟩
  help := f.help

/-- Every fault is an error. -/
@[simp] theorem isError_diagnostic (f : Fault) : f.diagnostic.isError = true := rfl

@[simp] theorem code_diagnostic (f : Fault) : f.diagnostic.code = some f.code := rfl

@[simp] theorem message_diagnostic (f : Fault) : f.diagnostic.message = f.message := rfl

/-- The message of a cycle names all of its types. -/
theorem message_cyclicInheritance (first : String × Span) (others : List (String × Span)) :
    (cyclicInheritance first others).message =
      "cyclic inheritance between " ++ quotedNames ((first :: others).map (·.1)) := rfl

/-- Every fault points at the construct it is about. -/
@[simp] theorem primarySpan?_diagnostic (f : Fault) : f.diagnostic.primarySpan? = some f.span := by
  simp [Diagnostic.primarySpan?, diagnostic]

end Fault

end EntityModel
