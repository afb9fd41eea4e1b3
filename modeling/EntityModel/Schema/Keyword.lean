import EntityModel.Text.Integer
import EntityModel.Text.Search

/-! # The closed vocabularies of a model

Several attributes take one of a few words.  A `Vocabulary` lists the words of a type with their
values and says what was expected; every type here has one, and a `text` that writes a value.

* `Vocabulary.read?`       look a word up
* `Multiplicity.read?_text`, `Primitive.read?_text`   reading the word of a value gives it back -/

namespace EntityModel

/-- The words that spell the values of a type. -/
structure Vocabulary (α : Type) where
  words : List (String × α)
  /-- What is said of a word that is not among them. -/
  expected : String

/-- The value that a word spells. -/
def Vocabulary.read? {α : Type} (v : Vocabulary α) (word : String) : Option α :=
  v.words.lookup word

/-- How many entities an association end stands for. -/
inductive Multiplicity where
  | one
  | zeroOrOne
  | many
deriving DecidableEq, Repr

namespace Multiplicity

/-- The word for a multiplicity. -/
def text : Multiplicity → String
  | one => "1"
  | zeroOrOne => "0..1"
  | many => "*"

/-- The multiplicities and their words. -/
def vocabulary : Vocabulary Multiplicity :=
  ⟨[("1", one), ("0..1", zeroOrOne), ("*", many)], "expected one of `1`, `0..1`, `*`"⟩

@[simp] theorem read?_text (m : Multiplicity) : vocabulary.read? m.text = some m := by
  cases m <;> rfl

end Multiplicity

/-- Who may use a declaration or an accessor, from everyone to nobody else. -/
inductive Access where
  | publicAccess
  | internalAccess
  | protectedAccess
  | privateAccess
deriving DecidableEq, Repr

namespace Access

/-- The word for an access in a model. -/
def text : Access → String
  | publicAccess => "Public"
  | internalAccess => "Internal"
  | protectedAccess => "Protected"
  | privateAccess => "Private"

/-- The accesses and their words. -/
def vocabulary : Vocabulary Access :=
  ⟨[("Public", publicAccess), ("Internal", internalAccess), ("Protected", protectedAccess),
    ("Private", privateAccess)],
    "expected one of `Public`, `Internal`, `Protected`, `Private`"⟩

/-- The place of an access, from the most visible on.  The internal and the protected audience
    differ rather than contain each other; the protected one counts as the narrower. -/
def rank : Access → Nat
  | publicAccess => 0
  | internalAccess => 1
  | protectedAccess => 2
  | privateAccess => 3

/-- The more visible of two accesses. -/
def widest (a b : Access) : Access := if a.rank ≤ b.rank then a else b

end Access

/-- Whether updates check that a property is unchanged. -/
inductive ConcurrencyMode where
  | unchecked
  | fixed
deriving DecidableEq, Repr

namespace ConcurrencyMode

/-- The word for a concurrency mode. -/
def text : ConcurrencyMode → String
  | unchecked => "None"
  | fixed => "Fixed"

/-- The concurrency modes and their words. -/
def vocabulary : Vocabulary ConcurrencyMode :=
  ⟨[("None", unchecked), ("Fixed", fixed)], "expected `None` or `Fixed`"⟩

end ConcurrencyMode

/-- Whether the store computes the value of a property. -/
inductive StoreGeneration where
  | never
  | identity
  | computed
deriving DecidableEq, Repr

namespace StoreGeneration

/-- The word for a store generation pattern. -/
def text : StoreGeneration → String
  | never => "None"
  | identity => "Identity"
  | computed => "Computed"

/-- The store generation patterns and their words. -/
def vocabulary : Vocabulary StoreGeneration :=
  ⟨[("None", never), ("Identity", identity), ("Computed", computed)],
    "expected one of `None`, `Identity`, `Computed`"⟩

end StoreGeneration

/-- The integer type that the values of an enum have. -/
inductive UnderlyingType where
  | byte
  | sbyte
  | int16
  | int32
  | int64
deriving DecidableEq, Repr

/-- The qualifier that built-in type names may carry. -/
def builtinQualifier : List Char := ['E', 'd', 'm', '.']

/-- A built-in type name less its qualifier. -/
def unqualifiedBuiltin (s : String) : String :=
  match Text.stripStart? builtinQualifier s.toList with
  | some rest => String.ofList rest
  | none => s

namespace UnderlyingType

/-- The word for an underlying type. -/
def text : UnderlyingType → String
  | byte => "Byte"
  | sbyte => "SByte"
  | int16 => "Int16"
  | int32 => "Int32"
  | int64 => "Int64"

/-- The underlying types and their words. -/
def vocabulary : Vocabulary UnderlyingType :=
  ⟨[("Byte", byte), ("SByte", sbyte), ("Int16", int16), ("Int32", int32), ("Int64", int64)],
    "expected one of `Byte`, `SByte`, `Int16`, `Int32`, `Int64`"⟩

/-- The underlying type of a name, which may be qualified. -/
def read? (s : String) : Option UnderlyingType := vocabulary.read? (unqualifiedBuiltin s)

/-- The integers of an underlying type. -/
def range : UnderlyingType → Text.IntegerRange
  | byte => .unsigned 8
  | sbyte => .signed 8
  | int16 => .signed 16
  | int32 => .signed 32
  | int64 => .signed 64

end UnderlyingType

/-- The built-in types of a model. -/
inductive Primitive where
  | binary
  | boolean
  | byte
  | dateTime
  | dateTimeOffset
  | decimal
  | double
  | float
  | guid
  | int16
  | int32
  | int64
  | sbyte
  | string
  | time
deriving DecidableEq, Repr

namespace Primitive

/-- Every built-in type. -/
def all : List Primitive :=
  [binary, boolean, byte, dateTime, dateTimeOffset, decimal, double, float, guid, int16, int32,
    int64, sbyte, string, time]

/-- The name of a built-in type in a model. -/
def text : Primitive → String
  | binary => "Binary"
  | boolean => "Boolean"
  | byte => "Byte"
  | dateTime => "DateTime"
  | dateTimeOffset => "DateTimeOffset"
  | decimal => "Decimal"
  | double => "Double"
  | float => "Float"
  | guid => "Guid"
  | int16 => "Int16"
  | int32 => "Int32"
  | int64 => "Int64"
  | sbyte => "SByte"
  | string => "String"
  | time => "Time"

/-- The built-in type of a name, which may be qualified. -/
def read? (s : String) : Option Primitive :=
  all.find? fun p => p.text == unqualifiedBuiltin s

@[simp] theorem read?_text (p : Primitive) : read? p.text = some p := by
  cases p <;> rfl

/-- What is said of a name that is no built-in type. -/
def notPrimitiveMessage (name : String) : String :=
  "`" ++ name ++ "` is not an EDM primitive type"

end Primitive

end EntityModel
