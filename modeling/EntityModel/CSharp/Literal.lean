import EntityModel.Schema.Keyword
import EntityModel.Text.Blank
import EntityModel.Text.Real

/-! # C# literals

A default value of a model is text; where its type has literals, `defaultLiteral?` writes it as one.
Strings are escaped, truth values lowered, integers read within the range of their type and written
in canonical form, reals kept as they are if they are finite in the type.

* `stringLiteral`          a text between quotes, escaped
* `integerLiteral?`        the canonical form of an integer that fits
* `realLiteral?`           the text of a real, marked with the suffix of its type -/

namespace EntityModel.CSharp

/-- One character inside a string literal. -/
def escapeChar (c : Char) : List Char :=
  if c = '"' then ['\\', '"']
  else if c = '\\' then ['\\', '\\']
  else if c = '\n' then ['\\', 'n']
  else if c = '\r' then ['\\', 'r']
  else if c = '\t' then ['\\', 't']
  else [c]

/-- A string literal. -/
def stringLiteral (cs : List Char) : List Char := '"' :: cs.flatMap escapeChar ++ ['"']

/-- A truth value, in any case. -/
def truthLiteral? (cs : List Char) : Option String :=
  let word := String.ofList (cs.map Char.toLower)
  if word = "true" ∨ word = "false" then some word else none

/-- An integer of the range, in canonical form. -/
def integerLiteral? (range : Text.IntegerRange) (cs : List Char) : Option String :=
  match Text.readInteger range cs with
  | .ok i => some (toString i)
  | .error _ => none

/-- A real that is finite in the format, with the suffix of its type. -/
def realLiteral? (format : Text.FloatFormat) (suffix : String) (cs : List Char) :
    Option String :=
  match Text.RealLiteral.read? cs with
  | some r => if format.isFinite r then some (String.ofList cs ++ suffix) else none
  | none => none

/-- The literal for a default value of the given built-in type, if it has one. -/
def defaultLiteral? (value : String) (type : Primitive) : Option String :=
  let trimmed := Text.trimChars value.toList
  match type with
  | .string => some (String.ofList (stringLiteral value.toList))
  | .boolean => truthLiteral? trimmed
  | .byte => integerLiteral? (.unsigned 8) trimmed
  | .sbyte => integerLiteral? (.signed 8) trimmed
  | .int16 => integerLiteral? (.signed 16) trimmed
  | .int32 => integerLiteral? (.signed 32) trimmed
  | .int64 => integerLiteral? (.signed 64) trimmed
  | .decimal => realLiteral? .double "m" trimmed
  | .float => realLiteral? .single "f" trimmed
  | .double => realLiteral? .double "" trimmed
  | _ => none

end EntityModel.CSharp
