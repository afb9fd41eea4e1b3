import EntityModel.Schema.Resolution

/-! # C# types of properties

A built-in type has a C# type of its own; any other type keeps its name.

* `mapType_primitive`    built-in names are looked at before declared ones -/

namespace EntityModel.CSharp

/-- The C# type of a property, without any mark that it may be absent. -/
structure MappedType where
  name : String
  isValueType : Bool
  /-- The built-in type it stands for, if it is one. -/
  primitive : Option Primitive
deriving DecidableEq, Repr

/-- The C# name of a built-in type. -/
def primitiveName : Primitive → String
  | .binary => "byte[]"
  | .boolean => "bool"
  | .byte => "byte"
  | .dateTime => "DateTime"
  | .dateTimeOffset => "DateTimeOffset"
  | .decimal => "decimal"
  | .double => "double"
  | .float => "float"
  | .guid => "Guid"
  | .int16 => "short"
  | .int32 => "int"
  | .int64 => "long"
  | .sbyte => "sbyte"
  | .string => "string"
  | .time => "DateTime"

/-- Strings and byte arrays are held by reference, all other built-in types in place. -/
def primitiveIsValueType : Primitive → Bool
  | .binary => false
  | .string => false
  | _ => true

/-- The C# type of a built-in type. -/
def MappedType.ofPrimitive (p : Primitive) : MappedType :=
  ⟨primitiveName p, primitiveIsValueType p, some p⟩

/-- The C# type of a declared type. -/
def MappedType.ofResolved (t : ResolvedType) : MappedType := ⟨t.name, t.isValueType, none⟩

/-- The C# type that a type reference of a property stands for. -/
def mapType (s : Schema) (name referencedBy : String) :
    Except UnresolvedReference MappedType :=
  match Primitive.read? name with
  | some p => .ok (.ofPrimitive p)
  | none => (s.resolveType name referencedBy).map .ofResolved

/-- Built-in names are looked at before declared ones. -/
theorem mapType_primitive {s : Schema} {name by_ : String} {p : Primitive}
    (h : Primitive.read? name = some p) : mapType s name by_ = .ok (.ofPrimitive p) := by
  simp [mapType, h]

end EntityModel.CSharp
