import EntityModel.Schema.Keyword

/-! # Words of the C# declarations that are written

The few modifiers and kinds that generated declarations use, with the words for them.  Keywords that
may be absent end in the space that separates them from what follows.

* `Modifiers.text`        modifiers come out in one fixed order
* `accessorText`          when an accessor bears a keyword of its own -/

namespace EntityModel.CSharp

/-- The C# keyword for an access. -/
def accessKeyword : Access → String
  | .publicAccess => "public"
  | .internalAccess => "internal"
  | .protectedAccess => "protected"
  | .privateAccess => "private"

/-- How a member relates to inheritance. -/
inductive Definition where
  | sealed
  | virtual
  | override
  | abstract
deriving DecidableEq, Repr

/-- The keyword for a definition; none for a sealed one. -/
def Definition.text : Definition → String
  | .sealed => ""
  | .virtual => "virtual "
  | .override => "override "
  | .abstract => "abstract "

/-- Whether a type is a class or a struct. -/
inductive TypeKind where
  | classKind
  | structKind
deriving DecidableEq, Repr

/-- The keyword for a kind of type. -/
def TypeKind.text : TypeKind → String
  | .classKind => "class"
  | .structKind => "struct"

/-- The kinds of documentation comment. -/
inductive DocumentationKind where
  | summary
  | remarks
deriving DecidableEq, Repr

/-- The tag of a documentation comment. -/
def DocumentationKind.tag : DocumentationKind → String
  | .summary => "summary"
  | .remarks => "remarks"

/-- The modifiers of a type declaration. -/
structure Modifiers where
  isStatic : Bool := false
  isAbstract : Bool := false
  isPartial : Bool := false
deriving DecidableEq, Repr

/-- The keywords of some modifiers: static, abstract, partial. -/
def Modifiers.text (m : Modifiers) : String :=
  (if m.isStatic then "static " else "") ++ (if m.isAbstract then "abstract " else "") ++
    (if m.isPartial then "partial " else "")

/-- An accessor of a property that as a whole has the access `whole`.  It bears a keyword where it
    is narrower; a protected accessor of an internal property admits only what both allow. -/
def accessorText (whole access : Access) (keyword : String) : String :=
  if whole = .internalAccess ∧ access = .protectedAccess then
    "private protected " ++ keyword ++ ";"
  else if whole.rank < access.rank then accessKeyword access ++ " " ++ keyword ++ ";"
  else keyword ++ ";"

end EntityModel.CSharp
