import EntityModel.Text.Search

/-! # Names in markup

A name as written is an optional qualifier, a colon and a local part; only the first colon counts.

* `ofChars`   splits a name
* `chars`     puts it together again -/

namespace EntityModel.Markup

/-- A name with the qualifier in front of its first colon. -/
structure Name where
  qualifier : Option String
  localPart : String
deriving DecidableEq, Repr

namespace Name

/-- Split a name at its first colon. -/
def ofChars (cs : List Char) : Name :=
  match Text.breakOn [':'] cs with
  | some (before, after) => ⟨some (String.ofList before), String.ofList after⟩
  | none => ⟨none, String.ofList cs⟩

/-- The name as written. -/
def chars (n : Name) : List Char :=
  match n.qualifier with
  | some q => q.toList ++ ':' :: n.localPart.toList
  | none => n.localPart.toList

/-- The name as written. -/
def text (n : Name) : String := String.ofList n.chars

end Name

end EntityModel.Markup
