import EntityModel.Span

/-! # Where the records of a schema were read

A source map runs parallel to a schema: the spans of a list of records stand in the order of the
records.  An association keeps a span for each of its `End` elements, whether or not that end could
be read. -/

namespace EntityModel

/-- Where an enum type and its members were read. -/
structure EnumSpans where
  span : Span
  members : List Span := []
deriving DecidableEq, Repr

/-- Where a complex or entity type and its members were read. -/
structure TypeSpans where
  span : Span
  key : Option Span := none
  properties : List Span := []
  navigationProperties : List Span := []
deriving DecidableEq, Repr

/-- Where an association and its parts were read. -/
structure AssociationSpans where
  span : Span
  ends : List Span := []
  principal : Option Span := none
  dependent : Option Span := none
deriving DecidableEq, Repr

/-- Where the declarations of a schema were read. -/
structure SourceMap where
  enumTypes : List EnumSpans := []
  complexTypes : List TypeSpans := []
  entityTypes : List TypeSpans := []
  associations : List AssociationSpans := []
  entityContainers : List Span := []
deriving DecidableEq, Repr

end EntityModel
