import EntityModel.Diagnostic.Code
import EntityModel.Span

/-! # Diagnostics

A diagnostic is a message about a document: how serious it is, a code, the spans it is about and an
optional hint.  `Diagnostic.error` starts one and the `with…` functions complete it; a label added
later stands after those already there.

* `withLabel`, `withHelp`   what a diagnostic is completed with
* `display`                 the one-line form -/

namespace EntityModel

/-- How serious a diagnostic is. -/
inductive Severity where
  /-- The document cannot be turned into a schema. -/
  | error
  /-- The document is usable but something looks wrong. -/
  | warning
deriving DecidableEq, Repr

/-- The word for a severity in a one-line message. -/
def Severity.text : Severity → String
  | .error => "error"
  | .warning => "warning"

/-- A note attached to a span of the source. -/
structure Label where
  span : Span
  text : String
  /-- Whether the span is the construct at fault rather than related context. -/
  isPrimary : Bool
deriving DecidableEq, Repr

/-- A problem found in a document. -/
structure Diagnostic where
  severity : Severity
  message : String
  code : Option Diagnostic.Code
  labels : List Label
  help : Option String
deriving DecidableEq, Repr

namespace Diagnostic

/-- An error of the given kind. -/
def error (code : Code) (message : String) : Diagnostic :=
  ⟨.error, message, some code, [], none⟩

/-- Point at the construct at fault. -/
def withLabel (d : Diagnostic) (span : Span) (text : String) : Diagnostic :=
  { d with labels := d.labels ++ [⟨span, text, true⟩] }

/-- Add a hint. -/
def withHelp (d : Diagnostic) (help : String) : Diagnostic := { d with help := some help }

/-- Whether the diagnostic is an error. -/
def isError (d : Diagnostic) : Bool := d.severity == .error

/-- The span of the first label on the construct at fault. -/
def primarySpan? (d : Diagnostic) : Option Span :=
  (d.labels.find? (·.isPrimary)).map (·.span)

/-- The one-line form: severity, code in brackets if there is one, message. -/
def display (d : Diagnostic) : String :=
  match d.code with
  | some c => d.severity.text ++ "[" ++ c.text ++ "]: " ++ d.message
  | none => d.severity.text ++ ": " ++ d.message

/-- The one-line form of a list of diagnostics: the first, and how many more there are. -/
def summary : List Diagnostic → String
  | [] => "invalid schema document"
  | [d] => d.display
  | d :: ds => d.display ++ " (+" ++ toString ds.length ++ " more)"

end Diagnostic

end EntityModel
