import EntityModel.CSharp.Keyword
import EntityModel.Text.Blank

/-! # C# source as a list of steps

Source text is described by steps: open a namespace or a type, close the innermost block, or write
something within it.  Each step writes lines at the depth of the blocks open around it and says how
many are open after it, so indentation is a function of the steps alone.

* `write_open`, `write_inside`   what a step does to the depth
* `writeAll_append`              steps are written one after the other -/

namespace EntityModel.CSharp

/-! ### Lines -/

/-- A line of source and the depth it is indented to. -/
structure Line where
  depth : Nat
  text : String
deriving DecidableEq, Repr

namespace Line

/-- The line with its tabs and its line feed. -/
def render (l : Line) : String :=
  String.ofList (List.replicate l.depth '\t') ++ l.text ++ "\n"

/-- The empty line. -/
def empty : Line := ⟨0, ""⟩

end Line

/-- The text of some lines. -/
def renderLines (ls : List Line) : String := String.join (ls.map Line.render)

/-! ### Texts of single lines -/

/-- The line that opens a block. -/
def openingBrace : String := "\x7b"

/-- The line that closes a block. -/
def closingBrace : String := "\x7d"

/-- A property with accessors that the compiler fills in. -/
structure AutoProperty where
  name : String
  typeName : String
  definition : Definition := .sealed
  getter : Access := .publicAccess
  setter : Access := .publicAccess
  initializer : Option String := none
deriving DecidableEq, Repr

namespace AutoProperty

/-- The access of the property as a whole: that of its more visible accessor. -/
def access (p : AutoProperty) : Access := p.getter.widest p.setter

/-- The property on one line. -/
def text (p : AutoProperty) : String :=
  accessKeyword p.access ++ " " ++ p.definition.text ++ p.typeName ++ " " ++ p.name ++
    " \x7b " ++ accessorText p.access p.getter "get" ++ " " ++
    accessorText p.access p.setter "set" ++ " \x7d" ++
    (match p.initializer with
    | some value => " = " ++ value ++ ";"
    | none => "")

end AutoProperty

/-- The header of a type. -/
structure TypeHeader where
  kind : TypeKind
  name : String
  bases : List String := []
  modifiers : Modifiers := {}
  access : Access := .publicAccess
deriving DecidableEq, Repr

/-- The header on one line. -/
def TypeHeader.text (h : TypeHeader) : String :=
  accessKeyword h.access ++ " " ++ h.modifiers.text ++ h.kind.text ++ " " ++ h.name ++
    (if h.bases.isEmpty then "" else " : " ++ ", ".intercalate h.bases)

/-- An attribute with its arguments. -/
def attributeText (name : String) (arguments : List String) : String :=
  if arguments.isEmpty then "[" ++ name ++ "]"
  else "[" ++ name ++ "(" ++ ", ".intercalate arguments ++ ")]"

/-- The expression for the name of an element. -/
def nameOf (element : String) : String := "nameof(" ++ element ++ ")"

/-- A text with the three characters escaped that begin or end markup. -/
def escapeMarkup (cs : List Char) : List Char :=
  cs.flatMap fun c =>
    if c = '&' then "&amp;".toList
    else if c = '<' then "&lt;".toList
    else if c = '>' then "&gt;".toList
    else [c]

/-- One line of a documentation comment. -/
def documentationLine (line : List Char) : String :=
  "/// " ++ String.ofList (escapeMarkup (Text.trimChars line))

/-- The lines of a documentation comment: its tags around the lines of the text, each trimmed and
    escaped.  Blank text makes no comment. -/
def documentationLines (kind : DocumentationKind) (text : String) : List String :=
  if Text.isAllBlank text then []
  else
    ("/// <" ++ kind.tag ++ ">") ::
      (Text.splitLines (Text.trimChars text.toList)).map documentationLine ++
      ["/// </" ++ kind.tag ++ ">"]

/-- A member of an enum. -/
def enumMemberText (member : String × Option Int) : String :=
  match member.2 with
  | some value => member.1 ++ " = " ++ toString value ++ ","
  | none => member.1 ++ ","

/-! ### Steps -/

/-- One step in writing a source text. -/
inductive Step where
  | openNamespace (name : String)
  | openType (header : TypeHeader)
  /-- Close the innermost block. -/
  | close
  | importNamespace (name : String)
  | enumeration (name : String) (members : List (String × Option Int)) (underlying : String)
      (access : Access)
  | property (p : AutoProperty)
  | attributed (name : String) (arguments : List String)
  | documentation (kind : DocumentationKind) (text : String)
  | statement (text : String)
  | blankLine
deriving DecidableEq, Repr

namespace Step

/-- The lines that a step writes between the braces of the blocks around it, at the given depth. -/
def insideLines (depth : Nat) : Step → List Line
  | importNamespace name => [⟨depth, "using " ++ name ++ ";"⟩]
  | enumeration name members underlying access =>
    ⟨depth, accessKeyword access ++ " enum " ++ name ++ " : " ++ underlying⟩ ::
      ⟨depth, openingBrace⟩ :: members.map (fun m => ⟨depth + 1, enumMemberText m⟩) ++
      [⟨depth, closingBrace⟩]
  | property p => [⟨depth, p.text⟩]
  | attributed name arguments => [⟨depth, attributeText name arguments⟩]
  | documentation kind text => (documentationLines kind text).map fun l => ⟨depth, l⟩
  | statement text => [⟨depth, text ++ ";"⟩]
  | blankLine => [Line.empty]
  | openNamespace _ => []
  | openType _ => []
  | close => []

/-- The lines that a step writes at the given depth and the depth after it.  Closing is possible
    only where a block is open. -/
def write (depth : Nat) (s : Step) : Option (List Line × Nat) :=
  match s with
  | openNamespace name =>
    some ([⟨depth, "namespace " ++ name⟩, ⟨depth, openingBrace⟩], depth + 1)
  | openType header => some ([⟨depth, header.text⟩, ⟨depth, openingBrace⟩], depth + 1)
  | close =>
    match depth with
    | 0 => none
    | d + 1 => some ([⟨d, closingBrace⟩], d)
  | s => some (s.insideLines depth, depth)

/-- Whether the step opens a block. -/
def opens : Step → Bool
  | openNamespace _ => true
  | openType _ => true
  | _ => false

/-- A step that opens a block leaves one more open. -/
theorem write_open {s : Step} (h : s.opens = true) (depth : Nat) :
    (write depth s).map (·.2) = some (depth + 1) := by
  cases s <;> simp_all [opens, write]

/-- A step that neither opens nor closes a block leaves the depth as it is. -/
theorem write_inside {s : Step} (h : s.opens = false) (hc : s ≠ close) (depth : Nat) :
    write depth s = some (s.insideLines depth, depth) := by
  cases s <;> simp_all [opens, write]

end Step

/-- The lines that some steps write from the given depth on, and the depth after them.  A step that
    closes a block where none is open writes nothing. -/
def writeAll (depth : Nat) : List Step → List Line × Nat
  | [] => ([], depth)
  | s :: rest =>
    match s.write depth with
    | none => writeAll depth rest
    | some (ls, after) => (ls ++ (writeAll after rest).1, (writeAll after rest).2)

/-- Steps are written one after the other. -/
theorem writeAll_append (depth : Nat) (ss ts : List Step) :
    writeAll depth (ss ++ ts) =
      ((writeAll depth ss).1 ++ (writeAll (writeAll depth ss).2 ts).1,
        (writeAll (writeAll depth ss).2 ts).2) := by
  induction ss generalizing depth with
  | nil => simp [writeAll]
  | cons s ss ih =>
    simp only [List.cons_append, writeAll]
    cases s.write depth with
    | none => exact ih depth
    | some p => simp [ih p.2]

/-- The source text of some steps. -/
def sourceText (steps : List Step) : String := renderLines (writeAll 0 steps).1

/-- Steps that close every block still open. -/
def closeAll (depth : Nat) : List Step := List.replicate depth .close

end EntityModel.CSharp
