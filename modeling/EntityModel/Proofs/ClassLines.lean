import EntityModel.Proofs.Indentation
import EntityModel.Proofs.WrittenProperties
import Mathlib.Data.List.Basic

/-!
# Lines of declarations

The text of a class falls into lines: those of its comment, its header and, between braces, those of
its members with an empty line between each two.  A member has comment lines, lines of attributes
and one line for the property itself.  What a line of each sort looks like is said here without the
steps that write it, so that nothing else can stand in the text.

* `IsCommentText`, `IsPropertyText`, `IsAttributeText`   the three sorts of lines of a member
* `classLines`                                           the lines of a class
* `writeAll_typeSteps`                                   the lines that the steps of a class write
-/

namespace EntityModel

namespace CSharp

/-! ### Sorts of lines -/

/-- The text is one line of a comment. -/
structure IsCommentText (text : String) : Prop where
  starts : "///".toList <+: text.toList
  unbroken : Unbroken text

/-- The text is that of an accessor: its keyword, perhaps behind that of a narrower access. -/
def IsAccessorText (keyword text : String) : Prop :=
  ∃ access ∈ ["", "internal ", "protected ", "private ", "private protected "],
    text = access ++ keyword ++ ";"

/-- The text is the line of a property: the keyword of its access, a modifier, its type and its
    name, then its two accessors between braces and what it is set to. -/
def IsPropertyText (modifier typeName name initial text : String) : Prop :=
  ∃ access ∈ ["public", "internal", "protected", "private"], ∃ getter setter,
    IsAccessorText "get" getter ∧ IsAccessorText "set" setter ∧
      text = access ++ " " ++ modifier ++ typeName ++ " " ++ name ++
        " \x7b " ++ getter ++ " " ++ setter ++ " \x7d" ++ initial

/-- What a property is set to, behind its accessors; nothing where no value is given. -/
def initialText : Option String → String
  | some value => " = " ++ value ++ ";"
  | none => ""

/-- The keyword of an access is one of four. -/
private theorem accessKeyword_mem (a : Access) :
    accessKeyword a ∈ ["public", "internal", "protected", "private"] := by
  cases a <;> decide

/-- An accessor is written as one, with the keyword of its own access where that is narrower. -/
private theorem isAccessorText_accessorText (whole access : Access) (keyword : String) :
    IsAccessorText keyword (accessorText whole access keyword) := by
  unfold accessorText
  split
  · exact ⟨"private protected ", by decide, rfl⟩
  split
  · -- nothing is wider than public, so the keyword is one of the other three
    rename_i hnarrower
    cases access with
    | publicAccess => exact absurd hnarrower (Nat.not_lt_zero _)
    | internalAccess => exact ⟨"internal ", by decide, rfl⟩
    | protectedAccess => exact ⟨"protected ", by decide, rfl⟩
    | privateAccess => exact ⟨"private ", by decide, rfl⟩
  · exact ⟨"", by decide, by rw [String.empty_append]⟩

/-- The line of a property reads like one, whatever its accesses are. -/
theorem isPropertyText_text (p : AutoProperty) :
    IsPropertyText p.definition.text p.typeName p.name (initialText p.initializer) p.text :=
  ⟨_, accessKeyword_mem p.access, _, _, isAccessorText_accessorText _ _ _,
    isAccessorText_accessorText _ _ _, rfl⟩

/-- The lines of a documentation comment are comment lines whatever it says. -/
theorem isCommentText_of_mem_documentationLines {kind : DocumentationKind} {text line : String}
    (h : line ∈ documentationLines kind text) : IsCommentText line := by
  refine ⟨?_, (isCode_documentationLines kind text line h).oneLine.1⟩
  -- the comment of an empty text has no lines
  unfold documentationLines at h
  split at h
  · exact absurd h List.not_mem_nil
  · simp only [List.cons_append, List.mem_cons, List.mem_append, List.mem_map, List.not_mem_nil,
      or_false] at h
    -- the opening tag, a line of the text or the closing tag
    obtain rfl | ⟨line, -, rfl⟩ | rfl := h
    · exact ⟨(" <" ++ kind.tag ++ ">").toList, by simp⟩
    · exact ⟨' ' :: escapeMarkup (Text.trimChars line), by simp [documentationLine]⟩
    · exact ⟨(" </" ++ kind.tag ++ ">").toList, by simp⟩

/-! ### Lines of a class -/

/-- The lines of a member: its comments, its attributes and that of the property itself. -/
structure MemberLines where
  comments : List String
  attributes : List String
  property : String

namespace MemberLines

/-- The texts of the lines. -/
def texts (m : MemberLines) : List String := m.comments ++ m.attributes ++ [m.property]

/-- The lines at a depth. -/
def lines (depth : Nat) (m : MemberLines) : List Line := m.texts.map fun text => ⟨depth, text⟩

end MemberLines

/-- The lines of a class: its comments, its header and its members between braces, an empty line
    between each two. -/
def classLines (depth : Nat) (comments : List String) (header : String)
    (members : List MemberLines) : List Line :=
  comments.map (fun text => ⟨depth, text⟩) ++ ⟨depth, header⟩ :: ⟨depth, openingBrace⟩ ::
    [Line.empty].intercalate (members.map (MemberLines.lines (depth + 1))) ++
      [⟨depth, closingBrace⟩]

/-- Steps that neither open nor close a block write their lines at one depth. -/
theorem writeAll_of_inside {steps : List Step} (h : ∀ s ∈ steps, s.opens = false ∧ s ≠ .close)
    (depth : Nat) : writeAll depth steps = (steps.flatMap (Step.insideLines depth), depth) := by
  induction steps with
  | nil => rfl
  | cons s rest ih =>
    -- each step writes at the depth, which stays as it is
    obtain ⟨⟨hs, hc⟩, hrest⟩ := List.forall_mem_cons.mp h
    rw [writeAll_cons_inside hs hc, ih hrest, List.flatMap_cons]

end CSharp

namespace Generation

open CSharp (Step Line AutoProperty IsCommentText IsPropertyText MemberLines classLines writeAll)

/-- The comments of a declaration or a member. -/
def commentTexts (m : Metadata) : List String :=
  match m.documentation with
  | none => []
  | some d =>
    CSharp.documentationLines .summary (d.summary.getD "") ++
      CSharp.documentationLines .remarks (d.longDescription.getD "")

/-- The comments of a declaration or a member are comment lines. -/
theorem isCommentText_of_mem_commentTexts {m : Metadata} {text : String}
    (h : text ∈ commentTexts m) : IsCommentText text := by
  unfold commentTexts at h
  split at h
  · exact absurd h List.not_mem_nil
  · rcases List.mem_append.mp h with h | h
    · exact CSharp.isCommentText_of_mem_documentationLines h
    · exact CSharp.isCommentText_of_mem_documentationLines h

/-- The texts of the attributes among some steps. -/
def attributeTexts (steps : List Step) : List String :=
  (attributesIn steps).map fun a => CSharp.attributeText a.1 a.2

/-- The texts of attributes are those of the steps that write attributes. -/
theorem mem_attributeTexts_iff {steps : List Step} {text : String} :
    text ∈ attributeTexts steps ↔
      ∃ name arguments, .attributed name arguments ∈ steps ∧
        CSharp.attributeText name arguments = text := by
  unfold attributeTexts
  rw [List.mem_map]
  simp only [Prod.exists, mem_attributesIn_iff]

/-- Documentation writes the comments that it makes. -/
theorem insideLines_documentationSteps (m : Metadata) (depth : Nat) :
    (documentationSteps m).flatMap (Step.insideLines depth) =
      (commentTexts m).map fun text => ⟨depth, text⟩ := by
  unfold commentTexts documentationSteps
  -- a summary and remarks make lines each, or none
  cases m.documentation with
  | none => rfl
  | some d => simp [Step.insideLines]

/-- Attributes write one line each. -/
theorem insideLines_attributes {steps : List Step} (h : ∀ step ∈ steps, IsAttribute step)
    (depth : Nat) :
    steps.flatMap (Step.insideLines depth) =
      (attributeTexts steps).map fun text => ⟨depth, text⟩ := by
  induction steps with
  | nil => rfl
  | cons step rest ih =>
    obtain ⟨⟨name, arguments, rfl⟩, hrest⟩ := List.forall_mem_cons.mp h
    rw [List.flatMap_cons, ih hrest]
    rfl

/-- A member is written as its comments, its attributes and its line. -/
theorem insideLines_member {attributes : List Step} (h : ∀ step ∈ attributes, IsAttribute step)
    (m : Metadata) (line : AutoProperty) (depth : Nat) :
    (documentationSteps m ++ attributes ++ [Step.property line]).flatMap (Step.insideLines depth) =
      MemberLines.lines depth ⟨commentTexts m, attributeTexts attributes, line.text⟩ := by
  rw [List.flatMap_append, List.flatMap_append, insideLines_documentationSteps,
    insideLines_attributes h]
  simp [MemberLines.lines, MemberLines.texts, Step.insideLines]

/-- Members are written with an empty line between each two. -/
private theorem insideLines_separate (members : List (List Step)) (depth : Nat) :
    (separate members).flatMap (Step.insideLines depth) =
      [Line.empty].intercalate (members.map fun m => m.flatMap (Step.insideLines depth)) := by
  -- an empty line stands between two members and not behind the last
  induction members using separate.induct with
  | case1 => rfl
  | case2 m => simp [separate]
  | case3 m rest hrest ih =>
    obtain ⟨m', rest', rfl⟩ := List.exists_cons_of_ne_nil hrest
    rw [separate, List.flatMap_append, List.flatMap_cons, ih]
    · simp only [List.map_cons, List.intercalate_cons_cons]
      simp [Step.insideLines]
    · exact hrest

/-- A class is written as its comments, its header and its members. -/
theorem writeAll_typeSteps {depth : Nat} {members : List (List Step)} {lines : List MemberLines}
    (hinside : ∀ m ∈ members, ∀ s ∈ m, Inside s)
    (hlines : (members.map fun m => m.flatMap (Step.insideLines (depth + 1))) =
      lines.map (MemberLines.lines (depth + 1)))
    (m : Metadata) (header : CSharp.TypeHeader) :
    (writeAll depth (typeSteps m header members)).1 =
      classLines depth (commentTexts m) header.text lines := by
  -- comments and members leave the depth as it is
  have hcomments := CSharp.balanced_of_inside (inside_documentationSteps m)
  have hmembers := CSharp.balanced_of_inside (inside_separate hinside)
  unfold typeSteps classLines
  rw [List.append_assoc, hcomments.writeAll_append,
    CSharp.writeAll_of_inside (inside_documentationSteps m), insideLines_documentationSteps]
  show _ ++ ⟨depth, header.text⟩ :: ⟨depth, CSharp.openingBrace⟩ ::
    (writeAll (depth + 1) (separate members ++ [.close])).1 = _
  -- the members leave the depth as it is, so the last step closes the class
  rw [hmembers.writeAll_append, CSharp.writeAll_of_inside (inside_separate hinside),
    insideLines_separate, hlines, List.append_assoc]
  rfl

/-- Members that each have lines have them in a row. -/
theorem exists_memberLines {α : Type} {as : List α} {members : List (List Step)}
    {R : α → MemberLines → Prop}
    (h : List.Forall₂ (fun a m => ∃ line, (∀ depth, m.flatMap (Step.insideLines depth) =
      MemberLines.lines depth line) ∧ R a line) as members) :
    ∃ lines : List MemberLines,
      (∀ depth, (members.map fun m => m.flatMap (Step.insideLines depth)) =
        lines.map (MemberLines.lines depth)) ∧ List.Forall₂ R as lines := by
  -- the lines are collected member by member
  induction h with
  | nil => exact ⟨[], fun _ => rfl, .nil⟩
  | cons hm _ ih =>
    obtain ⟨line, hline, hr⟩ := hm
    obtain ⟨lines, hlines, hrs⟩ := ih
    refine ⟨line :: lines, fun depth => ?_, .cons hr hrs⟩
    rw [List.map_cons, List.map_cons, hline, hlines]

/-- The text is that of a class with this header, the members of which have these lines. -/
def IsClassText (header : String) (members : List MemberLines) (text : String) : Prop :=
  ∃ comments, (∀ comment ∈ comments, IsCommentText comment) ∧
    text = CSharp.renderLines (classLines 1 comments header members)

/-- The steps of a class write the text of a class. -/
theorem isClassText_typeSteps {members : List (List Step)} {lines : List MemberLines}
    (hinside : ∀ m ∈ members, ∀ s ∈ m, Inside s)
    (hlines : ∀ depth, (members.map fun m => m.flatMap (Step.insideLines depth)) =
      lines.map (MemberLines.lines depth))
    (m : Metadata) (header : CSharp.TypeHeader) :
    IsClassText header.text lines (bodyText (typeSteps m header members)) :=
  ⟨commentTexts m, fun _ => isCommentText_of_mem_commentTexts,
    congrArg CSharp.renderLines (writeAll_typeSteps hinside (hlines 2) m header)⟩

/-! ### Texts of attributes -/

/-- The text for a largest length. -/
def maxLengthText (length : Nat) : String := "[MaxLength(" ++ toString length ++ ")]"

/-- The text is that of an attribute that is written for a schema.  The names in it are those of
    properties of a referential constraint and of navigation properties. -/
inductive IsAttributeText (s : Schema) : String → Prop
  | flags : IsAttributeText s "[Flags]"
  | key : IsAttributeText s "[Key]"
  | concurrencyCheck : IsAttributeText s "[ConcurrencyCheck]"
  | maxLength (length : Nat) : IsAttributeText s (maxLengthText length)
  | identity : IsAttributeText s "[DatabaseGenerated(DatabaseGeneratedOption.Identity)]"
  | computed : IsAttributeText s "[DatabaseGenerated(DatabaseGeneratedOption.Computed)]"
  | required : IsAttributeText s "[Required]"
  | foreignKey {a : Association} {c : ReferentialConstraint} {half : ConstraintHalf} {name : String}
      (ha : a ∈ s.associations) (hc : a.constraint = some c) (hhalf : half ∈ c.halves)
      (hname : name ∈ half.properties) : IsAttributeText s ("[ForeignKey(nameof(" ++ name ++ "))]")
  | inverse {t : EntityType} {n : NavigationProperty} (ht : t ∈ s.entityTypes)
      (hn : n ∈ t.navigationProperties) :
      IsAttributeText s ("[InverseProperty(nameof(" ++ t.name ++ "." ++ n.name ++ "))]")

end Generation

end EntityModel
