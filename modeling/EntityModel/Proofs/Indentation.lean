import EntityModel.Proofs.Blocks

/-!
# Indentation of written source

A written text is read back line by line, without knowledge of the steps that wrote it: some lines
are a brace behind tabs, and all others are code.  The steps keep one invariant on the lines that
they write from a depth on: code stands at the current depth, an opening brace goes one level down
and a closing one comes back.  From it follow both what the braces of a text look like and how far
each of its lines is indented.

* `indented_write`, `indented_writeAll`        what one step and a run of steps write
* `Indented.closesFrom`, `Indented.depth_eq`   the braces, and the tabs of all other lines
* `indentation_follows_blocks`                 both for a text whose blocks are closed at the end
-/

namespace EntityModel.CSharp

/-! ### Reading lines -/

/-- A line that is an opening or a closing brace behind tabs. -/
structure Brace where
  isOpening : Bool
  tabs : Nat
deriving DecidableEq, Repr

/-- The lines of a text, each before its line feed.  What follows the last line feed is one as well,
    empty where a text ends in a line feed. -/
def textLines (text : String) : List (List Char) := text.toList.splitOn '\n'

/-- The number of tabs that a line begins with. -/
def leadingTabs (line : List Char) : Nat := (line.takeWhile (· == '\t')).length

/-- The brace of a line that holds nothing else but tabs before it. -/
def brace? (line : List Char) : Option Brace :=
  match line.dropWhile (· == '\t') with
  | ['\x7b'] => some ⟨true, leadingTabs line⟩
  | ['\x7d'] => some ⟨false, leadingTabs line⟩
  | _ => none

/-- The braces among some lines. -/
def braces (lines : List (List Char)) : List Brace := lines.filterMap brace?

/-- A balanced word of braces in which partners stand behind the same number of tabs. -/
inductive Paired : List Brace → Prop
  | nil : Paired []
  | block {tabs : Nat} {inner rest : List Brace} (hinner : Paired inner) (hrest : Paired rest) :
      Paired (⟨true, tabs⟩ :: inner ++ ⟨false, tabs⟩ :: rest)

/-- How many more opening than closing braces there are. -/
def unmatched (word : List Brace) : Nat :=
  word.countP (·.isOpening) - word.countP (!·.isOpening)

/-- Two balanced words in a row are balanced. -/
theorem Paired.append {v w : List Brace} (hv : Paired v) (hw : Paired w) : Paired (v ++ w) := by
  induction hv with
  | nil => exact hw
  -- the word begins with a block, and the other one goes behind the rest of it
  | block hinner _ _ ih =>
    rw [List.append_assoc, List.cons_append]
    exact .block hinner ih

/-! ### What the texts of a step may hold -/

/-- The text has no line feed. -/
def Unbroken (text : String) : Prop := '\n' ∉ text.toList

/-- The text has no line feed and does not begin with a tab. -/
def OneLine (text : String) : Prop := Unbroken text ∧ text.toList.head? ≠ some '\t'

/-- The texts that a step is given, those of documentation aside. -/
def Step.texts : Step → List String
  | openNamespace name => [name]
  | openType header => header.name :: header.bases
  | close => []
  | importNamespace name => [name]
  | enumeration name members underlying _ => name :: underlying :: members.map (·.1)
  | property p => p.name :: p.typeName :: p.initializer.toList
  | attributed name arguments => name :: arguments
  | documentation _ _ => []
  | statement text => [text]
  | blankLine => []

/-- The text of a line of code: it stays on its line, and it is neither empty nor a brace. -/
structure IsCode (text : String) : Prop where
  oneLine : OneLine text
  not_empty : text ≠ ""
  not_opening : text ≠ openingBrace
  not_closing : text ≠ closingBrace

/-! ### Texts of code -/

instance (text : String) : Decidable (Unbroken text) :=
  inferInstanceAs (Decidable ('\n' ∉ text.toList))

instance (text : String) : Decidable (OneLine text) :=
  inferInstanceAs (Decidable (_ ∧ _))

/-- Two texts without line feeds have none together. -/
private theorem unbroken_append {a b : String} (ha : Unbroken a) (hb : Unbroken b) :
    Unbroken (a ++ b) := by
  unfold Unbroken at *
  simp [ha, hb]

/-- Joining texts without line feeds brings none in but that of the separator. -/
private theorem unbroken_intercalate {separator : String} {texts : List String}
    (hs : Unbroken separator) (h : ∀ text ∈ texts, Unbroken text) :
    Unbroken (separator.intercalate texts) := by
  induction texts with
  | nil => exact List.not_mem_nil
  | cons text rest ih =>
    obtain ⟨htext, hrest⟩ := List.forall_mem_cons.mp h
    cases rest with
    | nil => rwa [String.intercalate_singleton]
    | cons next rest =>
      rw [String.intercalate_cons_cons]
      exact unbroken_append (unbroken_append htext hs) (ih hrest)

/-- The text begins with a word of the language, so nothing that follows can make it blank, a brace
    or more indented. -/
def StartsCode (text : String) : Prop :=
  Unbroken text ∧
    (text.toList.head?.any fun c => c != '\t' && c != '\x7b' && c != '\x7d') = true

instance (text : String) : Decidable (StartsCode text) :=
  inferInstanceAs (Decidable (_ ∧ _))

/-- What begins with a word of the language still does with more behind it. -/
theorem StartsCode.append {a b : String} (ha : StartsCode a) (hb : Unbroken b) :
    StartsCode (a ++ b) := by
  refine ⟨unbroken_append ha.1 hb, ?_⟩
  obtain ⟨c, hc, hstart⟩ := (Option.any_eq_true _ _).mp ha.2
  simp only [String.toList_append, List.head?_append, hc]
  exact hstart

/-- Text that begins with a word of the language is code. -/
private theorem StartsCode.isCode {text : String} (h : StartsCode text) : IsCode text := by
  obtain ⟨hunbroken, hhead⟩ := h
  refine ⟨⟨hunbroken, fun htab => ?_⟩, ?_, ?_, ?_⟩
  -- its first character is no tab
  · simp [htab] at hhead
  · rintro rfl
    exact absurd hhead (by decide)
  · rintro rfl
    exact absurd hhead (by decide)
  · rintro rfl
    exact absurd hhead (by decide)

/-- What is put in front of a closing word of the language is no brace. -/
theorem isCode_append {a b : String} (ha : OneLine a) (hb : Unbroken b)
    (hhead : b.toList.head?.any (· != '\t') = true)
    (hlast : (b.toList.getLast?.any fun c => c != '\x7b' && c != '\x7d') = true) :
    IsCode (a ++ b) := by
  -- the first character of the closing word is no tab, and the last one no brace
  obtain ⟨first, hfirst, hstart⟩ := (Option.any_eq_true _ _).mp hhead
  obtain ⟨last, hend, hbrace⟩ := (Option.any_eq_true _ _).mp hlast
  have hlastOf : (a ++ b).toList.getLast? = some last := by
    simp [String.toList_append, List.getLast?_append, hend]
  refine ⟨⟨unbroken_append ha.1 hb, ?_⟩, ?_, ?_, ?_⟩
  -- the whole begins with what is in front, or with the closing word where that is empty
  · rw [String.toList_append, List.head?_append]
    cases hhead : a.toList.head? with
    | none =>
      rw [Option.none_or, hfirst]
      simpa using hstart
    | some c => rw [Option.some_or, ← hhead]; exact ha.2
  -- it has a last character, so it is not empty
  · intro h
    rw [h] at hlastOf
    exact absurd hlastOf (by simp)
  -- and this is neither the opening brace
  · intro h
    rw [h] at hlastOf
    obtain rfl : '\x7b' = last := Option.some.inj hlastOf
    exact absurd hbrace (by decide)
  -- nor the closing one
  · intro h
    rw [h] at hlastOf
    obtain rfl : '\x7d' = last := Option.some.inj hlastOf
    exact absurd hbrace (by decide)

/-- An access is a word of the language. -/
private theorem startsCode_accessKeyword (a : Access) : StartsCode (accessKeyword a) := by
  cases a <;> decide

/-- Modifiers stand on one line. -/
private theorem unbroken_modifiers (m : Modifiers) : Unbroken m.text := by
  obtain ⟨isStatic, isAbstract, isPartial⟩ := m
  cases isStatic <;> cases isAbstract <;> cases isPartial <;> decide

/-- An accessor stands on one line. -/
private theorem unbroken_accessorText (whole access : Access) {keyword : String}
    (h : Unbroken keyword) : Unbroken (accessorText whole access keyword) := by
  unfold accessorText
  split
  -- a private setter is written without an access of its own
  · exact unbroken_append (unbroken_append (by decide) h) (by decide)
  split
  · exact unbroken_append (unbroken_append (unbroken_append (startsCode_accessKeyword _).1
      (by decide)) h) (by decide)
  · exact unbroken_append h (by decide)

/-- The decimal form of an integer stands on one line. -/
private theorem unbroken_toString (i : Int) : Unbroken (toString i) := by
  -- digits and at most a sign
  have hdigits : ∀ n : Nat, '\n' ∉ n.repr.toList := by
    intro n h
    rw [Nat.toList_repr] at h
    exact absurd (Nat.isDigit_of_mem_toDigits (by decide) (by decide) h) (by decide)
  rw [Int.toString_eq_repr, Int.repr_eq_if]
  split
  · exact hdigits _
  · exact unbroken_append (by decide) (hdigits _)

/-! ### The invariant on lines -/

/-- Lines that lead from one depth to another. -/
inductive Indented : Nat → List Line → Nat → Prop
  | nil {depth : Nat} : Indented depth [] depth
  | opening {depth after : Nat} {rest : List Line} (hrest : Indented (depth + 1) rest after) :
      Indented depth (⟨depth, openingBrace⟩ :: rest) after
  | closing {depth after : Nat} {rest : List Line} (hrest : Indented depth rest after) :
      Indented (depth + 1) (⟨depth, closingBrace⟩ :: rest) after
  | code {depth after : Nat} {text : String} {rest : List Line} (htext : IsCode text)
      (hrest : Indented depth rest after) : Indented depth (⟨depth, text⟩ :: rest) after
  | blank {depth after : Nat} {rest : List Line} (hrest : Indented depth rest after) :
      Indented depth (.empty :: rest) after

namespace Indented

/-- Lines that lead from one depth to the next, and lines that lead on from there. -/
theorem append {a b c : Nat} {ls ms : List Line} (hl : Indented a ls b) (hm : Indented b ms c) :
    Indented a (ls ++ ms) c := by
  induction hl with
  | nil => exact hm
  | opening _ ih => exact .opening (ih hm)
  | closing _ ih => exact .closing (ih hm)
  | code htext _ ih => exact .code htext (ih hm)
  | blank _ ih => exact .blank (ih hm)

/-- Lines of code at one depth. -/
theorem of_code {depth : Nat} {texts : List String} (h : ∀ text ∈ texts, IsCode text) :
    Indented depth (texts.map fun text => ⟨depth, text⟩) depth := by
  induction texts with
  | nil => exact .nil
  | cons text rest ih =>
    obtain ⟨htext, hrest⟩ := List.forall_mem_cons.mp h
    exact .code htext (ih hrest)

end Indented

/-! ### The lines of each step -/

/-- Dropping a carriage return brings no character in. -/
private theorem mem_of_mem_dropReturn {cs : List Char} {c : Char} (h : c ∈ Text.dropReturn cs) :
    c ∈ cs := by
  unfold Text.dropReturn at h
  split at h
  · rename_i rest hrest
    have hreversed : c ∈ cs.reverse := by
      rw [hrest]
      exact List.mem_cons_of_mem _ (List.mem_reverse.mp h)
    exact List.mem_reverse.mp hreversed
  · exact h

/-- No line of a text holds the line feed that it was split at. -/
private theorem not_mem_of_mem_splitLines {cs line : List Char} (h : line ∈ Text.splitLines cs) :
    '\n' ∉ line := by
  fun_induction Text.splitLines cs with
  | case1 cs hnone hempty => exact absurd h List.not_mem_nil
  -- the rest of the text without a line feed
  | case2 cs hnone hempty =>
    obtain rfl := List.mem_singleton.mp h
    intro hmem
    exact absurd (Text.all_of_dropWhile_eq_nil hnone _ hmem) (by decide)
  -- a line that was taken up to its line feed
  | case3 cs c rest hrest ih =>
    rcases List.mem_cons.mp h with rfl | h
    · intro hmem
      have htaken := List.all_takeWhile (p := (· != '\n')) (l := cs)
      exact absurd (List.all_eq_true.mp htaken _ (mem_of_mem_dropReturn hmem)) (by decide)
    · exact ih h

/-- Trimming brings no character in. -/
private theorem mem_of_mem_trimChars {cs : List Char} {c : Char} (h : c ∈ Text.trimChars cs) :
    c ∈ cs := by
  unfold Text.trimChars Text.trimBoth Text.dropEndWhile at h
  -- what is left of the back is left of the whole, and so is what is left of the front
  have hend := (List.dropWhile_sublist Text.isBlank).subset (List.mem_reverse.mp h)
  exact (List.dropWhile_sublist Text.isBlank).subset (List.mem_reverse.mp hend)

/-- A line of documentation stands on one line once it is escaped. -/
private theorem unbroken_documentationLine {line : List Char} (h : '\n' ∉ line) :
    Unbroken (String.ofList (escapeMarkup (Text.trimChars line))) := by
  unfold Unbroken escapeMarkup
  rw [String.toList_ofList, List.mem_flatMap]
  rintro ⟨c, hc, hmem⟩
  have hline := mem_of_mem_trimChars hc
  -- the three characters with names become references, all others stay
  split at hmem
  · exact absurd hmem (by decide)
  split at hmem
  · exact absurd hmem (by decide)
  split at hmem
  · exact absurd hmem (by decide)
  · obtain rfl := List.mem_singleton.mp hmem
    exact h hline

/-- The lines of a documentation comment are code whatever its text. -/
theorem isCode_documentationLines (kind : DocumentationKind) (text : String) :
    ∀ line ∈ documentationLines kind text, IsCode line := by
  -- the tags around a comment are words of the language
  have htag : StartsCode ("/// <" ++ kind.tag ++ ">") ∧
      StartsCode ("/// </" ++ kind.tag ++ ">") := by
    cases kind <;> decide
  unfold documentationLines
  split
  -- a blank comment has no lines
  · exact fun _ h => nomatch h
  · rw [List.cons_append, List.forall_mem_cons, List.forall_mem_append, List.forall_mem_singleton,
      List.forall_mem_map]
    refine ⟨htag.1.isCode, fun line hline => ?_, htag.2.isCode⟩
    have hstart : StartsCode "/// " := by decide
    exact (hstart.append (unbroken_documentationLine (not_mem_of_mem_splitLines hline))).isCode

/-- A property is one line of code. -/
private theorem isCode_property {p : AutoProperty}
    (h : ∀ text ∈ (Step.property p).texts, OneLine text) : IsCode p.text := by
  simp only [Step.texts, List.forall_mem_cons] at h
  obtain ⟨hname, htype, hinitializer⟩ := h
  have hdefinition : Unbroken p.definition.text := by cases p.definition <;> decide
  have haccessor := fun access keyword => @unbroken_accessorText p.access access keyword
  have hopening : StartsCode (accessKeyword p.access ++ " ") :=
    (startsCode_accessKeyword p.access).append (by decide)
  -- access, definition, type, name, the two accessors and at last the initializer
  refine ((((((((((hopening.append hdefinition).append htype.1).append (by decide)).append
    hname.1).append (by decide)).append (haccessor _ _ (by decide))).append (by decide)).append
    (haccessor _ _ (by decide))).append (by decide)).append ?_).isCode
  -- the initializer, if the property has one
  split
  · rename_i value hvalue
    have := hinitializer value (by simp [hvalue])
    exact unbroken_append (unbroken_append (by decide) this.1) (by decide)
  · decide

/-- The header of a type is one line of code. -/
private theorem isCode_typeHeader {header : TypeHeader}
    (h : ∀ text ∈ (Step.openType header).texts, OneLine text) : IsCode header.text := by
  simp only [Step.texts, List.forall_mem_cons] at h
  obtain ⟨hname, hbases⟩ := h
  have hkind : Unbroken header.kind.text := by cases header.kind <;> decide
  have hopening : StartsCode (accessKeyword header.access ++ " ") :=
    (startsCode_accessKeyword header.access).append (by decide)
  -- access, modifiers, kind and name, and the base types behind them
  refine (((((hopening.append (unbroken_modifiers _)).append hkind).append (by decide)).append
    hname.1).append ?_).isCode
  split
  · decide
  · exact unbroken_append (by decide)
      (unbroken_intercalate (by decide) fun text ht => (hbases text ht).1)

/-- An attribute is one line of code. -/
private theorem isCode_attribute {name : String} {arguments : List String}
    (h : ∀ text ∈ (Step.attributed name arguments).texts, OneLine text) :
    IsCode (attributeText name arguments) := by
  simp only [Step.texts, List.forall_mem_cons] at h
  obtain ⟨hname, harguments⟩ := h
  -- the bracket is in front, so it does not matter what the name begins with
  have hopening : StartsCode ("[" ++ name) := StartsCode.append (by decide) hname.1
  unfold attributeText
  split
  · exact (hopening.append (by decide)).isCode
  · exact (((hopening.append (by decide)).append (unbroken_intercalate (by decide)
      fun text ht => (harguments text ht).1)).append (by decide)).isCode

/-- A member of an enum is one line of code. -/
private theorem isCode_enumMember {member : String × Option Int} (h : OneLine member.1) :
    IsCode (enumMemberText member) := by
  unfold enumMemberText
  split
  · rename_i value _
    -- the value with its sign and the comma behind it are on the line
    have htail : Unbroken (" = " ++ toString value ++ ",") :=
      unbroken_append (unbroken_append (by decide) (unbroken_toString value)) (by decide)
    have hwhole : member.1 ++ " = " ++ toString value ++ "," =
        member.1 ++ (" = " ++ toString value ++ ",") := by
      simp only [String.append_assoc]
    have hlast : (" = " ++ toString value ++ ",").toList.getLast? = some ',' := by
      rw [String.toList_append, List.getLast?_append]
      rfl
    -- the comma at the end keeps a member from being a brace, whatever its name
    rw [hwhole]
    exact isCode_append h htail (by simp) (by rw [hlast]; decide)
  -- without a value the name has only the comma behind it
  · exact isCode_append h (by decide) (by decide) (by decide)

/-- What one step writes leads from the depth before it to the depth after it. -/
theorem indented_write {s : Step} (h : ∀ text ∈ s.texts, OneLine text) {depth after : Nat}
    {ls : List Line} (hwrite : s.write depth = some (ls, after)) : Indented depth ls after := by
  -- the steps one by one; only opening and closing steps have braces among their lines
  cases s with
  | openNamespace name =>
    obtain ⟨rfl, rfl⟩ := Prod.mk.inj (Option.some.inj hwrite)
    have hstart : StartsCode "namespace " := by decide
    exact .code (hstart.append (h name List.mem_cons_self).1).isCode (.opening .nil)
  | openType header =>
    obtain ⟨rfl, rfl⟩ := Prod.mk.inj (Option.some.inj hwrite)
    exact .code (isCode_typeHeader h) (.opening .nil)
  | close =>
    -- no block is open, so nothing is written
    cases depth with
    | zero => exact nomatch hwrite
    | succ d =>
      obtain ⟨rfl, rfl⟩ := Prod.mk.inj (Option.some.inj hwrite)
      exact .closing .nil
  | importNamespace name =>
    obtain ⟨rfl, rfl⟩ := Prod.mk.inj (Option.some.inj hwrite)
    have hstart : StartsCode "using " := by decide
    exact .code ((hstart.append (h name List.mem_cons_self).1).append (by decide)).isCode .nil
  | enumeration name members underlying access =>
    obtain ⟨rfl, rfl⟩ := Prod.mk.inj (Option.some.inj hwrite)
    simp only [Step.texts, List.forall_mem_cons, List.forall_mem_map] at h
    -- the header and the lines between the braces
    obtain ⟨hname, hunderlying, hmembers⟩ := h
    have hheader : IsCode (accessKeyword access ++ " enum " ++ name ++ " : " ++ underlying) :=
      (((((startsCode_accessKeyword access).append (by decide)).append hname.1).append
        (by decide)).append hunderlying.1).isCode
    have hbody : Indented (depth + 1) (members.map fun m => ⟨depth + 1, enumMemberText m⟩)
        (depth + 1) := by
      have hcode : ∀ text ∈ members.map enumMemberText, IsCode text :=
        List.forall_mem_map.mpr fun m hm => isCode_enumMember (hmembers m hm)
      have hlines : Indented (depth + 1)
          ((members.map enumMemberText).map fun text => ⟨depth + 1, text⟩) (depth + 1) :=
        .of_code hcode
      rwa [List.map_map] at hlines
    -- the block that the declaration opens is closed by itself
    exact .code hheader (.opening (hbody.append (.closing .nil)))
  | property p =>
    obtain ⟨rfl, rfl⟩ := Prod.mk.inj (Option.some.inj hwrite)
    exact .code (isCode_property h) .nil
  | attributed name arguments =>
    obtain ⟨rfl, rfl⟩ := Prod.mk.inj (Option.some.inj hwrite)
    exact .code (isCode_attribute h) .nil
  | documentation kind text =>
    obtain ⟨rfl, rfl⟩ := Prod.mk.inj (Option.some.inj hwrite)
    exact .of_code (isCode_documentationLines kind text)
  | statement text =>
    obtain ⟨rfl, rfl⟩ := Prod.mk.inj (Option.some.inj hwrite)
    -- the semicolon at the end keeps a statement from being a brace
    have htext := h text List.mem_cons_self
    exact .code (isCode_append htext (by decide) (by decide) (by decide)) .nil
  | blankLine =>
    obtain ⟨rfl, rfl⟩ := Prod.mk.inj (Option.some.inj hwrite)
    exact .blank .nil

/-- What some steps write leads from the depth before them to the depth after them. -/
theorem indented_writeAll {steps : List Step} (h : ∀ s ∈ steps, ∀ text ∈ s.texts, OneLine text)
    (depth : Nat) : Indented depth (writeAll depth steps).1 (writeAll depth steps).2 := by
  induction steps generalizing depth with
  | nil => exact .nil
  | cons s rest ih =>
    obtain ⟨hs, hrest⟩ := List.forall_mem_cons.mp h
    rw [writeAll]
    cases hwrite : s.write depth with
    -- a step that cannot be written leaves the depth as it is
    | none => exact ih hrest depth
    | some written => exact (indented_write hs hwrite).append (ih hrest written.2)

/-! ### The lines of a text -/

namespace Line

/-- The line as it stands in the text, without its line feed. -/
def chars (l : Line) : List Char := List.replicate l.depth '\t' ++ l.text.toList

/-- A line in a text ends in its line feed. -/
theorem toList_render (l : Line) : l.render.toList = l.chars ++ ['\n'] := by
  simp [render, chars]

/-- Behind the tabs of a line stands its text. -/
private theorem dropWhile_chars {l : Line} (h : l.text.toList.head? ≠ some '\t') :
    l.chars.dropWhile (· == '\t') = l.text.toList := by
  unfold chars
  rw [List.dropWhile_append_of_pos (by simp)]
  cases hl : l.text.toList with
  | nil => rfl
  | cons c cs =>
    rw [hl] at h
    exact List.dropWhile_cons_of_neg (by simpa using h)

/-- The tabs of a line count its depth. -/
private theorem leadingTabs_chars {l : Line} (h : l.text.toList.head? ≠ some '\t') :
    leadingTabs l.chars = l.depth := by
  unfold leadingTabs chars
  rw [List.takeWhile_append_of_pos (by simp)]
  cases hl : l.text.toList with
  | nil => simp
  | cons c cs =>
    rw [hl] at h
    rw [List.takeWhile_cons_of_neg (by simpa using h)]
    simp

end Line

/-- A line of code is no brace. -/
private theorem brace?_code {depth : Nat} {text : String} (h : IsCode text) :
    brace? (Line.mk depth text).chars = none := by
  unfold brace?
  rw [Line.dropWhile_chars h.oneLine.2]
  split
  · rename_i htext
    exact absurd (String.ext htext) h.not_opening
  · rename_i htext
    exact absurd (String.ext htext) h.not_closing
  · rfl

/-- An opening brace is found with its tabs. -/
private theorem brace?_opening (depth : Nat) :
    brace? (Line.mk depth openingBrace).chars = some ⟨true, depth⟩ := by
  have hbrace : openingBrace.toList = ['\x7b'] := by decide
  have hhead : openingBrace.toList.head? ≠ some '\t' := by decide
  unfold brace?
  rw [Line.dropWhile_chars hhead, Line.leadingTabs_chars hhead, hbrace]
  rfl

/-- And so is a closing one. -/
private theorem brace?_closing (depth : Nat) :
    brace? (Line.mk depth closingBrace).chars = some ⟨false, depth⟩ := by
  have hbrace : closingBrace.toList = ['\x7d'] := by decide
  have hhead : closingBrace.toList.head? ≠ some '\t' := by decide
  unfold brace?
  rw [Line.dropWhile_chars hhead, Line.leadingTabs_chars hhead, hbrace]
  rfl

/-- A blank line is no brace. -/
private theorem brace?_blank : brace? Line.empty.chars = none := by decide

namespace Indented

variable {depth after : Nat} {ls : List Line}

/-- No line holds a line feed, so a text falls into the lines it was made of. -/
private theorem not_mem_chars (h : Indented depth ls after) : ∀ l ∈ ls, '\n' ∉ l.chars := by
  -- the tabs in front do not matter
  have hchars : ∀ {d : Nat} {text : String}, Unbroken text → '\n' ∉ (Line.mk d text).chars := by
    intro d text htext
    unfold Line.chars
    simpa using fun hmem : '\n' ∈ text.toList => htext hmem
  -- the induction is on the lines, each of which is a brace, code or blank
  induction h with
  | nil => exact fun _ hl => nomatch hl
  | opening _ ih => exact List.forall_mem_cons.mpr ⟨hchars (by decide), ih⟩
  | closing _ ih => exact List.forall_mem_cons.mpr ⟨hchars (by decide), ih⟩
  | code htext _ ih => exact List.forall_mem_cons.mpr ⟨hchars htext.oneLine.1, ih⟩
  | blank _ ih => exact List.forall_mem_cons.mpr ⟨hchars (by decide), ih⟩

/-- The lines of a text are those that were written, and the empty one behind them. -/
theorem textLines_eq (h : Indented depth ls after) :
    textLines (renderLines ls) = ls.map Line.chars ++ [[]] := by
  have hlines := h.not_mem_chars
  clear h
  unfold textLines
  -- each line ends where the text is split the next time
  induction ls with
  | nil => rfl
  | cons l rest ih =>
    obtain ⟨hl, hrest⟩ := List.forall_mem_cons.mp hlines
    rw [renderLines_cons, String.toList_append, Line.toList_render, List.append_assoc,
      List.singleton_append, List.splitOn_append_cons_self_of_not_mem hl, ih hrest]
    rfl

/-- A line of a text that is not empty is one of those that were written. -/
private theorem exists_written (h : Indented depth ls after) {before rest : List (List Char)}
    {line : List Char} (hsplit : textLines (renderLines ls) = before ++ line :: rest)
    (hline : line ≠ []) :
    ∃ front l back, ls = front ++ l :: back ∧ before = front.map Line.chars ∧
      line = l.chars := by
  rw [h.textLines_eq] at hsplit
  obtain ⟨more, -, hlast⟩ | ⟨more, hmap, hlast⟩ := List.append_eq_append_iff.mp hsplit
  -- only the empty line is behind those that were written
  · cases more with
    | nil =>
      obtain ⟨rfl, -⟩ := List.cons.inj hlast
      exact absurd rfl hline
    | cons _ more => exact absurd (List.cons.inj hlast).2 (by simp)
  -- the line is one of those that were written, or the first one behind them
  · cases more with
    | nil =>
      obtain ⟨rfl, -⟩ := List.cons.inj hlast
      exact absurd rfl hline
    | cons first more =>
      obtain ⟨rfl, -⟩ := List.cons.inj hlast
      obtain ⟨front, back, rfl, rfl, hback⟩ := List.map_eq_append_iff.mp hmap
      obtain ⟨l, back, rfl, rfl, -⟩ := List.map_eq_cons_iff.mp hback
      exact ⟨front, l, back, rfl, rfl, rfl⟩

end Indented

/-- Braces that close the given number of blocks, the innermost first, with balanced words between
    them. -/
def ClosesFrom : Nat → List Brace → Prop
  | 0, word => Paired word
  | depth + 1, word =>
    ∃ inner rest, word = inner ++ ⟨false, depth⟩ :: rest ∧ Paired inner ∧ ClosesFrom depth rest

/-- Balanced words may stand before those that close blocks. -/
theorem ClosesFrom.append {depth : Nat} {v w : List Brace} (hv : Paired v)
    (hw : ClosesFrom depth w) : ClosesFrom depth (v ++ w) := by
  cases depth with
  | zero => exact hv.append hw
  | succ d =>
    obtain ⟨inner, rest, rfl, hinner, hrest⟩ := hw
    exact ⟨v ++ inner, rest, (List.append_assoc v inner _).symm, hv.append hinner, hrest⟩

namespace Indented

/-- Lines that lead back to the depth of no block close all blocks that are open before them. -/
theorem closesFrom {depth : Nat} {ls : List Line} (h : Indented depth ls 0) :
    ClosesFrom depth (braces (ls.map Line.chars)) := by
  -- the lines are followed from the front, so the depth at their end is kept as a variable
  generalize hafter : 0 = after at h
  unfold braces
  induction h with
  | nil =>
    subst hafter
    exact .nil
  | @opening d after rest _ ih =>
    -- the lines behind an opening brace close one block more
    obtain ⟨inner, outer, hword, hinner, houter⟩ := ih hafter
    rw [List.map_cons, List.filterMap_cons_some (brace?_opening d), hword]
    -- the innermost block that is closed is the one opened here
    have hblock : Paired (⟨true, d⟩ :: inner ++ ⟨false, d⟩ :: []) := .block hinner .nil
    have hclosed := houter.append hblock
    rwa [List.append_assoc, List.cons_append, List.singleton_append] at hclosed
  | @closing d after rest _ ih =>
    rw [List.map_cons, List.filterMap_cons_some (brace?_closing d)]
    -- a closing brace closes the innermost block, with nothing before it
    exact ⟨[], _, rfl, .nil, ih hafter⟩
  | code htext _ ih =>
    -- neither code nor a blank line is a brace
    rw [List.map_cons, List.filterMap_cons_none (brace?_code htext)]
    exact ih hafter
  | blank _ ih =>
    rw [List.map_cons, List.filterMap_cons_none brace?_blank]
    exact ih hafter

/-- A line of code stands as deep as the braces before it lead. -/
theorem depth_eq {depth after : Nat} {ls : List Line} (h : Indented depth ls after)
    {before rest : List Line} {l : Line} (hsplit : ls = before ++ l :: rest)
    (hl : l.chars ≠ []) (hcode : brace? l.chars = none) :
    leadingTabs l.chars + (braces (before.map Line.chars)).countP (!·.isOpening) =
      depth + (braces (before.map Line.chars)).countP (·.isOpening) := by
  unfold braces
  -- the lines before the one looked at are taken off one by one
  induction h generalizing before with
  | nil => exact absurd hsplit (by simp)
  | opening _ ih =>
    cases before with
    | nil =>
      obtain ⟨rfl, -⟩ := List.cons.inj hsplit
      -- the line looked at is no brace
      exact absurd hcode (by simp [brace?_opening])
    | cons b before =>
      obtain ⟨rfl, hrest⟩ := List.cons.inj hsplit
      -- one block more is open behind an opening brace
      have := ih hrest
      rw [List.map_cons, List.filterMap_cons_some (brace?_opening _)]
      simp only [List.countP_cons, Bool.not_true, Bool.false_eq_true, if_false, if_true]
      omega
  | closing _ ih =>
    cases before with
    | nil =>
      obtain ⟨rfl, -⟩ := List.cons.inj hsplit
      exact absurd hcode (by simp [brace?_closing])
    | cons b before =>
      obtain ⟨rfl, hrest⟩ := List.cons.inj hsplit
      -- one block less is open behind a closing brace
      have := ih hrest
      rw [List.map_cons, List.filterMap_cons_some (brace?_closing _)]
      simp only [List.countP_cons, Bool.not_false, Bool.false_eq_true, if_false, if_true]
      omega
  | code htext _ ih =>
    cases before with
    | nil =>
      obtain ⟨rfl, -⟩ := List.cons.inj hsplit
      -- the line looked at: no braces before it, and its tabs are its depth
      exact congrArg (· + 0) (Line.leadingTabs_chars htext.oneLine.2)
    | cons b before =>
      obtain ⟨rfl, hrest⟩ := List.cons.inj hsplit
      rw [List.map_cons, List.filterMap_cons_none (brace?_code htext)]
      exact ih hrest
  | blank _ ih =>
    cases before with
    | nil =>
      obtain ⟨rfl, -⟩ := List.cons.inj hsplit
      exact absurd rfl hl
    | cons b before =>
      obtain ⟨rfl, hrest⟩ := List.cons.inj hsplit
      rw [List.map_cons, List.filterMap_cons_none brace?_blank]
      exact ih hrest

end Indented

/-! ### Blocks -/

/-- How many of some steps open a block. -/
def openings (steps : List Step) : Nat := steps.countP Step.opens

/-- How many blocks some steps close, given how many are open before them.  A closing step closes
    the innermost block, and nothing where no block is open. -/
def closings : Nat → List Step → Nat
  | _, [] => 0
  | 0, .close :: rest => closings 0 rest
  | depth + 1, .close :: rest => closings depth rest + 1
  | depth, s :: rest => closings (if s.opens then depth + 1 else depth) rest

/-- The depth after some steps. -/
def depthAfter (steps : List Step) : Nat := (writeAll 0 steps).2

/-- Some steps, and then the closing of every block that they leave open. -/
def closed (steps : List Step) : List Step := steps ++ closeAll (depthAfter steps)

/-- The depth counts the blocks that have been opened and not closed. -/
private theorem depth_add_closings (depth : Nat) (steps : List Step) :
    (writeAll depth steps).2 + closings depth steps = depth + openings steps := by
  unfold openings
  induction steps generalizing depth with
  | nil => rfl
  | cons s rest ih =>
    -- only a closing step takes from the depth
    by_cases hclose : s = .close
    · subst hclose
      rw [List.countP_cons_of_neg (by decide)]
      cases depth with
      -- nothing is open, so nothing is closed
      | zero => exact ih 0
      | succ d =>
        have := ih d
        rw [writeAll_cons_close, closings]
        omega
    -- any other step adds to what it opens and closes nothing
    have hrest : closings depth (s :: rest) =
        closings (if s.opens then depth + 1 else depth) rest := by
      cases s <;> simp_all [closings]
    cases hopens : s.opens with
    | true =>
      have := ih (depth + 1)
      rw [writeAll_cons_open hopens, hrest, if_pos hopens, List.countP_cons_of_pos hopens]
      omega
    | false =>
      have := ih depth
      rw [writeAll_cons_inside hopens hclose, hrest, if_neg (by simp [hopens]),
        List.countP_cons_of_neg (by simp [hopens])]
      exact this

/-- Closing as many blocks as are open leaves none. -/
private theorem depth_closeAll (depth : Nat) : (writeAll depth (closeAll depth)).2 = 0 := by
  induction depth with
  | zero => rfl
  | succ d ih =>
    unfold closeAll
    rw [List.replicate_succ, writeAll_cons_close]
    exact ih

/-- Once everything is closed, the depth is zero. -/
private theorem depthAfter_closed (steps : List Step) : depthAfter (closed steps) = 0 := by
  unfold depthAfter closed
  rw [writeAll_append]
  exact depth_closeAll _

/-- The indentation of a text follows its blocks.  At every step the depth is the number of blocks
    that have been opened and not closed, which only steps that open or close a block change.  Once
    all are closed it is zero, the braces of the text are balanced and partners stand equally deep,
    and every other line that is not empty is indented by the braces open before it. -/
theorem indentation_follows_blocks {steps : List Step}
    (h : ∀ s ∈ steps, ∀ text ∈ s.texts, OneLine text) :
    (∀ before, before <+: closed steps →
      depthAfter before + closings 0 before = openings before) ∧
    (∀ before s, before ++ [s] <+: closed steps → s.opens = false → s ≠ .close →
      depthAfter (before ++ [s]) = depthAfter before) ∧
    depthAfter (closed steps) = 0 ∧
    Paired (braces (textLines (sourceText (closed steps)))) ∧
    ∀ before line after, textLines (sourceText (closed steps)) = before ++ line :: after →
      line ≠ [] → brace? line = none → leadingTabs line = unmatched (braces before) := by
  -- the closing steps have no texts
  have htexts : ∀ s ∈ closed steps, ∀ text ∈ s.texts, OneLine text := by
    refine List.forall_mem_append.mpr ⟨h, fun s hs => ?_⟩
    obtain rfl := List.eq_of_mem_replicate hs
    exact fun _ ht => nomatch ht
  have hlines := indented_writeAll htexts 0
  have hdepth : (writeAll 0 (closed steps)).2 = 0 := depthAfter_closed steps
  rw [hdepth] at hlines
  refine ⟨fun before _ => ?_, fun before s _ hopens hclose => ?_, hdepth, ?_, ?_⟩
  -- the depth at every step
  · exact (depth_add_closings 0 before).trans (Nat.zero_add _)
  -- steps that neither open nor close a block
  · unfold depthAfter
    rw [writeAll_append, writeAll_cons_inside hopens hclose]
    rfl
  -- the braces of the text
  · unfold sourceText braces
    rw [hlines.textLines_eq, List.filterMap_append]
    exact (List.append_nil _).symm ▸ hlines.closesFrom
  -- all other lines of the text
  · intro before line after hsplit hline hbrace
    obtain ⟨ls, l, rest, hwritten, rfl, rfl⟩ :=
      hlines.exists_written hsplit hline
    have := hlines.depth_eq hwritten hline hbrace
    unfold unmatched
    omega

/-- An enum within two open blocks: its braces stand at the depth of its header, and both blocks
    are closed behind it. -/
theorem enum_is_indented_in_open_blocks :
    ∃ steps : List Step, (∀ s ∈ steps, ∀ text ∈ s.texts, OneLine text) ∧ depthAfter steps = 2 ∧
      depthAfter (closed steps) = 0 ∧
      braces (textLines (sourceText (closed steps))) =
        [⟨true, 0⟩, ⟨true, 1⟩, ⟨true, 2⟩, ⟨false, 2⟩, ⟨false, 1⟩, ⟨false, 0⟩] ∧
      Paired [⟨true, 0⟩, ⟨true, 1⟩, ⟨true, 2⟩, ⟨false, 2⟩, ⟨false, 1⟩, ⟨false, 0⟩] ∧
      ∀ before line after, textLines (sourceText (closed steps)) = before ++ line :: after →
        line ≠ [] → brace? line = none → leadingTabs line = unmatched (braces before) := by
  let steps : List Step :=
    [.openNamespace "Shop", .openType { kind := .classKind, name := "Order", bases := ["Base"] },
      .documentation .summary "\tone\n\x7b", .blankLine,
      .enumeration "Kind" [("Retail", some (-1)), ("\x7b", none)] "int" .publicAccess,
      .statement "\x7b"]
  have hsteps : ∀ s ∈ steps, ∀ text ∈ s.texts, OneLine text := by decide
  -- all braces of the text, found by running it
  have hbraces : braces (textLines (sourceText (closed steps))) =
      [⟨true, 0⟩, ⟨true, 1⟩, ⟨true, 2⟩, ⟨false, 2⟩, ⟨false, 1⟩, ⟨false, 0⟩] := by
    decide +kernel
  obtain ⟨-, -, hdepth, hpaired, hlines⟩ := indentation_follows_blocks hsteps
  exact ⟨steps, hsteps, by decide, hdepth, hbraces, hbraces ▸ hpaired, hlines⟩

end EntityModel.CSharp
