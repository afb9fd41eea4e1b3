import EntityModel.Proofs.Indentation
import EntityModel.Proofs.SourceLines
import Mathlib.Algebra.BigOperators.Group.List.Basic

/-!
# Documentation comments

A documentation text is written line by line, each line trimmed, escaped and put behind a marker
that makes it a comment.  Lines are taken to end at line feeds, but the source that is written has
more line ends than that.  So the comment is the block that was meant exactly where no line of the
text holds another line end; what stands behind one is source of its own.

* `unescapeMarkup?_escapeMarkup`   escaped text can be read back, and holds no other markup
* `sourceLines_commentText`        the lines of a comment as source
* `comment_is_block_iff`           when a comment is a block of marked lines
-/

namespace EntityModel.CSharp

variable {c : Char} {cs front : List Char}

/-! ### Escaped text -/

/-- The characters that are escaped in the text of a comment. -/
def markupCharacters : List Char := ['&', '<', '>']

/-- Undo the escapes of a text.  There is nothing to undo in a text with other markup. -/
def unescapeMarkup? : List Char → Option (List Char)
  | [] => some []
  | '&' :: 'a' :: 'm' :: 'p' :: ';' :: cs => (unescapeMarkup? cs).map ('&' :: ·)
  | '&' :: 'l' :: 't' :: ';' :: cs => (unescapeMarkup? cs).map ('<' :: ·)
  | '&' :: 'g' :: 't' :: ';' :: cs => (unescapeMarkup? cs).map ('>' :: ·)
  | c :: cs => if c ∈ markupCharacters then none else (unescapeMarkup? cs).map (c :: ·)

/-- No character that is escaped ends a line. -/
private theorem isOneLine_markupCharacters : IsOneLine markupCharacters := by decide

/-- The empty text has nothing to escape. -/
@[simp] theorem escapeMarkup_nil : escapeMarkup [] = [] := rfl

/-- A character without a meaning in markup is not escaped. -/
private theorem escapeMarkup_cons_plain (h : c ∉ markupCharacters) (cs : List Char) :
    escapeMarkup (c :: cs) = c :: escapeMarkup cs := by
  simp only [markupCharacters, List.mem_cons, List.not_mem_nil, or_false, not_or] at h
  simp [escapeMarkup, h]

/-- Nor does it stand for an escape. -/
private theorem unescapeMarkup?_cons_plain (h : c ∉ markupCharacters) (cs : List Char) :
    unescapeMarkup? (c :: cs) = (unescapeMarkup? cs).map (c :: ·) := by
  rw [unescapeMarkup?, if_neg h]
  -- none of the three escapes begins with another character
  · rintro _ rfl
    exact absurd h (by decide)
  · rintro _ rfl
    exact absurd h (by decide)
  · rintro _ rfl
    exact absurd h (by decide)

/-- A character of markup is written as an entity, which stays on its line. -/
theorem exists_entity (h : c ∈ markupCharacters) :
    ∃ entity, entity.head? = some '&' ∧ entity.getLast? = some ';' ∧ IsOneLine entity ∧
      ∀ cs, escapeMarkup (c :: cs) = entity ++ escapeMarkup cs ∧
        unescapeMarkup? (entity ++ cs) = (unescapeMarkup? cs).map (c :: ·) := by
  -- each character by itself, with its entity at hand
  simp only [markupCharacters, List.mem_cons, List.not_mem_nil, or_false] at h
  obtain rfl | rfl | rfl := h
  · exact ⟨"&amp;".toList, by decide, by decide, by decide, fun _ => ⟨rfl, rfl⟩⟩
  · exact ⟨"&lt;".toList, by decide, by decide, by decide, fun _ => ⟨rfl, rfl⟩⟩
  · exact ⟨"&gt;".toList, by decide, by decide, by decide, fun _ => ⟨rfl, rfl⟩⟩

/-- Escaped text can be read back. -/
theorem unescapeMarkup?_escapeMarkup (cs : List Char) :
    unescapeMarkup? (escapeMarkup cs) = some cs := by
  induction cs with
  | nil => rfl
  | cons c cs ih =>
    by_cases hc : c ∈ markupCharacters
    -- the entity is undone as a whole
    · obtain ⟨entity, -, -, -, hentity⟩ := exists_entity hc
      rw [(hentity cs).1, (hentity _).2, ih, Option.map_some]
    · rw [escapeMarkup_cons_plain hc, unescapeMarkup?_cons_plain hc, ih, Option.map_some]

/-- Escapes add no line end and take none away. -/
theorem isOneLine_escapeMarkup : IsOneLine (escapeMarkup cs) ↔ IsOneLine cs := by
  induction cs with
  | nil => rfl
  | cons c cs ih =>
    rw [isOneLine_cons]
    by_cases hc : c ∈ markupCharacters
    · obtain ⟨entity, -, -, hone, hentity⟩ := exists_entity hc
      rw [(hentity cs).1, isOneLine_append, and_iff_right hone,
        and_iff_right (isOneLine_markupCharacters c hc), ih]
    · rw [escapeMarkup_cons_plain hc, isOneLine_cons, ih]

/-- Text without markup begins an escaped text exactly if it begins the text. -/
theorem isPrefix_escapeMarkup_iff (h : ∀ c ∈ front, c ∉ markupCharacters) :
    front <+: escapeMarkup cs ↔ front <+: cs := by
  induction front generalizing cs with
  -- character by character of the front
  | nil => exact iff_of_true (List.nil_prefix) (List.nil_prefix)
  | cons d front ih =>
    obtain ⟨hd, hfront⟩ := List.forall_mem_cons.mp h
    cases cs with
    | nil => rfl
    | cons c cs =>
      by_cases hc : c ∈ markupCharacters
      -- an entity does not begin as the text does, nor does the character that it stands for
      · obtain ⟨entity, hhead, -, -, hentity⟩ := exists_entity hc
        obtain ⟨rest, rfl⟩ : ∃ rest, entity = '&' :: rest := List.head?_eq_some_iff.mp hhead
        rw [(hentity cs).1, List.cons_append, List.cons_prefix_cons, List.cons_prefix_cons]
        refine iff_of_false ?_ ?_
        · rintro ⟨rfl, -⟩
          exact hd (by decide)
        · rintro ⟨rfl, -⟩
          exact hd hc
      · rw [escapeMarkup_cons_plain hc, List.cons_prefix_cons, List.cons_prefix_cons, ih hfront]

/-- The lines of an escaped text are the escaped lines of the text. -/
private theorem sourceLines_escapeMarkup (cs : List Char) :
    sourceLines (escapeMarkup cs) = (sourceLines cs).map escapeMarkup := by
  -- by the line ends of the text, which are the same in the escaped one
  fun_induction sourceLines cs with
  | case1 => rfl
  | case2 cs ih =>
    rw [escapeMarkup_cons_plain (by decide), escapeMarkup_cons_plain (by decide),
      sourceLines_return_lineFeed, ih]
    rfl
  -- a line end that is not followed by a line feed, or is one
  | case3 c cs hreturn hc ih =>
    have hplain : c ∉ markupCharacters := fun h => by
      simp [isOneLine_markupCharacters c h] at hc
    rw [escapeMarkup_cons_plain hplain, sourceLines_cons_of_lineEnd hc, ih]
    · rfl
    · -- a line feed in front of the escaped text is one of the text
      rintro rfl hhead
      obtain ⟨rest, hrest⟩ := List.head?_eq_some_iff.mp hhead
      have hfeed : ['\n'] <+: escapeMarkup cs := ⟨rest, hrest.symm⟩
      obtain ⟨ds, rfl⟩ := (isPrefix_escapeMarkup_iff (by simp [markupCharacters])).mp hfeed
      exact hreturn ds rfl rfl
  -- a character within a line
  | case4 c cs hreturn hc ih =>
    have hc : isLineEnd c = false := by simpa using hc
    -- an entity is put in front of the first line as a whole
    by_cases hmarkup : c ∈ markupCharacters
    · obtain ⟨entity, hhead, -, hone, hentity⟩ := exists_entity hmarkup
      have hne : entity ≠ [] := by
        rintro rfl
        simp at hhead
      rw [(hentity cs).1, sourceLines_append hne hone, ih]
      cases sourceLines cs with
      | nil => rw [consFirst, List.map_singleton, (hentity []).1]; rfl
      | cons line rest => rw [consFirst, List.map_cons, List.map_cons, (hentity line).1]; rfl
    · rw [escapeMarkup_cons_plain hmarkup, sourceLines_cons_of_not_lineEnd hc, ih]
      cases sourceLines cs with
      | nil => rw [consFirst, List.map_singleton, escapeMarkup_cons_plain hmarkup]; rfl
      | cons line rest =>
        rw [consFirst, List.map_cons, List.map_cons, escapeMarkup_cons_plain hmarkup]
        rfl

/-- What an escaped text ends in. -/
private theorem getLast?_escapeMarkup (h : cs.getLast? = some c) :
    (escapeMarkup cs).getLast? = some c ∨ (escapeMarkup cs).getLast? = some ';' := by
  obtain ⟨front, rfl⟩ := List.getLast?_eq_some_iff.mp h
  have happend : escapeMarkup (front ++ [c]) = escapeMarkup front ++ escapeMarkup [c] :=
    List.flatMap_append
  rw [happend, List.getLast?_append]
  -- either the last character is escaped, and its entity ends in a semicolon, or it stays
  by_cases hc : c ∈ markupCharacters
  · obtain ⟨entity, -, hlast, -, hentity⟩ := exists_entity hc
    rw [(hentity []).1, escapeMarkup_nil, List.append_nil, hlast]
    exact .inr rfl
  · rw [escapeMarkup_cons_plain hc]
    exact .inl rfl

/-! ### Lines of a comment -/

/-- What every line of a comment begins with. -/
def commentMarker (depth : Nat) : List Char := List.replicate depth '\t' ++ ['/', '/', '/']

/-- A line of a comment. -/
def commentLine (depth : Nat) (text : List Char) : List Char := commentMarker depth ++ ' ' :: text

/-- The tag before the text of a comment. -/
def openingTag (kind : DocumentationKind) : List Char := '<' :: (kind.tag.toList ++ ['>'])

/-- The tag behind the text of a comment. -/
def closingTag (kind : DocumentationKind) : List Char := '<' :: '/' :: (kind.tag.toList ++ ['>'])

/-- The lines of a documentation text, each without the blanks around it. -/
def trimmedLines (text : String) : List (List Char) :=
  (Text.splitLines (Text.trimChars text.toList)).map Text.trimChars

/-- What a documentation comment writes at a depth. -/
def commentText (kind : DocumentationKind) (text : String) (depth : Nat) : String :=
  renderLines (writeAll depth [.documentation kind text]).1

/-- The source is a comment at the depth: its opening tag, one line for each of the given ones,
    escaped, and its closing tag. -/
def IsComment (kind : DocumentationKind) (depth : Nat) (lines : List (List Char))
    (source : List Char) : Prop :=
  ∃ inner : List (List Char), sourceLines source =
      commentLine depth (openingTag kind) :: inner.map (commentLine depth) ++
        [commentLine depth (closingTag kind)] ∧
    inner.map unescapeMarkup? = lines.map some

variable {kind : DocumentationKind} {text : String} {depth : Nat}

/-- What every line of a comment begins with has no line end. -/
private theorem isOneLine_commentMarker (depth : Nat) : IsOneLine (commentMarker depth) := by
  refine isOneLine_append.mpr ⟨fun c hc => ?_, by decide⟩
  obtain rfl := List.eq_of_mem_replicate hc
  rfl

/-- What every line of a comment begins with is not changed by escapes. -/
private theorem not_mem_markup_commentMarker (depth : Nat) :
    ∀ c ∈ commentMarker depth, c ∉ markupCharacters := by
  refine List.forall_mem_append.mpr ⟨fun c hc => ?_, by simp [markupCharacters]⟩
  obtain rfl := List.eq_of_mem_replicate hc
  decide

/-- A line of a comment is one line if its text is. -/
private theorem isOneLine_commentLine_iff : IsOneLine (commentLine depth cs) ↔ IsOneLine cs := by
  rw [commentLine, isOneLine_append, isOneLine_cons, and_iff_right (isOneLine_commentMarker depth),
    and_iff_right (by decide)]

/-- Line ends are blank, so no trimmed text ends in one. -/
private theorem isLineEnd_of_getLast?_trimChars (h : (Text.trimChars cs).getLast? = some c) :
    isLineEnd c = false := by
  -- the last character of a trimmed text is not blank
  have hblank : Text.isBlank c = false := by
    unfold Text.trimChars Text.trimBoth Text.dropEndWhile at h
    rw [List.getLast?_reverse] at h
    obtain ⟨rest, hrest⟩ := List.head?_eq_some_iff.mp h
    exact Text.head_dropWhile hrest
  have hends : ∀ d, isLineEnd d = true → Text.isBlank d = true := by
    intro d hd
    simp only [isLineEnd, Bool.or_eq_true, beq_iff_eq] at hd
    obtain (((rfl | rfl) | rfl) | rfl) | rfl := hd <;> rfl
  cases hc : isLineEnd c with
  | false => rfl
  | true => simp [hends c hc] at hblank

/-- A line of a comment ends in what its text ends in, or in the space before that. -/
private theorem getLast?_commentLine (depth : Nat) (cs : List Char) :
    (commentLine depth cs).getLast? = some (cs.getLast?.getD ' ') := by
  rw [commentLine, List.getLast?_append, List.getLast?_cons, Option.some_or]

/-- No line of a comment ends in a line end. -/
theorem exists_getLast?_commentLine (depth : Nat) (line : List Char) :
    ∃ c, (commentLine depth (escapeMarkup (Text.trimChars line))).getLast? = some c ∧
      isLineEnd c = false := by
  rw [getLast?_commentLine]
  -- an empty text leaves the space, any other its own last character or a semicolon
  cases hlast : (Text.trimChars line).getLast? with
  | none =>
    rw [List.getLast?_eq_none_iff.mp hlast]
    exact ⟨' ', rfl, by decide⟩
  | some c =>
    obtain hescaped | hescaped := getLast?_escapeMarkup hlast
    · rw [hescaped]
      exact ⟨c, rfl, isLineEnd_of_getLast?_trimChars hlast⟩
    · rw [hescaped]
      exact ⟨';', rfl, by decide⟩

/-- What is written for a line of the text. -/
private theorem chars_documentationLine (depth : Nat) (line : List Char) :
    (Line.mk depth (documentationLine line)).chars =
      commentLine depth (escapeMarkup (Text.trimChars line)) := by
  simp [Line.chars, documentationLine, commentLine, commentMarker]

/-- What is written for the opening tag. -/
private theorem chars_openingTag (kind : DocumentationKind) (depth : Nat) :
    (Line.mk depth ("/// <" ++ kind.tag ++ ">")).chars = commentLine depth (openingTag kind) := by
  simp [Line.chars, openingTag, commentLine, commentMarker]

/-- What is written for the closing tag. -/
private theorem chars_closingTag (kind : DocumentationKind) (depth : Nat) :
    (Line.mk depth ("/// </" ++ kind.tag ++ ">")).chars = commentLine depth (closingTag kind) := by
  simp [Line.chars, closingTag, commentLine, commentMarker]

/-- Lines that do not end in a line end are written one below the other. -/
private theorem sourceLines_renderLines {ls : List Line}
    (h : ∀ l ∈ ls, ∃ c, l.chars.getLast? = some c ∧ isLineEnd c = false) :
    sourceLines (renderLines ls).toList = ls.flatMap fun l => sourceLines l.chars := by
  induction ls with
  | nil => rfl
  | cons l ls ih =>
    obtain ⟨hl, hls⟩ := List.forall_mem_cons.mp h
    rw [renderLines_cons, String.toList_append, Line.toList_render, List.append_assoc,
      List.singleton_append, sourceLines_lineFeed hl, ih hls, List.flatMap_cons]

/-- The tags of a comment are one line each, which does not end in a line end. -/
private theorem isOneLine_tags (kind : DocumentationKind) :
    (IsOneLine (openingTag kind) ∧ (openingTag kind).getLast? = some '>') ∧
      IsOneLine (closingTag kind) ∧ (closingTag kind).getLast? = some '>' := by
  cases kind <;> decide

/-- A text on one line makes one line of a comment. -/
theorem sourceLines_commentLine (h : IsOneLine cs) :
    sourceLines (commentLine depth cs) = [commentLine depth cs] :=
  sourceLines_of_isOneLine (by simp [commentLine]) (isOneLine_commentLine_iff.mpr h)

/-- A comment as source: its tags, and between them the lines of what was written for each line of
    the text. -/
theorem sourceLines_commentText (kind : DocumentationKind) (depth : Nat)
    (h : Text.isAllBlank text = false) :
    sourceLines (commentText kind text depth).toList =
      commentLine depth (openingTag kind) ::
        (trimmedLines text).flatMap
          (fun line => sourceLines (commentLine depth (escapeMarkup line))) ++
        [commentLine depth (closingTag kind)] := by
  obtain ⟨⟨hopening, hopened⟩, hclosing, hclosed⟩ := isOneLine_tags kind
  have hlines : (writeAll depth [.documentation kind text]).1 =
      (documentationLines kind text).map (Line.mk depth) := List.append_nil _
  unfold commentText
  -- the tags are lines of their own, and what is between them is written line by line
  rw [hlines, documentationLines, if_neg (by simp [h]), sourceLines_renderLines]
  · simp only [List.map_cons, List.map_append, List.map_map, List.flatMap_cons, List.flatMap_append,
      List.flatMap_map, List.map_nil, List.flatMap_nil, List.append_nil, Function.comp_apply,
      chars_openingTag, chars_closingTag, chars_documentationLine, trimmedLines]
    rw [sourceLines_commentLine hopening, sourceLines_commentLine hclosing]
    rfl
  -- no line that is written ends in a line end, so the lines stay apart
  · simp only [List.map_cons, List.map_append, List.map_map, List.map_nil, List.forall_mem_append,
      List.forall_mem_cons, List.forall_mem_map, Function.comp_apply, chars_openingTag,
      chars_closingTag, chars_documentationLine]
    refine ⟨⟨⟨'>', ?_, by decide⟩, fun line _ => exists_getLast?_commentLine depth line⟩,
      ⟨'>', ?_, by decide⟩, fun _ hl => absurd hl List.not_mem_nil⟩
    · rw [getLast?_commentLine, hopened, Option.getD_some]
    · rw [getLast?_commentLine, hclosed, Option.getD_some]

/-- Where there are no more elements in all than lists, and no list is empty, each list holds one
    element. -/
private theorem length_eq_one_of_length_flatMap {α β : Type} {f : α → List β} {as : List α}
    (hpos : ∀ a ∈ as, 1 ≤ (f a).length) (h : (as.flatMap f).length = as.length) :
    ∀ a ∈ as, (f a).length = 1 := by
  induction as with
  | nil => exact fun _ ha => absurd ha List.not_mem_nil
  | cons a as ih =>
    obtain ⟨ha, has⟩ := List.forall_mem_cons.mp hpos
    have hrest : as.length ≤ (as.flatMap f).length := by
      rw [List.length_flatMap]
      simpa using List.length_le_sum_of_one_le (as.map fun a => (f a).length)
        (List.forall_mem_map.mpr has)
    rw [List.flatMap_cons, List.length_append, List.length_cons] at h
    exact List.forall_mem_cons.mpr ⟨by omega, ih has (by omega)⟩

/-! ### Comments as blocks -/

/-- A comment is a block of marked lines exactly if no line of its text holds a line end. -/
theorem isComment_commentText_iff (h : Text.isAllBlank text = false) :
    IsComment kind depth (trimmedLines text) (commentText kind text depth).toList ↔
      ∀ line ∈ trimmedLines text, IsOneLine line := by
  unfold IsComment
  rw [sourceLines_commentText kind depth h]
  constructor
  · rintro ⟨inner, hlines, hinner⟩
    -- the tags are the same on both sides, so the lines between them are compared
    have hblock := (List.cons.inj (List.append_cancel_right hlines)).2
    have hlength := congrArg List.length hinner
    rw [List.length_map, List.length_map] at hlength
    -- each line of the text has written at least one, and all together have written no more
    have hone := length_eq_one_of_length_flatMap
      (fun line _ => List.length_pos_of_ne_nil (sourceLines_ne_nil (by simp [commentLine])))
      ((congrArg List.length hblock).trans ((List.length_map _).trans hlength))
    intro line hline
    have hsource := hone line hline
    obtain ⟨raw, -, rfl⟩ := List.mem_map.mp hline
    rw [length_sourceLines_eq_one_iff (exists_getLast?_commentLine depth raw),
      isOneLine_commentLine_iff, isOneLine_escapeMarkup] at hsource
    exact hsource
  -- every line of the text makes one line, which is read back to it
  · intro hone
    refine ⟨(trimmedLines text).map escapeMarkup, ?_, ?_⟩
    · rw [List.flatMap_congr fun line hline =>
        sourceLines_commentLine (isOneLine_escapeMarkup.mpr (hone line hline))]
      rw [List.map_map]
      congr 2
      exact (List.map_eq_flatMap).symm
    · rw [List.map_map]
      exact List.map_congr_left fun line _ => unescapeMarkup?_escapeMarkup line

/-- What stands behind a line end in a line of the text is source of its own. -/
private theorem forall_commentMarker_iff (h : Text.isAllBlank text = false) :
    (∀ line ∈ sourceLines (commentText kind text depth).toList, commentMarker depth <+: line) ↔
      ∀ line ∈ trimmedLines text, ∀ later ∈ (sourceLines line).tail,
        commentMarker depth <+: later := by
  have hmarker : ∀ cs, commentMarker depth <+: commentLine depth cs :=
    fun cs => List.prefix_append _ _
  -- of each line only what stands behind its first line end is in question
  have hlater : ∀ line, (∀ l ∈ sourceLines (commentLine depth (escapeMarkup line)),
      commentMarker depth <+: l) ↔
        ∀ later ∈ (sourceLines line).tail, commentMarker depth <+: later := by
    intro line
    have hfront : IsOneLine (commentLine depth []) :=
      isOneLine_commentLine_iff.mpr fun c hc => absurd hc List.not_mem_nil
    have hline : commentLine depth (escapeMarkup line) =
        commentLine depth [] ++ escapeMarkup line := by
      simp [commentLine]
    rw [hline, sourceLines_append (by simp [commentLine]) hfront, List.forall_mem_cons,
      sourceLines_escapeMarkup, ← List.map_tail, List.forall_mem_map]
    rw [and_iff_right ((hmarker []).trans (List.prefix_append _ _))]
    exact forall₂_congr fun later _ =>
      isPrefix_escapeMarkup_iff (not_mem_markup_commentMarker depth)
  rw [sourceLines_commentText kind depth h, List.forall_mem_append, List.forall_mem_cons,
    List.forall_mem_singleton, and_iff_left (hmarker _), and_iff_right (hmarker _)]
  constructor
  · intro hall line hline
    exact (hlater line).mp fun l hl => hall l (List.mem_flatMap.mpr ⟨line, hline, hl⟩)
  · intro hall l hl
    obtain ⟨line, hline, hl⟩ := List.mem_flatMap.mp hl
    exact (hlater line).mpr (hall line hline) l hl

/-- A text is blank if all of its characters are. -/
private theorem isAllBlank_eq_true_iff :
    Text.isAllBlank text = true ↔ ∀ c ∈ text.toList, Text.isBlank c = true := by
  rw [Text.isAllBlank, List.isEmpty_iff, Text.trimChars_eq_nil_iff]

/-- Blank text, and no other, makes no comment. -/
private theorem commentText_eq_empty_iff (kind : DocumentationKind) (text : String) (depth : Nat) :
    commentText kind text depth = "" ↔ ∀ c ∈ text.toList, Text.isBlank c = true := by
  rw [← isAllBlank_eq_true_iff]
  -- blank text makes no steps, and any other at least the tags
  cases hblank : Text.isAllBlank text with
  | true =>
    have hlines : documentationLines kind text = [] := by
      rw [documentationLines, if_pos hblank]
    refine iff_of_true ?_ rfl
    rw [commentText, writeAll_cons_inside rfl (by simp), Step.insideLines, hlines]
    rfl
  | false =>
    refine iff_of_false (fun hempty => ?_) Bool.false_ne_true
    have hsource := sourceLines_commentText kind depth hblank
    rw [hempty] at hsource
    simp at hsource

/-- Blank text makes no comment.  Any other makes a block of its lines, trimmed and escaped, between
    two tags, all behind the marker of a comment, exactly if none of these lines holds a line end.
    What stands behind such a line end is source of its own, and part of the comment only if the
    text itself has the marker there.  The lines of the text are those that the language would see
    if no line that ends at a line feed holds another line end. -/
theorem comment_is_block_iff (kind : DocumentationKind) (text : String) (depth : Nat) :
    (commentText kind text depth = "" ↔ ∀ c ∈ text.toList, Text.isBlank c = true) ∧
    ((∃ c ∈ text.toList, Text.isBlank c = false) →
      (IsComment kind depth (trimmedLines text) (commentText kind text depth).toList ↔
        ∀ line ∈ trimmedLines text, IsOneLine line) ∧
      ((∀ line ∈ sourceLines (commentText kind text depth).toList,
          commentMarker depth <+: line) ↔
        ∀ line ∈ trimmedLines text, ∀ later ∈ (sourceLines line).tail,
          commentMarker depth <+: later)) ∧
    ((∀ line ∈ Text.splitLines (Text.trimChars text.toList), IsOneLine line) →
      sourceLines (Text.trimChars text.toList) =
        Text.splitLines (Text.trimChars text.toList)) := by
  refine ⟨commentText_eq_empty_iff kind text depth, fun hvisible => ?_, sourceLines_eq_splitLines⟩
  obtain ⟨c, hc, hblank⟩ := hvisible
  -- visible text is not blank, so the theorems about a comment that is there apply
  have htext : Text.isAllBlank text = false := by
    rw [← Bool.not_eq_true, isAllBlank_eq_true_iff]
    exact fun hall => by simp [hall c hc] at hblank
  exact ⟨isComment_commentText_iff htext, forall_commentMarker_iff htext⟩

/-- Two lines with markup in them, the second indented, make a block. -/
theorem comment_on_orders_is_block :
    let text := "Orders & <returns>\r\n  of today"
    (∃ c ∈ text.toList, Text.isBlank c = false) ∧ (∀ line ∈ trimmedLines text, IsOneLine line) ∧
      IsComment .remarks 2 (trimmedLines text) (commentText .remarks text 2).toList ∧
      sourceLines (Text.trimChars text.toList) =
        Text.splitLines (Text.trimChars text.toList) := by
  intro text
  have hvisible : ∃ c ∈ text.toList, Text.isBlank c = false := ⟨'O', by decide, by decide⟩
  have hlines : ∀ line ∈ trimmedLines text, IsOneLine line := by decide +kernel
  obtain ⟨-, hblock, hsame⟩ := comment_is_block_iff .remarks text 2
  exact ⟨hvisible, hlines, (hblock hvisible).1.mpr hlines, hsame (by decide +kernel)⟩

/-- A line separator in the text ends the comment, and what stands behind it is code. -/
theorem comment_may_end_within_its_text :
    let text := "Orders\u2028public int Hidden;"
    "public int Hidden;".toList ∈ sourceLines (commentText .summary text 1).toList ∧
      ¬ IsComment .summary 1 (trimmedLines text) (commentText .summary text 1).toList := by
  intro text
  refine ⟨by decide +kernel, ?_⟩
  -- the text holds a line separator
  rw [isComment_commentText_iff (by decide)]
  decide +kernel

end EntityModel.CSharp
