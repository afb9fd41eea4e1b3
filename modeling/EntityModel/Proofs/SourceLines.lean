import EntityModel.Text.Blank
import Mathlib.Data.List.Basic

/-!
# Lines of C# source

C# ends a line at five characters, of which a carriage return with a line feed behind it counts as
one line end.  A text that is written line by line falls into the lines that were meant exactly
where none of them holds a line end of its own; otherwise the source has more lines than were
written.

* `sourceLines_append`             what stands in front of a line becomes part of it
* `sourceLines_lineFeed`           a line feed ends the line before it
* `length_sourceLines_eq_one_iff`  a text is one line if it holds no line end
* `sourceLines_eq_splitLines`      where the line feed is the only line end
-/

namespace EntityModel.CSharp

/-- Whether the character ends a line of C# source. -/
def isLineEnd (c : Char) : Bool :=
  c == '\n' || c == '\r' || c == '\u0085' || c == '\u2028' || c == '\u2029'

/-- A character in front of some lines becomes part of the first. -/
def consFirst (c : Char) : List (List Char) → List (List Char)
  | [] => [[c]]
  | line :: rest => (c :: line) :: rest

/-- The lines of C# source, each without the line end behind it.  The last line needs none, and a
    text that ends in one has no empty line after it. -/
def sourceLines : List Char → List (List Char)
  | [] => []
  | '\r' :: '\n' :: cs => [] :: sourceLines cs
  | c :: cs => if isLineEnd c then [] :: sourceLines cs else consFirst c (sourceLines cs)

variable {c : Char} {cs line rest : List Char}

/-! ### One character at a time -/

/-- The empty text has no line. -/
@[simp] theorem sourceLines_nil : sourceLines [] = [] := rfl

/-- A carriage return with a line feed behind it is one line end. -/
@[simp] theorem sourceLines_return_lineFeed (cs : List Char) :
    sourceLines ('\r' :: '\n' :: cs) = [] :: sourceLines cs := by
  rw [sourceLines]

/-- A character that ends no line stands in the first line. -/
theorem sourceLines_cons_of_not_lineEnd (h : isLineEnd c = false) (cs : List Char) :
    sourceLines (c :: cs) = (c :: (sourceLines cs).headD []) :: (sourceLines cs).tail := by
  rw [sourceLines]
  · rw [h, if_neg Bool.false_ne_true]
    cases sourceLines cs <;> rfl
  -- a carriage return ends a line, so the special case does not apply
  · rintro _ rfl rfl
    exact absurd h (by decide)

/-- A line end ends an empty line, unless it is the first half of one. -/
theorem sourceLines_cons_of_lineEnd (h : isLineEnd c = true)
    (hreturn : c = '\r' → cs.head? ≠ some '\n') : sourceLines (c :: cs) = [] :: sourceLines cs := by
  rw [sourceLines, if_pos h]
  rintro _ rfl rfl
  exact hreturn rfl rfl

/-- A text that is not empty has a line. -/
theorem sourceLines_ne_nil (h : cs ≠ []) : sourceLines cs ≠ [] := by
  fun_cases sourceLines cs with
  | case1 => exact absurd rfl h
  | case2 cs => exact List.cons_ne_nil _ _
  | case3 c cs => exact List.cons_ne_nil _ _
  | case4 c cs =>
    cases sourceLines cs <;> exact List.cons_ne_nil _ _

/-! ### Texts on one line -/

/-- The text holds no line end. -/
def IsOneLine (cs : List Char) : Prop := ∀ c ∈ cs, isLineEnd c = false

instance (cs : List Char) : Decidable (IsOneLine cs) :=
  List.decidableBAll (fun c => isLineEnd c = false) cs

/-- A text on one line is made of characters that end none. -/
theorem isOneLine_cons : IsOneLine (c :: cs) ↔ isLineEnd c = false ∧ IsOneLine cs :=
  List.forall_mem_cons

/-- A text on one line is made of two such texts. -/
theorem isOneLine_append {front : List Char} :
    IsOneLine (front ++ cs) ↔ IsOneLine front ∧ IsOneLine cs := List.forall_mem_append

/-- A text without a line end becomes part of the first line of what follows. -/
theorem sourceLines_append {front : List Char} (hne : front ≠ []) (h : IsOneLine front)
    (cs : List Char) :
    sourceLines (front ++ cs) =
      (front ++ (sourceLines cs).headD []) :: (sourceLines cs).tail := by
  -- character by character, each of which goes into the first line
  induction front with
  | nil => exact absurd rfl hne
  | cons c front ih =>
    obtain ⟨hc, hfront⟩ := isOneLine_cons.mp h
    rw [List.cons_append, sourceLines_cons_of_not_lineEnd hc]
    cases front with
    | nil => rfl
    | cons d front =>
      rw [ih (List.cons_ne_nil d front) hfront]
      rfl

/-- A text on one line is that line. -/
theorem sourceLines_of_isOneLine (hne : cs ≠ []) (h : IsOneLine cs) : sourceLines cs = [cs] := by
  have := sourceLines_append hne h []
  rwa [List.append_nil, sourceLines_nil, List.headD_nil, List.append_nil] at this

/-- A text that does not end in a line end is one line exactly if it holds none at all. -/
theorem length_sourceLines_eq_one_iff (h : ∃ c, cs.getLast? = some c ∧ isLineEnd c = false) :
    (sourceLines cs).length = 1 ↔ IsOneLine cs := by
  constructor
  · intro hlength
    fun_induction sourceLines cs with
    | case1 => exact fun _ hc => absurd hc List.not_mem_nil
    | case2 cs ih =>
      -- one line before the line end, and at least one behind it
      have hcs : cs ≠ [] := by
        rintro rfl
        obtain ⟨c, hlast, hc⟩ := h
        cases hlast
        exact absurd hc (by decide)
      have := List.length_pos_of_ne_nil (sourceLines_ne_nil hcs)
      rw [List.length_cons] at hlength
      omega
    -- a line end of one character, with a line behind it as before
    | case3 c cs hreturn hc ih =>
      have hcs : cs ≠ [] := by
        rintro rfl
        obtain ⟨d, hlast, hd⟩ := h
        cases hlast
        exact absurd hd (by simp [hc])
      have := List.length_pos_of_ne_nil (sourceLines_ne_nil hcs)
      rw [List.length_cons] at hlength
      omega
    -- a character that ends no line leaves as many lines as there are without it
    | case4 c cs hreturn hc ih =>
      have hc : isLineEnd c = false := by simpa using hc
      refine isOneLine_cons.mpr ⟨hc, ?_⟩
      cases cs with
      | nil => exact fun _ hc => absurd hc List.not_mem_nil
      | cons d cs =>
        obtain ⟨line, rest, hlines⟩ :=
          List.exists_cons_of_ne_nil (sourceLines_ne_nil (List.cons_ne_nil d cs))
        rw [List.getLast?_cons_cons] at h
        refine ih h ?_
        rw [hlines] at hlength ⊢
        exact hlength
  · intro hone
    obtain ⟨c, hlast, -⟩ := h
    have hne : cs ≠ [] := by
      rintro rfl
      cases hlast
    rw [sourceLines_of_isOneLine hne hone, List.length_singleton]

/-! ### Texts of several lines -/

/-- A line feed ends the line before it, and what follows has lines of its own. -/
theorem sourceLines_lineFeed (h : ∃ c, cs.getLast? = some c ∧ isLineEnd c = false)
    (rest : List Char) :
    sourceLines (cs ++ '\n' :: rest) = sourceLines cs ++ sourceLines rest := by
  -- line by line of the text in front
  fun_induction sourceLines cs with
  | case1 =>
    obtain ⟨c, hlast, -⟩ := h
    cases hlast
  -- a line end of two characters is not the last of the text, as that ends no line
  | case2 cs ih =>
    cases cs with
    | nil =>
      obtain ⟨c, hlast, hc⟩ := h
      cases hlast
      exact absurd hc (by decide)
    | cons d cs =>
      rw [List.getLast?_cons_cons, List.getLast?_cons_cons] at h
      rw [List.cons_append, List.cons_append, sourceLines_return_lineFeed, ih h, List.cons_append]
  | case3 c cs hreturn hc ih =>
    cases cs with
    | nil =>
      obtain ⟨d, hlast, hd⟩ := h
      cases hlast
      exact absurd hd (by simp [hc])
    | cons d cs =>
      rw [List.getLast?_cons_cons] at h
      rw [List.cons_append, sourceLines_cons_of_lineEnd hc, ih h, List.cons_append]
      -- if a line feed followed here, it would have followed before
      rintro rfl hd
      cases hd
      exact hreturn cs rfl rfl
  | case4 c cs hreturn hc ih =>
    have hc : isLineEnd c = false := by simpa using hc
    rw [List.cons_append, sourceLines_cons_of_not_lineEnd hc]
    cases cs with
    | nil => rfl
    | cons d cs =>
      rw [List.getLast?_cons_cons] at h
      -- the text behind has a first line, which this character joins
      obtain ⟨line, others, hlines⟩ :=
        List.exists_cons_of_ne_nil (sourceLines_ne_nil (List.cons_ne_nil d cs))
      rw [ih h, hlines]
      rfl

/-- A line end ends the text in front of it as one line. -/
theorem sourceLines_append_lineEnd (h : IsOneLine line) {others : List (List Char)}
    (hcs : sourceLines cs = [] :: others) : sourceLines (line ++ cs) = line :: others := by
  cases line with
  | nil => exact hcs
  | cons c line =>
    rw [sourceLines_append (List.cons_ne_nil c line) h, hcs, List.headD_cons, List.append_nil,
      List.tail_cons]

/-- What drops a carriage return drops one at the end. -/
private theorem eq_append_of_dropReturn_ne (h : Text.dropReturn cs ≠ cs) :
    cs = Text.dropReturn cs ++ ['\r'] := by
  unfold Text.dropReturn at h ⊢
  split
  -- the case in which there is one, and the others, which the assumption rules out
  · rename_i rest hrest
    rw [← List.reverse_cons, ← hrest, List.reverse_reverse]
  · rename_i hrest
    split at h
    · rename_i rest heq
      exact absurd heq (hrest rest)
    · exact absurd rfl h

/-- Where no piece between two line feeds holds a line end, but for the carriage return that may
    stand before the line feed, the pieces are the lines. -/
theorem sourceLines_eq_splitLines (h : ∀ line ∈ Text.splitLines cs, IsOneLine line) :
    sourceLines cs = Text.splitLines cs := by
  -- piece by piece, up to the last one, which needs no line feed
  fun_induction Text.splitLines cs with
  | case1 cs hnone hempty =>
    rw [List.isEmpty_iff.mp hempty]
    rfl
  | case2 cs hnone hempty =>
    exact sourceLines_of_isOneLine (by simpa using hempty) (h cs List.mem_cons_self)
  | case3 cs c rest hrest ih =>
    obtain ⟨hline, hlines⟩ := List.forall_mem_cons.mp h
    obtain rfl : c = '\n' := by simpa using Text.head_dropWhile hrest
    -- the piece up to the line feed, and what is behind it
    have hcs : cs = cs.takeWhile (· != '\n') ++ '\n' :: rest := by
      rw [← hrest, List.takeWhile_append_dropWhile]
    generalize cs.takeWhile (· != '\n') = piece at hcs hline ⊢
    subst hcs
    have hfeed : sourceLines ('\n' :: rest) = [] :: Text.splitLines rest := by
      rw [sourceLines_cons_of_lineEnd (by decide) (fun h => absurd h (by decide)), ih hlines]
    -- the piece may end in a carriage return, which is part of the line end
    by_cases hreturn : Text.dropReturn piece = piece
    · rw [hreturn] at hline ⊢
      exact sourceLines_append_lineEnd hline hfeed
    · have hboth : sourceLines ('\r' :: '\n' :: rest) = [] :: Text.splitLines rest := by
        rw [sourceLines_return_lineFeed, ih hlines]
      have hpiece := eq_append_of_dropReturn_ne hreturn
      generalize Text.dropReturn piece = line at hpiece hline ⊢
      rw [hpiece, List.append_assoc]
      exact sourceLines_append_lineEnd hline hboth

end EntityModel.CSharp
