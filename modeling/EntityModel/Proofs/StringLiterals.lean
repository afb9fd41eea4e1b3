import EntityModel.CSharp.Literal
import EntityModel.Proofs.SourceLines

/-!
# String literals

A regular string literal is a quote, pieces that each stand for a character, and a quote.  A piece
is a simple escape sequence, or the character itself unless the language gives it another meaning
there: a quote, a backslash or a line end.  The literals that default values are written as escape
two of the five line ends.  So they denote the value exactly where it holds none of the other three,
and are no literals at all where it does.

* `readLiteral?_eq_some_iff`     reading a literal undoes its escapes
* `readLiteral?_stringLiteral`   what is read from the literal of a value
* `string_literal_denotes_iff`   when the literal of a default value denotes it
-/

namespace EntityModel.CSharp

/-! ### Regular string literals -/

/-- The character that a backslash and this one stand for. -/
def simpleEscape? : Char → Option Char
  | '\'' => some '\''
  | '"' => some '"'
  | '\\' => some '\\'
  | '0' => some '\x00'
  | 'a' => some '\x07'
  | 'b' => some '\x08'
  | 'f' => some '\x0c'
  | 'n' => some '\n'
  | 'r' => some '\r'
  | 't' => some '\t'
  | 'v' => some '\x0b'
  | _ => none

/-- Whether the character stands for itself between the quotes of a literal. -/
def standsForItself (c : Char) : Bool := c != '"' && c != '\\' && !isLineEnd c

/-- A piece of a literal stands for a character. -/
inductive LiteralPiece : List Char → Char → Prop
  | escape {e c : Char} (h : simpleEscape? e = some c) : LiteralPiece ['\\', e] c
  | plain {c : Char} (h : standsForItself c = true) : LiteralPiece [c] c

/-- The text is a regular string literal, and it denotes the value. -/
def DenotesText (literal value : List Char) : Prop :=
  ∃ pieces, literal = '"' :: (pieces.flatten ++ ['"']) ∧ List.Forall₂ LiteralPiece pieces value

/-- Undo the escapes of a literal behind its opening quote.  The closing quote is the last
    character. -/
def readLiteralBody? : List Char → Option (List Char)
  | [] => none
  | ['"'] => some []
  | '\\' :: e :: cs => (simpleEscape? e).bind fun c => (readLiteralBody? cs).map (c :: ·)
  | c :: cs => if standsForItself c then (readLiteralBody? cs).map (c :: ·) else none

/-- The value of a literal, if it is one. -/
def readLiteral? : List Char → Option (List Char)
  | '"' :: cs => readLiteralBody? cs
  | _ => none

/-! ### Reading literals -/

/-- An escape sequence is read as the character that it stands for. -/
private theorem readLiteralBody?_escape {e c : Char} (h : simpleEscape? e = some c)
    (cs : List Char) : readLiteralBody? ('\\' :: e :: cs) = (readLiteralBody? cs).map (c :: ·) := by
  rw [readLiteralBody?, h, Option.bind_some]

/-- A character that stands for itself is read as it is. -/
private theorem readLiteralBody?_plain {c : Char} (h : standsForItself c = true) (cs : List Char) :
    readLiteralBody? (c :: cs) = (readLiteralBody? cs).map (c :: ·) := by
  rw [readLiteralBody?, if_pos h]
  · rintro rfl rfl
    exact absurd h (by decide)
  · rintro e ds rfl rfl
    exact absurd h (by decide)

/-- A character that does not stand for itself cannot be read. -/
private theorem readLiteralBody?_of_not_plain {c : Char} (hquote : c ≠ '"') (hbackslash : c ≠ '\\')
    (h : ¬ standsForItself c = true) (cs : List Char) : readLiteralBody? (c :: cs) = none := by
  rw [readLiteralBody?, if_neg h]
  · exact fun hc _ => hquote hc
  · exact fun _ _ hc _ => hbackslash hc

/-- What is read between the quotes falls into pieces. -/
private theorem exists_pieces_of_read {cs value : List Char}
    (h : readLiteralBody? cs = some value) :
    ∃ pieces, cs = pieces.flatten ++ ['"'] ∧ List.Forall₂ LiteralPiece pieces value := by
  -- the induction is that of reading, piece by piece
  fun_induction readLiteralBody? cs generalizing value with
  | case1 => cases h
  | case2 =>
    obtain rfl := Option.some.inj h
    exact ⟨[], rfl, .nil⟩
  | case3 e cs ih =>
    obtain ⟨c, hescape, h⟩ := Option.bind_eq_some_iff.mp h
    obtain ⟨rest, hrest, rfl⟩ := Option.map_eq_some_iff.mp h
    obtain ⟨pieces, rfl, hpieces⟩ := ih hrest
    exact ⟨['\\', e] :: pieces, rfl, .cons (.escape hescape) hpieces⟩
  | case4 c cs hquote hbackslash hplain ih =>
    obtain ⟨rest, hrest, rfl⟩ := Option.map_eq_some_iff.mp h
    obtain ⟨pieces, rfl, hpieces⟩ := ih hrest
    exact ⟨[c] :: pieces, rfl, .cons (.plain hplain) hpieces⟩
  | case5 => cases h

/-- Reading a literal undoes its escapes, and nothing else can be read. -/
theorem readLiteral?_eq_some_iff {literal value : List Char} :
    readLiteral? literal = some value ↔ DenotesText literal value := by
  constructor
  · intro h
    -- behind the opening quote the pieces are read one by one
    unfold readLiteral? at h
    split at h
    · obtain ⟨pieces, rfl, hpieces⟩ := exists_pieces_of_read h
      exact ⟨pieces, rfl, hpieces⟩
    · cases h
  · rintro ⟨pieces, rfl, hpieces⟩
    show readLiteralBody? (pieces.flatten ++ ['"']) = some value
    induction hpieces with
    | nil => rfl
    | cons hpiece _ ih =>
      cases hpiece with
      | escape hescape =>
        rw [List.flatten_cons, List.append_assoc, List.cons_append, List.cons_append,
          List.nil_append, readLiteralBody?_escape hescape, ih, Option.map_some]
      | plain hplain =>
        rw [List.flatten_cons, List.append_assoc, List.singleton_append,
          readLiteralBody?_plain hplain, ih, Option.map_some]

/-! ### Written literals -/

/-- The line ends that are written into a literal as they are. -/
def unescapedLineEnds : List Char := ['\u0085', '\u2028', '\u2029']

/-- A character is written as an escape sequence that stands for it, or as it is; then it stands for
    itself unless it is one of the three line ends. -/
private theorem escapeChar_cases (c : Char) :
    (∃ e, escapeChar c = ['\\', e] ∧ simpleEscape? e = some c ∧ c ∉ unescapedLineEnds) ∨
      escapeChar c = [c] ∧ c ≠ '"' ∧ c ≠ '\\' ∧
        (standsForItself c = true ↔ c ∉ unescapedLineEnds) := by
  unfold escapeChar
  split
  · rename_i hc
    subst hc
    exact .inl ⟨'"', rfl, rfl, by decide⟩
  split
  · rename_i hc
    subst hc
    exact .inl ⟨'\\', rfl, rfl, by decide⟩
  split
  · rename_i hc
    subst hc
    exact .inl ⟨'n', rfl, rfl, by decide⟩
  split
  · rename_i hc
    subst hc
    exact .inl ⟨'r', rfl, rfl, by decide⟩
  split
  · rename_i hc
    subst hc
    exact .inl ⟨'t', rfl, rfl, by decide⟩
  · rename_i hquote hbackslash hfeed hreturn _
    refine .inr ⟨rfl, hquote, hbackslash, ?_⟩
    simp [standsForItself, isLineEnd, unescapedLineEnds, hquote, hbackslash, hfeed, hreturn,
      and_assoc]

/-- What is written for a value is read back unless one of the three line ends is in it. -/
private theorem readLiteralBody?_flatMap_escapeChar {value w : List Char} :
    readLiteralBody? (value.flatMap escapeChar ++ ['"']) = some w ↔
      w = value ∧ ∀ c ∈ value, c ∉ unescapedLineEnds := by
  induction value generalizing w with
  | nil =>
    show some [] = some w ↔ _
    simp [eq_comm]
  | cons c value ih =>
    rw [List.flatMap_cons, List.append_assoc, List.forall_mem_cons]
    -- what stands for the character leaves the rest to be read
    have hread (hc : c ∉ unescapedLineEnds) :
        (readLiteralBody? (value.flatMap escapeChar ++ ['"'])).map (c :: ·) = some w ↔
          w = c :: value ∧ c ∉ unescapedLineEnds ∧ ∀ d ∈ value, d ∉ unescapedLineEnds := by
      rw [Option.map_eq_some_iff]
      constructor
      · rintro ⟨v, hv, rfl⟩
        obtain ⟨rfl, hvalue⟩ := ih.mp hv
        exact ⟨rfl, hc, hvalue⟩
      · rintro ⟨rfl, -, hvalue⟩
        exact ⟨value, ih.mpr ⟨rfl, hvalue⟩, rfl⟩
    obtain ⟨e, hpiece, hescape, hc⟩ | ⟨hpiece, hquote, hbackslash, hplain⟩ := escapeChar_cases c
    · rw [hpiece, List.cons_append, List.cons_append, List.nil_append,
        readLiteralBody?_escape hescape]
      exact hread hc
    · rw [hpiece, List.singleton_append]
      by_cases hc : c ∈ unescapedLineEnds
      · -- the line end stands in the literal, which ends there
        rw [readLiteralBody?_of_not_plain hquote hbackslash fun h => hplain.mp h hc]
        exact iff_of_false (by simp) fun h => h.2.1 hc
      · rw [readLiteralBody?_plain (hplain.mpr hc)]
        exact hread hc

/-- From the literal of a value the value is read, if it holds none of the three line ends. -/
theorem readLiteral?_stringLiteral {value w : List Char} :
    readLiteral? (stringLiteral value) = some w ↔
      w = value ∧ ∀ c ∈ value, c ∉ unescapedLineEnds :=
  readLiteralBody?_flatMap_escapeChar

/-- Every default value of a string has a literal.  The literal denotes the value and nothing else
    if the value holds none of the three line ends that are not escaped; if it holds one, the
    literal is no string literal at all. -/
theorem string_literal_denotes_iff (v : String) :
    ∃ literal, defaultLiteral? v .string = some literal ∧
      ∀ value, DenotesText literal.toList value ↔
        value = v.toList ∧ ∀ c ∈ v.toList, c ∉ unescapedLineEnds := by
  refine ⟨_, rfl, fun value => ?_⟩
  rw [← readLiteral?_eq_some_iff, String.toList_ofList, readLiteral?_stringLiteral]

/-- A value with a line separator in it has a literal that denotes nothing. -/
theorem string_literal_may_denote_nothing :
    ∃ v literal, defaultLiteral? v .string = some literal ∧
      ∀ value, ¬ DenotesText literal.toList value := by
  refine ⟨"a\u2028b", "\"a\u2028b\"", by decide, fun value h => ?_⟩
  have hread : readLiteral? "\"a\u2028b\"".toList = none := by decide
  rw [← readLiteral?_eq_some_iff, hread] at h
  cases h

end EntityModel.CSharp
