import EntityModel.Markup.Document

/-!
# Written tags

How names, attributes and text are written so that they are read back: the characters that mean
something in markup are spelled by reference, so a quoted value ends at its quote, a tag at its `>`
and a run of text at the next `<`.

* `unescape_escape`          what is spelled by reference is resolved again
* `readAttributes_tag`       the attributes of a written tag
* `closed_tag`               a written tag ends where it was ended
* `nextToken_opening`, `nextToken_closing`, `nextToken_text`   each piece is one token
-/

namespace EntityModel.Markup

/-! ### References -/

/-- The reference by which a character is written, if it has a meaning in markup or ends a line. -/
def reference? : Char → Option (List Char)
  | '&' => some ['a', 'm', 'p']
  | '<' => some ['l', 't']
  | '>' => some ['g', 't']
  | '"' => some ['q', 'u', 'o', 't']
  | '\'' => some ['a', 'p', 'o', 's']
  | '\n' => some ['#', '1', '0']
  | '\r' => some ['#', '1', '3']
  | _ => none

/-- A character as it is written. -/
def escapeChar (c : Char) : List Char :=
  match reference? c with
  | some body => '&' :: body ++ [';']
  | none => [c]

/-- Text as it is written. -/
def escape (cs : List Char) : List Char := cs.flatMap escapeChar

/-- No text, nothing written. -/
@[simp] theorem escape_nil : escape [] = [] := rfl

/-- Text is written character by character. -/
private theorem escape_cons (c : Char) (cs : List Char) :
    escape (c :: cs) = escapeChar c ++ escape cs :=
  List.flatMap_cons

/-- A reference that is written stands for its character and holds only letters and digits. -/
theorem reference?_eq_some {c : Char} {body : List Char} (h : reference? c = some body) :
    (∀ position, Reference.resolve position body = .ok c) ∧
      ∀ d ∈ body, Reference.endsBody d = false ∧ isSpace d = false ∧ d ∉ ['<', '>', '"', '\''] := by
  unfold reference? at h
  split at h <;> cases h
  all_goals exact ⟨fun _ => rfl, by simp [Reference.endsBody, isSpace]⟩

/-- A character without a reference has no meaning in markup. -/
theorem reference?_eq_none {c : Char} (h : reference? c = none) :
    c ≠ '&' ∧ c ∉ ['<', '>', '"', '\''] := by
  constructor
  · rintro rfl
    exact nomatch h
  · intro hc
    simp only [List.mem_cons, List.not_mem_nil, or_false] at hc
    rcases hc with rfl | rfl | rfl | rfl <;> exact nomatch h

/-- A reference is resolved up to its semicolon, and then what follows it. -/
theorem unescapeFrom_body {body : List Char} (hbody : ∀ d ∈ body, Reference.endsBody d = false)
    (total position : Nat) (cs : List Char) :
    unescapeFrom total position ('&' :: (body ++ ';' :: cs)) =
      (Reference.resolve (position + 1) body).bind fun c =>
        (unescapeFrom total (position + 1 + Text.byteLength body + 1) cs).map (c :: ·) := by
  -- the body runs up to the semicolon
  have hall : ∀ d ∈ body, (!Reference.endsBody d) = true := by simpa using hbody
  have hdrop : (body ++ ';' :: cs).dropWhile (fun d => !Reference.endsBody d) = ';' :: cs := by
    rw [List.dropWhile_append_of_pos hall, List.dropWhile_cons_of_neg (by decide)]
  have htake : (body ++ ';' :: cs).takeWhile (fun d => !Reference.endsBody d) = body := by
    rw [List.takeWhile_append_of_pos hall, List.takeWhile_cons_of_neg (by decide), List.append_nil]
  rw [unescapeFrom]
  -- the reference ends, so the first case of the scan applies
  split
  · rename_i rest hrest
    obtain ⟨-, rfl⟩ := List.cons.inj (hdrop.symm.trans hrest)
    dsimp only
    rw [htake]
    rfl
  -- and the other one does not
  · rename_i hne
    exact absurd hdrop (hne cs)

/-- A reference is resolved as soon as it ends. -/
private theorem unescapeFrom_reference {body : List Char} {c : Char}
    (hbody : ∀ d ∈ body, Reference.endsBody d = false) {position : Nat}
    (hc : Reference.resolve (position + 1) body = .ok c) (total : Nat) (cs : List Char) :
    ∃ next, unescapeFrom total position ('&' :: (body ++ ';' :: cs)) =
      (unescapeFrom total next cs).map (c :: ·) := by
  refine ⟨position + 1 + Text.byteLength body + 1, ?_⟩
  rw [unescapeFrom_body hbody, hc]
  rfl

/-- Written text is resolved to what it was written from, wherever it stands. -/
private theorem unescapeFrom_escape (total position : Nat) (cs : List Char) :
    unescapeFrom total position (escape cs) = .ok cs := by
  induction cs generalizing position with
  | nil => rw [escape_nil, unescapeFrom_nil]
  | cons c cs ih =>
    rw [escape_cons, escapeChar]
    cases h : reference? c with
    -- a character that stands for itself
    | none =>
      show unescapeFrom total position (c :: escape cs) = _
      rw [unescapeFrom_cons_of_ne (reference?_eq_none h).1, ih]
      rfl
    -- a character that is spelled by reference
    | some body =>
      obtain ⟨hresolve, hplain⟩ := reference?_eq_some h
      obtain ⟨next, hnext⟩ := unescapeFrom_reference (fun d hd => (hplain d hd).1)
        (hresolve (position + 1)) total (escape cs)
      simp only [List.cons_append, List.append_assoc, List.nil_append]
      rw [hnext, ih]
      rfl

/-- What is spelled by reference is resolved again. -/
theorem unescape_escape (cs : List Char) : unescape (escape cs) = .ok cs :=
  unescapeFrom_escape _ _ cs

/-- Written text neither begins a tag nor ends one or a value. -/
theorem not_mem_escape {d : Char} (hd : d ∈ ['<', '>', '"', '\'']) (cs : List Char) :
    d ∉ escape cs := by
  intro hmem
  obtain ⟨c, -, hc⟩ := List.mem_flatMap.mp hmem
  unfold escapeChar at hc
  cases h : reference? c with
  -- the character itself is none of the marks
  | none =>
    rw [h, List.mem_singleton] at hc
    exact (reference?_eq_none h).2 (hc ▸ hd)
  | some body =>
    rw [h] at hc
    rcases List.mem_append.mp hc with hc | hc
    -- the ampersand
    · rcases List.mem_cons.mp hc with rfl | hc
      · exact absurd hd (by decide)
      -- the body of the reference
      · exact ((reference?_eq_some h).2 d hc).2.2 hd
    -- the semicolon
    · rw [List.mem_singleton.mp hc] at hd
      exact absurd hd (by decide)

/-! ### Blanks -/

/-- Nothing but white space. -/
def Blank (cs : List Char) : Prop := ∀ c ∈ cs, isSpace c = true

/-- No text is blank. -/
theorem blank_nil : Blank [] := fun _ h => absurd h List.not_mem_nil

/-- Blanks behind blanks are blank. -/
theorem Blank.append {a b : List Char} (ha : Blank a) (hb : Blank b) : Blank (a ++ b) := by
  intro c hc
  rcases List.mem_append.mp hc with hc | hc
  · exact ha c hc
  · exact hb c hc

/-- Blanks in front are dropped together with those behind them. -/
theorem Blank.dropWhile_append {ws : List Char} (h : Blank ws) (cs : List Char) :
    (ws ++ cs).dropWhile isSpace = cs.dropWhile isSpace := List.dropWhile_append_of_pos h

/-- Text without white space at its ends. -/
structure Trimmed (cs : List Char) : Prop where
  head : ∀ c ∈ cs.head?, isSpace c = false
  last : ∀ c ∈ cs.getLast?, isSpace c = false

/-- Text is trimmed as it is written. -/
theorem Trimmed.escape {cs : List Char} (h : Trimmed cs) : Trimmed (escape cs) where
  -- the first character, or the ampersand of its reference
  head := by
    cases cs with
    | nil => exact fun _ hc => nomatch hc
    | cons c cs =>
      rw [escape_cons, escapeChar]
      cases hc : reference? c with
      | none => exact fun d hd => h.head d hd
      | some body =>
        intro d hd
        obtain rfl : '&' = d := by simpa using hd
        rfl
  -- the last character, or the semicolon of its reference
  last := by
    rcases List.eq_nil_or_concat cs with rfl | ⟨cs, c, rfl⟩
    · exact fun _ hc => nomatch hc
    · have hescape : Markup.escape (cs.concat c) = Markup.escape cs ++ escapeChar c := by
        simp [Markup.escape]
      rw [hescape, escapeChar]
      cases hc : reference? c with
      | none =>
        intro d hd
        exact h.last d (by simpa using hd)
      | some body =>
        intro d hd
        rw [← List.append_assoc, List.getLast?_concat] at hd
        obtain rfl := Option.some.inj hd
        rfl

/-- White space behind trimmed text is dropped again. -/
theorem Trimmed.dropEndWhile_append {cs ws : List Char} (h : Trimmed cs) (hws : Blank ws) :
    Text.dropEndWhile isSpace (cs ++ ws) = cs := by
  unfold Text.dropEndWhile
  -- from the back, the blanks go first and the last character of the text stops it
  rw [List.reverse_append, List.dropWhile_append_of_pos fun c hc => hws c (List.mem_reverse.mp hc)]
  rcases List.eq_nil_or_concat cs with rfl | ⟨cs, c, rfl⟩
  · rfl
  · rw [List.concat_eq_append, List.reverse_append, List.reverse_singleton, List.singleton_append,
      List.dropWhile_cons_of_neg (by simpa using h.last c (by simp)), List.reverse_cons,
      List.reverse_reverse]

/-! ### Names -/

/-- Whether a character has a place in the grammar of tags and so none in a name. -/
def isMark (c : Char) : Bool :=
  isSpace c || ['<', '>', '"', '\'', '&', '=', '/', '!', '?'].contains c

/-- A name that can be written: it is not empty, holds no marks, and its first colon is the one
    behind its qualifier. -/
structure Name.Legal (n : Name) : Prop where
  nonempty : n.chars ≠ []
  plain : ∀ c ∈ n.chars, isMark c = false
  split : Name.ofChars n.chars = n

namespace Name.Legal

variable {n : Name}

/-- A name holds no white space. -/
private theorem not_space (h : n.Legal) : ∀ c ∈ n.chars, isSpace c = false := fun c hc =>
  (Bool.or_eq_false_iff.mp (h.plain c hc)).1

/-- A name holds none of the marks. -/
theorem not_mem (h : n.Legal) {c : Char}
    (hc : c ∈ ['<', '>', '"', '\'', '&', '=', '/', '!', '?']) : c ∉ n.chars := by
  intro hmem
  have hmark := (Bool.or_eq_false_iff.mp (h.plain c hmem)).2
  rw [List.contains_iff_mem.mpr hc] at hmark
  exact nomatch hmark

/-- Legal names are told apart by their characters. -/
private theorem chars_inj {m : Name} (hn : n.Legal) (hm : m.Legal) (h : n.chars = m.chars) :
    n = m := by
  rw [← hn.split, h, hm.split]

/-- A name has a first character, which is no mark. -/
theorem exists_cons (h : n.Legal) : ∃ c cs, n.chars = c :: cs ∧ isMark c = false := by
  obtain ⟨c, cs, hcs⟩ := List.exists_cons_of_ne_nil h.nonempty
  exact ⟨c, cs, hcs, h.plain c (hcs ▸ List.mem_cons_self)⟩

end Name.Legal

/-! ### Attributes -/

/-- An attribute as it is written, behind a blank. -/
def writeAttribute (a : Attribute) : List Char :=
  ' ' :: a.name.chars ++ '=' :: '"' :: (escape a.value.toList ++ ['"'])

/-- What stands between the brackets of a written tag. -/
def tag (name : Name) (attributes : List Attribute) : List Char :=
  name.chars ++ attributes.flatMap writeAttribute

/-- Attributes that can be written: their names are legal and distinct. -/
structure LegalAttributes (as : List Attribute) : Prop where
  names : ∀ a ∈ as, a.name.Legal
  nodup : (as.map (·.name)).Nodup

/-- A quoted text ends at its quote. -/
theorem breakOn_quote {quote : Char} {cs : List Char} (h : quote ∉ cs) (rest : List Char) :
    Text.breakOn [quote] (cs ++ quote :: rest) = some (cs, rest) := by
  induction cs with
  | nil => simp [Text.breakOn]
  | cons c cs ih =>
    -- the first character is not the quote
    obtain ⟨hc, hcs⟩ := not_or.mp (mt List.mem_cons.mpr h)
    rw [List.cons_append, Text.breakOn, if_neg (by simpa using hc), ih hcs]
    rfl

/-- The value of a written attribute is read up to its quote. -/
private theorem readValue_quoted (total position : Nat) (key : List Char) (start : Nat)
    (value rest : List Char) :
    ∃ stop, readValue total position key start ('"' :: (escape value ++ '"' :: rest)) =
      .attribute ⟨key, position, escape value⟩ stop rest := by
  unfold readValue
  rw [List.dropWhile_cons_of_neg (by decide)]
  dsimp only
  rw [if_pos (.inl rfl), breakOn_quote (not_mem_escape (by decide) value)]
  exact ⟨_, rfl⟩

/-- A written attribute is read as it was written, if its key was not seen before. -/
private theorem nextAttribute_writeAttribute {a : Attribute} (ha : a.name.Legal)
    {seen : List (List Char × Nat)} (hseen : a.name.chars ∉ seen.map (·.1)) (total start : Nat)
    (rest : List Char) :
    ∃ position stop, nextAttribute total seen start (writeAttribute a ++ rest) =
      .attribute ⟨a.name.chars, position, escape a.value.toList⟩ stop rest := by
  -- the key begins behind the blank and ends at the equals sign
  obtain ⟨first, body, hkey, hfirst⟩ := ha.exists_cons
  have hspace : isSpace first = false := (Bool.or_eq_false_iff.mp hfirst).1
  have hbody : ∀ c ∈ body, (!endsKey c) = true := by
    intro c hc
    have hmem : c ∈ a.name.chars := hkey ▸ List.mem_cons_of_mem _ hc
    have hequals : c ≠ '=' := fun he => ha.not_mem (by decide) (he ▸ hmem)
    simp [endsKey, hequals, ha.not_space c hmem]
  -- no attribute before it has this key
  have hlookup : seen.lookup (first :: body) = none := by
    rw [List.lookup_eq_none_iff]
    intro p hp
    rw [bne_iff_ne]
    rintro heq
    exact hseen (hkey ▸ heq ▸ List.mem_map_of_mem hp)
  -- what stands behind the blank, as the reader takes it apart
  have hcs : writeAttribute a ++ rest =
      ' ' :: first :: (body ++ '=' :: '"' :: (escape a.value.toList ++ '"' :: rest)) := by
    simp [writeAttribute, hkey]
  rw [hcs, hkey]
  unfold nextAttribute
  rw [List.dropWhile_cons_of_pos (by decide), List.dropWhile_cons_of_neg (by simpa using hspace)]
  dsimp only
  rw [List.dropWhile_append_of_pos hbody, List.takeWhile_append_of_pos hbody,
    List.dropWhile_cons_of_neg (by decide), List.takeWhile_cons_of_neg (by decide),
    List.append_nil, List.dropWhile_cons_of_neg (by decide), hlookup]
  exact ⟨_, readValue_quoted ..⟩

/-- Written attributes are read in order, if no key of theirs was seen before. -/
private theorem readAttributesFrom_written {as : List Attribute} (h : LegalAttributes as)
    {seen : List (List Char × Nat)} (hseen : ∀ a ∈ as, a.name.chars ∉ seen.map (·.1))
    (total start : Nat) :
    readAttributesFrom total seen start (as.flatMap writeAttribute) = .ok as := by
  induction as generalizing seen start with
  -- nothing is left behind the last attribute
  | nil =>
    rw [readAttributesFrom]
    rfl
  | cons a as ih =>
    obtain ⟨ha, has⟩ := List.forall_mem_cons.mp h.names
    obtain ⟨hnew, hnodup⟩ := List.nodup_cons.mp h.nodup
    obtain ⟨hseena, hseenas⟩ := List.forall_mem_cons.mp hseen
    obtain ⟨position, stop, hnext⟩ :=
      nextAttribute_writeAttribute ha hseena total start (as.flatMap writeAttribute)
    -- the key of an attribute is seen for those after it, which have other keys
    have hmore : ∀ b ∈ as, b.name.chars ∉ ((a.name.chars, position) :: seen).map (·.1) := by
      intro b hb hmem
      rcases List.mem_cons.mp hmem with heq | hmem
      · exact hnew (List.mem_map.mpr ⟨b, hb, (has b hb).chars_inj ha heq⟩)
      · exact hseenas b hb hmem
    rw [List.flatMap_cons, readAttributesFrom]
    -- neither the end of the tag nor a fault: the next step is the attribute that was written
    split
    · rename_i heq
      cases hnext.symm.trans heq
    · rename_i heq
      cases hnext.symm.trans heq
    · rename_i heq
      obtain ⟨rfl, rfl, rfl⟩ := AttributeStep.attribute.inj (hnext.symm.trans heq)
      dsimp only
      rw [unescape_escape, ih ⟨has, hnodup⟩ hmore, ha.split]
      show Except.ok (⟨a.name, String.ofList a.value.toList⟩ :: as) = _
      rw [String.ofList_toList]

/-! ### Tags -/

/-- A written tag is cut into its name and its attributes. -/
private theorem tagName_tagRest_tag {name : Name} (h : name.Legal) (as : List Attribute) :
    tagName (tag name as) = name.chars ∧ tagRest (tag name as) = as.flatMap writeAttribute := by
  have hname : ∀ c ∈ name.chars, (!isSpace c) = true := by simpa using h.not_space
  unfold tagName tagRest tag
  rw [List.takeWhile_append_of_pos hname, List.dropWhile_append_of_pos hname]
  -- behind the name either the tag ends or a blank stands
  cases as with
  | nil => exact ⟨List.append_nil _, rfl⟩
  | cons a as => exact ⟨List.append_nil _, rfl⟩

/-- The attributes of a written tag are read as they were written. -/
theorem readAttributes_tag {name : Name} {as : List Attribute} (hname : name.Legal)
    (has : LegalAttributes as) : readAttributes (tag name as) = .ok as := by
  unfold readAttributes
  rw [(tagName_tagRest_tag hname as).2]
  exact readAttributesFrom_written has (fun _ _ => List.not_mem_nil) _ _

/-- The element that a written tag begins. -/
theorem openTag_tag {name : Name} {as : List Attribute} (hname : name.Legal)
    (has : LegalAttributes as) (span : Span) :
    openTag (tag name as) span = .ok ⟨name.chars, ⟨name, as, [], "", span⟩⟩ := by
  unfold openTag
  rw [readAttributes_tag hname has, (tagName_tagRest_tag hname as).1]
  dsimp only
  rw [hname.split]

/-- No `>` within the text ends a tag, and no quote is open behind it. -/
def Closed (cs : List Char) : Prop :=
  ∀ rest, splitTag none (cs ++ rest) = (splitTag none rest).map fun p => (cs ++ p.1, p.2)

/-- A tag does not end in either of two closed texts, so it does not end in both together. -/
theorem Closed.append {a b : List Char} (ha : Closed a) (hb : Closed b) : Closed (a ++ b) := by
  intro rest
  rw [List.append_assoc, ha, hb, Option.map_map]
  simp [Function.comp_def]

/-- A tag ends behind a closed text. -/
private theorem Closed.splitTag_eq {cs : List Char} (h : Closed cs) (rest : List Char) :
    splitTag none (cs ++ '>' :: rest) = some (cs, rest) := by
  rw [h]
  simp [splitTag]

/-- Text without a mark that ends a tag or opens a value is closed. -/
theorem closed_of_plain {cs : List Char} (h : ∀ c ∈ cs, c ∉ ['>', '"', '\'']) : Closed cs := by
  intro rest
  induction cs with
  | nil => simp
  | cons c cs ih =>
    obtain ⟨hc, hcs⟩ := List.forall_mem_cons.mp h
    simp only [List.mem_cons, List.not_mem_nil, or_false, not_or] at hc
    rw [List.cons_append, splitTag, if_neg hc.1, if_neg (not_or.mpr hc.2), ih hcs, Option.map_map]
    rfl

/-- A quoted value is closed, whatever it holds but its quote. -/
private theorem closed_quoted {cs : List Char} (h : '"' ∉ cs) : Closed ('"' :: (cs ++ ['"'])) := by
  -- within the value nothing but the quote is looked for
  have hinner : ∀ rest, splitTag (some '"') (cs ++ '"' :: rest) =
      (splitTag none rest).map fun p => (cs ++ '"' :: p.1, p.2) := by
    intro rest
    induction cs with
    | nil => rfl
    | cons c cs ih =>
      obtain ⟨hc, hcs⟩ := not_or.mp (mt List.mem_cons.mpr h)
      rw [List.cons_append, splitTag, if_neg (Ne.symm hc), ih hcs, Option.map_map]
      rfl
  intro rest
  simp only [List.cons_append, List.append_assoc, List.nil_append]
  -- the first quote opens a value, within which nothing ends the tag
  rw [splitTag, if_neg (by decide), if_pos (.inl rfl), hinner, Option.map_map]
  simp [Function.comp_def]

/-- A name is closed. -/
theorem Name.Legal.closed {n : Name} (h : n.Legal) : Closed n.chars :=
  closed_of_plain fun _ hc hmark =>
    h.not_mem (List.mem_cons_of_mem _ (List.mem_of_mem_take (i := 3) hmark)) hc

/-- A written tag is closed: its name, and each of its attributes with its value in quotes. -/
theorem closed_tag {name : Name} {as : List Attribute} (hname : name.Legal)
    (has : ∀ a ∈ as, a.name.Legal) : Closed (tag name as) := by
  refine hname.closed.append ?_
  induction as with
  | nil => exact closed_of_plain fun _ hc => absurd hc List.not_mem_nil
  | cons a as ih =>
    obtain ⟨ha, has⟩ := List.forall_mem_cons.mp has
    have hblank : Closed [' '] := closed_of_plain (by simp)
    have hequals : Closed ['='] := closed_of_plain (by simp)
    -- a `>` in the value is spelled by reference, and would be quoted anyway
    have hvalue := closed_quoted (not_mem_escape (by decide) a.value.toList)
    rw [List.flatMap_cons]
    exact (hblank.append (ha.closed.append (hequals.append hvalue))).append (ih has)

/-! ### Pieces -/

/-- What begins like a name is a tag, which ends where it was ended. -/
theorem splitMarkup_of_closed {cs : List Char} (h : Closed cs)
    (hhead : ∀ c ∈ cs.head?, c ≠ '!' ∧ c ≠ '?') (rest : List Char) :
    splitMarkup (cs ++ '>' :: rest) = .ok (cs, rest) := by
  -- the tag begins like a name, or ends at once
  have hfirst : ∀ c more, cs ++ '>' :: rest = c :: more → c ≠ '!' ∧ c ≠ '?' := by
    intro c more heq
    cases cs with
    | nil =>
      obtain ⟨rfl, -⟩ := List.cons.inj heq
      decide
    | cons d cs =>
      obtain ⟨rfl, -⟩ := List.cons.inj heq
      exact hhead d rfl
  unfold splitMarkup
  split
  -- comments, sections, declarations and instructions begin otherwise
  · exact absurd rfl (hfirst _ _ (by assumption)).1
  · exact absurd rfl (hfirst _ _ (by assumption)).1
  · exact absurd rfl (hfirst _ _ (by assumption)).1
  · exact absurd rfl (hfirst _ _ (by assumption)).1
  · exact absurd rfl (hfirst _ _ (by assumption)).1
  · exact absurd rfl (hfirst _ _ (by assumption)).2
  · rw [h.splitTag_eq]
    rfl

/-- What begins with no mark is an opening tag. -/
theorem ofMarkup_opening {c : Char} (h : isMark c = false) (cs : List Char) :
    Piece.ofMarkup (c :: cs) = .ok (Piece.ofOpening (c :: cs)) := by
  unfold Piece.ofMarkup
  split
  -- every other kind of piece begins with a mark
  · exact absurd h (by simp_all [isMark])
  · exact absurd h (by simp_all [isMark])
  · exact absurd h (by simp_all [isMark])
  · exact absurd h (by simp_all [isMark])
  · exact absurd h (by simp_all [isMark])
  · exact absurd h (by simp_all [isMark])
  · rfl

/-- A slash at the end of a tag closes its element. -/
theorem ofOpening_selfClosing (content : List Char) :
    Piece.ofOpening (content ++ ['/']) = .opening content true := by
  simp [Piece.ofOpening]

/-- Without one the element stays open. -/
theorem ofOpening_of_getLast? {content : List Char} (h : content.getLast? ≠ some '/') :
    Piece.ofOpening content = .opening content false := by
  unfold Piece.ofOpening
  split
  -- a slash at the end is found from the back
  · rename_i r hr
    rw [List.getLast?_eq_head?_reverse, hr] at h
    exact absurd rfl h
  · rfl

/-- A written tag does not end in a slash. -/
theorem getLast?_tag {name : Name} (hname : name.Legal) (as : List Attribute) :
    (tag name as).getLast? ≠ some '/' := by
  intro hlast
  unfold tag at hlast
  rcases List.eq_nil_or_concat as with rfl | ⟨as, a, rfl⟩
  -- it ends in its name
  · rw [List.flatMap_nil, List.append_nil] at hlast
    exact hname.not_mem (by decide) (List.mem_of_getLast? hlast)
  -- or in the quote of its last value
  · have hquote : name.chars ++ (as.concat a).flatMap writeAttribute =
        (name.chars ++ as.flatMap writeAttribute ++
          (' ' :: a.name.chars ++ '=' :: '"' :: escape a.value.toList)) ++ ['"'] := by
      simp [writeAttribute]
    rw [hquote, List.getLast?_concat] at hlast
    exact absurd (Option.some.inj hlast) (by decide)

/-- A name has no white space at its ends. -/
theorem Name.Legal.trimmed {n : Name} (h : n.Legal) : Trimmed n.chars where
  head := fun c hc => h.not_space c (List.mem_of_head? hc)
  last := fun c hc => h.not_space c (List.mem_of_getLast? hc)

/-- The name in a closing tag is the name of the element. -/
theorem closingName_of_legal {n : Name} (h : n.Legal) : Piece.closingName n.chars = n.chars := by
  obtain ⟨c, cs, hcs, -⟩ := h.exists_cons
  have hspace := h.not_space c (hcs ▸ List.mem_cons_self)
  unfold Piece.closingName
  -- only blanks in front of nothing would be kept
  rw [if_neg (by simp [hcs, hspace])]
  simpa using h.trimmed.dropEndWhile_append blank_nil

/-! ### Tokens -/

/-- What begins with `<` behind blanks is markup. -/
theorem nextToken_eq_readMarkup {start : Nat} {cs rest : List Char}
    (h : cs.dropWhile isSpace = '<' :: rest) :
    nextToken start cs =
      readMarkup start (start + Text.byteLength (cs.takeWhile isSpace)) rest := by
  unfold nextToken
  dsimp only
  rw [h]
  rfl

/-- What begins otherwise behind blanks is text. -/
theorem nextToken_eq_readText {start : Nat} {cs run : List Char} (h : cs.dropWhile isSpace = run)
    (hne : run ≠ []) (hhead : run.head? ≠ some '<') :
    nextToken start cs =
      readText start (start + Text.byteLength (cs.takeWhile isSpace)) run := by
  unfold nextToken
  dsimp only
  rw [h]
  split
  · exact absurd rfl hne
  · exact absurd rfl hhead
  · rfl

/-- A piece of markup is one token, together with the blanks in front of it. -/
private theorem nextToken_markup {ws m rest : List Char} {piece : Piece} (hws : Blank ws)
    (hsplit : splitMarkup (m ++ '>' :: rest) = .ok (m, rest))
    (hpiece : Piece.ofMarkup m = .ok piece) (start : Nat) :
    ∃ t, nextToken start (ws ++ '<' :: (m ++ '>' :: rest)) = .token t rest ∧ t.piece = piece := by
  have hdrop : (ws ++ '<' :: (m ++ '>' :: rest)).dropWhile isSpace = '<' :: (m ++ '>' :: rest) := by
    rw [hws.dropWhile_append, List.dropWhile_cons_of_neg (by decide)]
  rw [nextToken_eq_readMarkup hdrop, readMarkup, hsplit]
  dsimp only
  rw [hpiece]
  exact ⟨_, rfl, rfl⟩

/-- A written tag begins with its name. -/
theorem head_tag {name : Name} (hname : name.Legal) (as : List Attribute) (cs : List Char) :
    ∃ c more, tag name as ++ cs = c :: more ∧ isMark c = false := by
  obtain ⟨c, more, hcs, hc⟩ := hname.exists_cons
  exact ⟨c, more ++ as.flatMap writeAttribute ++ cs, by simp [tag, hcs], hc⟩

/-- A written tag is one token. -/
theorem nextToken_tag {ws : List Char} (hws : Blank ws) {name : Name} {as : List Attribute}
    (hname : name.Legal) (has : LegalAttributes as) {slash : List Char} (hslash : Closed slash)
    (start : Nat) (rest : List Char) :
    ∃ t, nextToken start (ws ++ '<' :: (tag name as ++ slash ++ '>' :: rest)) = .token t rest ∧
      t.piece = Piece.ofOpening (tag name as ++ slash) := by
  obtain ⟨c, more, hcs, hc⟩ := head_tag hname as slash
  have hmark : c ≠ '!' ∧ c ≠ '?' := by
    constructor <;> rintro rfl <;> exact absurd hc (by decide)
  have hclosed := (closed_tag hname has.names).append hslash
  refine nextToken_markup hws (splitMarkup_of_closed hclosed ?_ rest) ?_ start
  -- the tag ends where it was ended
  · rw [hcs]
    rintro d ⟨⟩
    exact hmark
  -- and is an opening one
  · rw [hcs]
    exact ofMarkup_opening hc more

/-- An opening tag is one token. -/
theorem nextToken_opening {ws : List Char} (hws : Blank ws) {name : Name} {as : List Attribute}
    (hname : name.Legal) (has : LegalAttributes as) (start : Nat) (rest : List Char) :
    ∃ t, nextToken start (ws ++ '<' :: (tag name as ++ '>' :: rest)) = .token t rest ∧
      t.piece = .opening (tag name as) false := by
  have hnil : Closed [] := closed_of_plain nofun
  have h := nextToken_tag hws hname has hnil start rest
  rwa [List.append_nil, ofOpening_of_getLast? (getLast?_tag hname as)] at h

/-- So is a tag that opens and closes an element. -/
theorem nextToken_selfClosing {ws : List Char} (hws : Blank ws) {name : Name} {as : List Attribute}
    (hname : name.Legal) (has : LegalAttributes as) (start : Nat) (rest : List Char) :
    ∃ t, nextToken start (ws ++ '<' :: (tag name as ++ '/' :: '>' :: rest)) = .token t rest ∧
      t.piece = .opening (tag name as) true := by
  have hslash : Closed ['/'] := closed_of_plain (by simp)
  have h := nextToken_tag hws hname has hslash start rest
  rwa [ofOpening_selfClosing, List.append_assoc] at h

/-- A closing tag is one token. -/
theorem nextToken_closing {ws : List Char} (hws : Blank ws) {name : Name} (hname : name.Legal)
    (start : Nat) (rest : List Char) :
    ∃ t, nextToken start (ws ++ '<' :: '/' :: (name.chars ++ '>' :: rest)) = .token t rest ∧
      t.piece = .closing name.chars := by
  -- the slash in front tells a closing tag from an opening one
  have hslash : Closed ['/'] := closed_of_plain (by simp)
  refine nextToken_markup (m := '/' :: name.chars) hws
    (splitMarkup_of_closed (hslash.append hname.closed) ?_ rest) ?_ start
  · rintro c ⟨⟩
    decide
  · show Except.ok (Piece.closing (Piece.closingName name.chars)) = _
    rw [closingName_of_legal hname]

/-- Written text is one token, which takes in the blanks around it. -/
theorem nextToken_text {ws behind cs : List Char} (hws : Blank ws) (hbehind : Blank behind)
    (hcs : Trimmed cs) (hne : cs ≠ []) (start : Nat) (rest : List Char) :
    ∃ t, nextToken start (ws ++ (escape cs ++ (behind ++ '<' :: rest))) = .token t ('<' :: rest) ∧
      t.piece = .text (escape cs) := by
  have hescape := hcs.escape
  -- the text begins with a character or with the ampersand of a reference
  obtain ⟨c, more, hmore⟩ : ∃ c more, escape cs = c :: more := by
    obtain ⟨d, ds, rfl⟩ := List.exists_cons_of_ne_nil hne
    rw [escape_cons, escapeChar]
    cases reference? d with
    | none => exact ⟨_, _, rfl⟩
    | some body => exact ⟨_, _, rfl⟩
  have hspace : isSpace c = false := hescape.head c (by rw [hmore]; rfl)
  have hopening : c ≠ '<' := by
    rintro rfl
    exact not_mem_escape (by decide) cs (hmore ▸ List.mem_cons_self)
  -- the run goes on to the next tag
  have hrun : ∀ d ∈ escape cs ++ behind, (d != '<') = true := by
    intro d hd
    rw [bne_iff_ne]
    rintro rfl
    rcases List.mem_append.mp hd with hd | hd
    · exact not_mem_escape (by decide) cs hd
    · exact absurd (hbehind _ hd) (by decide)
  -- blanks in front are not part of it
  have hstart : (ws ++ (escape cs ++ (behind ++ '<' :: rest))).dropWhile isSpace =
      escape cs ++ behind ++ '<' :: rest := by
    rw [hws.dropWhile_append, hmore, List.cons_append,
      List.dropWhile_cons_of_neg (by simp [hspace]), List.cons_append, List.cons_append,
      List.append_assoc]
  rw [nextToken_eq_readText hstart (by simp [hmore]) (by simpa [hmore] using hopening), readText,
    List.takeWhile_append_of_pos hrun, List.takeWhile_cons_of_neg (by decide), List.append_nil,
    List.dropWhile_append_of_pos hrun, List.dropWhile_cons_of_neg (by decide),
    -- and those behind it are dropped from the token
    hescape.dropEndWhile_append hbehind]
  exact ⟨_, rfl, rfl⟩

end EntityModel.Markup
