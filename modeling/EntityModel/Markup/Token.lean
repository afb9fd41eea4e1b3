import EntityModel.Text.Offset
import EntityModel.Text.Search

/-! # Tokens of markup

A document is cut into tags, runs of text, `CDATA` sections and pieces that carry nothing for the
model (comments, instructions, declarations).  Blanks between pieces are skipped, and a run of text
loses the blanks at its ends; both know only the four white space characters of markup.

`splitMarkup` finds the `>` that ends what a `<` begins, `Piece.ofMarkup` says what stands between
the two, and `scan` repeats them to the end or to the first fault.

* `splitMarkup_eq_append`                                   the markup, a `>` and the rest make up
                                                            the input
* `scanFrom_token`, `scanFrom_finished`, `scanFrom_fault`   one step of the scan -/

namespace EntityModel.Markup

/-- White space in markup. -/
def isSpace (c : Char) : Bool := c == ' ' || c == '\t' || c == '\n' || c == '\r'

/-- Faults that keep a document from being cut into tokens, or its tags from nesting. -/
inductive SyntaxFault where
  | unknownMarkup
  | unclosedInstruction
  | unclosedComment
  | unclosedDoctype
  | unclosedCData
  | unclosedTag
  | namelessDoctype
  | unmatchedClose (name : String)
  | mismatchedClose (expected found : String)
deriving DecidableEq, Repr

/-- The wording of a syntax fault. -/
def SyntaxFault.message : SyntaxFault → String
  | .unknownMarkup => "syntax error: unknown or missed symbol in markup"
  | .unclosedInstruction =>
    "syntax error: processing instruction or xml declaration not closed: " ++
      "`?>` not found before end of input"
  | .unclosedComment => "syntax error: comment not closed: `-->` not found before end of input"
  | .unclosedDoctype => "syntax error: DOCTYPE not closed: `>` not found before end of input"
  | .unclosedCData => "syntax error: CDATA not closed: `]]>` not found before end of input"
  | .unclosedTag => "syntax error: tag not closed: `>` not found before end of input"
  | .namelessDoctype =>
    "ill-formed document: `<!DOCTYPE>` declaration does not contain a name of a document type"
  | .unmatchedClose name =>
    "ill-formed document: close tag `</" ++ name ++ ">` does not match any open tag"
  | .mismatchedClose expected found =>
    "ill-formed document: expected `</" ++ expected ++ ">`, but `</" ++ found ++ ">` was found"

/-! ### Where markup ends -/

/-- Split a tag at the first `>` outside quotes; `quote` is the quote that is open. -/
def splitTag (quote : Option Char) : List Char → Option (List Char × List Char)
  | [] => none
  | c :: cs =>
    match quote with
    | none =>
      if c = '>' then some ([], cs)
      else
        (splitTag (if c = '"' ∨ c = '\'' then some c else none) cs).map fun (m, r) => (c :: m, r)
    | some q => (splitTag (if c = q then none else some q) cs).map fun (m, r) => (c :: m, r)

/-- Split a document type declaration at the `>` that closes as many `<` as were opened inside. -/
def splitDoctype (depth : Nat) : List Char → Option (List Char × List Char)
  | [] => none
  | '<' :: cs => (splitDoctype (depth + 1) cs).map fun (m, r) => ('<' :: m, r)
  | '>' :: cs =>
    match depth with
    | 0 => some ([], cs)
    | d + 1 => (splitDoctype d cs).map fun (m, r) => ('>' :: m, r)
  | c :: cs => (splitDoctype depth cs).map fun (m, r) => (c :: m, r)

/-- Split at the first occurrence of `closing` and a `>` behind it; `closing` stays in front. -/
def splitClosing (closing cs : List Char) : Option (List Char × List Char) :=
  (Text.breakOn (closing ++ ['>']) cs).map fun (m, r) => (m ++ closing, r)

/-- Split a comment: the end mark is looked for behind the first three characters. -/
def splitComment (cs : List Char) : Option (List Char × List Char) :=
  (splitClosing ['-', '-'] (cs.drop 3)).map fun (m, r) => (cs.take 3 ++ m, r)

/-- Split what follows a `<` at the `>` that ends it. -/
def splitMarkup (cs : List Char) : Except SyntaxFault (List Char × List Char) :=
  match cs with
  | '!' :: '[' :: _ => (splitClosing [']', ']'] cs).elim (.error .unclosedCData) .ok
  | '!' :: '-' :: _ => (splitComment cs).elim (.error .unclosedComment) .ok
  | '!' :: 'D' :: _ => (splitDoctype 0 cs).elim (.error .unclosedDoctype) .ok
  | '!' :: 'd' :: _ => (splitDoctype 0 cs).elim (.error .unclosedDoctype) .ok
  | '!' :: _ => .error .unknownMarkup
  | '?' :: _ => (splitClosing ['?'] cs).elim (.error .unclosedInstruction) .ok
  | _ => (splitTag none cs).elim (.error .unclosedTag) .ok

/-- A tag, the `>` that ends it and the rest make up the input. -/
private theorem splitTag_eq_append {quote : Option Char} {cs m r : List Char}
    (h : splitTag quote cs = some (m, r)) : cs = m ++ '>' :: r := by
  induction cs generalizing quote m with
  | nil => simp [splitTag] at h
  | cons c cs ih =>
    cases quote with
    | none =>
      simp only [splitTag] at h
      split at h
      -- the `>` that ends the tag, or any other character outside quotes
      · obtain ⟨rfl, rfl⟩ := Prod.mk.inj (Option.some.inj h)
        simp_all
      -- within quotes a `>` does not end the tag
      · obtain ⟨⟨m', r'⟩, hm, hcons⟩ := Option.map_eq_some_iff.mp h
        obtain ⟨rfl, rfl⟩ := Prod.mk.inj hcons
        rw [ih hm]
        simp
    | some q =>
      simp only [splitTag] at h
      obtain ⟨⟨m', r'⟩, hm, hcons⟩ := Option.map_eq_some_iff.mp h
      obtain ⟨rfl, rfl⟩ := Prod.mk.inj hcons
      rw [ih hm]
      simp

/-- A declaration, the `>` that ends it and the rest make up the input. -/
private theorem splitDoctype_eq_append {depth : Nat} {cs m r : List Char}
    (h : splitDoctype depth cs = some (m, r)) : cs = m ++ '>' :: r := by
  -- in step with the search: a `<` inside, the `>` at the end, a `>` inside, any other character
  fun_induction splitDoctype depth cs generalizing m with
  | case1 => simp at h
  | case2 depth cs ih =>
    obtain ⟨⟨m', r'⟩, hm, hcons⟩ := Option.map_eq_some_iff.mp h
    obtain ⟨rfl, rfl⟩ := Prod.mk.inj hcons
    rw [ih hm]
    simp
  | case3 cs =>
    obtain ⟨rfl, rfl⟩ := Prod.mk.inj (Option.some.inj h)
    simp
  | case4 cs d ih =>
    obtain ⟨⟨m', r'⟩, hm, hcons⟩ := Option.map_eq_some_iff.mp h
    obtain ⟨rfl, rfl⟩ := Prod.mk.inj hcons
    rw [ih hm]
    simp
  | case5 depth c cs _ _ ih =>
    obtain ⟨⟨m', r'⟩, hm, hcons⟩ := Option.map_eq_some_iff.mp h
    obtain ⟨rfl, rfl⟩ := Prod.mk.inj hcons
    rw [ih hm]
    simp

/-- What ends in a closing mark, the `>` behind it and the rest make up the input. -/
theorem splitClosing_eq_append {closing cs m r : List Char}
    (h : splitClosing closing cs = some (m, r)) : cs = m ++ '>' :: r := by
  obtain ⟨⟨m', r'⟩, hm, hcons⟩ := Option.map_eq_some_iff.mp h
  obtain ⟨rfl, rfl⟩ := Prod.mk.inj hcons
  rw [Text.breakOn_eq_append hm]
  simp

/-- A comment, the `>` that ends it and the rest make up the input. -/
private theorem splitComment_eq_append {cs m r : List Char} (h : splitComment cs = some (m, r)) :
    cs = m ++ '>' :: r := by
  obtain ⟨⟨m', r'⟩, hm, hcons⟩ := Option.map_eq_some_iff.mp h
  obtain ⟨rfl, rfl⟩ := Prod.mk.inj hcons
  -- the first three characters are put back in front
  have := splitClosing_eq_append hm
  rw [List.append_assoc, ← this, List.take_append_drop]

/-- The markup, a `>` and the rest make up the input. -/
theorem splitMarkup_eq_append {cs m r : List Char} (h : splitMarkup cs = .ok (m, r)) :
    cs = m ++ '>' :: r := by
  have elim {f : SyntaxFault} {o : Option (List Char × List Char)}
      (ho : o.elim (.error f) .ok = (.ok (m, r) : Except SyntaxFault _)) : o = some (m, r) := by
    cases o with
    | none => simp at ho
    | some p => simpa using ho
  unfold splitMarkup at h
  split at h
  -- one case for each kind of markup, with the search that ends it
  · exact splitClosing_eq_append (elim h)
  · exact splitComment_eq_append (elim h)
  · exact splitDoctype_eq_append (elim h)
  · exact splitDoctype_eq_append (elim h)
  · simp at h
  · exact splitClosing_eq_append (elim h)
  · exact splitTag_eq_append (elim h)

/-! ### What markup is -/

/-- One piece of a document. -/
inductive Piece where
  /-- An opening tag, by what stands between its brackets; a self-closing one less its `/`. -/
  | opening (content : List Char) (selfClosing : Bool)
  /-- A closing tag, by the name it gives. -/
  | closing (name : List Char)
  /-- A run of text, its references still unresolved. -/
  | text (chars : List Char)
  /-- The content of a `CDATA` section. -/
  | verbatim (chars : List Char)
  /-- A comment, an instruction or a declaration. -/
  | skipped
deriving DecidableEq, Repr

namespace Piece

/-- A tag that opens an element: self-closing if it ends in `/`. -/
def ofOpening (m : List Char) : Piece :=
  match m.reverse with
  | '/' :: r => .opening r.reverse true
  | _ => .opening m false

/-- The beginning of a document type declaration, which may be in lower case. -/
def doctypeMark : List Char := ['!', 'd', 'o', 'c', 't', 'y', 'p', 'e']

/-- The beginning of a `CDATA` section. -/
def verbatimMark : List Char := ['!', '[', 'C', 'D', 'A', 'T', 'A', '[']

/-- The name that a closing tag gives: the blanks behind it are dropped, unless there is nothing but
    blanks, which then make up the name. -/
def closingName (cs : List Char) : List Char :=
  if cs.all isSpace then cs else Text.dropEndWhile isSpace cs

/-- What stands between `<` and `>`. -/
def ofMarkup (m : List Char) : Except SyntaxFault Piece :=
  match m with
  | '!' :: '[' :: _ =>
    if verbatimMark.isPrefixOf m then .ok (.verbatim ((m.drop 8).dropLast.dropLast))
    else .error .unclosedCData
  | '!' :: '-' :: rest => if rest.head? = some '-' then .ok .skipped else .error .unclosedComment
  | '!' :: _ =>
    if (m.take 8).map Char.toLower = doctypeMark then
      if (m.drop 8).all isSpace then .error .namelessDoctype else .ok .skipped
    else .error .unclosedDoctype
  | ['?'] => .error .unclosedInstruction
  | '?' :: _ => .ok .skipped
  | '/' :: rest => .ok (.closing (closingName rest))
  | _ => .ok (ofOpening m)

end Piece

/-! ### The scan -/

/-- A piece and where it stands: from the end of the piece before it, blanks included, to its own
    end.  `origin` is where the piece itself begins. -/
structure Token where
  piece : Piece
  start : Nat
  origin : Nat
  stop : Nat
deriving DecidableEq, Repr

/-- What comes next in a document. -/
inductive Step where
  | finished
  | token (t : Token) (rest : List Char)
  | fault (f : SyntaxFault) (position : Nat)

/-- Where a fault inside markup is seen: at its `<`, or at the `>` where only the end shows it. -/
def SyntaxFault.position (f : SyntaxFault) (origin stop : Nat) : Nat :=
  match f with
  | .namelessDoctype => stop - 1
  | _ => origin

/-- Read what follows the `<` at `origin`; the piece before it ended at `start`. -/
def readMarkup (start origin : Nat) (cs : List Char) : Step :=
  match splitMarkup cs with
  | .error f => .fault f origin
  | .ok (m, rest) =>
    let stop := origin + 1 + Text.byteLength m + 1
    match Piece.ofMarkup m with
    | .error f => .fault f (f.position origin stop)
    | .ok piece => .token ⟨piece, start, origin, stop⟩ rest

/-- Read the text at `origin` up to the next `<`. -/
def readText (start origin : Nat) (cs : List Char) : Step :=
  let run := cs.takeWhile (· != '<')
  .token ⟨.text (Text.dropEndWhile isSpace run), start, origin, origin + Text.byteLength run⟩
    (cs.dropWhile (· != '<'))

/-- The token that begins at the offset `start`. -/
def nextToken (start : Nat) (cs : List Char) : Step :=
  let origin := start + Text.byteLength (cs.takeWhile isSpace)
  match cs.dropWhile isSpace with
  | [] => .finished
  | '<' :: rest => readMarkup start origin rest
  | c :: rest => readText start origin (c :: rest)

/-- Every token leaves less to read. -/
theorem length_nextToken_lt {start : Nat} {cs rest : List Char} {t : Token}
    (h : nextToken start cs = .token t rest) : rest.length < cs.length := by
  -- white space in front is skipped, and at least one character behind it is taken
  have hle := Text.length_dropWhile_le isSpace cs
  unfold nextToken at h
  dsimp only at h
  split at h
  · simp at h
  · rename_i r hr
    rw [hr] at hle
    unfold readMarkup at h
    split at h
    · simp at h
    · rename_i m r' hm
      -- markup is taken up to its `>`
      have := splitMarkup_eq_append hm
      dsimp only at h
      split at h
      · simp at h
      · obtain ⟨_, rfl⟩ := Step.token.inj h
        rw [this] at hle
        simp only [List.length_cons, List.length_append] at hle
        omega
  · rename_i c r hc hr
    rw [hr] at hle
    obtain ⟨_, rfl⟩ := Step.token.inj h
    -- a run has at least the character that it begins with
    have hne : (c != '<') = true := by simpa using hc
    rw [List.dropWhile_cons_of_pos (p := (· != '<')) hne]
    have := Text.length_dropWhile_le (· != '<') r
    simp only [List.length_cons] at hle
    omega

/-- The tokens of a document, up to its end or to the first fault and its position. -/
def scanFrom (start : Nat) (cs : List Char) : List Token × Option (SyntaxFault × Nat) :=
  match _h : nextToken start cs with
  | .finished => ([], none)
  | .fault f position => ([], some (f, position))
  | .token t rest =>
    let more := scanFrom t.stop rest
    (t :: more.1, more.2)
termination_by cs.length
decreasing_by exact length_nextToken_lt _h

/-- A document that is read to its end has no more tokens. -/
theorem scanFrom_finished {start : Nat} {cs : List Char} (h : nextToken start cs = .finished) :
    scanFrom start cs = ([], none) := by
  rw [scanFrom]
  split <;> simp_all

/-- A fault ends the tokens of a document. -/
theorem scanFrom_fault {start : Nat} {cs : List Char} {f : SyntaxFault} {p : Nat}
    (h : nextToken start cs = .fault f p) : scanFrom start cs = ([], some (f, p)) := by
  rw [scanFrom]
  split <;> simp_all

/-- A token is the first one of a document, and the others are those of the rest. -/
theorem scanFrom_token {start : Nat} {cs rest : List Char} {t : Token}
    (h : nextToken start cs = .token t rest) :
    scanFrom start cs = (t :: (scanFrom t.stop rest).1, (scanFrom t.stop rest).2) := by
  rw [scanFrom]
  split <;> simp_all

/-- The byte order mark. -/
def byteOrderMark : Char := '\uFEFF'

/-- A document without the byte order mark that it may begin with. -/
def dropByteOrderMark : List Char → List Char
  | [] => []
  | c :: cs => if c = byteOrderMark then cs else c :: cs

/-- The tokens of a document.  Offsets count from behind a byte order mark. -/
def scan (cs : List Char) : List Token × Option (SyntaxFault × Nat) :=
  scanFrom 0 (dropByteOrderMark cs)

end EntityModel.Markup
