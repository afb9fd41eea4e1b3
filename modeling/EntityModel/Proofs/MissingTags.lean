import EntityModel.Proofs.MarkupCuts

/-!
# Missing closing tags

Reading a document opens an element for each opening tag and leaves one for each closing tag, so a
document is read only if it has as many of the one as of the other.  A written tree has, and nothing
in it but a tag begins with a `<`; taken out of it, a closing tag leaves an element open.

* `run_balance`                     open elements count the tags that have been read
* `parseChars_eq_error_of_cut`      a text with other numbers of tags is no document
* `cutInPairs_of_writes`            a written tree has as many closing tags as opening ones
* `written_tree_needs_every_tag`    a written tree is read, and not without one of its closing tags
-/

namespace EntityModel.Markup

/-! ### Open elements -/

namespace Piece

/-- How many elements the piece opens and does not close. -/
def opens : Piece → Nat
  | opening _ false => 1
  | _ => 0

/-- How many elements the piece closes that were opened before. -/
def closes : Piece → Nat
  | closing _ => 1
  | _ => 0

end Piece

/-- How many elements the pieces open. -/
def openings (ps : List Piece) : Nat := (ps.map Piece.opens).sum

/-- How many elements the pieces close. -/
def closings (ps : List Piece) : Nat := (ps.map Piece.closes).sum

/-- No pieces open nothing. -/
@[simp] theorem openings_nil : openings [] = 0 := rfl

/-- No pieces close nothing. -/
@[simp] theorem closings_nil : closings [] = 0 := rfl

/-- What a piece opens is counted with what the pieces behind it open. -/
@[simp] theorem openings_cons (p : Piece) (ps : List Piece) :
    openings (p :: ps) = p.opens + openings ps := List.sum_cons

/-- What a piece closes is counted with what the pieces behind it close. -/
@[simp] theorem closings_cons (p : Piece) (ps : List Piece) :
    closings (p :: ps) = p.closes + closings ps := List.sum_cons

/-- Pieces one behind the other open what each of the two lists opens. -/
@[simp] theorem openings_append (ps qs : List Piece) :
    openings (ps ++ qs) = openings ps + openings qs := by
  simp [openings]

/-- Pieces one behind the other close what each of the two lists closes. -/
@[simp] theorem closings_append (ps qs : List Piece) :
    closings (ps ++ qs) = closings ps + closings qs := by
  simp [closings]

section

variable {source : List Char} {o o' : Outline} {t : Token}

/-- Attaching an element neither opens nor closes one. -/
private theorem length_pending_attach {e : Element} {stop : Nat} (h : o.attach e stop = .ok o') :
    o'.pending.length = o.pending.length := by
  obtain ⟨pending, root⟩ := o
  -- the element goes to the innermost open one, or becomes the root where there is none yet
  cases pending with
  | cons p outer =>
    obtain rfl := Except.ok.inj h
    rfl
  | nil =>
    cases root with
    | some r => exact nomatch h
    | none =>
      obtain rfl := Except.ok.inj h
      rfl

/-- Adding text neither opens nor closes an element. -/
private theorem length_pending_addText (o : Outline) (text : List Char) :
    (o.addText text).pending.length = o.pending.length := by
  obtain ⟨pending, root⟩ := o
  cases pending with
  | nil => rfl
  | cons p outer => rfl

/-- A token opens and closes as many elements as its piece does. -/
private theorem step_balance (h : o.step source t = .ok o') :
    o'.pending.length + t.piece.closes = o.pending.length + t.piece.opens := by
  unfold Outline.step at h
  -- one case for each kind of piece; only the last two open or close anything
  cases hpiece : t.piece with
  | skipped =>
    rw [hpiece] at h
    obtain rfl := Except.ok.inj h
    rfl
  | verbatim chars =>
    rw [hpiece] at h
    obtain rfl := Except.ok.inj h
    exact congrArg (· + 0) (length_pending_addText o chars)
  | text chars =>
    simp only [hpiece] at h
    split at h
    · exact nomatch h
    · obtain rfl := Except.ok.inj h
      exact congrArg (· + 0) (length_pending_addText o _)
  | opening content selfClosing =>
    simp only [hpiece] at h
    cases hopen : openTag content (tagSpan source t.start t.stop) with
    | error f => simp [hopen, bind, Except.bind] at h
    | ok p =>
      simp only [hopen, bind, Except.bind] at h
      -- a tag that closes itself is attached at once, any other one is left open
      cases selfClosing with
      | true => exact congrArg (· + 0) (length_pending_attach h)
      | false =>
        obtain rfl := Except.ok.inj h
        rfl
  | closing name =>
    simp only [hpiece] at h
    -- with nothing open a closing tag is a fault
    split at h
    · exact nomatch h
    · rename_i p outer hpending
      split at h
      · -- the element that is closed is attached to those around it
        have hlength := length_pending_attach h
        rw [hpending, List.length_cons, hlength]
        rfl
      · exact nomatch h

/-- Open elements count the opening tags that have been read, less the closing ones. -/
theorem run_balance {tokens : List Token} (h : o.run source tokens = .ok o') :
    o'.pending.length + closings (tokens.map (·.piece)) =
      o.pending.length + openings (tokens.map (·.piece)) := by
  -- step by step, where each step keeps the balance
  induction tokens generalizing o with
  | nil =>
    obtain rfl := Except.ok.inj h
    rfl
  | cons t tokens ih =>
    rw [run_cons] at h
    cases hstep : o.step source t with
    | error f => simp [hstep, Except.bind] at h
    | ok next =>
      rw [hstep] at h
      have hfirst := step_balance hstep
      have hrest := ih h
      simp only [List.map_cons, closings_cons, openings_cons]
      omega

/-- What stops reading at a token is malformed markup. -/
private theorem code_of_step_eq_error {f : DocumentFault} (h : o.step source t = .error f) :
    f.diagnostic.code = some .malformedMarkup := by
  -- an element can only be attached where no root has been closed before
  have hattach {o : Outline} {e : Element} {stop : Nat} (h : o.attach e stop = .error f) :
      f.diagnostic.code = some .malformedMarkup := by
    unfold Outline.attach at h
    split at h
    · exact nomatch h
    · split at h
      · obtain rfl := Except.error.inj h
        rfl
      · exact nomatch h
  unfold Outline.step at h
  -- one case for each kind of piece, with the faults that it can end in
  split at h
  · exact nomatch h
  · exact nomatch h
  · split at h
    · obtain rfl := Except.error.inj h
      rfl
    · exact nomatch h
  · rename_i content selfClosing _
    cases hopen : openTag content (tagSpan source t.start t.stop) with
    | error g =>
      simp only [hopen, bind, Except.bind] at h
      -- the fault is that of the tag
      obtain rfl := Except.error.inj h
      -- a tag that cannot be read has an attribute or a value that cannot
      unfold openTag at hopen
      split at hopen
      · rename_i fault _
        obtain rfl := Except.error.inj hopen
        cases fault <;> rfl
      · exact nomatch hopen
    | ok p =>
      simp only [hopen, bind, Except.bind] at h
      split at h
      · exact hattach h
      · exact nomatch h
  -- a closing tag without an element, or with one of another name
  · split at h
    · obtain rfl := Except.error.inj h
      rfl
    · split at h
      · exact hattach h
      · obtain rfl := Except.error.inj h
        rfl

/-- What stops reading at any token is malformed markup. -/
private theorem code_of_run_eq_error {f : DocumentFault} {tokens : List Token}
    (h : o.run source tokens = .error f) : f.diagnostic.code = some .malformedMarkup := by
  induction tokens generalizing o with
  | nil => exact nomatch h
  | cons t tokens ih =>
    rw [run_cons] at h
    -- it stops at this token or at one of the later ones
    cases hstep : o.step source t with
    | error g =>
      rw [hstep] at h
      obtain rfl := Except.error.inj h
      exact code_of_step_eq_error hstep
    | ok next =>
      rw [hstep] at h
      exact ih h

end

/-! ### Texts that are cut -/

/-- The pieces of some markup. -/
def piecesOf (bs : List Bracket) : List Piece := bs.map (·.piece)

/-- A run of text opens and closes nothing. -/
private theorem openings_runTokens {start next : Nat} {run : List Char} {tokens : List Token}
    (h : RunTokens start run tokens next) :
    openings (tokens.map (·.piece)) = 0 ∧ closings (tokens.map (·.piece)) = 0 := by
  cases h with
  | blank => exact ⟨rfl, rfl⟩
  | text => exact ⟨rfl, rfl⟩

/-- The tokens of a text that is cut open and close as many elements as its markup. -/
private theorem Cut.exists_tokens {cs : List Char} {bs : List Bracket} (h : Cut cs bs)
    (start : Nat) : ∃ tokens, scanFrom start cs = (tokens, none) ∧
      openings (tokens.map (·.piece)) = openings (piecesOf bs) ∧
      closings (tokens.map (·.piece)) = closings (piecesOf bs) := by
  -- runs that follow each other are scanned as one
  suffices hrun : ∀ run, '<' ∉ run → ∀ start, ∃ tokens, scanFrom start (run ++ cs) = (tokens, none) ∧
      openings (tokens.map (·.piece)) = openings (piecesOf bs) ∧
      closings (tokens.map (·.piece)) = closings (piecesOf bs) from hrun [] List.not_mem_nil start
  clear start
  induction h with
  -- what is left at the end is one run
  | nil =>
    intro run hrun start
    obtain ⟨tokens, next, htokens, hscan⟩ := scanFrom_run start hrun
    rw [List.append_nil]
    exact ⟨tokens, hscan, openings_runTokens htokens⟩
  -- the run joins the ones before it
  | @run first cs bs hfirst _ ih =>
    intro run hrun start
    rw [← List.append_assoc]
    refine ih (run ++ first) ?_ start
    rw [List.mem_append]
    exact not_or.mpr ⟨hrun, hfirst⟩
  -- the runs so far end here, and the markup is one token
  | @markup cs bs b _ ih =>
    intro run hrun start
    obtain ⟨tokens, next, origin, htokens, hscan⟩ := scansTo_bracket start hrun b cs
    obtain ⟨more, hmore, hopenings, hclosings⟩ :=
      ih [] List.not_mem_nil (start + Text.byteLength (run ++ b.chars))
    obtain ⟨hopens, hcloses⟩ := openings_runTokens htokens
    rw [List.nil_append] at hmore
    unfold ScansTo at hscan
    rw [hmore] at hscan
    refine ⟨_, hscan, ?_, ?_⟩
    · simp [hopens, hopenings, piecesOf]
    · simp [hcloses, hclosings, piecesOf]

/-- A text that has not as many closing tags as opening ones is no document. -/
theorem parseChars_eq_error_of_cut {source : List Char} {bs : List Bracket} (h : Cut source bs)
    (hne : openings (piecesOf bs) ≠ closings (piecesOf bs)) :
    ∃ f code, parseChars source = .error f ∧ f.diagnostic.code = some code ∧
      code ∈ [Diagnostic.Code.malformedMarkup, .unexpectedEnd] := by
  -- the mark in front of the text is not part of what is scanned
  obtain ⟨tokens, hscan, hopenings, hclosings⟩ := h.dropByteOrderMark.exists_tokens 0
  unfold parseChars scan
  rw [hscan]
  -- either the tokens cannot be read, or an element is left open at the end
  cases hrun : Outline.empty.run source tokens with
  | error f =>
    refine ⟨f, .malformedMarkup, ?_, code_of_run_eq_error hrun, List.mem_cons_self⟩
    simp only [hrun, bind, Except.bind]
  | ok o =>
    have hbalance := run_balance hrun
    rw [hopenings, hclosings, show Outline.empty.pending.length = 0 from rfl] at hbalance
    simp only [hrun, bind, Except.bind]
    unfold Outline.finish
    split
    · exact ⟨_, .unexpectedEnd, rfl, rfl, by simp⟩
    · -- with nothing left open all tags would have been in pairs
      rename_i hpending
      rw [hpending, List.length_nil] at hbalance
      omega

/-! ### Written trees -/

/-- Markup without brackets inside. -/
def Bracket.Plain (b : Bracket) : Prop := '<' ∉ b.content ∧ '>' ∉ b.content

section

variable {name : Name} {as : List Attribute}

/-- No bracket is in what is written of a tag, as it is not in names and is escaped in values. -/
private theorem not_mem_tag {c : Char} (hc : c ∈ ['<', '>']) (hname : name.Legal)
    (has : ∀ a ∈ as, a.name.Legal) : c ∉ tag name as := by
  have hmark : c ∈ ['<', '>', '"', '\'', '&', '=', '/', '!', '?'] :=
    List.mem_of_mem_take (i := 2) hc
  have hquoted : c ∈ ['<', '>', '"', '\''] := List.mem_of_mem_take (i := 2) hc
  have hother : c ≠ ' ' ∧ c ≠ '=' ∧ c ≠ '"' := by
    refine ⟨?_, ?_, ?_⟩ <;> rintro rfl <;> exact absurd hc (by decide)
  intro hmem
  -- in the name, in front of an attribute, in its name, around its value or in its value
  rcases List.mem_append.mp hmem with hmem | hmem
  · exact hname.not_mem hmark hmem
  · obtain ⟨a, ha, hmem⟩ := List.mem_flatMap.mp hmem
    simp only [writeAttribute, List.mem_append, List.mem_cons, List.not_mem_nil, or_false,
      List.cons_append] at hmem
    rcases hmem with hmem | hmem | hmem | hmem | hmem | hmem
    · exact hother.1 hmem
    · exact (has a ha).not_mem hmark hmem
    · exact hother.2.1 hmem
    · exact hother.2.2 hmem
    · exact not_mem_escape hquoted _ hmem
    · exact hother.2.2 hmem

/-- A written tag is markup. -/
theorem isMarkup_tag (hname : name.Legal) (has : LegalAttributes as) {slash : List Char}
    (hslash : Closed slash) :
    (Piece.ofOpening (tag name as ++ slash)).IsMarkup (tag name as ++ slash) := by
  obtain ⟨c, more, hcs, hc⟩ := head_tag hname as slash
  -- a legal name does not begin in a way that would make other markup of the tag
  have hmark : c ≠ '!' ∧ c ≠ '?' := by
    constructor <;> rintro rfl <;> exact absurd hc (by decide)
  have hclosed := (closed_tag hname has.names).append hslash
  constructor
  · refine splitMarkup_of_closed hclosed ?_ []
    rw [hcs]
    rintro d ⟨⟩
    exact hmark
  · rw [hcs]
    exact ofMarkup_opening hc more

/-- An opening tag as markup. -/
def openingBracket (hname : name.Legal) (has : LegalAttributes as) : Bracket where
  content := tag name as
  piece := .opening (tag name as) false
  isMarkup := by
    have hnil : Closed [] := closed_of_plain nofun
    have h := isMarkup_tag hname has hnil
    rwa [List.append_nil, ofOpening_of_getLast? (getLast?_tag hname as)] at h

/-- A tag that closes itself as markup. -/
def selfClosingBracket (hname : name.Legal) (has : LegalAttributes as) : Bracket where
  content := tag name as ++ ['/']
  piece := .opening (tag name as) true
  isMarkup := by
    have hslash : Closed ['/'] := closed_of_plain (by simp)
    have h := isMarkup_tag hname has hslash
    rwa [ofOpening_selfClosing] at h

/-- A closing tag as markup. -/
def closingBracket (hname : name.Legal) : Bracket where
  content := '/' :: name.chars
  piece := .closing name.chars
  isMarkup := by
    have hslash : Closed ['/'] := closed_of_plain (by simp)
    constructor
    · refine splitMarkup_of_closed (hslash.append hname.closed) ?_ []
      rintro c ⟨⟩
      decide
    · show Except.ok (Piece.closing (Piece.closingName name.chars)) = _
      rw [closingName_of_legal hname]

/-- A closing tag holds no brackets. -/
private theorem plain_closingBracket (hname : name.Legal) : (closingBracket hname).Plain := by
  have hslash : ∀ c ∈ ['<', '>'], c ∉ '/' :: name.chars := by
    intro c hc hmem
    rcases List.mem_cons.mp hmem with rfl | hmem
    · exact absurd hc (by decide)
    · exact hname.not_mem (List.mem_of_mem_take (i := 2) hc) hmem
  exact ⟨hslash _ (by decide), hslash _ (by decide)⟩

/-- An opening tag holds no brackets. -/
private theorem plain_openingBracket (hname : name.Legal) (has : LegalAttributes as) :
    (openingBracket hname has).Plain :=
  ⟨not_mem_tag (by decide) hname has.names, not_mem_tag (by decide) hname has.names⟩

/-- A tag that closes itself holds no brackets. -/
private theorem plain_selfClosingBracket (hname : name.Legal) (has : LegalAttributes as) :
    (selfClosingBracket hname has).Plain := by
  have hslash : ∀ c ∈ ['<', '>'], c ∉ tag name as ++ ['/'] := by
    intro c hc hmem
    rcases List.mem_append.mp hmem with hmem | hmem
    · exact not_mem_tag hc hname has.names hmem
    · rw [List.mem_singleton.mp hmem] at hc
      exact absurd hc (by decide)
  exact ⟨hslash _ (by decide), hslash _ (by decide)⟩

/-- The text falls into plain markup, as many closing tags as opening ones among it, and runs. -/
def CutInPairs (cs : List Char) : Prop :=
  ∃ bs, Cut cs bs ∧ (∀ b ∈ bs, b.Plain) ∧ openings (piecesOf bs) = closings (piecesOf bs)

/-- A run of text has no tags at all. -/
private theorem cutInPairs_run {run : List Char} (h : '<' ∉ run) : CutInPairs run :=
  ⟨[], cut_run h, fun _ hb => absurd hb List.not_mem_nil, rfl⟩

/-- Texts with their tags in pairs have them in pairs together. -/
theorem CutInPairs.append {cs ds : List Char} (h : CutInPairs cs) (h' : CutInPairs ds) :
    CutInPairs (cs ++ ds) := by
  obtain ⟨bs, hcut, hplain, hpairs⟩ := h
  obtain ⟨more, hcut', hplain', hpairs'⟩ := h'
  refine ⟨bs ++ more, hcut.append hcut', List.forall_mem_append.mpr ⟨hplain, hplain'⟩, ?_⟩
  unfold piecesOf at hpairs hpairs' ⊢
  rw [List.map_append, openings_append, closings_append, hpairs, hpairs']

/-- A tag that closes itself opens and closes nothing. -/
private theorem cutInPairs_selfClosing (hname : name.Legal) (has : LegalAttributes as) :
    CutInPairs (selfClosingBracket hname has).chars := by
  have hcut := Cut.markup (selfClosingBracket hname has) .nil
  rw [List.append_nil] at hcut
  exact ⟨_, hcut, List.forall_mem_singleton.mpr (plain_selfClosingBracket hname has), rfl⟩

/-- The tags of an element are a pair. -/
theorem CutInPairs.between {cs : List Char} (h : CutInPairs cs) (hname : name.Legal)
    (has : LegalAttributes as) :
    CutInPairs ((openingBracket hname has).chars ++ (cs ++ (closingBracket hname).chars)) := by
  obtain ⟨bs, hcut, hplain, hpairs⟩ := h
  have hclosing := Cut.markup (closingBracket hname) .nil
  rw [List.append_nil] at hclosing
  refine ⟨_, .markup _ (hcut.append hclosing), ?_, ?_⟩
  · refine List.forall_mem_cons.mpr ⟨plain_openingBracket hname has, ?_⟩
    exact List.forall_mem_append.mpr
      ⟨hplain, List.forall_mem_singleton.mpr (plain_closingBracket hname)⟩
  · simp only [piecesOf, List.map_cons, List.map_append, List.map_nil, openings_cons,
      closings_cons, openings_append, closings_append, openings_nil, closings_nil]
    unfold piecesOf at hpairs
    simp only [openingBracket, closingBracket, Piece.opens, Piece.closes]
    omega

end

/-- What is written of a tree has its tags in pairs. -/
theorem cutInPairs_of_writes {es : List Element} {cs : List Char} (h : Writes es cs)
    (hlegal : ∀ e ∈ es, e.Legal) : CutInPairs cs := by
  -- by the elements as they are written: with nothing in them, or between two tags
  induction h with
  | nil => exact cutInPairs_run List.not_mem_nil
  | @empty name as span after cs es hafter _ ih =>
    -- the tag, the white space behind it and the elements behind that
    obtain ⟨⟨hname, has, -, -⟩, hes⟩ := List.forall_mem_cons.mp hlegal
    have hall := (cutInPairs_selfClosing hname has).append
      ((cutInPairs_run (not_mem_blank hafter)).append (ih hes))
    simpa [Bracket.chars, bracketed, selfClosingBracket] using hall
  | @element name as children text span before behind inner after cs es hbefore hbehind _ hafter _
      ihinner ihrest =>
    obtain ⟨⟨hname, has, -, hchildren⟩, hes⟩ := List.forall_mem_cons.mp hlegal
    have htext : CutInPairs (escape text.toList) :=
      -- escaped text has no tag in it
      cutInPairs_run (not_mem_escape (by decide) text.toList)
    have hinner := (cutInPairs_run (not_mem_blank hbefore)).append
      (htext.append ((cutInPairs_run (not_mem_blank hbehind)).append (ihinner hchildren)))
    have hall := (hinner.between hname has).append
      ((cutInPairs_run (not_mem_blank hafter)).append (ihrest hes))
    simpa [Bracket.chars, bracketed, openingBracket, closingBracket] using hall

/-! ### Taking a tag out -/

/-- A text that begins without a `<` has the first one in what follows. -/
theorem exists_of_append_opening {front cs before after : List Char} (hfront : '<' ∉ front)
    (h : front ++ cs = before ++ '<' :: after) :
    ∃ more, before = front ++ more ∧ cs = more ++ '<' :: after := by
  rcases List.append_eq_append_iff.mp h with ⟨more, rfl, hcs⟩ | ⟨more, rfl, hafter⟩
  -- the text in front may reach up to the `<` or beyond it, which it cannot
  · exact ⟨more, rfl, hcs⟩
  · cases more with
    | nil => exact ⟨[], by simp, by simpa using hafter.symm⟩
    | cons c more =>
      obtain ⟨rfl, -⟩ := List.cons.inj hafter
      exact absurd (List.mem_append_right _ List.mem_cons_self) hfront

/-- In a text that is cut into plain markup, every `<` begins a piece of it. -/
private theorem Cut.exists_of_opening {cs : List Char} {bs : List Bracket} (h : Cut cs bs)
    (hplain : ∀ b ∈ bs, b.Plain) {before after : List Char} (hcs : cs = before ++ '<' :: after) :
    ∃ front b back rest, bs = front ++ b :: back ∧ after = b.content ++ '>' :: rest ∧
      Cut before front ∧ Cut rest back := by
  -- by the cut, where the `<` is looked for in what the first part leaves
  induction h generalizing before with
  | nil => exact absurd hcs.symm (by simp)
  | @run run cs bs hrun _ ih =>
    obtain ⟨more, rfl, hmore⟩ := exists_of_append_opening hrun hcs
    obtain ⟨front, b, back, rest, hbs, hafter, hfront, hback⟩ := ih hplain hmore
    exact ⟨front, b, back, rest, hbs, hafter, .run hrun hfront, hback⟩
  | @markup cs bs b hrest ih =>
    obtain ⟨hb, hbs⟩ := List.forall_mem_cons.mp hplain
    rw [Bracket.chars, bracketed_append] at hcs
    cases before with
    -- the markup begins with the `<`
    | nil => exact ⟨[], b, bs, cs, rfl, (List.cons.inj hcs).2.symm, .nil, hrest⟩
    | cons c before =>
      obtain ⟨rfl, htail⟩ := List.cons.inj hcs
      -- the `<` is behind the first bracket, so it is not in this markup
      have hfront : '<' ∉ b.content ++ ['>'] := by
        rw [List.mem_append]
        exact not_or.mpr ⟨hb.1, by decide⟩
      obtain ⟨more, rfl, hmore⟩ := @exists_of_append_opening _ cs before after hfront (by simpa using htail)
      obtain ⟨front, b', back, rest, rfl, hafter, hcut, hback⟩ := ih hbs hmore
      exact ⟨b :: front, b', back, rest, rfl, hafter, .markup b hcut, hback⟩

/-- Without one of its closing tags a text with its tags in pairs is no document. -/
private theorem CutInPairs.parseChars_eq_error {cs before name after : List Char}
    (h : CutInPairs cs)
    (hname : '>' ∉ name) (hcs : cs = before ++ '<' :: '/' :: (name ++ '>' :: after)) :
    ∃ f code, parseChars (before ++ after) = .error f ∧ f.diagnostic.code = some code ∧
      code ∈ [Diagnostic.Code.malformedMarkup, .unexpectedEnd] := by
  obtain ⟨bs, hcut, hplain, hpairs⟩ := h
  obtain ⟨front, b, back, rest, rfl, hafter, hfront, hback⟩ := hcut.exists_of_opening hplain hcs
  have hb := hplain b (List.mem_append_right _ List.mem_cons_self)
  -- the piece of markup that begins there is the tag
  have hslash : '>' ∉ '/' :: name := by
    rw [List.mem_cons]
    exact not_or.mpr ⟨by decide, hname⟩
  -- what stands up to the first bracket is read in two ways, which must agree
  have hsplit := breakOn_quote hslash after
  rw [List.cons_append, hafter, breakOn_quote hb.2] at hsplit
  obtain ⟨hcontent, rfl⟩ := Prod.mk.inj (Option.some.inj hsplit)
  have hpiece : b.piece = .closing (Piece.closingName name) := by
    have hreads := b.isMarkup.reads
    rw [hcontent] at hreads
    exact (Except.ok.inj hreads).symm
  -- what is left is cut as well, with one closing tag less
  refine parseChars_eq_error_of_cut (hfront.append hback) ?_
  simp only [piecesOf, List.map_append, List.map_cons, openings_append, openings_cons,
    closings_append, closings_cons, hpiece, Piece.opens, Piece.closes] at hpairs ⊢
  omega

/-- A written tree is read as it was written, and without one of its closing tags it is no
    document: the markup is malformed or ends too early. -/
theorem written_tree_needs_every_tag {root : Element} (hlegal : root.Legal) {source : String}
    (h : WritesDocument root source.toList) :
    (∃ e, parse source = .ok e ∧ e.Alike root) ∧
    ∀ before name after : List Char, '>' ∉ name →
      source.toList = before ++ '<' :: '/' :: (name ++ '>' :: after) →
      ∃ f code, parse (String.ofList (before ++ after)) = .error f ∧
        f.diagnostic.code = some code ∧
        code ∈ [Diagnostic.Code.malformedMarkup, .unexpectedEnd] := by
  refine ⟨parse_of_writes hlegal h, fun before name after hname hsource => ?_⟩
  -- the document is the root with white space in front of it
  obtain ⟨blank, inner, hblank, hinner, hwhole⟩ := h
  have hpairs : CutInPairs source.toList := by
    rw [hwhole]
    exact (cutInPairs_run (not_mem_blank hblank)).append
      (cutInPairs_of_writes hinner (by simpa using hlegal))
  rw [parse, String.toList_ofList]
  exact hpairs.parseChars_eq_error hname hsource

/-- A mark. -/
-- the text of the note and the attributes of the document need references to be written
def markElement : Element := ⟨⟨none, "Mark"⟩, [], [], "", default⟩

/-- A note with a mark in it. -/
def noteElement : Element := ⟨⟨none, "Note"⟩, [], [markElement], "A & B", default⟩

/-- A document of one note, with qualified names and a value that is spelled by reference. -/
def notesElement : Element :=
  ⟨⟨some "n", "Notes"⟩, [⟨⟨none, "Title"⟩, "1 < \"2\""⟩, ⟨⟨some "n", "Title"⟩, ""⟩], [noteElement],
    "", default⟩

/-- The document up to the closing tag of the note. -/
def notesBefore : String :=
  "<n:Notes Title=\"1 &lt; &quot;2&quot;\" n:Title=\"\">\n  <Note> A &amp; B <Mark/>"

/-- The document behind the closing tag of the note. -/
def notesAfter : String := "\n</n:Notes>\n"

/-- The document. -/
def notesDocument : String := notesBefore ++ "</Note>" ++ notesAfter

/-- A name is legal if none of its characters is a mark and it is split where it was joined. -/
theorem legal_of_all {n : Name} (hne : n.chars ≠ [])
    (hplain : n.chars.all (fun c => !isMark c) = true) (hsplit : Name.ofChars n.chars = n) :
    n.Legal := ⟨hne, by simpa using hplain, hsplit⟩

/-- The document is legal. -/
private theorem legal_notesElement : notesElement.Legal := by
  -- the legality of names is computed, that of the rest goes by the elements
  have hnone : LegalAttributes [] := ⟨nofun, .nil⟩
  have hmark : markElement.Legal :=
    .mk (legal_of_all (by decide) (by decide) (by decide)) hnone ⟨nofun, nofun⟩ nofun
  have hnote : noteElement.Legal :=
    .mk (legal_of_all (by decide) (by decide) (by decide)) hnone
      ⟨fun | _, rfl => rfl, fun | _, rfl => rfl⟩ (List.forall_mem_singleton.mpr hmark)
  refine .mk (legal_of_all (by decide) (by decide) (by decide)) ⟨?_, by decide⟩ ⟨nofun, nofun⟩
    (List.forall_mem_singleton.mpr hnote)
  intro a ha
  rcases List.mem_cons.mp ha with rfl | ha
  · exact legal_of_all (by decide) (by decide) (by decide)
  · obtain rfl := List.mem_singleton.mp ha
    exact legal_of_all (by decide) (by decide) (by decide)

/-- White space stands around the text of the note and behind each element. -/
theorem writes_notesDocument : WritesDocument notesElement notesDocument.toList := by
  have hspace : Blank [' '] := List.all_eq_true.mp rfl
  have hline : Blank ['\n'] := List.all_eq_true.mp rfl
  have hindented : Blank ['\n', ' ', ' '] := List.all_eq_true.mp rfl
  -- from the inside out: the mark, the note, the document
  have hmark : Writes [markElement] "<Mark/>".toList := .empty blank_nil .nil
  have hnote : Writes [noteElement] "<Note> A &amp; B <Mark/></Note>\n".toList :=
    @Writes.element ⟨none, "Note"⟩ [] [markElement] "A & B" default [' '] [' '] _ ['\n'] [] []
      hspace hspace hmark hline .nil
  refine ⟨[], notesDocument.toList, blank_nil, ?_, rfl⟩
  exact @Writes.element ⟨some "n", "Notes"⟩ notesElement.attributes [noteElement] "" default
    ['\n', ' ', ' '] [] _ ['\n'] [] [] hindented blank_nil hnote hline .nil

/-- The document is read, and not without the closing tag of its note. -/
theorem notes_need_tag_of_note :
    notesElement.Legal ∧ WritesDocument notesElement notesDocument.toList ∧
    (∃ e, parse notesDocument = .ok e ∧ e.Alike notesElement) ∧
    ∃ f code, parse (String.ofList (notesBefore.toList ++ notesAfter.toList)) = .error f ∧
      f.diagnostic.code = some code ∧ code ∈ [Diagnostic.Code.malformedMarkup, .unexpectedEnd] := by
  obtain ⟨hread, htags⟩ := written_tree_needs_every_tag legal_notesElement writes_notesDocument
  -- the closing tag of the note is found where the document is cut
  have hsplit : notesDocument.toList =
      notesBefore.toList ++ '<' :: '/' :: ("Note".toList ++ '>' :: notesAfter.toList) := by
    decide +kernel
  exact ⟨legal_notesElement, writes_notesDocument, hread,
    htags notesBefore.toList "Note".toList notesAfter.toList (by decide) hsplit⟩

end EntityModel.Markup
