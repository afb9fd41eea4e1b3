import EntityModel.Proofs.WrittenTags

/-!
# Written elements

An element is written as one tag or as two with its text and its children between them, white space
being allowed wherever it is dropped again.  Each written element is cut into tokens that attach one
element to whatever is being read, the same but for its places; so the tree of a written document is
the one that was written.

* `Element.Alike`          elements that are the same but for their places
* `Writes`                 the ways to write elements one after the other
* `adds_of_writes`         what is read from written elements, whatever stands around them
* `parse_of_writes`        a written document is read as the tree that was written
* `writesDocument_write`   every tree has a plain way to be written
-/

namespace EntityModel.Markup

/-! ### Elements without their places -/

namespace Element

mutual

/-- The element with all spans in it empty at the beginning of a text. -/
def unplaced (e : Element) : Element :=
  match e with
  | ⟨name, attributes, children, text, _⟩ =>
    ⟨name, attributes, unplacedAll children, text, default⟩

/-- The elements of a list with all spans in them empty at the beginning of a text. -/
def unplacedAll (es : List Element) : List Element :=
  match es with
  | [] => []
  | e :: rest => unplaced e :: unplacedAll rest

end

/-- Taking the places away goes element by element. -/
private theorem unplacedAll_eq_map (es : List Element) : unplacedAll es = es.map unplaced := by
  induction es with
  | nil => rw [unplacedAll, List.map_nil]
  | cons e es ih => rw [unplacedAll, ih, List.map_cons]

/-- What an element without its places is made of. -/
theorem unplaced_mk (name : Name) (attributes : List Attribute) (children : List Element)
    (text : String) (span : Span) : (Element.mk name attributes children text span).unplaced =
      ⟨name, attributes, children.map unplaced, text, default⟩ := by
  rw [unplaced, unplacedAll_eq_map]

/-- The elements are the same but for the places where they and all in them stand. -/
def Alike (e f : Element) : Prop := e.unplaced = f.unplaced

/-- Elements are alike where they have the same name, attributes and text and their children are
    alike. -/
theorem alike_iff {e f : Element} :
    e.Alike f ↔ e.name = f.name ∧ e.attributes = f.attributes ∧
      e.children.map unplaced = f.children.map unplaced ∧ e.text = f.text := by
  -- the places themselves are equal on both sides, as they are taken away
  obtain ⟨name, attributes, children, text, span⟩ := e
  obtain ⟨name', attributes', children', text', span'⟩ := f
  rw [Alike, unplaced_mk, unplaced_mk, Element.mk.injEq]
  simp only [and_true]

/-- An element that can be written: its name and those of its attributes are legal, its text has no
    white space at its ends, and all children can be written. -/
inductive Legal : Element → Prop
  | mk {e : Element} (name : e.name.Legal) (attributes : LegalAttributes e.attributes)
      (text : Trimmed e.text.toList) (children : ∀ c ∈ e.children, c.Legal) : e.Legal

end Element

open Element (unplaced)

/-! ### Writing -/

/-- The text writes the elements one after the other.  White space may stand around the text of an
    element and behind each of its children.  An element without text and children may be written as
    a single tag. -/
inductive Writes : List Element → List Char → Prop
  | nil : Writes [] []
  | empty {name : Name} {attributes : List Attribute} {span : Span} {after cs : List Char}
      {es : List Element} (hafter : Blank after) (hrest : Writes es cs) :
      Writes (⟨name, attributes, [], "", span⟩ :: es)
        ('<' :: (tag name attributes ++ '/' :: '>' :: (after ++ cs)))
  | element {name : Name} {attributes : List Attribute} {children : List Element} {text : String}
      {span : Span} {before behind inner after cs : List Char} {es : List Element}
      (hbefore : Blank before) (hbehind : Blank behind) (hinner : Writes children inner)
      (hafter : Blank after) (hrest : Writes es cs) :
      Writes (⟨name, attributes, children, text, span⟩ :: es)
        ('<' :: (tag name attributes ++ '>' :: (before ++ (escape text.toList ++ (behind ++
          (inner ++ '<' :: '/' :: (name.chars ++ '>' :: (after ++ cs))))))))

/-- The text writes a document with the given root, perhaps behind white space. -/
def WritesDocument (root : Element) (cs : List Char) : Prop :=
  ∃ before inner, Blank before ∧ Writes [root] inner ∧ cs = before ++ inner

/-- What is written of any elements begins with a tag. -/
private theorem Writes.exists_tag {es : List Element} {cs : List Char} (h : Writes es cs)
    (hes : es ≠ []) : ∃ more, cs = '<' :: more := by
  cases h with
  | nil => exact absurd rfl hes
  | empty => exact ⟨_, rfl⟩
  | element => exact ⟨_, rfl⟩

/-- Before a tag stands a tag or nothing. -/
private theorem Writes.append_tag {es : List Element} {cs : List Char} (h : Writes es cs)
    (rest : List Char) : ∃ more, cs ++ '<' :: rest = '<' :: more := by
  cases h with
  | nil => exact ⟨_, rfl⟩
  | empty => exact ⟨_, rfl⟩
  | element => exact ⟨_, rfl⟩

/-! ### Scanning on -/

/-- Scanning comes from one place of a text to another, with these tokens on the way. -/
def ScansTo (start : Nat) (cs : List Char) (tokens : List Token) (stop : Nat) (rest : List Char) :
    Prop :=
  scanFrom start cs = (tokens ++ (scanFrom stop rest).1, (scanFrom stop rest).2)

/-- Without a token, scanning stays where it is. -/
private theorem scansTo_refl (start : Nat) (cs : List Char) : ScansTo start cs [] start cs := rfl

/-- Scanning goes on from where it came to. -/
theorem ScansTo.trans {start middle stop : Nat} {cs ds rest : List Char} {tokens more : List Token}
    (h : ScansTo start cs tokens middle ds) (h' : ScansTo middle ds more stop rest) :
    ScansTo start cs (tokens ++ more) stop rest := by
  unfold ScansTo at h h' ⊢
  rw [h, h', List.append_assoc]

/-- One token is one step of scanning. -/
theorem scansTo_token {start : Nat} {cs rest : List Char} {t : Token}
    (h : nextToken start cs = .token t rest) : ScansTo start cs [t] t.stop rest :=
  scanFrom_token h

/-! ### What the tokens do -/

/-- Attach elements one after the other, each with the offset at which it ends. -/
def Outline.attachAll (o : Outline) (read : List (Element × Nat)) : Except DocumentFault Outline :=
  read.foldlM (fun o r => o.attach r.1 r.2) o

/-- Elements of two lists are attached one after the other. -/
private theorem attachAll_append (o : Outline) (read more : List (Element × Nat)) :
    o.attachAll (read ++ more) = (o.attachAll read).bind fun o' => o'.attachAll more := by
  simp only [Outline.attachAll, List.foldlM_append]
  rfl

/-- One element is attached by itself. -/
private theorem attachAll_singleton (o : Outline) (r : Element × Nat) :
    o.attachAll [r] = o.attach r.1 r.2 := by
  simp only [Outline.attachAll, List.foldlM_cons, List.foldlM_nil]
  cases o.attach r.1 r.2 <;> rfl

/-- Elements that are attached within an open element are its children. -/
private theorem attachAll_pending (read : List (Element × Nat)) (writtenName : List Char)
    (e : Element) (outer : List OpenElement) (root : Option Element) :
    Outline.attachAll ⟨⟨writtenName, e⟩ :: outer, root⟩ read =
      .ok ⟨⟨writtenName, { e with children := e.children ++ read.map (·.1) }⟩ :: outer, root⟩ := by
  -- element by element, where the open one grows by each of them
  induction read generalizing e with
  | nil =>
    obtain ⟨name, attributes, children, text, span⟩ := e
    rw [List.map_nil, List.append_nil]
    rfl
  | cons r read ih =>
    show Outline.attachAll
      ⟨⟨writtenName, { e with children := e.children ++ [r.1] }⟩ :: outer, root⟩ read = _
    rw [ih]
    simp

section

variable {source : List Char} {o : Outline} {t : Token} {name : Name} {as : List Attribute}

/-- A tag that closes itself attaches an element without text and children. -/
private theorem step_selfClosing (hname : name.Legal) (has : LegalAttributes as)
    (h : t.piece = .opening (tag name as) true) :
    o.step source t = o.attach ⟨name, as, [], "", tagSpan source t.start t.stop⟩ t.stop := by
  unfold Outline.step
  rw [h]
  dsimp only
  rw [openTag_tag hname has]
  rfl

/-- An opening tag opens an element without text and children. -/
private theorem step_opening (hname : name.Legal) (has : LegalAttributes as)
    (h : t.piece = .opening (tag name as) false) :
    o.step source t =
      .ok ⟨⟨name.chars, ⟨name, as, [], "", tagSpan source t.start t.stop⟩⟩ :: o.pending,
        o.root⟩ := by
  unfold Outline.step
  rw [h]
  dsimp only
  rw [openTag_tag hname has]
  rfl

/-- Text is added as it was before it was escaped. -/
private theorem step_text {text : List Char} (h : t.piece = .text (escape text)) :
    o.step source t = .ok (o.addText text) := by
  unfold Outline.step
  rw [h]
  dsimp only
  rw [unescape_escape]

/-- A closing tag of the same name attaches the element that is open. -/
private theorem step_closing {writtenName : List Char} {e : Element} {outer : List OpenElement}
    {root : Option Element} (h : t.piece = .closing writtenName) :
    Outline.step source ⟨⟨writtenName, e⟩ :: outer, root⟩ t =
      Outline.attach ⟨outer, root⟩ { e with span := e.span.union (tagSpan source t.start t.stop) }
        t.stop := by
  unfold Outline.step
  rw [h]
  dsimp only
  rw [if_pos rfl]

end

/-- One token is read by one step. -/
theorem run_singleton (source : List Char) (o : Outline) (t : Token) :
    o.run source [t] = o.step source t := by
  rw [run_cons]
  cases o.step source t <;> rfl

/-! ### Reading what was written -/

/-- From the offset on, the text up to the rest is cut into tokens that attach elements like the
    given ones to any outline.  White space behind them may be left to what follows. -/
def Adds (es : List Element) (start : Nat) (cs rest : List Char) : Prop :=
  ∃ tokens stop ws, Blank ws ∧ ScansTo start cs tokens stop (ws ++ rest) ∧
    ∀ source, ∃ read : List (Element × Nat),
      read.map (fun r => r.1.unplaced) = es.map unplaced ∧
      ∀ o : Outline, o.run source tokens = o.attachAll read

/-- Nothing but white space adds nothing. -/
private theorem adds_nil {ws : List Char} (hws : Blank ws) (start : Nat) (rest : List Char) :
    Adds [] start (ws ++ rest) rest :=
  ⟨[], start, ws, hws, scansTo_refl _ _, fun _ => ⟨[], rfl, fun _ => rfl⟩⟩

/-- Elements are added one after the other, if those behind do not mind white space. -/
theorem Adds.append {es fs : List Element} {start : Nat} {cs middle rest : List Char}
    (h : Adds es start cs middle)
    (h' : ∀ start ws, Blank ws → Adds fs start (ws ++ middle) rest) :
    Adds (es ++ fs) start cs rest := by
  obtain ⟨tokens, stop, ws, hws, hscan, hrun⟩ := h
  -- the white space that is left is in front of what follows
  obtain ⟨tokens', stop', ws', hws', hscan', hrun'⟩ := h' stop ws hws
  refine ⟨tokens ++ tokens', stop', ws', hws', hscan.trans hscan', fun source => ?_⟩
  obtain ⟨read, halike, hread⟩ := hrun source
  obtain ⟨read', halike', hread'⟩ := hrun' source
  refine ⟨read ++ read', by rw [List.map_append, halike, halike', List.map_append], fun o => ?_⟩
  rw [run_append, hread, attachAll_append]
  congr
  exact funext hread'

/-- An element written as a single tag is added. -/
private theorem adds_empty {name : Name} {as : List Attribute} (hname : name.Legal)
    (has : LegalAttributes as) (span : Span) {ws : List Char} (hws : Blank ws) (start : Nat)
    (rest : List Char) :
    Adds [⟨name, as, [], "", span⟩] start
      (ws ++ '<' :: (tag name as ++ '/' :: '>' :: rest)) rest := by
  obtain ⟨t, ht, hpiece⟩ := nextToken_selfClosing hws hname has start rest
  -- one token, and what it reads is the element at another place
  refine ⟨[t], t.stop, [], blank_nil, scansTo_token ht, fun source => ?_⟩
  refine ⟨[(⟨name, as, [], "", tagSpan source t.start t.stop⟩, t.stop)], ?_, fun o => ?_⟩
  · rw [List.map_singleton, List.map_singleton, Element.unplaced_mk, Element.unplaced_mk]
  · rw [run_singleton, step_selfClosing hname has hpiece, attachAll_singleton]

/-- Text is added to the element that it stands in.  Where there is none, neither is a token. -/
private theorem scans_text {text : String} (htext : Trimmed text.toList) {before behind : List Char}
    (hbefore : Blank before) (hbehind : Blank behind) (start : Nat) (rest : List Char) :
    ∃ tokens stop ws, Blank ws ∧
      ScansTo start (before ++ (escape text.toList ++ (behind ++ '<' :: rest))) tokens stop
        (ws ++ '<' :: rest) ∧
      ∀ source writtenName (e : Element) outer root, e.text = "" →
        Outline.run source ⟨⟨writtenName, e⟩ :: outer, root⟩ tokens =
          .ok ⟨⟨writtenName, { e with text := text }⟩ :: outer, root⟩ := by
  by_cases hempty : text.toList = []
  -- an empty text is no token, so all white space is left to what follows
  · refine ⟨[], start, before ++ behind, hbefore.append hbehind, ?_, ?_⟩
    · rw [hempty, escape_nil, List.nil_append, ← List.append_assoc]
      exact scansTo_refl _ _
    · rintro source writtenName ⟨name, attributes, children, _, span⟩ outer root rfl
      rw [run_nil, String.toList_eq_nil_iff.mp hempty]
  · obtain ⟨t, ht, hpiece⟩ := nextToken_text hbefore hbehind htext hempty start rest
    refine ⟨[t], t.stop, [], blank_nil, scansTo_token ht, ?_⟩
    intro source writtenName e outer root he
    rw [run_singleton, step_text hpiece, Outline.addText]
    dsimp only
    rw [he, String.empty_append, String.ofList_toList]

/-- An element written with an opening and a closing tag is added, if its children are. -/
private theorem adds_element {name : Name} {as : List Attribute} {children : List Element}
    {text : String}
    (hname : name.Legal) (has : LegalAttributes as) (htext : Trimmed text.toList) (span : Span)
    {ws before behind inner : List Char} (hws : Blank ws) (hbefore : Blank before)
    (hbehind : Blank behind) (hinner : Writes children inner)
    (hchildren : ∀ start ws rest, Blank ws → Adds children start (ws ++ (inner ++ rest)) rest)
    (start : Nat) (rest : List Char) :
    Adds [⟨name, as, children, text, span⟩] start
      (ws ++ '<' :: (tag name as ++ '>' :: (before ++ (escape text.toList ++ (behind ++ (inner ++
        '<' :: '/' :: (name.chars ++ '>' :: rest))))))) rest := by
  -- the opening tag, the text, the children, the closing tag
  obtain ⟨opening, hopening, hpiece⟩ := nextToken_opening hws hname has start
    (before ++ (escape text.toList ++ (behind ++ (inner ++
      '<' :: '/' :: (name.chars ++ '>' :: rest)))))
  -- the text ends at the next tag, be it that of a child or the closing one
  obtain ⟨more, hmore⟩ := hinner.append_tag ('/' :: (name.chars ++ '>' :: rest))
  obtain ⟨textTokens, textStop, textWs, htextWs, htextScan, htextRun⟩ :=
    scans_text htext hbefore hbehind opening.stop more
  rw [← hmore] at htextScan
  obtain ⟨tokens, stop, ws', hws', hscan, hrun⟩ := hchildren textStop textWs
    ('<' :: '/' :: (name.chars ++ '>' :: rest)) htextWs
  obtain ⟨closing, hclosing, hclosingPiece⟩ := nextToken_closing hws' hname stop rest
  refine ⟨[opening] ++ (textTokens ++ (tokens ++ [closing])), closing.stop, [], blank_nil,
    (scansTo_token hopening).trans (htextScan.trans (hscan.trans (scansTo_token hclosing))),
    fun source => ?_⟩
  -- with these tokens the element is opened, filled and attached
  obtain ⟨read, halike, hread⟩ := hrun source
  let openSpan := tagSpan source opening.start opening.stop
  refine ⟨[(⟨name, as, read.map (·.1), text,
    openSpan.union (tagSpan source closing.start closing.stop)⟩, closing.stop)], ?_, fun o => ?_⟩
  · rw [List.map_singleton, List.map_singleton, Element.unplaced_mk, Element.unplaced_mk,
      List.map_map]
    rw [← halike]
    rfl
  · rw [run_append, run_singleton, step_opening hname has hpiece]
    show Outline.run _ _ _ = _
    rw [run_append, htextRun _ _ _ _ _ rfl]
    show Outline.run _ _ _ = _
    rw [run_append, hread, attachAll_pending]
    show Outline.run _ _ _ = _
    rw [run_singleton, step_closing hclosingPiece, attachAll_singleton]
    rfl

/-- Written elements are added one after the other. -/
theorem adds_of_writes {es : List Element} {cs : List Char} (h : Writes es cs)
    (hlegal : ∀ e ∈ es, e.Legal) (start : Nat) {ws : List Char} (hws : Blank ws)
    (rest : List Char) : Adds es start (ws ++ (cs ++ rest)) rest := by
  -- white space that one element leaves behind itself is skipped before the next
  induction h generalizing start ws rest with
  | nil => exact adds_nil hws start rest
  -- a single tag, and the elements behind it
  | @empty name as span after cs es hafter hrest ih =>
    obtain ⟨⟨hname, has, -, -⟩, hes⟩ := List.forall_mem_cons.mp hlegal
    have hfirst := adds_empty hname has span hws start (after ++ cs ++ rest)
    have hall := hfirst.append fun start ws hws => by
      rw [List.append_assoc after, ← List.append_assoc ws]
      exact ih hes start (hws.append hafter) rest
    simpa using hall
  -- a pair of tags around the text and the children, and the elements behind it
  | @element name as children text span before behind inner after cs es hbefore hbehind hinner
      hafter hrest ihinner ihrest =>
    obtain ⟨⟨hname, has, htext, hchildren⟩, hes⟩ := List.forall_mem_cons.mp hlegal
    have hfirst := adds_element hname has htext span hws hbefore hbehind hinner
      (fun start ws rest hws => ihinner hchildren start hws rest) start (after ++ cs ++ rest)
    have hall := hfirst.append fun start ws hws => by
      rw [List.append_assoc after, ← List.append_assoc ws]
      exact ihrest hes start (hws.append hafter) rest
    simpa using hall

/-- White space at the end of a document is no token. -/
-- all that is skipped in front of a token is skipped here
theorem scanFrom_blank {ws : List Char} (hws : Blank ws) (start : Nat) :
    scanFrom start ws = ([], none) := by
  refine scanFrom_finished ?_
  unfold nextToken
  dsimp only
  rw [Text.dropWhile_eq_nil_of_all hws]

/-- A text that begins with a tag, perhaps behind white space, has no byte order mark. -/
private theorem dropByteOrderMark_of_blank {ws cs : List Char} (hws : Blank ws)
    (hcs : ∃ more, cs = '<' :: more) : dropByteOrderMark (ws ++ cs) = ws ++ cs := by
  cases ws with
  | nil =>
    obtain ⟨more, rfl⟩ := hcs
    rfl
  -- white space has no such mark
  | cons c ws =>
    refine if_neg ?_
    rintro rfl
    exact absurd (hws _ List.mem_cons_self) (by decide)

/-- A written document is read as the tree that was written. -/
theorem parse_of_writes {root : Element} (hlegal : root.Legal) {source : String}
    (h : WritesDocument root source.toList) :
    ∃ e, parse source = .ok e ∧ e.Alike root := by
  obtain ⟨before, inner, hbefore, hinner, hsource⟩ := h
  obtain ⟨tokens, stop, ws, hws, hscan, hrun⟩ :=
    adds_of_writes hinner (by simpa using hlegal) 0 hbefore []
  obtain ⟨read, halike, hread⟩ := hrun source.toList
  -- as many elements are read as were written
  obtain ⟨⟨e, after⟩, rfl⟩ : ∃ r, read = [r] := by
    rw [← List.length_eq_one_iff, ← List.length_map (f := fun r => r.1.unplaced), halike]
    rfl
  have hmark : dropByteOrderMark source.toList = source.toList := by
    rw [hsource]
    exact dropByteOrderMark_of_blank hbefore (hinner.exists_tag (by simp))
  -- all tokens of the document, with nothing left behind them but white space
  rw [List.append_nil, ← hsource] at hscan
  unfold ScansTo at hscan
  rw [List.append_nil, scanFrom_blank hws, List.append_nil] at hscan
  refine ⟨e, ?_, show e.unplaced = root.unplaced by simpa using halike⟩
  unfold parse parseChars scan
  rw [hmark, hscan]
  dsimp only
  rw [hread, attachAll_singleton]
  rfl

/-! ### A plain way to write -/

namespace Element

mutual

/-- The element written without any white space, as a single tag where it can be one. -/
def write (e : Element) : List Char :=
  match e with
  | ⟨name, attributes, children, text, _⟩ =>
    if children.isEmpty && text == "" then '<' :: (tag name attributes ++ ['/', '>'])
    else
      '<' :: (tag name attributes ++ '>' :: (escape text.toList ++ (writeAll children ++
        '<' :: '/' :: (name.chars ++ ['>']))))

/-- The elements of a list, written one after the other. -/
def writeAll (es : List Element) : List Char :=
  match es with
  | [] => []
  | e :: rest => write e ++ writeAll rest

end

end Element

open Element (write writeAll)

mutual

/-- Every element can be written before others. -/
theorem writes_write_append (e : Element) {es : List Element} {cs : List Char} (h : Writes es cs) :
    Writes (e :: es) (e.write ++ cs) := by
  obtain ⟨name, attributes, children, text, span⟩ := e
  -- a single tag is written where nothing stands between two
  rw [write]
  split
  · rename_i hempty
    obtain ⟨hchildren, htext⟩ := Bool.and_eq_true_iff.mp hempty
    obtain rfl := List.isEmpty_iff.mp hchildren
    obtain rfl := eq_of_beq htext
    simpa using Writes.empty blank_nil h
  · simpa using Writes.element blank_nil blank_nil (writes_writeAll children) blank_nil h

/-- All elements of a list can be written. -/
theorem writes_writeAll (es : List Element) : Writes es (writeAll es) := by
  match es with
  | [] =>
    rw [writeAll]
    exact .nil
  | e :: rest =>
    rw [writeAll]
    exact writes_write_append e (writes_writeAll rest)

end

/-- Every tree has a document that writes it. -/
theorem writesDocument_write (e : Element) : WritesDocument e e.write :=
  ⟨[], e.write, blank_nil, by simpa using writes_write_append e .nil, rfl⟩

end EntityModel.Markup
