import EntityModel.Proofs.DroppedSpace
import EntityModel.Proofs.ElementTexts

/-!
# Character data of elements

The text of an element is put together from what stands directly in it: the runs between the
markup and the `CDATA` sections, whatever comments or children lie between them.  Each run loses the
white space at its ends, also where it borders on more text of the same element.

* `Element.DataAt`          the text of an element in a document, with its character data
* `DataTo.step`             one token more keeps what has been read
* `Cut.exists_dataTo`       so a text that is cut is read to its end
* `text_of_character_data`  the text of an element is its character data, but for white space
-/

namespace EntityModel.Markup

open Text (byteLength)

/-! ### Pieces of an element -/

/-- From the offset on, the text holds pieces of markup and elements, each with the run before it:
    the elements are where the predicate has them, and the runs and sections are the data. -/
inductive PiecesAt (P : Nat → List Char → Element → Prop) :
    Nat → List Char → List Element → List CharacterData → Prop
  | nil {offset : Nat} : PiecesAt P offset [] [] []
  | skipped {offset : Nat} {run m more : List Char} {es : List Element} {ds : List CharacterData}
      (hrun : '<' ∉ run) (hm : Piece.skipped.IsMarkup m)
      (rest : PiecesAt P (offset + byteLength (run ++ bracketed m)) more es ds) :
      PiecesAt P offset (run ++ bracketed m ++ more) es (.run run :: ds)
  | verbatim {offset : Nat} {run m chars more : List Char} {es : List Element}
      {ds : List CharacterData} (hrun : '<' ∉ run) (hm : (Piece.verbatim chars).IsMarkup m)
      (rest : PiecesAt P (offset + byteLength (run ++ bracketed m)) more es ds) :
      PiecesAt P offset (run ++ bracketed m ++ more) es (.run run :: .verbatim chars :: ds)
  | element {offset : Nat} {run text more : List Char} {e : Element} {es : List Element}
      {ds : List CharacterData} (hrun : '<' ∉ run) (he : P (offset + byteLength run) text e)
      (rest : PiecesAt P (offset + byteLength (run ++ text)) more es ds) :
      PiecesAt P offset (run ++ text ++ more) (e :: es) (.run run :: ds)

namespace Element

/-- The text is that of the element, which begins at the offset, and between its tags stands the
    character data: nothing in a tag that closes itself, else that of the pieces inside and the run
    before the closing tag. -/
inductive DataAt (exact : Prop) : Nat → List Char → Element → List CharacterData → Prop
  | selfClosing {offset : Nat} {m content : List Char} {e : Element}
      (hopen : (Piece.opening content true).IsMarkup m) (hbegun : e.BegunBy content)
      (hchildren : e.children = [])
      (hspan : PlacedAt exact offset (offset + byteLength (bracketed m)) e.span) :
      DataAt exact offset (bracketed m) e []
  | paired {offset : Nat} {m k content inner run : List Char} {e : Element}
      {ds : List CharacterData} (hopen : (Piece.opening content false).IsMarkup m)
      (hbegun : e.BegunBy content)
      (hpieces : PiecesAt (TextAt exact) (offset + byteLength (bracketed m)) inner e.children ds)
      (hrun : '<' ∉ run) (hclose : (Piece.closing (tagName content)).IsMarkup k)
      (hspan : PlacedAt exact offset
        (offset + byteLength (bracketed m ++ (inner ++ run ++ bracketed k))) e.span) :
      DataAt exact offset (bracketed m ++ (inner ++ run ++ bracketed k)) e (ds ++ [.run run])

end Element

section

variable {P : Nat → List Char → Element → Prop} {offset : Nat} {cs more : List Char}
  {es fs : List Element} {ds ds' : List CharacterData}

/-- Pieces behind pieces are pieces, with the elements and the data of both. -/
theorem PiecesAt.append (h : PiecesAt P offset cs es ds)
    (h' : PiecesAt P (offset + byteLength cs) more fs ds') :
    PiecesAt P offset (cs ++ more) (es ++ fs) (ds ++ ds') := by
  induction h with
  | nil => exact h'
  | skipped hrun hm _ ih =>
    rw [List.append_assoc]
    rw [Text.byteLength_append, ← Nat.add_assoc] at h'
    exact .skipped hrun hm (ih h')
  | verbatim hrun hm _ ih =>
    rw [List.append_assoc]
    rw [Text.byteLength_append, ← Nat.add_assoc] at h'
    exact .verbatim hrun hm (ih h')
  | element hrun he _ ih =>
    rw [List.append_assoc]
    rw [Text.byteLength_append, ← Nat.add_assoc] at h'
    exact .element hrun he (ih h')

/-- Without their data the pieces are elements and what stands between them. -/
theorem PiecesAt.holdsAt (h : PiecesAt P offset cs es ds) : HoldsAt P offset cs es := by
  -- a run and the markup behind it are both something between tags
  have hbetween {offset : Nat} {run markup more : List Char} {es : List Element}
      (hrun : '<' ∉ run) (hmarkup : BetweenTags markup)
      (rest : HoldsAt P (offset + byteLength (run ++ markup)) more es) :
      HoldsAt P offset (run ++ markup ++ more) es := by
    rw [Text.byteLength_append, ← Nat.add_assoc] at rest
    rw [List.append_assoc]
    exact .between (.run hrun) (.between hmarkup rest)
  induction h with
  | nil => exact .nil
  | skipped hrun hm _ ih => exact hbetween hrun (.skipped hm) ih
  | verbatim hrun hm _ ih => exact hbetween hrun (.verbatim hm) ih
  | element hrun he _ ih =>
    rw [Text.byteLength_append, ← Nat.add_assoc] at ih
    rw [List.append_assoc]
    exact .between (.run hrun) (.element he ih)

end

/-- The text of an element with its data is a text of the element. -/
theorem Element.DataAt.textAt {exact : Prop} {offset : Nat} {cs : List Char} {e : Element}
    {ds : List CharacterData} (h : e.DataAt exact offset cs ds) : e.TextAt exact offset cs := by
  cases h with
  | selfClosing hopen hbegun hchildren hspan => exact .selfClosing hopen hbegun hchildren hspan
  -- the run before the closing tag is between tags as well
  | paired hopen hbegun hpieces hrun hclose hspan =>
    have hall := hpieces.holdsAt.append (holdsAt_between (.run hrun))
    rw [List.append_nil] at hall
    exact .paired hopen hbegun hall hclose hspan

/-! ### What the text of an element is put together from -/

/-- The characters are what is kept of the data. -/
def KeptOf (ds : List CharacterData) (text : List Char) : Prop :=
  ∃ fs, join CharacterData.fragments ds = .ok fs ∧ text = remains fs

/-- Of no data nothing is kept. -/
private theorem keptOf_nil : KeptOf [] [] := ⟨[], rfl, rfl⟩

/-- What is kept of data behind other data. -/
theorem KeptOf.append {ds more : List CharacterData} {text added : List Char}
    (h : KeptOf ds text) (h' : KeptOf more added) : KeptOf (ds ++ more) (text ++ added) := by
  obtain ⟨fs, hfs, rfl⟩ := h
  obtain ⟨gs, hgs, rfl⟩ := h'
  exact ⟨fs ++ gs, join_append hfs hgs, (remains_append fs gs).symm⟩

/-- A section is kept as it is. -/
private theorem keptOf_verbatim (chars : List Char) : KeptOf [.verbatim chars] chars :=
  ⟨[.kept chars], rfl, by simp⟩

/-- What is kept of a run is what its text stands for without the white space around it. -/
theorem keptOf_run {run v : List Char} (h : unescape (Text.trimBoth isSpace run) = .ok v) :
    KeptOf [.run run] v := by
  -- the white space around the run is the part that is dropped
  refine ⟨[.dropped (leading run) (blank_leading run), .kept v,
    .dropped (trailing run) (blank_trailing run)], ?_, by simp⟩
  refine join_eq_ok_iff.mpr ⟨[_], .cons (map_eq_ok_iff.mpr ⟨v, h, rfl⟩) .nil, ?_⟩
  simp

/-- Nothing is kept of a blank run. -/
theorem keptOf_blank {run : List Char} (h : Blank run) : KeptOf [.run run] [] := by
  have hnothing : Text.trimBoth isSpace run = [] := by
    rw [Text.trimBoth, Text.dropWhile_eq_nil_of_all h, Text.dropEndWhile_nil]
  refine keptOf_run ?_
  rw [hnothing]
  exact unescapeFrom_nil _ _

/-- What is kept of the data is told by the data. -/
theorem KeptOf.unique {ds : List CharacterData} {text other : List Char} (h : KeptOf ds text)
    (h' : KeptOf ds other) : text = other := by
  -- the fragments are a function of the data
  obtain ⟨fs, hfs, rfl⟩ := h
  obtain ⟨gs, hgs, rfl⟩ := h'
  rw [Except.ok.inj (hfs.symm.trans hgs)]

/-- The element stands in the whole text, and its own text is what is kept of its data. -/
def Element.KeptIn (exact : Prop) (whole : List Char) (x : Element) : Prop :=
  ∃ before text after ds, whole = before ++ (text ++ after) ∧
    x.DataAt exact (byteLength before) text ds ∧ KeptOf ds x.text.toList

/-! ### What the outline has been read from -/

/-- The text has been read up to here and then the run, and these elements are still open; the text
    of each is what is kept of its data so far. -/
inductive DataTo (exact : Prop) (whole : List Char) (root : Option Element) :
    List OpenElement → List Char → List Char → Prop
  | outermost {cs run : List Char} {ds : List CharacterData} (hrun : '<' ∉ run)
      (hpieces : PiecesAt (Element.TextAt exact) 0 cs root.toList ds)
      (hkept : ∀ c ∈ root, ∀ x, c.Contains x → x.KeptIn exact whole) :
      DataTo exact whole root [] cs run
  | within {cs before m content inner run kept added : List Char} {p : OpenElement}
      {outer : List OpenElement} {ds : List CharacterData} (hrun : '<' ∉ run)
      (houter : DataTo exact whole root outer cs before)
      (hopen : (Piece.opening content false).IsMarkup m) (hname : p.writtenName = tagName content)
      (hbegun : p.element.BegunBy content)
      (hspan : PlacedAt exact (byteLength (cs ++ before))
        (byteLength (cs ++ before ++ bracketed m)) p.element.span)
      (hpieces : PiecesAt (Element.TextAt exact) (byteLength (cs ++ before ++ bracketed m)) inner
        p.element.children ds)
      (hdata : KeptOf ds kept) (hlast : KeptOf [.run run] added)
      (htext : p.element.text.toList = kept ++ added)
      (hkept : ∀ c ∈ p.element.children, ∀ x, c.Contains x → x.KeptIn exact whole) :
      DataTo exact whole root (p :: outer) (cs ++ before ++ bracketed m ++ inner) run

section

variable {exact : Prop} {whole : List Char} {root : Option Element} {outer : List OpenElement}
  {cs run : List Char}

/-- Before anything is read there is nothing open. -/
private theorem dataTo_nil :
    DataTo exact whole none [] [] [] := .outermost List.not_mem_nil .nil (by simp)

/-- The run that was read last holds no markup. -/
private theorem DataTo.not_mem_run {pending : List OpenElement}
    (h : DataTo exact whole root pending cs run) : '<' ∉ run := by
  cases h with
  | outermost hrun => exact hrun
  | within hrun => exact hrun

/-- Adding no text changes nothing. -/
private theorem addText_nil (o : Outline) : o.addText [] = o := by
  obtain ⟨pending, root⟩ := o
  cases pending with
  | nil => rfl
  | cons p outer =>
    obtain ⟨writtenName, name, attributes, children, text, span⟩ := p
    simp [Outline.addText]

/-- A run goes to the innermost open element. -/
theorem DataTo.addRun {o : Outline} (h : DataTo exact whole o.root o.pending cs [])
    (hrun : '<' ∉ run) {v : List Char} (hv : KeptOf [.run run] v) :
    DataTo exact whole (o.addText v).root (o.addText v).pending cs run := by
  obtain ⟨pending, root⟩ := o
  -- outside of all elements a run is not kept at all
  cases h with
  | outermost _ hpieces hkept => exact .outermost hrun hpieces hkept
  | within _ houter hopen hname hbegun hspan hpieces hdata hlast htext hkept =>
    -- nothing was kept of the empty run that ended at the last piece
    obtain rfl := hlast.unique (keptOf_blank blank_nil)
    refine .within hrun houter hopen hname ⟨hbegun.name_eq, hbegun.attributes_eq⟩ hspan hpieces hdata
      hv ?_ hkept
    simpa using htext

/-- The tokens of a run read the run. -/
theorem DataTo.readRun {o o' : Outline} {source : List Char} {start next : Nat} {tokens : List Token}
    (h : DataTo exact whole o.root o.pending cs []) (hrun : '<' ∉ run)
    (htokens : RunTokens start run tokens next) (hread : o.run source tokens = .ok o') :
    DataTo exact whole o'.root o'.pending cs run := by
  -- a blank run makes no token, and any other one that is read as text
  cases htokens with
  | blank hblank =>
    obtain rfl := Except.ok.inj hread
    have hall := h.addRun hrun (keptOf_blank hblank)
    rwa [addText_nil] at hall
  | text hblank =>
    rw [run_singleton] at hread
    unfold Outline.step at hread
    dsimp only at hread
    split at hread
    · exact nomatch hread
    · rename_i v hv
      obtain rfl := Except.ok.inj hread
      exact h.addRun hrun (keptOf_run hv)

/-- The innermost open element grows by pieces that begin with the run. -/
theorem DataTo.grow {p : OpenElement} {piece added : List Char} {es : List Element}
    {more : List CharacterData} (h : DataTo exact whole root (p :: outer) cs run)
    (hpiece : PiecesAt (Element.TextAt exact) (byteLength cs) piece es (.run run :: more))
    (hmore : KeptOf more added) (hes : ∀ c ∈ es, ∀ x, c.Contains x → x.KeptIn exact whole) :
    DataTo exact whole root
      (⟨p.writtenName, { p.element with
        children := p.element.children ++ es
        text := p.element.text ++ String.ofList added }⟩ :: outer) (cs ++ piece) [] := by
  -- the element that grows is the innermost one, so those around it stay as they are
  cases h with
  | within hrun houter hopen hname hbegun hspan hpieces hdata hlast htext hkept =>
    rw [Text.byteLength_append] at hpiece
    rw [List.append_assoc]
    refine .within List.not_mem_nil houter hopen hname ⟨hbegun.name_eq, hbegun.attributes_eq⟩ hspan
      (hpieces.append hpiece) (hdata.append (hlast.append hmore)) (keptOf_blank blank_nil) ?_ ?_
    · simp [htext]
    -- the elements inside are the earlier ones and the new ones
    · intro c hc
      rcases List.mem_append.mp hc with hc | hc
      · exact hkept c hc
      · exact hes c hc

/-- Markup that holds nothing is read behind the run. -/
theorem DataTo.skipped {pending : List OpenElement} {m : List Char}
    (h : DataTo exact whole root pending cs run) (hm : Piece.skipped.IsMarkup m) :
    DataTo exact whole root pending (cs ++ (run ++ bracketed m)) [] := by
  have hpiece : PiecesAt (Element.TextAt exact) (byteLength cs) (run ++ bracketed m) []
      [.run run] := by
    have hall : PiecesAt (Element.TextAt exact) (byteLength cs) (run ++ bracketed m ++ []) [] _ :=
      .skipped h.not_mem_run hm .nil
    rwa [List.append_nil] at hall
  -- outside of all elements there is no element to grow, but the pieces are there all the same
  cases pending with
  | nil =>
    cases h with
    | outermost _ hpieces hkept =>
      have hall := hpieces.append (by rwa [Nat.zero_add])
      rw [List.append_nil] at hall
      exact .outermost List.not_mem_nil hall hkept
  | cons p outer =>
    obtain ⟨writtenName, name, attributes, children, text, span⟩ := p
    have hall := h.grow hpiece keptOf_nil (by simp)
    simpa using hall

/-- A section goes to the innermost open element, behind the run. -/
theorem DataTo.verbatim {o : Outline} {m chars : List Char}
    (h : DataTo exact whole o.root o.pending cs run) (hm : (Piece.verbatim chars).IsMarkup m) :
    DataTo exact whole (o.addText chars).root (o.addText chars).pending
      (cs ++ (run ++ bracketed m)) [] := by
  have hpiece : PiecesAt (Element.TextAt exact) (byteLength cs) (run ++ bracketed m) []
      [.run run, .verbatim chars] := by
    have hall : PiecesAt (Element.TextAt exact) (byteLength cs) (run ++ bracketed m ++ []) [] _ :=
      .verbatim h.not_mem_run hm .nil
    rwa [List.append_nil] at hall
  obtain ⟨pending, root⟩ := o
  cases pending with
  | nil =>
    cases h with
    | outermost _ hpieces hkept =>
      have hall := hpieces.append (by rwa [Nat.zero_add])
      rw [List.append_nil] at hall
      exact .outermost List.not_mem_nil hall hkept
  | cons p outer =>
    have hall := h.grow hpiece (keptOf_verbatim chars) (by simp)
    simpa [Outline.addText] using hall

/-- A complete element goes to the innermost open one, behind the run. -/
theorem DataTo.attach {o o' : Outline} {e : Element} {text : List Char} {stop : Nat}
    (h : DataTo exact whole o.root o.pending cs run)
    (he : e.TextAt exact (byteLength (cs ++ run)) text)
    (hkept : ∀ x, e.Contains x → x.KeptIn exact whole) (hattach : o.attach e stop = .ok o') :
    DataTo exact whole o'.root o'.pending (cs ++ (run ++ text)) [] := by
  have hpiece : PiecesAt (Element.TextAt exact) (byteLength cs) (run ++ text) [e] [.run run] := by
    have hall : PiecesAt (Element.TextAt exact) (byteLength cs) (run ++ text ++ []) [e] _ :=
      .element h.not_mem_run (by rwa [← Text.byteLength_append]) .nil
    rwa [List.append_nil] at hall
  -- the element becomes the root or a child of the innermost open one
  obtain ⟨pending, root⟩ := o
  cases pending with
  | nil =>
    cases root with
    | some r => exact nomatch hattach
    | none =>
      obtain rfl := Except.ok.inj hattach
      cases h with
      | outermost _ hpieces _ =>
        refine .outermost List.not_mem_nil (hpieces.append (by rwa [Nat.zero_add])) ?_
        rintro c ⟨⟩
        exact hkept
  | cons p outer =>
    obtain rfl := Except.ok.inj hattach
    have hall := h.grow hpiece keptOf_nil (by simpa using hkept)
    simpa using hall

/-! ### What markup adds -/

/-- Behind a run the span of a tag is placed, whether or not the run is a token by itself. -/
private theorem RunTokens.placedAt {source m rest : List Char} {next stop : Nat}
    {tokens : List Token} (h : RunTokens (byteLength cs) run tokens next)
    (hstop : stop = byteLength (cs ++ (run ++ bracketed m)))
    (hsource : exact → source = cs ++ (run ++ (bracketed m ++ rest))) :
    PlacedAt exact (byteLength (cs ++ run)) (byteLength (cs ++ run ++ bracketed m))
      (tagSpan source next stop) := by
  cases h with
  | blank hblank => exact placedAt_tagSpan hblank rfl hstop hsource
  | text hblank =>
    have hall := @placedAt_tagSpan exact source (cs ++ run) [] m rest (byteLength cs + byteLength run)
      stop blank_nil (Text.byteLength_append cs run).symm (by rw [hstop]; simp)
      (fun hexact => by rw [hsource hexact]; simp)
    rwa [List.append_nil] at hall

/-- An opening tag begins an element or is one by itself. -/
theorem DataTo.opening {o o' : Outline} {content m rest : List Char} {selfClosing : Bool}
    {span : Span} {p : OpenElement} {stop : Nat}
    (h : DataTo exact whole o.root o.pending cs run)
    (hm : (Piece.opening content selfClosing).IsMarkup m) (hopen : openTag content span = .ok p)
    (hspan : PlacedAt exact (byteLength (cs ++ run)) (byteLength (cs ++ run ++ bracketed m)) span)
    (hwhole : whole = cs ++ (run ++ (bracketed m ++ rest)))
    (hstep : (if selfClosing then o.attach p.element stop
      else .ok { o with pending := p :: o.pending }) = .ok o') :
    DataTo exact whole o'.root o'.pending (cs ++ (run ++ bracketed m)) [] := by
  obtain ⟨hname, hbegun, hchildren, htext, rfl⟩ := begunBy_openTag hopen
  -- a tag that closes itself is an element with nothing in it
  cases selfClosing with
  | true =>
    rw [Text.byteLength_append (cs ++ run)] at hspan
    have hdata : p.element.DataAt exact (byteLength (cs ++ run)) (bracketed m) [] :=
      .selfClosing hm hbegun hchildren hspan
    refine h.attach hdata.textAt ?_ hstep
    -- nothing is contained in it but itself
    intro x hx
    rcases hx.cases_head with rfl | ⟨c, hc, -⟩
    · refine ⟨cs ++ run, _, rest, [], ?_, hdata, ?_⟩
      · rw [hwhole, List.append_assoc]
      · rw [htext]
        exact keptOf_nil
    · rw [hchildren] at hc
      exact absurd hc List.not_mem_nil
  -- the element is opened with no children and no data so far
  | false =>
    obtain rfl := Except.ok.inj hstep
    have hall : DataTo exact whole o.root (p :: o.pending) (cs ++ run ++ bracketed m ++ []) [] := by
      refine .within List.not_mem_nil h hm hname hbegun hspan ?_ keptOf_nil (keptOf_blank blank_nil)
        ?_ ?_
      · rw [hchildren]
        exact .nil
      · rw [htext]
        rfl
      · rw [hchildren]
        simp
    simpa using hall

/-- The closing tag ends the element, and what was kept so far is its text. -/
theorem DataTo.closing {o' : Outline} {p : OpenElement} {m rest : List Char} {tag : Span}
    {stop : Nat} (h : DataTo exact whole root (p :: outer) cs run)
    (hm : (Piece.closing p.writtenName).IsMarkup m)
    (htag : PlacedAt exact (byteLength (cs ++ run)) (byteLength (cs ++ run ++ bracketed m)) tag)
    (hwhole : whole = cs ++ (run ++ (bracketed m ++ rest)))
    (hattach : Outline.attach ⟨outer, root⟩ { p.element with span := p.element.span.union tag } stop =
      .ok o') :
    DataTo exact whole o'.root o'.pending (cs ++ (run ++ bracketed m)) [] := by
  -- the open element is closed, and what was read since it was opened is its inside
  cases h with
  | @within cs before opening content inner run kept added p outer ds hrun houter hopen hname hbegun
      hspan hpieces hdata hlast htext hkept =>
    rw [hname] at hm
    have hregroup : ∀ after, cs ++ before ++ bracketed opening ++ inner ++ (run ++ (bracketed m ++ after)) =
        cs ++ before ++ (bracketed opening ++ (inner ++ run ++ bracketed m) ++ after) := by
      intro after
      simp
    have hend : cs ++ before ++ bracketed opening ++ inner ++ run ++ bracketed m =
        cs ++ before ++ (bracketed opening ++ (inner ++ run ++ bracketed m)) := by simp
    -- the span reaches from the opening tag to the closing one
    have hspan' : PlacedAt exact (byteLength (cs ++ before))
        (byteLength (cs ++ before) +
          byteLength (bracketed opening ++ (inner ++ run ++ bracketed m)))
        (p.element.span.union tag) := by
      rw [← Text.byteLength_append, ← hend]
      exact hspan.union htag (by simp) (by simp)
    rw [Text.byteLength_append (cs ++ before)] at hpieces
    have helement : Element.DataAt exact (byteLength (cs ++ before))
        (bracketed opening ++ (inner ++ run ++ bracketed m))
        { p.element with span := p.element.span.union tag } (ds ++ [.run run]) :=
      .paired hopen ⟨hbegun.name_eq, hbegun.attributes_eq⟩ hpieces hrun hm hspan'
    have hall := houter.attach (o := ⟨outer, root⟩) helement.textAt ?_ hattach
    · simpa using hall
    -- the element itself, or one that is contained in a child
    · intro x hx
      rcases hx.cases_head with rfl | ⟨c, hc, hcx⟩
      · refine ⟨cs ++ before, _, rest, _, ?_, helement, ?_⟩
        · rw [hwhole, hregroup]
        · rw [htext]
          exact hdata.append hlast
      · exact hkept c hc x hcx

/-- Markup is read behind the run. -/
theorem DataTo.step {o o' : Outline} {source rest : List Char} {b : Bracket}
    {start origin stop : Nat} (h : DataTo exact whole o.root o.pending cs run)
    (hspan : PlacedAt exact (byteLength (cs ++ run)) (byteLength (cs ++ run ++ b.chars))
      (tagSpan source start stop))
    (hwhole : whole = cs ++ (run ++ (b.chars ++ rest)))
    (hstep : o.step source ⟨b.piece, start, origin, stop⟩ = .ok o') :
    DataTo exact whole o'.root o'.pending (cs ++ (run ++ b.chars)) [] := by
  obtain ⟨m, piece, hm⟩ := b
  -- one case for each kind of piece
  unfold Outline.step at hstep
  dsimp only at hstep
  cases piece with
  | skipped =>
    obtain rfl := Except.ok.inj hstep
    exact h.skipped hm
  | verbatim chars =>
    obtain rfl := Except.ok.inj hstep
    exact h.verbatim hm
  | text chars => exact absurd hm Piece.not_isMarkup_text
  | opening content selfClosing =>
    obtain ⟨p, hopen, hstep⟩ := bind_eq_ok_iff.mp hstep
    exact h.opening hm hopen hspan hwhole hstep
  | closing name =>
    dsimp only at hstep
    split at hstep
    · exact nomatch hstep
    · -- a closing tag is accepted only with the name of the innermost open element
      rename_i p outer hpending
      split at hstep
      · rename_i hname
        rw [hpending] at h
        exact h.closing (hname ▸ hm) hspan hwhole hstep
      · exact nomatch hstep

/-- Reading all tokens of a text that is cut into runs and markup reads the text. -/
theorem Cut.exists_dataTo {cs : List Char} {bs : List Bracket} (hcut : Cut cs bs)
    {source before : List Char} {o o' : Outline} (h : DataTo exact whole o.root o.pending before [])
    (hwhole : whole = before ++ cs) (hsource : exact → source = whole)
    (hread : o.run source (scanFrom (byteLength before) cs).1 = .ok o') :
    ∃ read last, DataTo exact whole o'.root o'.pending read last ∧ whole = read ++ last := by
  -- runs that follow each other are read as one
  suffices hrun : ∀ run before (o : Outline), '<' ∉ run → DataTo exact whole o.root o.pending before [] →
      whole = before ++ (run ++ cs) →
      o.run source (scanFrom (byteLength before) (run ++ cs)).1 = .ok o' →
      ∃ read last, DataTo exact whole o'.root o'.pending read last ∧ whole = read ++ last from
    hrun [] before o List.not_mem_nil h hwhole hread
  clear h hwhole hread
  induction hcut with
  -- the last run of the text
  | nil =>
    intro run before o hrun h hwhole hread
    rw [List.append_nil] at hwhole hread
    obtain ⟨tokens, next, htokens, hscan⟩ := scanFrom_run (byteLength before) hrun
    rw [hscan] at hread
    exact ⟨before, run, h.readRun hrun htokens hread, hwhole⟩
  -- one run more, which joins the runs before it
  | @run first cs bs hfirst _ ih =>
    intro run before o hrun h hwhole hread
    rw [← List.append_assoc run] at hwhole hread
    refine ih (run ++ first) before o ?_ h hwhole hread
    rw [List.mem_append]
    exact not_or.mpr ⟨hrun, hfirst⟩
  -- the runs so far are read, and then the markup
  | @markup cs bs b _ ih =>
    intro run before o hrun h hwhole hread
    obtain ⟨tokens, next, origin, htokens, hscan⟩ := scansTo_bracket (byteLength before) hrun b cs
    unfold ScansTo at hscan
    rw [hscan, run_append, run_append] at hread
    obtain ⟨o₂, htext, hrest⟩ := bind_eq_ok_iff.mp hread
    obtain ⟨o₁, hfirst, hmarkup⟩ := bind_eq_ok_iff.mp htext
    rw [run_singleton] at hmarkup
    rw [← Text.byteLength_append] at hmarkup hrest
    have hread := h.readRun hrun htokens hfirst
    have hspan : PlacedAt exact (byteLength (before ++ run)) (byteLength (before ++ run ++ b.chars))
        (tagSpan source next (byteLength (before ++ (run ++ b.chars)))) :=
      htokens.placedAt rfl fun hexact => (hsource hexact).trans hwhole
    have hnext := hread.step hspan hwhole hmarkup
    exact ih [] _ o₂ List.not_mem_nil hnext (by rw [hwhole]; simp) hrest

end

/-! ### Reading a document -/

/-- A document is read to its end, and only its root is left. -/
theorem exists_dataTo_of_parseChars {source : List Char} {root : Element}
    (h : parseChars source = .ok root) :
    ∃ read last, DataTo (dropByteOrderMark source = source) (dropByteOrderMark source) (some root)
        [] read last ∧ dropByteOrderMark source = read ++ last := by
  -- reading the document was reading its tokens and then finishing
  unfold parseChars at h
  obtain ⟨o, hrun, h⟩ := bind_eq_ok_iff.mp h
  split at h
  · exact nomatch h
  · rename_i hend
    obtain ⟨bs, hcut⟩ := cut_of_scanFrom hend
    obtain ⟨read, last, hall, hwhole⟩ := hcut.exists_dataTo (o := Outline.empty)
      (dataTo_nil : DataTo (dropByteOrderMark source = source) _ none [] [] []) rfl Eq.symm hrun
    refine ⟨read, last, ?_, hwhole⟩
    -- nothing is open any more, and there is a root
    unfold Outline.finish at h
    split at h
    · exact nomatch h
    · rename_i hpending
      split at h
      · exact nomatch h
      · rename_i e he
        obtain rfl := Except.ok.inj h
        rwa [hpending, he] at hall

/-- The text of a document holds that of its root, and nothing else but what stands between
    tags. -/
theorem holdsAt_of_parseChars {source : List Char} {root : Element}
    (h : parseChars source = .ok root) :
    HoldsAt (Element.TextAt (dropByteOrderMark source = source)) 0 (dropByteOrderMark source)
      [root] := by
  -- outside of the root is nothing but what stands between tags
  obtain ⟨read, last, hall, hwhole⟩ := exists_dataTo_of_parseChars h
  cases hall with
  | outermost hrun hpieces _ =>
    have hroot := hpieces.holdsAt.append (holdsAt_between (.run hrun))
    rwa [← hwhole] at hroot

/-- Each element of a document stands there, and its text is what is kept of its data. -/
private theorem keptIn_of_parse {source : String} {root x : Element} (h : parse source = .ok root)
    (hx : root.Contains x) :
    x.KeptIn (dropByteOrderMark source.toList = source.toList)
      (dropByteOrderMark source.toList) := by
  obtain ⟨read, last, hall, -⟩ := exists_dataTo_of_parseChars h
  cases hall with
  | outermost _ _ hkept => exact hkept root rfl x hx

/-- The text of every element of a document is put together from what stands directly in it, less
    the white space around each run.  So it is the character data of the element, but for white
    space at the ends, if no white space is dropped between two parts that hold more than that. -/
theorem text_of_character_data {source : String} {root x : Element} (h : parse source = .ok root)
    (hx : root.Contains x) :
    ∃ before text after ds fs, dropByteOrderMark source.toList = before ++ (text ++ after) ∧
      x.DataAt (dropByteOrderMark source.toList = source.toList) (byteLength before) text ds ∧
      join CharacterData.fragments ds = .ok fs ∧ x.text.toList = remains fs ∧
      join CharacterData.value ds = .ok (written fs) ∧
      (SameBetweenEnds x.text.toList (written fs) ↔ ¬ DropsBetweenWords fs) := by
  -- what is known of the element in the document, with its fragments spelled out
  obtain ⟨before, text, after, ds, hplace, hdata, fs, hfs, htext⟩ := keptIn_of_parse h hx
  refine ⟨before, text, after, ds, fs, hplace, hdata, hfs, htext, join_value_eq_ok hfs, ?_⟩
  rw [htext]
  exact sameBetweenEnds_iff fs

/-- A documentation that has a comment between the words of its summary. -/
def summaryDocument : String :=
  "<Documentation><Summary>Orders <!-- all --> shipped</Summary></Documentation>"

/-- The summary of the document, whose text begins at byte 15 and ends at byte 61. -/
def summaryElement : Element := ⟨⟨none, "Summary"⟩, [], [], "Ordersshipped", ⟨15, 61, by omega⟩⟩

/-- The elements of the document. -/
def documentationElement : Element :=
  ⟨⟨none, "Documentation"⟩, [], [summaryElement], "", ⟨0, 77, by omega⟩⟩

/-- The document is read. -/
private theorem parse_summaryDocument : parse summaryDocument = .ok documentationElement := by cbv

/-- The summary is an element of the document. -/
private theorem contains_summaryElement : documentationElement.Contains summaryElement :=
  .single List.mem_cons_self

/-- The summary is put together from the runs on both sides of the comment. -/
theorem text_of_summaryElement :
    ∃ before text after ds fs,
      dropByteOrderMark summaryDocument.toList = before ++ (text ++ after) ∧
      summaryElement.DataAt (dropByteOrderMark summaryDocument.toList = summaryDocument.toList)
        (byteLength before) text ds ∧
      join CharacterData.fragments ds = .ok fs ∧ "Ordersshipped".toList = remains fs ∧
      join CharacterData.value ds = .ok (written fs) ∧
      (SameBetweenEnds "Ordersshipped".toList (written fs) ↔ ¬ DropsBetweenWords fs) :=
  text_of_character_data parse_summaryDocument contains_summaryElement

/-- The text of the summary in the document, with both of its runs. -/
private theorem dataAt_summaryElement {exact : Prop} :
    summaryElement.DataAt exact 15 "<Summary>Orders <!-- all --> shipped</Summary>".toList
      [.run "Orders ".toList, .run " shipped".toList] := by
  -- the three pieces of markup, and the runs between them
  have hopen : (Piece.opening "Summary".toList false).IsMarkup "Summary".toList :=
    ⟨by cbv, by cbv⟩
  have hclose : (Piece.closing (tagName "Summary".toList)).IsMarkup "/Summary".toList :=
    ⟨by cbv, by cbv⟩
  have hcomment : Piece.skipped.IsMarkup "!-- all --".toList := ⟨by cbv, by cbv⟩
  have hfront : '<' ∉ "Orders ".toList := by decide
  have hback : '<' ∉ " shipped".toList := by decide
  have hbegun : summaryElement.BegunBy "Summary".toList := ⟨by cbv, by cbv⟩
  have htext : "<Summary>Orders <!-- all --> shipped</Summary>".toList =
      bracketed "Summary".toList ++ ("Orders ".toList ++ bracketed "!-- all --".toList ++ [] ++
        " shipped".toList ++ bracketed "/Summary".toList) := by cbv
  have hlength : byteLength (bracketed "Summary".toList ++ ("Orders ".toList ++
      bracketed "!-- all --".toList ++ [] ++ " shipped".toList ++ bracketed "/Summary".toList)) =
        46 := by cbv
  rw [htext]
  -- the span is computed from the lengths of the parts
  refine .paired hopen hbegun (.skipped hfront hcomment .nil) hback hclose ?_
  rw [hlength]
  exact ⟨fun _ => rfl, rfl⟩

/-- The text of an element is not always its character data, but for white space at the ends: words
    around a comment are joined. -/
theorem text_may_join_words :
    ¬ (∀ source root x before text after ds full, parse source = .ok root → root.Contains x →
      dropByteOrderMark source.toList = before ++ (text ++ after) →
      x.DataAt (dropByteOrderMark source.toList = source.toList) (byteLength before) text ds →
      join CharacterData.value ds = .ok full → SameBetweenEnds x.text.toList full) := by
  intro h
  have hplace : dropByteOrderMark summaryDocument.toList = "<Documentation>".toList ++
      ("<Summary>Orders <!-- all --> shipped</Summary>".toList ++ "</Documentation>".toList) := by cbv
  have hoffset : byteLength "<Documentation>".toList = 15 := by cbv
  -- the two runs together, with the white space of both
  have hvalue : join CharacterData.value [.run "Orders ".toList, .run " shipped".toList] =
      .ok "Orders  shipped".toList := by cbv
  have hsame := h _ _ _ _ _ _ _ _ parse_summaryDocument contains_summaryElement hplace
    (hoffset ▸ dataAt_summaryElement) hvalue
  exact absurd hsame (by unfold SameBetweenEnds; decide)

end EntityModel.Markup
