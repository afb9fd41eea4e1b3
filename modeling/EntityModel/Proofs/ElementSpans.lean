import EntityModel.Proofs.ElementData
import Mathlib

/-!
# Spans of elements

An element is found in its source by its span: the span covers the text from the `<` of the opening
tag to the `>` of the last one, those of the children lie strictly inside, and siblings follow each
other.  This rests on positions being counted from the beginning of the source.  Behind a byte order
mark they are counted from the end of the mark, so that every span ends short of its text.

* `Element.TextAt.exists_of_contains`   the text of an element in the text of another
* `Element.pairwise_of_holdsAt`         siblings follow each other
* `span_of_text`                        the spans of a parsed document
-/

namespace EntityModel.Markup

open Text (byteLength)

namespace Element

variable {exact : Prop} {offset : Nat} {cs text : List Char} {e x : Element} {es : List Element}

/-! ### The spans of a text -/

/-- The text of an element is bracketed. -/
theorem TextAt.exists_bracketed (h : e.TextAt exact offset text) : ∃ m, text = bracketed m := by
  cases h with
  | @selfClosing _ m => exact ⟨m, rfl⟩
  | @paired _ m k content inner => exact ⟨m ++ ('>' :: (inner ++ ('<' :: k))), by simp [bracketed]⟩

/-- The text of an element is not empty. -/
private theorem TextAt.byteLength_pos (h : e.TextAt exact offset text) : 0 < byteLength text := by
  obtain ⟨m, rfl⟩ := h.exists_bracketed
  have hopen : ('<' : Char).utf8Size = 1 := rfl
  rw [bracketed, Text.byteLength_cons]
  omega

/-- The element has the span of its text. -/
theorem TextAt.placed (h : e.TextAt exact offset text) :
    PlacedAt exact offset (offset + byteLength text) e.span := by
  cases h with
  | selfClosing _ _ _ hspan => exact hspan
  | paired _ _ _ _ hspan => exact hspan

/-- The text of a child stands strictly inside that of its parent. -/
theorem TextAt.exists_of_child (h : e.TextAt exact offset text) {c : Element}
    (hc : c ∈ e.children) :
    ∃ before inner after, text = before ++ (inner ++ after) ∧ 0 < byteLength before ∧
      0 < byteLength after ∧ c.TextAt exact (offset + byteLength before) inner := by
  cases h with
  | selfClosing _ _ hchildren =>
    rw [hchildren] at hc
    exact absurd hc List.not_mem_nil
  | @paired _ m k content inner _ _ _ hchildren =>
    obtain ⟨before, own, after, rfl, hown⟩ := hchildren.exists_of_mem hc
    -- in front of the child stands the opening tag, and behind it the closing one
    have hopen : ('<' : Char).utf8Size = 1 := rfl
    refine ⟨bracketed m ++ before, own, after ++ bracketed k, by simp, ?_, ?_, ?_⟩
    · simp only [bracketed, List.cons_append, Text.byteLength_cons]
      omega
    · simp only [bracketed, Text.byteLength_append, Text.byteLength_cons]
      omega
    · rwa [Text.byteLength_append, ← Nat.add_assoc]

/-- The text of all that stands in an element stands in its text. -/
theorem TextAt.exists_of_contains (h : e.TextAt exact offset text) (hx : e.Contains x) :
    ∃ before inner after, text = before ++ (inner ++ after) ∧
      x.TextAt exact (offset + byteLength before) inner := by
  induction hx with
  | refl => exact ⟨[], text, [], by simp, by simpa using h⟩
  | tail _ hchild ih =>
    -- one step further in: the text of a child within that of its parent
    obtain ⟨before, inner, after, rfl, hinner⟩ := ih
    obtain ⟨before', own, after', rfl, -, -, hown⟩ := hinner.exists_of_child hchild
    refine ⟨before ++ before', own, after' ++ after, by simp, ?_⟩
    rwa [Text.byteLength_append, ← Nat.add_assoc]

/-- No element in a text begins before the text does, or ends where it begins. -/
private theorem bounds_of_holdsAt (h : HoldsAt (TextAt exact) offset cs es) (hx : x ∈ es) :
    (exact → offset ≤ x.span.start) ∧ offset < x.span.stop := by
  -- the text of the element stands behind the beginning, and is not empty
  obtain ⟨before, text, after, -, htext⟩ := h.exists_of_mem hx
  have hpos := htext.byteLength_pos
  have hplaced := htext.placed
  constructor
  · intro hexact
    rw [hplaced.start_eq hexact]
    omega
  · rw [hplaced.stop_eq]
    omega

/-- Elements that follow each other in a text follow each other by their spans. -/
theorem pairwise_of_holdsAt (h : HoldsAt (TextAt exact) offset cs es) :
    es.Pairwise fun a b =>
      (exact → a.span.stop ≤ b.span.start) ∧ a.span.stop < b.span.stop := by
  induction h with
  | nil => exact .nil
  | between _ _ ih => exact ih
  | element he hrest ih =>
    -- what follows stands in the text behind this one
    refine List.pairwise_cons.mpr ⟨fun b hb => ?_, ih⟩
    rw [he.placed.stop_eq]
    exact bounds_of_holdsAt hrest hb

/-- The children of an element end inside it, one after the other, and begin there as well if the
    spans are exact. -/
theorem TextAt.children (h : e.TextAt exact offset text) :
    (∀ c ∈ e.children, (exact → e.span.start < c.span.start) ∧ c.span.stop < e.span.stop) ∧
    e.children.Pairwise fun a b =>
      (exact → a.span.stop ≤ b.span.start) ∧ a.span.stop < b.span.stop := by
  constructor
  · intro c hc
    obtain ⟨before, inner, after, rfl, hbefore, hafter, hinner⟩ := h.exists_of_child hc
    -- the spans are told by the texts, up to a shift of their beginnings if they are not exact
    have hparent := h.placed
    have hchild := hinner.placed
    constructor
    · intro hexact
      rw [hparent.start_eq hexact, hchild.start_eq hexact]
      omega
    · rw [hparent.stop_eq, hchild.stop_eq, Text.byteLength_append, Text.byteLength_append]
      omega
  -- children that follow each other in the text do so by their spans
  · cases h with
    | selfClosing _ _ hchildren =>
      rw [hchildren]
      exact .nil
    | paired _ _ hchildren => exact pairwise_of_holdsAt hchildren

/-! ### The spans of a document -/

/-- The span of the element covers its text in the source, and the children stand strictly inside,
    one behind the other. -/
structure SpanIsOfText (source : List Char) (x : Element) : Prop where
  covers : ∃ m, Text.sliceBytes? source x.span.start x.span.stop = some (bracketed m) ∧
    x.TextAt True x.span.start (bracketed m)
  inside : ∀ c ∈ x.children, x.span.start < c.span.start ∧ c.span.stop < x.span.stop
  ordered : x.children.Pairwise fun a b => a.span.stop ≤ b.span.start

/-- With exact positions the spans are those of the texts. -/
private theorem TextAt.spanIsOfText {before after : List Char}
    (h : x.TextAt True (byteLength before) text) :
    x.SpanIsOfText (before ++ (text ++ after)) := by
  have hplaced := h.placed
  -- exact positions begin where the texts begin
  have hstart := hplaced.start_eq trivial
  obtain ⟨hinside, hordered⟩ := h.children
  obtain ⟨m, rfl⟩ := h.exists_bracketed
  constructor
  · refine ⟨m, ?_, hstart ▸ h⟩
    rw [hstart, hplaced.stop_eq, ← Text.byteLength_append]
    exact Text.sliceBytes?_append before (bracketed m) after
  · exact fun c hc => ⟨(hinside c hc).1 trivial, (hinside c hc).2⟩
  · exact hordered.imp fun hab => hab.1 trivial

end Element

/-- Where the texts of the elements of a document are. -/
theorem exists_textAt_of_parse {source : String} {root x : Element} (h : parse source = .ok root)
    (hx : root.Contains x) :
    ∃ before text after, dropByteOrderMark source.toList = before ++ (text ++ after) ∧
      x.TextAt (dropByteOrderMark source.toList = source.toList) (byteLength before) text := by
  obtain ⟨before, text, after, hdrop, htext⟩ :=
    (holdsAt_of_parseChars h).exists_of_mem List.mem_cons_self
  -- the text of the root stands in the document, and that of the element in it
  obtain ⟨before', own, after', rfl, hown⟩ := htext.exists_of_contains hx
  refine ⟨before ++ before', own, after' ++ after, by rw [hdrop]; simp, ?_⟩
  rwa [Nat.zero_add, ← Text.byteLength_append] at hown

/-- Siblings of a document end one after the other. -/
theorem pairwise_stop_lt_of_parse {source : String} {root x : Element}
    (h : parse source = .ok root) (hx : root.Contains x) :
    x.children.Pairwise fun a b => a.span.stop < b.span.stop := by
  obtain ⟨_, _, _, _, htext⟩ := exists_textAt_of_parse h hx
  exact htext.children.2.imp And.right

/-- In a document without a byte order mark the span of every element covers its text, from the `<`
    of its opening tag to the `>` of its last one; the spans of its children lie strictly inside and
    follow each other.  In a document with a byte order mark every span ends as many bytes before
    the end of its text as the mark is long. -/
theorem span_of_text {source : String} {root x : Element} (h : parse source = .ok root)
    (hx : root.Contains x) :
    ((∀ rest, source.toList ≠ byteOrderMark :: rest) → x.SpanIsOfText source.toList) ∧
    ∀ rest, source.toList = byteOrderMark :: rest →
      ∃ before text after, source.toList = byteOrderMark :: (before ++ (text ++ after)) ∧
        x.TextAt False (byteLength before) text ∧
        x.span.stop + byteOrderMark.utf8Size = byteLength (byteOrderMark :: (before ++ text)) := by
  obtain ⟨before, text, after, hdrop, htext⟩ := exists_textAt_of_parse h hx
  constructor
  -- without a mark the whole document is scanned
  · intro hmark
    have hsame : dropByteOrderMark source.toList = source.toList := by
      cases hsource : source.toList with
      | nil => rfl
      | cons c cs =>
        by_cases hc : c = byteOrderMark
        · exact absurd (hc ▸ hsource) (hmark cs)
        · rw [dropByteOrderMark, if_neg hc]
    rw [eq_true hsame] at htext
    rw [← hsame, hdrop]
    exact htext.spanIsOfText
  · intro rest hsource
    have hrest : dropByteOrderMark source.toList = rest := by
      rw [hsource, dropByteOrderMark, if_pos rfl]
    -- a text is longer than itself less its first character
    have hshorter : dropByteOrderMark source.toList ≠ source.toList := by
      rw [hrest, hsource]
      exact fun hsame => List.cons_ne_self _ _ hsame.symm
    rw [eq_false hshorter] at htext
    refine ⟨before, text, after, ?_, htext, ?_⟩
    · rw [hsource, ← hrest, hdrop]
    · rw [htext.placed.stop_eq, Text.byteLength_cons, Text.byteLength_append]
      omega

/-- A schema behind a declaration, with a comment and white space between its elements. -/
def commentedDocument : String :=
  "<?xml version='1.0'?>\n<Schema><!-- types -->\n  <EntityType/> <EnumType> </EnumType>\n</Schema>"

/-- The elements of the document. -/
def commentedElement : Element :=
  ⟨⟨none, "Schema"⟩, [],
    [⟨⟨none, "EntityType"⟩, [], [], "", ⟨47, 60, by omega⟩⟩,
      ⟨⟨none, "EnumType"⟩, [], [], "", ⟨61, 83, by omega⟩⟩], "", ⟨22, 93, by omega⟩⟩

/-- A schema behind a byte order mark. -/
def markedDocument : String := "\uFEFF<Schema Namespace='N'><EntityType/></Schema>"

/-- The entity type of the document, whose text begins at byte 25 and ends at byte 38. -/
def markedEntityType : Element := ⟨⟨none, "EntityType"⟩, [], [], "", ⟨25, 35, by omega⟩⟩

/-- The elements of the document. -/
def markedElement : Element :=
  ⟨⟨none, "Schema"⟩, [⟨⟨none, "Namespace"⟩, "N"⟩], [markedEntityType], "", ⟨3, 44, by omega⟩⟩

/-- The first document is read to its elements. -/
private theorem parse_commentedDocument : parse commentedDocument = .ok commentedElement := by cbv

/-- The second document is read to its elements. -/
private theorem parse_markedDocument : parse markedDocument = .ok markedElement := by cbv

/-- The entity type stands in the document. -/
private theorem contains_markedEntityType : markedElement.Contains markedEntityType :=
  .single List.mem_cons_self

/-- Declarations, comments and white space change no span; a byte order mark does. -/
theorem spans_of_commented_and_marked :
    commentedElement.SpanIsOfText commentedDocument.toList ∧
    ∃ before text after,
      markedDocument.toList = byteOrderMark :: (before ++ (text ++ after)) ∧
      markedEntityType.TextAt False (byteLength before) text ∧
      markedEntityType.span.stop + byteOrderMark.utf8Size =
        byteLength (byteOrderMark :: (before ++ text)) := by
  constructor
  · exact (span_of_text parse_commentedDocument (Element.contains_self _)).1
      (fun _ hrest => absurd (List.cons.inj hrest).1 (by decide))
  · exact (span_of_text parse_markedDocument contains_markedEntityType).2 _ rfl

/-- Not every span covers the text of its element: behind a byte order mark it ends too early. -/
theorem span_may_end_before_text :
    ¬ (∀ source root x, parse source = .ok root → root.Contains x →
      x.SpanIsOfText source.toList) := by
  intro h
  obtain ⟨m, hslice, -⟩ := (h _ _ _ parse_markedDocument contains_markedEntityType).covers
  have hshort : Text.sliceBytes? markedDocument.toList 25 35 = some "<EntityTyp".toList := by cbv
  -- the last byte covered is the `p` of the name instead of the `>` of the tag
  have hlast := congrArg List.getLast? (Option.some.inj (hslice.symm.trans hshort))
  rw [bracketed, ← List.cons_append, List.getLast?_concat] at hlast
  exact absurd hlast (by decide)

end EntityModel.Markup
