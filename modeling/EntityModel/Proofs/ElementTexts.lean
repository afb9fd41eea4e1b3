import EntityModel.Proofs.PieceTexts
import EntityModel.Proofs.Nesting

/-!
# Texts of elements

The text of an element is a tag that closes itself, or all from an opening tag to the closing tag
of the same name, with the texts of its children and what stands between tags inside.  The spans of
its tags are found in the text, and its own is their union.

* `Element.TextAt`       the text of an element, with the spans of all that stands in it
* `placedAt_tagSpan`     the span of a tag
* `begunBy_openTag`      the element that an opening tag begins
-/

namespace EntityModel.Markup

open Text (byteLength)

/-! ### Texts of elements -/

/-- The span ends at the second offset and, if it is exact, begins at the first one. -/
structure PlacedAt (exact : Prop) (start stop : Nat) (s : Span) : Prop where
  start_eq : exact → s.start = start
  stop_eq : s.stop = stop

/-- What stands between two tags without being a tag itself. -/
inductive BetweenTags : List Char → Prop
  | run {cs : List Char} (h : '<' ∉ cs) : BetweenTags cs
  | verbatim {m chars : List Char} (h : (Piece.verbatim chars).IsMarkup m) :
      BetweenTags (bracketed m)
  | skipped {m : List Char} (h : Piece.skipped.IsMarkup m) : BetweenTags (bracketed m)

/-- From the offset on, the text holds the elements one after the other, each where the predicate
    has it, and nothing else but what stands between tags. -/
inductive HoldsAt (P : Nat → List Char → Element → Prop) : Nat → List Char → List Element → Prop
  | nil {offset : Nat} : HoldsAt P offset [] []
  | between {offset : Nat} {cs more : List Char} {es : List Element} (h : BetweenTags cs)
      (rest : HoldsAt P (offset + byteLength cs) more es) : HoldsAt P offset (cs ++ more) es
  | element {offset : Nat} {cs more : List Char} {e : Element} {es : List Element}
      (h : P offset cs e) (rest : HoldsAt P (offset + byteLength cs) more es) :
      HoldsAt P offset (cs ++ more) (e :: es)

namespace Element

/-- The element has the name and the attributes of the tag. -/
structure BegunBy (content : List Char) (e : Element) : Prop where
  name_eq : e.name = Name.ofChars (tagName content)
  attributes_eq : readAttributes content = .ok e.attributes

/-- The text is that of the element, which begins at the offset: a tag that closes itself, or all
    from its opening tag to the closing tag of the same name, with the texts of its children in
    between.  The element and all in it have the spans of their texts. -/
inductive TextAt (exact : Prop) : Nat → List Char → Element → Prop
  | selfClosing {offset : Nat} {m content : List Char} {e : Element}
      (hopen : (Piece.opening content true).IsMarkup m) (hbegun : e.BegunBy content)
      (hchildren : e.children = [])
      (hspan : PlacedAt exact offset (offset + byteLength (bracketed m)) e.span) :
      TextAt exact offset (bracketed m) e
  | paired {offset : Nat} {m k content inner : List Char} {e : Element}
      (hopen : (Piece.opening content false).IsMarkup m) (hbegun : e.BegunBy content)
      (hchildren : HoldsAt (TextAt exact) (offset + byteLength (bracketed m)) inner e.children)
      (hclose : (Piece.closing (tagName content)).IsMarkup k)
      (hspan : PlacedAt exact offset
        (offset + byteLength (bracketed m ++ (inner ++ bracketed k))) e.span) :
      TextAt exact offset (bracketed m ++ (inner ++ bracketed k)) e

end Element

section

variable {P : Nat → List Char → Element → Prop} {offset : Nat} {cs more : List Char}
  {es fs : List Element}

theorem HoldsAt.append (h : HoldsAt P offset cs es)
    (h' : HoldsAt P (offset + byteLength cs) more fs) : HoldsAt P offset (cs ++ more) (es ++ fs) := by
  induction h with
  | nil => exact h'
  | between hcs _ ih =>
    rw [List.append_assoc]
    rw [Text.byteLength_append, ← Nat.add_assoc] at h'
    exact .between hcs (ih h')
  | element he _ ih =>
    rw [List.append_assoc]
    rw [Text.byteLength_append, ← Nat.add_assoc] at h'
    exact .element he (ih h')

theorem holdsAt_between (h : BetweenTags cs) : HoldsAt P offset cs [] := by
  have hall : HoldsAt P offset (cs ++ []) [] := .between h .nil
  rwa [List.append_nil] at hall

/-- Each of the elements has its place in the text. -/
theorem HoldsAt.exists_of_mem (h : HoldsAt P offset cs es) {e : Element} (he : e ∈ es) :
    ∃ before text after, cs = before ++ (text ++ after) ∧ P (offset + byteLength before) text e := by
  induction h with
  | nil => exact absurd he List.not_mem_nil
  | @between offset first more es _ _ ih =>
    obtain ⟨before, text, after, rfl, hP⟩ := ih he
    refine ⟨first ++ before, text, after, by simp, ?_⟩
    rwa [Text.byteLength_append, ← Nat.add_assoc]
  | @element offset first more e' es hfirst _ ih =>
    rcases List.mem_cons.mp he with rfl | he
    · exact ⟨[], first, more, rfl, hfirst⟩
    · obtain ⟨before, text, after, rfl, hP⟩ := ih he
      refine ⟨first ++ before, text, after, by simp, ?_⟩
      rwa [Text.byteLength_append, ← Nat.add_assoc]

end

/-! ### What a tag is read from -/

/-- Markup is never a run of text. -/
theorem Piece.not_isMarkup_text {chars m : List Char} : ¬ (Piece.text chars).IsMarkup m := by
  intro h
  have hreads := h.reads
  unfold Piece.ofMarkup at hreads
  split at hreads
  · split at hreads <;> simp at hreads
  · split at hreads <;> simp at hreads
  · split at hreads
    · split at hreads <;> simp at hreads
    · simp at hreads
  · simp at hreads
  · simp at hreads
  · simp at hreads
  · unfold Piece.ofOpening at hreads
    split at hreads <;> simp at hreads

section

variable {exact : Prop} {source before ws m rest : List Char} {start stop : Nat}

/-- The span of a tag ends where its text does, and begins there if positions count from the
    beginning of the source. -/
theorem placedAt_tagSpan (hws : Blank ws) (hstart : start = byteLength before)
    (hstop : stop = byteLength (before ++ (ws ++ bracketed m)))
    (hsource : exact → source = before ++ (ws ++ (bracketed m ++ rest))) :
    PlacedAt exact (byteLength (before ++ ws)) (byteLength (before ++ ws ++ bracketed m))
      (tagSpan source start stop) := by
  subst hstart hstop
  constructor
  · intro hexact
    rw [hsource hexact, tagSpan_of_text hws, Span.start_ofRange]
  · rw [(tagSpan_between source (by simp)).2, List.append_assoc]

/-- A union begins where its first part does and ends where its second one does, if these follow
    each other. -/
theorem PlacedAt.union {a b c d : Nat} {s t : Span} (hs : PlacedAt exact a b s)
    (ht : PlacedAt exact c d t) (hac : a ≤ c) (hbd : b ≤ d) : PlacedAt exact a d (s.union t) := by
  constructor
  · intro hexact
    rw [Span.start_union, hs.start_eq hexact, ht.start_eq hexact]
    omega
  · rw [Span.stop_union, hs.stop_eq, ht.stop_eq]
    omega

/-- The element of an opening tag has what the tag says, and nothing in it. -/
theorem begunBy_openTag {content : List Char} {span : Span} {p : OpenElement}
    (h : openTag content span = .ok p) :
    p.writtenName = tagName content ∧ p.element.BegunBy content ∧ p.element.children = [] ∧
      p.element.text = "" ∧ p.element.span = span := by
  unfold openTag at h
  split at h
  · exact nomatch h
  · rename_i attributes hattributes
    obtain rfl := Except.ok.inj h
    exact ⟨rfl, ⟨rfl, hattributes⟩, rfl, rfl, rfl⟩

end

end EntityModel.Markup
