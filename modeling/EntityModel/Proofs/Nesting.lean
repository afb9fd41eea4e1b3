import EntityModel.Markup.Document
import Mathlib.Logic.Relation

/-!
# Nested spans

The tokens of a document follow each other without a gap, and the outline of a partly read document
keeps its open elements in order: each begins no later than what has been read into it, and all of
it ends where reading has come to.  So the spans of a parsed document nest as its elements do.

* `run_tidy`          what the outline keeps from token to token
* `nested_of_parse`   the span of an element covers the spans of all elements in it
-/

namespace EntityModel.Markup

/-! ### Elements in an element -/

namespace Element

/-- The element `y` is `x` itself or stands somewhere in it. -/
def Contains : Element → Element → Prop := Relation.ReflTransGen fun a b => b ∈ a.children

/-- Every element from `x` down covers the spans of its children. -/
def Nested (x : Element) : Prop :=
  ∀ a b, x.Contains a → b ∈ a.children → a.span.Covers b.span

/-- An element stands in itself. -/
theorem contains_self (x : Element) : x.Contains x := .refl

/-- What stands in an element with nested spans has nested spans. -/
theorem Nested.of_contains {x y : Element} (h : x.Nested) (hy : x.Contains y) : y.Nested :=
  fun a b ha hb => h a b (hy.trans ha) hb

/-- An element with nested spans covers all that stands in it. -/
theorem Nested.covers {x y : Element} (h : x.Nested) (hy : x.Contains y) :
    x.span.Covers y.span := by
  induction hy with
  | refl => exact ⟨Nat.le_refl _, Nat.le_refl _⟩
  -- the step inwards cannot leave what the element before it covers
  | tail hxa hab ih =>
    have hstep := h _ _ hxa hab
    exact ⟨Nat.le_trans ih.1 hstep.1, Nat.le_trans hstep.2 ih.2⟩

/-- Spans are nested where they are in each child and where the element covers its children. -/
theorem nested_of_children {x : Element}
    (h : ∀ c ∈ x.children, c.Nested ∧ x.span.Covers c.span) : x.Nested := by
  intro a b ha hb
  -- either the outer one is the element, or both stand in one of its children
  rcases ha.cases_head with rfl | ⟨c, hc, hca⟩
  · exact (h b hb).2
  · exact (h c hc).1 a b hca hb

mutual

/-- What comes up in the order of the document stands in the element. -/
theorem contains_of_mem_preorder {x : Element} : (e : Element) → x ∈ e.preorder → e.Contains x
  | ⟨name, attributes, children, text, span⟩, h => by
    rw [preorder_eq] at h
    rcases List.mem_cons.mp h with rfl | h
    · exact contains_self _
    · obtain ⟨c, hc, hcx⟩ := contains_of_mem_preorderAll children h
      exact .head hc hcx

/-- What comes up in the order of some elements stands in one of them. -/
theorem contains_of_mem_preorderAll {x : Element} :
    (es : List Element) → x ∈ preorderAll es → ∃ c ∈ es, c.Contains x
  | [], h => absurd h (by simp [preorderAll])
  | e :: rest, h => by
    rw [preorderAll] at h
    rcases List.mem_append.mp h with h | h
    · exact ⟨e, List.mem_cons_self, contains_of_mem_preorder e h⟩
    · obtain ⟨c, hc, hcx⟩ := contains_of_mem_preorderAll rest h
      exact ⟨c, List.mem_cons_of_mem _ hc, hcx⟩

end

end Element

/-! ### Tokens follow each other -/

/-- Each token begins where the one before it ends, the first at the given offset. -/
def Consecutive : Nat → List Token → Prop
  | _, [] => True
  | start, t :: ts => t.start = start ∧ t.start ≤ t.stop ∧ Consecutive t.stop ts

/-- A token begins where the one before it ended. -/
private theorem start_nextToken {start : Nat} {cs rest : List Char} {t : Token}
    (h : nextToken start cs = .token t rest) : t.start = start ∧ t.start ≤ t.stop := by
  unfold nextToken at h
  dsimp only at h
  -- only a tag or a run of text makes a token, and each ends behind its beginning
  split at h
  · exact nomatch h
  · unfold readMarkup at h
    split at h
    · exact nomatch h
    · dsimp only at h
      split at h
      · exact nomatch h
      · obtain ⟨rfl, -⟩ := Step.token.inj h
        dsimp only
        omega
  · obtain ⟨rfl, -⟩ := Step.token.inj h
    dsimp only
    omega

/-- The tokens of a document follow each other. -/
theorem consecutive_scanFrom (start : Nat) (cs : List Char) :
    -- the induction is that of the scan, token by token
    Consecutive start (scanFrom start cs).1 := by
  fun_induction scanFrom start cs with
  | case1 => exact True.intro
  | case2 => exact True.intro
  | case3 start cs t rest h more ih =>
    obtain ⟨hstart, hle⟩ := start_nextToken h
    exact ⟨hstart, hle, ih⟩

/-! ### Spans of tags -/

/-- As many bytes are taken as asked for. -/
private theorem byteLength_of_takeBytes {n : Nat} {cs taken : List Char}
    (h : Text.takeBytes n cs = some taken) : Text.byteLength taken = n := by
  induction cs generalizing n taken with
  | nil =>
    unfold Text.takeBytes at h
    split at h
    · obtain rfl := Option.some.inj h
      simp_all
    · simp at h
  | cons c cs ih =>
    unfold Text.takeBytes at h
    split at h
    · obtain rfl := Option.some.inj h
      simp_all
    -- characters are taken one by one, and none may be cut in two
    · split at h
      · obtain ⟨rest, hrest, rfl⟩ := Option.map_eq_some_iff.mp h
        rw [Text.byteLength_cons, ih hrest]
        omega
      · simp at h

/-- The span of a tag lies between the offsets that the tag was read between. -/
theorem tagSpan_between (source : List Char) {start stop : Nat} (h : start ≤ stop) :
    start ≤ (tagSpan source start stop).start ∧ (tagSpan source start stop).stop = stop := by
  unfold tagSpan
  split
  · rename_i before after heq
    -- the tag begins behind what precedes its `<` in the slice between the offsets
    obtain ⟨slice, hslice, hbreak⟩ := Option.bind_eq_some_iff.mp heq
    have hlen : Text.byteLength slice = stop - start := by
      unfold Text.sliceBytes? at hslice
      rw [if_pos h] at hslice
      obtain ⟨rest, -, htake⟩ := Option.bind_eq_some_iff.mp hslice
      exact byteLength_of_takeBytes htake
    rw [Text.breakOn_eq_append hbreak, Text.byteLength_append, Text.byteLength_append] at hlen
    simp only [Span.start_ofRange, Span.stop_ofRange]
    omega
  · simp only [Span.start_ofRange, Span.stop_ofRange]
    omega

/-! ### What the outline keeps -/

/-- What has been read into an open element: complete children with nested spans, between the
    beginning of the element and the offset that reading has come to. -/
structure OpenElement.Tidy (position : Nat) (p : OpenElement) : Prop where
  start_le : p.element.span.start ≤ position
  stop_le : p.element.span.stop ≤ position
  children : ∀ c ∈ p.element.children,
    c.Nested ∧ p.element.span.start ≤ c.span.start ∧ c.span.stop ≤ position

/-- The outline of a document that has been read up to an offset: no open element begins before the
    one around it, and the root has nested spans. -/
structure Outline.Tidy (position : Nat) (o : Outline) : Prop where
  pending : ∀ p ∈ o.pending, p.Tidy position
  ordered : o.pending.Pairwise fun inner outer =>
    outer.element.span.start ≤ inner.element.span.start
  root : ∀ e, o.root = some e → e.Nested

/-- Nothing has been read yet. -/
private theorem tidy_empty (position : Nat) : Outline.empty.Tidy position :=
  ⟨fun _ h => absurd h List.not_mem_nil, .nil, fun _ h => nomatch h⟩

/-- An open element stays tidy while reading goes on. -/
theorem OpenElement.Tidy.mono {p : OpenElement} {position later : Nat} (h : p.Tidy position)
    (hle : position ≤ later) : p.Tidy later where
  start_le := Nat.le_trans h.start_le hle
  stop_le := Nat.le_trans h.stop_le hle
  children c hc :=
    have ⟨hn, hstart, hstop⟩ := h.children c hc
    ⟨hn, hstart, Nat.le_trans hstop hle⟩

/-- An outline stays tidy while reading goes on. -/
theorem Outline.Tidy.mono {o : Outline} {position later : Nat} (h : o.Tidy position)
    (hle : position ≤ later) : o.Tidy later :=
  ⟨fun p hp => (h.pending p hp).mono hle, h.ordered, h.root⟩

/-- The innermost open element is tidy, begins no earlier than the others and can be taken off. -/
theorem tidy_pop {o : Outline} {position : Nat} {innermost : OpenElement}
    {rest : List OpenElement} (h : o.Tidy position) (hp : o.pending = innermost :: rest) :
    innermost.Tidy position ∧
      (∀ p ∈ rest, p.element.span.start ≤ innermost.element.span.start) ∧
      Outline.Tidy position { o with pending := rest } := by
  -- what is known of all open elements is split into the innermost and the others
  have hall := h.pending
  have hordered := h.ordered
  rw [hp] at hall hordered
  obtain ⟨hinnermost, hrest⟩ := List.forall_mem_cons.mp hall
  obtain ⟨hbefore, hordered⟩ := List.pairwise_cons.mp hordered
  exact ⟨hinnermost, hbefore, hrest, hordered, h.root⟩

/-- A tidy element that begins no earlier than the open ones can be opened. -/
theorem tidy_push {o : Outline} {position : Nat} {p : OpenElement} (h : o.Tidy position)
    (hp : p.Tidy position)
    (hbefore : ∀ q ∈ o.pending, q.element.span.start ≤ p.element.span.start) :
    Outline.Tidy position { o with pending := p :: o.pending } :=
  ⟨List.forall_mem_cons.mpr ⟨hp, h.pending⟩, List.pairwise_cons.mpr ⟨hbefore, h.ordered⟩, h.root⟩

/-- Text changes no span. -/
theorem tidy_addText {o : Outline} {position : Nat} (h : o.Tidy position) (text : List Char) :
    (o.addText text).Tidy position := by
  unfold Outline.addText
  split
  · rename_i parent rest hp
    obtain ⟨hparent, hbefore, hrest⟩ := tidy_pop h hp
    exact tidy_push hrest ⟨hparent.start_le, hparent.stop_le, hparent.children⟩ hbefore
  · exact h

/-- A complete element that lies behind the beginning of the open ones can be added to them. -/
theorem tidy_attach {o o' : Outline} {e : Element} {position stop : Nat} (h : o.Tidy position)
    (hn : e.Nested) (hstart : ∀ p ∈ o.pending, p.element.span.start ≤ e.span.start)
    (hstop : e.span.stop ≤ position) (ha : o.attach e stop = .ok o') : o'.Tidy position := by
  unfold Outline.attach at ha
  split at ha
  · rename_i parent rest hp
    obtain rfl := Except.ok.inj ha
    obtain ⟨hparent, hbefore, hrest⟩ := tidy_pop h hp
    refine tidy_push hrest ⟨hparent.start_le, hparent.stop_le, ?_⟩ hbefore
    -- the children so far are as they were, and the new one is the last of them
    intro c hc
    rcases List.mem_append.mp hc with hold | hnew
    · exact hparent.children c hold
    · obtain rfl := List.mem_singleton.mp hnew
      exact ⟨hn, hstart parent (by rw [hp]; exact List.mem_cons_self), hstop⟩
  -- with nothing open the element is the root, unless there is one
  · split at ha
    · exact nomatch ha
    · obtain rfl := Except.ok.inj ha
      exact ⟨h.pending, h.ordered, fun c hc => Option.some.inj hc ▸ hn⟩

/-- The element of an opening tag has the span of the tag and nothing in it. -/
theorem element_openTag {content : List Char} {span : Span} {p : OpenElement}
    (h : openTag content span = .ok p) : p.element.span = span ∧ p.element.children = [] := by
  unfold openTag at h
  split at h
  · exact nomatch h
  · obtain rfl := Except.ok.inj h
    exact ⟨rfl, rfl⟩

/-- An element whose tag has just been read is tidy. -/
private theorem tidy_openTag {content : List Char} {span : Span} {p : OpenElement}
    (h : openTag content span = .ok p) : p.Tidy span.stop := by
  obtain ⟨rfl, hchildren⟩ := element_openTag h
  refine ⟨p.element.span.start_le_stop, Nat.le_refl _, ?_⟩
  rw [hchildren]
  exact fun _ hc => nomatch hc

/-- An open element that is closed by a tag behind all that was read into it has nested spans. -/
private theorem nested_closed {p : OpenElement} {position : Nat} (h : p.Tidy position) {tag : Span}
    (hle : position ≤ tag.stop) :
    Element.Nested { p.element with span := p.element.span.union tag } := by
  -- the tag begins and ends no earlier than anything in the element
  refine Element.nested_of_children fun c hc => ?_
  obtain ⟨hn, hstart, hstop⟩ := h.children c hc
  refine ⟨hn, ?_, ?_⟩
  · simp only [Span.start_union]
    omega
  · simp only [Span.stop_union]
    omega

/-- Taking in a token keeps the outline tidy. -/
private theorem step_tidy {source : List Char} {o o' : Outline} {t : Token} (ho : o.Tidy t.start)
    (hle : t.start ≤ t.stop) (h : o.step source t = .ok o') : o'.Tidy t.stop := by
  obtain ⟨htag, htagStop⟩ := tagSpan_between source hle
  have hlater := ho.mono hle
  unfold Outline.step at h
  cases hpiece : t.piece with
  | skipped =>
    rw [hpiece] at h
    obtain rfl := Except.ok.inj h
    exact hlater
  | verbatim chars =>
    rw [hpiece] at h
    obtain rfl := Except.ok.inj h
    exact tidy_addText hlater chars
  | text chars =>
    simp only [hpiece] at h
    split at h
    · exact nomatch h
    · obtain rfl := Except.ok.inj h
      exact tidy_addText hlater _
  | opening content selfClosing =>
    simp only [hpiece] at h
    cases hopen : openTag content (tagSpan source t.start t.stop) with
    | error f => simp [hopen, bind, Except.bind] at h
    | ok p =>
      obtain ⟨hspan, hchildren⟩ := element_openTag hopen
      -- the tag stands behind all that is open, whose beginnings lie before the token
      have hbefore : ∀ q ∈ o.pending, q.element.span.start ≤ p.element.span.start := by
        intro q hq
        rw [hspan]
        exact Nat.le_trans (ho.pending q hq).start_le htag
      simp only [hopen, bind, Except.bind] at h
      split at h
      · refine tidy_attach hlater ?_ hbefore (by rw [hspan]; exact Nat.le_of_eq htagStop) h
        exact Element.nested_of_children (by simp [hchildren])
      · obtain rfl := Except.ok.inj h
        have hp := tidy_openTag hopen
        rw [htagStop] at hp
        exact tidy_push hlater hp hbefore
  | closing name =>
    simp only [hpiece] at h
    split at h
    · exact nomatch h
    · rename_i innermost rest hp
      split at h
      -- the element is taken off before it is closed, so the others stay as they are
      · obtain ⟨hinnermost, hbefore, hrest⟩ := tidy_pop ho hp
        have hstart := hinnermost.start_le
        have hstop := hinnermost.stop_le
        refine tidy_attach (hrest.mono hle) (nested_closed hinnermost ?_) ?_ ?_ h
        · omega
        · -- the span of the whole element still begins where its opening tag does
          intro p hpr
          have := hbefore p hpr
          simp only [Span.start_union]
          omega
        · simp only [Span.stop_union]
          omega
      · exact nomatch h

/-- Taking in consecutive tokens keeps the outline tidy. -/
theorem run_tidy {source : List Char} {tokens : List Token} {o o' : Outline} {start : Nat}
    (ho : o.Tidy start) (hc : Consecutive start tokens) (h : o.run source tokens = .ok o') :
    ∃ stop, o'.Tidy stop := by
  induction tokens generalizing o start with
  | nil =>
    obtain rfl := Except.ok.inj h
    exact ⟨start, ho⟩
  | cons t ts ih =>
    obtain ⟨rfl, hle, hrest⟩ := hc
    -- a token that is taken in ends where the next one begins
    rw [run_cons] at h
    cases hstep : o.step source t with
    | error f => simp [hstep, Except.bind] at h
    | ok next =>
      rw [hstep] at h
      exact ih (step_tidy ho hle hstep) hrest h

/-- In a parsed document the span of an element covers the spans of all elements in it. -/
theorem nested_of_parse {source : String} {root : Element} (h : parse source = .ok root) :
    root.Nested := by
  unfold parse parseChars at h
  -- the whole text is read from offset 0 with nothing open
  have hc : Consecutive 0 (scan source.toList).1 := consecutive_scanFrom 0 _
  cases hrun : Outline.empty.run source.toList (scan source.toList).1 with
  | error f => simp [hrun, bind, Except.bind] at h
  | ok o =>
    obtain ⟨stop, ho⟩ := run_tidy (tidy_empty 0) hc hrun
    simp only [hrun, bind, Except.bind] at h
    split at h
    · exact nomatch h
    · unfold Outline.finish at h
      split at h
      · exact nomatch h
      · split at h
        · exact nomatch h
        · rename_i e he
          obtain rfl := Except.ok.inj h
          exact ho.root e he

end EntityModel.Markup
