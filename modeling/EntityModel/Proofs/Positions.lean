import EntityModel.Proofs.Nesting

/-!
# Positions in a document

The pieces of a document make up its text, so reading never points behind the end of it: neither a
token, nor the span of an element, nor the place of a fault.  Without a byte order mark in front the
offsets are those of the text; with one they are smaller.

* `length_scan_le`          there are no more tokens than characters
* `within_step`             taking in a token points nowhere behind the end
* `within_of_parse_error`   the fault of a text that is no document lies in the text
* `stop_le_of_parse`        and so does the root of one that is
-/

namespace EntityModel

/-- The bytes of a string are those of its characters. -/
private theorem Text.byteLength_toList (s : String) : byteLength s.toList = s.utf8ByteSize := by
  have h : ∀ cs : List Char, (String.ofList cs).utf8ByteSize = byteLength cs := by
    intro cs
    induction cs with
    | nil => simp
    | cons c cs ih =>
      rw [← List.singleton_append, String.ofList_append, String.utf8ByteSize_append, ih]
      simp
  rw [← h, String.ofList_toList]

namespace Markup

open Text (byteLength)

/-! ### Tokens -/

/-- Markup and what is left after it make up the text behind its `<`. -/
private theorem stop_readMarkup {start origin : Nat} {cs rest : List Char} {t : Token}
    (h : readMarkup start origin cs = .token t rest) :
    t.origin < t.stop ∧ t.stop + byteLength rest = origin + 1 + byteLength cs := by
  -- a `<` and a `>` are one byte each
  have hclose : ('>' : Char).utf8Size = 1 := rfl
  unfold readMarkup at h
  split at h
  · exact nomatch h
  · rename_i m r hsplit
    dsimp only at h
    split at h
    · exact nomatch h
    · obtain ⟨rfl, rfl⟩ := Step.token.inj h
      rw [splitMarkup_eq_append hsplit, Text.byteLength_append, Text.byteLength_cons]
      dsimp only
      omega

/-- A fault in markup is seen at its `<` or before its end. -/
private theorem position_readMarkup {start origin position : Nat} {cs : List Char} {f : SyntaxFault}
    (h : readMarkup start origin cs = .fault f position) :
    position < origin + 1 + byteLength cs := by
  have hclose : ('>' : Char).utf8Size = 1 := rfl
  -- the end of the markup is not found, or what stands there cannot be read
  unfold readMarkup at h
  split at h
  · obtain ⟨-, rfl⟩ := Step.fault.inj h
    omega
  · rename_i m r hsplit
    dsimp only at h
    split at h
    · obtain ⟨rfl, rfl⟩ := Step.fault.inj h
      rw [splitMarkup_eq_append hsplit, Text.byteLength_append, Text.byteLength_cons]
      -- only a nameless document type is seen at its end instead of its `<`
      unfold SyntaxFault.position
      split <;> omega
    · exact nomatch h

/-- The blanks before a token and what follows them make up the text. -/
theorem byteLength_spaces (cs : List Char) :
    byteLength (cs.takeWhile isSpace) + byteLength (cs.dropWhile isSpace) = byteLength cs := by
  rw [← Text.byteLength_append, List.takeWhile_append_dropWhile]

/-- A token and what is left after it make up the text it was read from. -/
theorem stop_nextToken {start : Nat} {cs rest : List Char} {t : Token}
    (h : nextToken start cs = .token t rest) :
    t.origin < t.stop ∧ t.stop + byteLength rest = start + byteLength cs := by
  have hspaces := byteLength_spaces cs
  have hopen : ('<' : Char).utf8Size = 1 := rfl
  unfold nextToken at h
  -- nothing but blanks, markup behind a `<`, or a run of text
  dsimp only at h
  split at h
  · exact nomatch h
  · rename_i r hr
    rw [hr, Text.byteLength_cons] at hspaces
    obtain ⟨horigin, hstop⟩ := stop_readMarkup h
    exact ⟨horigin, by omega⟩
  · rename_i c r hc hr
    rw [hr] at hspaces
    obtain ⟨rfl, rfl⟩ := Step.token.inj h
    -- the run is not empty: it begins with a character other than `<`
    have hrun : (c :: r).takeWhile (· != '<') = c :: r.takeWhile (· != '<') :=
      List.takeWhile_cons_of_pos (by simpa using hc)
    have hparts : byteLength ((c :: r).takeWhile (· != '<')) +
        byteLength ((c :: r).dropWhile (· != '<')) = byteLength (c :: r) := by
      rw [← Text.byteLength_append, List.takeWhile_append_dropWhile]
    have hpos : 0 < byteLength ((c :: r).takeWhile (· != '<')) := by
      rw [hrun, Text.byteLength_cons]
      have := c.utf8Size_pos
      omega
    dsimp only
    omega

/-- The fault that keeps a token from being read lies in the text. -/
private theorem position_nextToken {start position : Nat} {cs : List Char} {f : SyntaxFault}
    (h : nextToken start cs = .fault f position) : position < start + byteLength cs := by
  have hspaces := byteLength_spaces cs
  have hopen : ('<' : Char).utf8Size = 1 := rfl
  unfold nextToken at h
  dsimp only at h
  split at h
  · exact nomatch h
  · rename_i r hr
    rw [hr, Text.byteLength_cons] at hspaces
    have := position_readMarkup h
    omega
  · exact nomatch h

/-- The tokens of a text lie in it. -/
private theorem stop_scanFrom (start : Nat) (cs : List Char) :
    ∀ t ∈ (scanFrom start cs).1, t.origin < t.stop ∧ t.stop ≤ start + byteLength cs := by
  fun_induction scanFrom start cs with
  | case1 => exact fun _ h => absurd h List.not_mem_nil
  | case2 => exact fun _ h => absurd h List.not_mem_nil
  -- a later token ends in what the first one has left
  | case3 start cs t rest h more ih =>
    obtain ⟨horigin, hstop⟩ := stop_nextToken h
    refine List.forall_mem_cons.mpr ⟨⟨horigin, by omega⟩, fun u hu => ?_⟩
    have hu := ih u hu
    exact ⟨hu.1, by omega⟩

/-- The fault that ends a scan lies in the text. -/
private theorem position_scanFrom (start : Nat) (cs : List Char) {f : SyntaxFault} {position : Nat}
    (h : (scanFrom start cs).2 = some (f, position)) : position < start + byteLength cs := by
  fun_induction scanFrom start cs with
  | case1 => simp at h
  -- the fault of this step, or one behind the token that was read
  | case2 start cs f' position' hfault =>
    obtain ⟨rfl, rfl⟩ := Prod.mk.inj (Option.some.inj h)
    exact position_nextToken hfault
  | case3 start cs t rest htoken more ih =>
    have hstop := (stop_nextToken htoken).2
    have hrest := ih h
    omega

/-- A scan gives no more tokens than there are characters. -/
private theorem length_scanFrom_le (start : Nat) (cs : List Char) :
    (scanFrom start cs).1.length ≤ cs.length := by
  fun_induction scanFrom start cs with
  | case1 => simp
  | case2 => simp
  | case3 start cs t rest h more ih =>
    have hlt := length_nextToken_lt h
    rw [List.length_cons]
    exact Nat.lt_of_le_of_lt ih hlt

/-- Without its byte order mark a text has no more characters and no more bytes. -/
theorem dropByteOrderMark_le (cs : List Char) :
    (dropByteOrderMark cs).length ≤ cs.length ∧
      byteLength (dropByteOrderMark cs) ≤ byteLength cs := by
  unfold dropByteOrderMark
  split
  · simp
  · split <;> simp

/-- A document has no more tokens than characters. -/
theorem length_scan_le (cs : List Char) : (scan cs).1.length ≤ cs.length :=
  Nat.le_trans (length_scanFrom_le 0 _) (dropByteOrderMark_le cs).1

/-! ### What is made of the tokens -/

/-- No label of the fault ends behind the offset. -/
def DocumentFault.Within (limit : Nat) (f : DocumentFault) : Prop :=
  ∀ l ∈ f.diagnostic.labels, l.span.stop ≤ limit

/-- No element of the outline ends behind the offset. -/
structure Outline.Within (limit : Nat) (o : Outline) : Prop where
  pending : ∀ p ∈ o.pending, p.element.span.stop ≤ limit
  root : ∀ e, o.root = some e → e.span.stop ≤ limit

/-- Whether reading goes on or stops, it points nowhere behind the offset. -/
def ReadsWithin (limit : Nat) : Except DocumentFault Outline → Prop
  | .ok o => o.Within limit
  | .error f => f.Within limit

section

variable {limit : Nat} {source : List Char} {o : Outline}

/-- Nothing that has been read ends behind the limit. -/
private theorem within_empty : Outline.empty.Within limit :=
  ⟨fun _ h => absurd h List.not_mem_nil, fun _ h => nomatch h⟩

/-- A fault that is seen before the limit has its label there. -/
private theorem within_malformed {f : SyntaxFault} {position : Nat} (h : position < limit) :
    (DocumentFault.malformed f position).Within limit := by
  intro l hl
  obtain rfl := List.mem_singleton.mp hl
  simp only [Span.stop_ofRange]
  omega

private theorem within_tag {f : TagFault} {span : Span} (h : span.stop ≤ limit) :
    (DocumentFault.tag f span).Within limit := by
  intro l hl
  -- a fault in an attribute and one in its value differ in their wording only
  cases f <;>
  · obtain rfl := List.mem_singleton.mp hl
    exact h

/-- An element that ends before the limit is added, or refused at its place. -/
theorem within_attach {e : Element} {stop : Nat} (ho : o.Within limit)
    (he : e.span.stop ≤ limit) (hstop : stop ≤ limit) : ReadsWithin limit (o.attach e stop) := by
  unfold Outline.attach
  split
  -- the innermost open element takes it in, and its own span does not change
  · rename_i parent rest hp
    have hpending := ho.pending
    rw [hp] at hpending
    obtain ⟨hparent, hrest⟩ := List.forall_mem_cons.mp hpending
    exact ⟨List.forall_mem_cons.mpr ⟨hparent, hrest⟩, ho.root⟩
  · split
    -- a second root is refused between its beginning and its end
    · intro l hl
      obtain rfl := List.mem_singleton.mp hl
      have := e.span.start_le_stop
      simp only [Span.stop_ofRange]
      omega
    · exact ⟨ho.pending, fun x hx => Option.some.inj hx ▸ he⟩

/-- Text changes no span. -/
private theorem within_addText (ho : o.Within limit) (text : List Char) :
    (o.addText text).Within limit := by
  unfold Outline.addText
  split
  · rename_i parent rest hp
    have hpending := ho.pending
    rw [hp] at hpending
    obtain ⟨hparent, hrest⟩ := List.forall_mem_cons.mp hpending
    exact ⟨List.forall_mem_cons.mpr ⟨hparent, hrest⟩, ho.root⟩
  · exact ho

/-- Taking in a token that ends before the limit points nowhere behind it. -/
theorem within_step {t : Token} (ho : o.Within limit) (hle : t.start ≤ t.stop)
    (horigin : t.origin < t.stop) (hstop : t.stop ≤ limit) :
    ReadsWithin limit (o.step source t) := by
  have htag : (tagSpan source t.start t.stop).stop ≤ limit := by
    rw [(tagSpan_between source hle).2]
    exact hstop
  -- every kind of piece adds something that ends with its token or is refused there
  unfold Outline.step
  cases t.piece with
  | skipped => exact ho
  | verbatim chars => exact within_addText ho chars
  | text chars =>
    dsimp only
    split
    · intro l hl
      obtain rfl := List.mem_singleton.mp hl
      simp only [Span.stop_ofRange]
      omega
    · exact within_addText ho _
  | opening content selfClosing =>
    dsimp only
    cases hopen : openTag content (tagSpan source t.start t.stop) with
    | error f =>
      unfold openTag at hopen
      split at hopen
      · obtain rfl := Except.error.inj hopen
        exact within_tag htag
      · exact nomatch hopen
    | ok p =>
      have hp : p.element.span.stop ≤ limit := by
        rw [(element_openTag hopen).1]
        exact htag
      show ReadsWithin limit (if selfClosing then _ else _)
      split
      · exact within_attach ho hp hstop
      · exact ⟨List.forall_mem_cons.mpr ⟨hp, ho.pending⟩, ho.root⟩
  | closing name =>
    dsimp only
    split
    · exact within_malformed (by omega)
    · rename_i innermost rest hp
      have hpending := ho.pending
      rw [hp] at hpending
      obtain ⟨hinnermost, hrest⟩ := List.forall_mem_cons.mp hpending
      split
      · refine within_attach ⟨hrest, ho.root⟩ ?_ hstop
        simp only [Span.stop_union]
        omega
      · exact within_malformed (by omega)

/-- Taking in tokens that end before the limit points nowhere behind it. -/
private theorem within_run {tokens : List Token} {start : Nat} (ho : o.Within limit)
    (hc : Consecutive start tokens)
    (ht : ∀ t ∈ tokens, t.origin < t.stop ∧ t.stop ≤ limit) :
    ReadsWithin limit (o.run source tokens) := by
  induction tokens generalizing o start with
  | nil => exact ho
  | cons t ts ih =>
    obtain ⟨-, hle, hrest⟩ := hc
    obtain ⟨⟨horigin, hstop⟩, hts⟩ := List.forall_mem_cons.mp ht
    have hstep : ReadsWithin limit (o.step source t) := within_step ho hle horigin hstop
    -- the first token is taken in, and the others are read from there unless it is refused
    rw [run_cons]
    cases h : o.step source t with
    | error f =>
      rw [h] at hstep
      exact hstep
    | ok next =>
      rw [h] at hstep
      exact ih hstep hrest hts

end

/-! ### Whole documents -/

/-- The end of a document is reached in the text, with its root or with a fault. -/
private theorem within_finish {limit : Nat} {o : Outline} (ho : o.Within limit) :
    (∃ root, o.finish limit = .ok root ∧ root.span.stop ≤ limit) ∨
      ∃ f, o.finish limit = .error f ∧ f.Within limit := by
  unfold Outline.finish
  split
  -- an element that was never closed is blamed where it was opened
  · rename_i innermost rest hp
    refine .inr ⟨_, rfl, fun l hl => ?_⟩
    obtain rfl := List.mem_singleton.mp hl
    exact ho.pending innermost (by rw [hp]; exact List.mem_cons_self)
  -- without a root the end of the text is blamed
  · split
    · refine .inr ⟨_, rfl, fun l hl => ?_⟩
      obtain rfl := List.mem_singleton.mp hl
      simp only [Span.stop_ofRange]
      omega
    · rename_i root hroot
      exact .inl ⟨root, rfl, ho.root root hroot⟩

/-- What a text is read to lies in the text: its root, or its first fault. -/
theorem within_parse (source : String) :
    (∃ root, parse source = .ok root ∧ root.span.stop ≤ source.utf8ByteSize) ∨
      ∃ f, parse source = .error f ∧ f.Within source.utf8ByteSize := by
  -- a byte order mark is not scanned, which only makes the text shorter
  have hbytes := (dropByteOrderMark_le source.toList).2
  have hsize := Text.byteLength_toList source
  have htokens : ∀ t ∈ (scan source.toList).1,
      t.origin < t.stop ∧ t.stop ≤ source.utf8ByteSize := by
    intro t ht
    obtain ⟨horigin, hstop⟩ := stop_scanFrom 0 _ t ht
    exact ⟨horigin, by omega⟩
  have hconsecutive : Consecutive 0 (scan source.toList).1 := consecutive_scanFrom 0 _
  have hrun : ReadsWithin source.utf8ByteSize
      (Outline.empty.run source.toList (scan source.toList).1) :=
    within_run within_empty hconsecutive htokens
  unfold parse parseChars
  cases hread : Outline.empty.run source.toList (scan source.toList).1 with
  | error f =>
    rw [hread] at hrun
    exact .inr ⟨f, by simp only [hread, bind, Except.bind], hrun⟩
  | ok o =>
    rw [hread] at hrun
    simp only [hread, bind, Except.bind]
    -- a fault of the scan comes after all that was taken in
    cases hfault : (scan source.toList).2 with
    | some p =>
      have hposition := position_scanFrom 0 _ hfault
      exact .inr ⟨.malformed p.1 p.2, rfl, within_malformed (by omega)⟩
    | none =>
      dsimp only
      rw [hsize]
      exact within_finish hrun

/-- The fault of a text that is no document lies in the text. -/
theorem within_of_parse_error {source : String} {f : DocumentFault}
    (h : parse source = .error f) : f.Within source.utf8ByteSize := by
  obtain ⟨root, hroot, -⟩ | ⟨g, hg, hwithin⟩ := within_parse source
  · exact nomatch h.symm.trans hroot
  · obtain rfl := Except.error.inj (h.symm.trans hg)
    exact hwithin

/-- The root of a document ends in the text. -/
theorem stop_le_of_parse {source : String} {root : Element} (h : parse source = .ok root) :
    root.span.stop ≤ source.utf8ByteSize := by
  obtain ⟨r, hr, hstop⟩ | ⟨f, hf, -⟩ := within_parse source
  · obtain rfl := Except.ok.inj (h.symm.trans hr)
    exact hstop
  · exact nomatch h.symm.trans hf

end Markup

end EntityModel
