import EntityModel.Proofs.WrittenTags

/-!
# Texts of pieces

Each token of a document is cut off the front of what is still to be read: white space, then the
text of its piece.  A tag is bracketed markup that ends at the first `>` that can end it, and this
can be told from the markup alone, whatever stands behind it.

* `splitMarkup_self`           markup ends at its own `>`
* `Piece.IsText`               the texts that a piece is read from
* `exists_text_of_nextToken`   what the next token is read from
* `tagSpan_of_text`            the span of a tag is that of its text
-/

namespace EntityModel

/-- A search that has seen the pattern needs no more of the text. -/
private theorem Text.breakOn_self {pattern cs before after : List Char}
    (h : breakOn pattern cs = some (before, after)) :
    breakOn pattern (before ++ pattern) = some (before, []) := by
  -- the pattern begins where it begins
  have hfront : ∀ p : List Char, breakOn p p = some ([], []) := by
    intro p
    cases p with
    | nil => rfl
    | cons c cs =>
      rw [breakOn, if_pos (by simp), List.drop_length]
  induction cs generalizing before with
  | nil =>
    simp only [breakOn] at h
    split at h
    · obtain ⟨rfl, -⟩ := Prod.mk.inj (Option.some.inj h)
      exact hfront pattern
    · simp at h
  | cons c cs ih =>
    have happend := breakOn_eq_append h
    simp only [breakOn] at h
    split at h
    · obtain ⟨rfl, -⟩ := Prod.mk.inj (Option.some.inj h)
      exact hfront pattern
    · rename_i hnot
      obtain ⟨⟨b, a⟩, hb, hcons⟩ := Option.map_eq_some_iff.mp h
      obtain ⟨rfl, rfl⟩ := Prod.mk.inj hcons
      -- an earlier occurrence in the part would be one in the whole text
      have hearlier : ¬ pattern.isPrefixOf (c :: (b ++ pattern)) = true := by
        intro hp
        apply hnot
        rw [List.isPrefixOf_iff_prefix] at hp ⊢
        rw [happend]
        exact hp.trans (List.prefix_append _ _)
      rw [List.cons_append, breakOn, if_neg hearlier, ih hb]
      rfl

/-- The text between the ends of two parts of a text. -/
theorem Text.sliceBytes?_append (a b c : List Char) :
    sliceBytes? (a ++ (b ++ c)) (byteLength a) (byteLength (a ++ b)) = some b := by
  have hle : byteLength a ≤ byteLength (a ++ b) := by simp
  have hlength : byteLength (a ++ b) - byteLength a = byteLength b := by
    rw [byteLength_append]
    omega
  rw [sliceBytes?, if_pos hle, dropBytes_append, Option.bind_some, hlength, takeBytes_append]

namespace Markup

open Text (byteLength)

/-! ### Where markup ends -/

/-- A tag ends at its own `>`, whatever stands behind it. -/
private theorem splitTag_self {quote : Option Char} {cs m r : List Char}
    (h : splitTag quote cs = some (m, r)) : splitTag quote (m ++ ['>']) = some (m, []) := by
  induction cs generalizing quote m with
  | nil => simp [splitTag] at h
  | cons c cs ih =>
    cases quote with
    | none =>
      simp only [splitTag] at h
      split at h
      · obtain ⟨rfl, -⟩ := Prod.mk.inj (Option.some.inj h)
        rfl
      · rename_i hc
        obtain ⟨⟨m', r'⟩, hm, hcons⟩ := Option.map_eq_some_iff.mp h
        obtain ⟨rfl, rfl⟩ := Prod.mk.inj hcons
        rw [List.cons_append, splitTag, if_neg hc, ih hm]
        rfl
    | some q =>
      -- between quotes a `>` ends nothing, in the whole text and in its part
      simp only [splitTag] at h
      obtain ⟨⟨m', r'⟩, hm, hcons⟩ := Option.map_eq_some_iff.mp h
      obtain ⟨rfl, rfl⟩ := Prod.mk.inj hcons
      rw [List.cons_append, splitTag, ih hm]
      rfl

/-- A document type ends at its own `>`, whatever stands behind it. -/
private theorem splitDoctype_self {depth : Nat} {cs m r : List Char}
    (h : splitDoctype depth cs = some (m, r)) :
    splitDoctype depth (m ++ ['>']) = some (m, []) := by
  fun_induction splitDoctype depth cs generalizing m with
  | case1 => simp at h
  | case2 depth cs ih =>
    -- one more declaration is open
    obtain ⟨⟨m', r'⟩, hm, hcons⟩ := Option.map_eq_some_iff.mp h
    obtain ⟨rfl, rfl⟩ := Prod.mk.inj hcons
    rw [List.cons_append, splitDoctype, ih hm]
    rfl
  | case3 cs =>
    -- the `>` of the outermost declaration is where the part ends
    obtain ⟨rfl, -⟩ := Prod.mk.inj (Option.some.inj h)
    rfl
  | case4 cs d ih =>
    -- one that stands inside is closed
    obtain ⟨⟨m', r'⟩, hm, hcons⟩ := Option.map_eq_some_iff.mp h
    obtain ⟨rfl, rfl⟩ := Prod.mk.inj hcons
    rw [List.cons_append, splitDoctype, ih hm]
    rfl
  | case5 depth c cs hopen hclose ih =>
    obtain ⟨⟨m', r'⟩, hm, hcons⟩ := Option.map_eq_some_iff.mp h
    obtain ⟨rfl, rfl⟩ := Prod.mk.inj hcons
    rw [List.cons_append, splitDoctype, ih hm]
    · rfl
    · exact hopen
    · exact hclose

/-- Markup with an end mark of its own ends there, whatever stands behind it. -/
private theorem splitClosing_self {closing cs m r : List Char}
    (h : splitClosing closing cs = some (m, r)) :
    splitClosing closing (m ++ ['>']) = some (m, []) := by
  obtain ⟨⟨m', r'⟩, hm, hcons⟩ := Option.map_eq_some_iff.mp h
  obtain ⟨rfl, -⟩ := Prod.mk.inj hcons
  rw [splitClosing, List.append_assoc, Text.breakOn_self hm]
  rfl

/-- A comment ends at its own `>`, whatever stands behind it. -/
private theorem splitComment_self {cs m r : List Char} (h : splitComment cs = some (m, r)) :
    splitComment (m ++ ['>']) = some (m, []) := by
  obtain ⟨⟨m', r'⟩, hm, hcons⟩ := Option.map_eq_some_iff.mp h
  obtain ⟨rfl, -⟩ := Prod.mk.inj hcons
  -- the end mark was found behind three characters, so these are there
  have hthree : (cs.take 3).length = 3 := by
    have hlong := congrArg List.length (splitClosing_eq_append hm)
    simp only [List.length_drop, List.length_append, List.length_cons] at hlong
    rw [List.length_take]
    omega
  have hdrop : (cs.take 3 ++ m' ++ ['>']).drop 3 = m' ++ ['>'] := by
    rw [List.append_assoc, List.drop_append_of_le_length (by omega), List.drop_of_length_le (by omega)]
    rfl
  have htake : (cs.take 3 ++ m' ++ ['>']).take 3 = cs.take 3 := by
    rw [List.append_assoc, List.take_append_of_le_length (by omega), List.take_of_length_le (by omega)]
  rw [splitComment, hdrop, htake, splitClosing_self hm]
  rfl

/-- Two characters before a `>` that are none themselves. -/
private theorem exists_of_append_close {m r t : List Char} {a b : Char}
    (h : m ++ '>' :: r = a :: b :: t) (ha : a ≠ '>') (hb : b ≠ '>') : ∃ m', m = a :: b :: m' := by
  match m with
  | [] => exact absurd (List.cons.inj h).1.symm ha
  | [c] => exact absurd (List.cons.inj (List.cons.inj h).2).1.symm hb
  | c :: d :: m' =>
    rw [List.cons_append, List.cons_append, List.cons.injEq, List.cons.injEq] at h
    obtain ⟨rfl, rfl, -⟩ := h
    exact ⟨m', rfl⟩

/-- What begins with neither mark is a tag. -/
theorem splitMarkup_tag {c : Char} (hbang : c ≠ '!') (hquestion : c ≠ '?') (cs : List Char) :
    splitMarkup (c :: cs) = (splitTag none (c :: cs)).elim (.error .unclosedTag) .ok := by
  unfold splitMarkup
  split
  · exact absurd (List.cons.inj ‹_›).1 hbang
  · exact absurd (List.cons.inj ‹_›).1 hbang
  · exact absurd (List.cons.inj ‹_›).1 hbang
  · exact absurd (List.cons.inj ‹_›).1 hbang
  · exact absurd (List.cons.inj ‹_›).1 hbang
  · exact absurd (List.cons.inj ‹_›).1 hquestion
  · rfl

/-- Markup that its first two characters tell ends at its own `>` if the search for its end stops
    there. -/
theorem splitMarkup_self_of {split : List Char → Option (List Char × List Char)}
    {f : SyntaxFault} {a b : Char} {m r t : List Char}
    (hsplit : ∀ cs, splitMarkup (a :: b :: cs) = (split (a :: b :: cs)).elim (.error f) .ok)
    (hself : split (m ++ ['>']) = some (m, [])) (heq : m ++ '>' :: r = a :: b :: t)
    (ha : a ≠ '>') (hb : b ≠ '>') : splitMarkup (m ++ ['>']) = .ok (m, []) := by
  obtain ⟨m', rfl⟩ := exists_of_append_close heq ha hb
  rw [List.cons_append, List.cons_append] at hself ⊢
  rw [hsplit, hself]
  rfl

/-- Markup ends at its own `>`, whatever stands behind it. -/
theorem splitMarkup_self {cs m r : List Char} (h : splitMarkup cs = .ok (m, r)) :
    splitMarkup (m ++ ['>']) = .ok (m, []) := by
  have found {f : SyntaxFault} {o : Option (List Char × List Char)}
      (ho : o.elim (.error f) .ok = (.ok (m, r) : Except SyntaxFault _)) : o = some (m, r) := by
    cases o with
    | none => simp at ho
    | some p => simpa using ho
  obtain rfl := splitMarkup_eq_append h
  unfold splitMarkup at h
  -- the first two characters tell what begins, and they are the same without the rest
  split at h
  · rename_i heq
    exact splitMarkup_self_of (fun _ => rfl) (splitClosing_self (found h)) heq (by decide) (by decide)
  · rename_i heq
    exact splitMarkup_self_of (fun _ => rfl) (splitComment_self (found h)) heq (by decide) (by decide)
  · rename_i heq
    exact splitMarkup_self_of (fun _ => rfl) (splitDoctype_self (found h)) heq (by decide) (by decide)
  · rename_i heq
    exact splitMarkup_self_of (fun _ => rfl) (splitDoctype_self (found h)) heq (by decide) (by decide)
  · exact nomatch h
  · rename_i heq
    have hself := splitClosing_self (found h)
    cases m with
    | nil => exact absurd (List.cons.inj heq).1 (by decide)
    | cons c m' =>
      obtain rfl := (List.cons.inj heq).1
      rw [List.cons_append] at hself ⊢
      rw [splitMarkup, hself]
      rfl
  · rename_i hbang hquestion
    have hself := splitTag_self (found h)
    cases m with
    | nil => rfl
    | cons c m' =>
      have hfirst : c ≠ '!' ∧ c ≠ '?' := by
        constructor
        · rintro rfl
          exact hbang _ rfl
        · rintro rfl
          exact hquestion _ rfl
      rw [List.cons_append] at hself ⊢
      rw [splitMarkup_tag hfirst.1 hfirst.2, hself]
      rfl

/-! ### The text of a token -/

/-- Between a `<` and the `>` that ends it stands the piece. -/
structure Piece.IsMarkup (piece : Piece) (m : List Char) : Prop where
  ends : splitMarkup (m ++ ['>']) = .ok (m, [])
  reads : Piece.ofMarkup m = .ok piece

/-- Markup in its brackets. -/
def bracketed (m : List Char) : List Char := '<' :: (m ++ ['>'])

/-- The characters are the text of the piece. -/
inductive Piece.IsText : Piece → List Char → Prop
  | markup {piece : Piece} {m : List Char} (h : piece.IsMarkup m) : IsText piece (bracketed m)
  | run {cs : List Char} (h : '<' ∉ cs) : IsText (.text (Text.dropEndWhile isSpace cs)) cs

/-- Markup in its brackets, with a text behind it. -/
theorem bracketed_append (m rest : List Char) : bracketed m ++ rest = '<' :: (m ++ '>' :: rest) := by
  simp [bracketed]

/-- What a tag or any other markup is read from. -/
private theorem exists_of_readMarkup {start origin : Nat} {cs rest : List Char} {t : Token}
    (h : readMarkup start origin cs = .token t rest) :
    ∃ m, t.piece.IsMarkup m ∧ '<' :: cs = bracketed m ++ rest ∧ t.start = start ∧
      t.stop = origin + byteLength (bracketed m) := by
  unfold readMarkup at h
  split at h
  · exact nomatch h
  · rename_i m r hsplit
    dsimp only at h
    split at h
    · exact nomatch h
    · rename_i piece hpiece
      obtain ⟨rfl, rfl⟩ := Step.token.inj h
      refine ⟨m, ⟨splitMarkup_self hsplit, hpiece⟩, ?_, rfl, ?_⟩
      · rw [splitMarkup_eq_append hsplit, bracketed_append]
      · have hopen : ('<' : Char).utf8Size = 1 := rfl
        have hclose : ('>' : Char).utf8Size = 1 := rfl
        simp only [bracketed, Text.byteLength_cons, Text.byteLength_append, Text.byteLength_nil]
        omega

/-- The next token is read from white space and the text of its piece. -/
theorem exists_text_of_nextToken {start : Nat} {cs rest : List Char} {t : Token}
    (h : nextToken start cs = .token t rest) :
    ∃ ws text, Blank ws ∧ t.piece.IsText text ∧ cs = ws ++ (text ++ rest) ∧ t.start = start ∧
      t.stop = start + byteLength (ws ++ text) := by
  have hws : Blank (cs.takeWhile isSpace) := fun c hc =>
    List.all_eq_true.mp List.all_takeWhile c hc
  have hcs : cs.takeWhile isSpace ++ cs.dropWhile isSpace = cs := List.takeWhile_append_dropWhile
  unfold nextToken at h
  dsimp only at h
  split at h
  · exact nomatch h
  · rename_i r hr
    -- a tag begins with its `<` behind the white space
    obtain ⟨m, hm, hr', hstart, hstop⟩ := exists_of_readMarkup h
    refine ⟨_, bracketed m, hws, .markup hm, ?_, hstart, ?_⟩
    · rw [← hr', ← hr, hcs]
    · rw [hstop, Text.byteLength_append, Nat.add_assoc]
  · rename_i c r hc hr
    obtain ⟨rfl, rfl⟩ := Step.token.inj h
    -- the text of a run keeps the white space behind it, which the piece has lost
    refine ⟨_, (c :: r).takeWhile (· != '<'), hws, .run ?_, ?_, rfl, ?_⟩
    · intro hmem
      have hother := List.all_eq_true.mp List.all_takeWhile _ hmem
      simp at hother
    · rw [List.takeWhile_append_dropWhile, ← hr, hcs]
    · rw [Text.byteLength_append, Nat.add_assoc]

/-- Where no token is left there is only white space. -/
theorem blank_of_nextToken {start : Nat} {cs : List Char} (h : nextToken start cs = .finished) :
    Blank cs := by
  unfold nextToken at h
  dsimp only at h
  split at h
  -- either nothing but white space was left, or something would have been read
  · exact Text.all_of_dropWhile_eq_nil (by assumption)
  · unfold readMarkup at h
    split at h
    · exact nomatch h
    · dsimp only at h
      split at h
      · exact nomatch h
      · exact nomatch h
  · exact nomatch h

/-! ### The span of a tag -/

/-- A tag is found behind the white space that is read with it. -/
theorem tagSpan_of_text {before ws : List Char} (hws : Blank ws) (m rest : List Char) :
    tagSpan (before ++ (ws ++ (bracketed m ++ rest))) (byteLength before)
        (byteLength (before ++ (ws ++ bracketed m))) =
      Span.ofRange (byteLength (before ++ ws)) (byteLength (before ++ (ws ++ bracketed m))) := by
  -- the text between the offsets is the white space and the tag
  have hslice : Text.sliceBytes? (before ++ (ws ++ (bracketed m ++ rest))) (byteLength before)
      (byteLength (before ++ (ws ++ bracketed m))) = some (ws ++ bracketed m) := by
    rw [← List.append_assoc ws]
    exact Text.sliceBytes?_append before (ws ++ bracketed m) rest
  have hopening : '<' ∉ ws := by
    intro hmem
    exact absurd (hws _ hmem) (by decide)
  have hbreak : Text.breakOn ['<'] (ws ++ bracketed m) = some (ws, m ++ ['>']) :=
    breakOn_quote hopening (m ++ ['>'])
  unfold tagSpan
  rw [hslice, Option.bind_some, hbreak, Text.byteLength_append before ws]

end Markup

end EntityModel
