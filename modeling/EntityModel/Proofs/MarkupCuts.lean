import EntityModel.Proofs.PieceTexts
import EntityModel.Proofs.WrittenElements
import Mathlib

/-!
# Cuts of a text

A text that is scanned to its end falls into runs without a `<` and markup in brackets, and every
text that falls apart like this is scanned to its end: each markup is a token, and each run is one
more in front of it unless it is blank.  So what is known of the runs and the markup of a text is
known of its tokens, also where two texts are put together that were scanned by themselves.

* `splitMarkup_append`    markup ends where it ended, whatever is put behind the text
* `Cut`                   a text falls into runs and these pieces of markup
* `scansTo_bracket`       the tokens of a run and the markup behind it
* `cut_of_scanFrom`       a text that is scanned to its end can be cut
-/

namespace EntityModel

/-- A search that has seen the pattern does not look at what is put behind the text. -/
private theorem Text.breakOn_append {pattern cs before after : List Char}
    (h : breakOn pattern cs = some (before, after)) (rest : List Char) :
    breakOn pattern (cs ++ rest) = some (before, after ++ rest) := by
  induction cs generalizing before with
  | nil =>
    simp only [breakOn] at h
    split at h
    · rename_i hempty
      obtain ⟨rfl, rfl⟩ := Prod.mk.inj (Option.some.inj h)
      obtain rfl := List.isEmpty_iff.mp hempty
      cases rest <;> rfl
    · simp at h
  | cons c cs ih =>
    have hwhole := breakOn_eq_append h
    simp only [breakOn] at h
    split at h
    · rename_i hfront
      obtain ⟨rfl, rfl⟩ := Prod.mk.inj (Option.some.inj h)
      have hbegins := List.isPrefixOf_iff_prefix.mp hfront
      have hlonger : pattern.isPrefixOf (c :: (cs ++ rest)) = true :=
        List.isPrefixOf_iff_prefix.mpr (hbegins.trans (List.prefix_append (c :: cs) rest))
      rw [List.cons_append, breakOn, if_pos hlonger, ← List.cons_append,
        List.drop_append_of_le_length hbegins.length_le]
    · rename_i hfront
      obtain ⟨⟨b, a⟩, hb, hcons⟩ := Option.map_eq_some_iff.mp h
      obtain ⟨rfl, rfl⟩ := Prod.mk.inj hcons
      -- the text up to the first occurrence is too long for the pattern to reach behind it
      have hlength : pattern.length ≤ (c :: cs).length := by
        rw [hwhole]
        simp only [List.length_append]
        omega
      have hnot : ¬ pattern.isPrefixOf (c :: (cs ++ rest)) = true := by
        rw [List.isPrefixOf_iff_prefix] at hfront ⊢
        intro hbegins
        exact hfront (List.prefix_of_prefix_length_le hbegins (List.prefix_append (c :: cs) rest)
          hlength)
      rw [List.cons_append, breakOn, if_neg hnot, ih hb]
      rfl

namespace Markup

open Text (byteLength)

/-! ### Markup in a longer text -/

section

variable {cs m r : List Char}

/-- The end of a tag is where it was, whatever is put behind the text. -/
private theorem splitTag_append {quote : Option Char} (h : splitTag quote cs = some (m, r))
    (rest : List Char) : splitTag quote (cs ++ rest) = some (m, r ++ rest) := by
  induction cs generalizing quote m with
  | nil => exact nomatch h
  | cons c cs ih =>
    cases quote with
    -- the induction goes over the text with the quote that is open, which is what the search
    -- carries
    | none =>
      rw [splitTag] at h
      rw [List.cons_append, splitTag]
      split at h
      · rename_i hc
        obtain ⟨rfl, rfl⟩ := Prod.mk.inj (Option.some.inj h)
        rw [if_pos hc]
      · rename_i hc
        obtain ⟨⟨m', r'⟩, hm, hcons⟩ := Option.map_eq_some_iff.mp h
        obtain ⟨rfl, rfl⟩ := Prod.mk.inj hcons
        rw [if_neg hc, ih hm]
        rfl
    | some q =>
      rw [splitTag] at h
      obtain ⟨⟨m', r'⟩, hm, hcons⟩ := Option.map_eq_some_iff.mp h
      obtain ⟨rfl, rfl⟩ := Prod.mk.inj hcons
      rw [List.cons_append, splitTag, ih hm]
      rfl

/-- The end of a document type is where it was, whatever is put behind the text. -/
private theorem splitDoctype_append {depth : Nat} (h : splitDoctype depth cs = some (m, r))
    (rest : List Char) : splitDoctype depth (cs ++ rest) = some (m, r ++ rest) := by
  fun_induction splitDoctype depth cs generalizing m with
  | case1 => simp at h
  | case2 depth cs ih =>
    obtain ⟨⟨m', r'⟩, hm, hcons⟩ := Option.map_eq_some_iff.mp h
    obtain ⟨rfl, rfl⟩ := Prod.mk.inj hcons
    rw [List.cons_append, splitDoctype, ih hm]
    rfl
  | case3 cs =>
    obtain ⟨rfl, rfl⟩ := Prod.mk.inj (Option.some.inj h)
    rfl
  | case4 cs d ih =>
    obtain ⟨⟨m', r'⟩, hm, hcons⟩ := Option.map_eq_some_iff.mp h
    obtain ⟨rfl, rfl⟩ := Prod.mk.inj hcons
    rw [List.cons_append, splitDoctype, ih hm]
    rfl
  | case5 depth c cs hopen hclose ih =>
    obtain ⟨⟨m', r'⟩, hm, hcons⟩ := Option.map_eq_some_iff.mp h
    obtain ⟨rfl, rfl⟩ := Prod.mk.inj hcons
    rw [List.cons_append, splitDoctype, ih hm]
    · rfl
    · exact hopen
    · exact hclose

/-- The end of markup with an end mark of its own is where it was, whatever is put behind the text.
    -/
private theorem splitClosing_append {closing : List Char}
    (h : splitClosing closing cs = some (m, r))
    (rest : List Char) : splitClosing closing (cs ++ rest) = some (m, r ++ rest) := by
  obtain ⟨⟨m', r'⟩, hm, hcons⟩ := Option.map_eq_some_iff.mp h
  obtain ⟨rfl, rfl⟩ := Prod.mk.inj hcons
  rw [splitClosing, Text.breakOn_append hm]
  rfl

/-- The end of a comment is where it was, whatever is put behind the text. -/
private theorem splitComment_append (h : splitComment cs = some (m, r)) (rest : List Char) :
    splitComment (cs ++ rest) = some (m, r ++ rest) := by
  obtain ⟨⟨m', r'⟩, hm, hcons⟩ := Option.map_eq_some_iff.mp h
  obtain ⟨rfl, rfl⟩ := Prod.mk.inj hcons
  -- the end mark was found behind three characters, so these are there
  have hthree : 3 ≤ cs.length := by
    have hlong := congrArg List.length (splitClosing_eq_append hm)
    simp only [List.length_drop, List.length_append, List.length_cons] at hlong
    omega
  rw [splitComment, List.drop_append_of_le_length hthree, List.take_append_of_le_length hthree,
    splitClosing_append hm]
  rfl

/-- Markup that its first two characters tell ends where the search for its end stopped. -/
theorem splitMarkup_append_of {split : List Char → Option (List Char × List Char)}
    {f : SyntaxFault} {a b : Char} {t rest : List Char}
    (hsplit : ∀ cs, splitMarkup (a :: b :: cs) = (split (a :: b :: cs)).elim (.error f) .ok)
    (happend : split (a :: b :: t ++ rest) = some (m, r)) :
    splitMarkup (a :: b :: t ++ rest) = .ok (m, r) := by
  rw [List.cons_append, List.cons_append] at happend ⊢
  rw [hsplit, happend]
  rfl

/-- Markup ends where it ended, whatever is put behind the text. -/
theorem splitMarkup_append (h : splitMarkup cs = .ok (m, r)) (rest : List Char) :
    splitMarkup (cs ++ rest) = .ok (m, r ++ rest) := by
  -- markup ends only where the search of its kind has found an end
  have found {f : SyntaxFault} {o : Option (List Char × List Char)}
      (ho : o.elim (.error f) .ok = (.ok (m, r) : Except SyntaxFault _)) : o = some (m, r) := by
    cases o with
    | none => simp at ho
    | some p => exact congrArg some (Except.ok.inj ho)
  -- the first two characters tell what begins, and they are the same in the longer text
  unfold splitMarkup at h
  split at h
  · exact splitMarkup_append_of (fun _ => rfl) (splitClosing_append (found h) rest)
  · exact splitMarkup_append_of (fun _ => rfl) (splitComment_append (found h) rest)
  · exact splitMarkup_append_of (fun _ => rfl) (splitDoctype_append (found h) rest)
  · exact splitMarkup_append_of (fun _ => rfl) (splitDoctype_append (found h) rest)
  · simp at h
  · have hlonger := splitClosing_append (found h) rest
    rw [List.cons_append] at hlonger ⊢
    rw [splitMarkup, hlonger]
    rfl
  · rename_i hbang hquestion
    -- a tag is everything else, so its first character is not one of those that begin other markup
    have htag := found h
    have hlonger := splitTag_append htag rest
    cases cs with
    | nil => simp [splitTag] at htag
    | cons c cs =>
      have hfirst : c ≠ '!' ∧ c ≠ '?' := by
        constructor
        · rintro rfl
          exact hbang _ rfl
        · rintro rfl
          exact hquestion _ rfl
      rw [List.cons_append] at hlonger ⊢
      rw [splitMarkup_tag hfirst.1 hfirst.2, hlonger]
      rfl

end

/-- Markup ends at its `>` in every text. -/
private theorem Piece.IsMarkup.splitMarkup_eq {piece : Piece} {m : List Char} (h : piece.IsMarkup m)
    (rest : List Char) : splitMarkup (m ++ '>' :: rest) = .ok (m, rest) := by
  have hlonger := splitMarkup_append h.ends rest
  rwa [List.append_assoc] at hlonger

/-! ### Cuts -/

/-- What stands between a `<` and its `>`, and the piece that is read from it. -/
structure Bracket where
  content : List Char
  piece : Piece
  isMarkup : piece.IsMarkup content

/-- The markup as it stands in a text. -/
def Bracket.chars (b : Bracket) : List Char := bracketed b.content

/-- The text falls into runs without a `<` and these pieces of markup. -/
inductive Cut : List Char → List Bracket → Prop
  | nil : Cut [] []
  | run {run cs : List Char} {bs : List Bracket} (hrun : '<' ∉ run) (rest : Cut cs bs) :
      Cut (run ++ cs) bs
  | markup {cs : List Char} {bs : List Bracket} (b : Bracket) (rest : Cut cs bs) :
      Cut (b.chars ++ cs) (b :: bs)

/-- A text without a `<` is one run. -/
theorem cut_run {run : List Char} (h : '<' ∉ run) : Cut run [] := by
  have hall : Cut (run ++ []) [] := .run h .nil
  rwa [List.append_nil] at hall

/-- Two texts that are cut by themselves are cut at the same places when they stand together. -/
theorem Cut.append {cs ds : List Char} {bs more : List Bracket} (h : Cut cs bs)
    (h' : Cut ds more) : Cut (cs ++ ds) (bs ++ more) := by
  induction h with
  | nil => exact h'
  | run hrun _ ih =>
    rw [List.append_assoc]
    exact .run hrun ih
  | markup b _ ih =>
    rw [List.append_assoc]
    exact .markup b ih

/-- White space is no `<`. -/
theorem not_mem_blank {ws : List Char} (h : Blank ws) : '<' ∉ ws := fun hmem =>
  absurd (h _ hmem) (by decide)

/-- A byte order mark stands in a run. -/
theorem Cut.dropByteOrderMark {cs : List Char} {bs : List Bracket} (h : Cut cs bs) :
    Cut (dropByteOrderMark cs) bs := by
  -- only the first character can be a byte order mark, and a `<` is none
  induction h with
  | nil => exact .nil
  | @run run cs bs hrun rest ih =>
    cases run with
    | nil => exact ih
    | cons c run =>
      rw [List.cons_append, Markup.dropByteOrderMark]
      -- the mark is taken off the run, or the run begins with something else and stays
      split
      · exact .run (fun hmem => hrun (List.mem_cons_of_mem _ hmem)) rest
      · exact .run hrun rest
  | markup b rest _ => exact .markup b rest

/-! ### The tokens of a cut text -/

/-- The tokens of a run at the offset, and where the token behind them starts: a run is one token
    unless it is blank, and a blank one is read with what follows it. -/
inductive RunTokens (start : Nat) (run : List Char) : List Token → Nat → Prop
  | blank (h : Blank run) : RunTokens start run [] start
  | text {origin : Nat} (h : ¬ Blank run) :
      RunTokens start run
        [⟨.text (Text.trimBoth isSpace run), start, origin, start + byteLength run⟩]
        (start + byteLength run)

/-- A text that is not blank has a first character that is no white space. -/
theorem exists_of_not_blank {cs : List Char} (h : ¬ Blank cs) :
    ∃ ws c more, cs = ws ++ c :: more ∧ Blank ws ∧ isSpace c = false := by
  have hws : Blank (cs.takeWhile isSpace) := List.all_eq_true.mp List.all_takeWhile
  cases hcs : cs.dropWhile isSpace with
  | nil => exact absurd (Text.all_of_dropWhile_eq_nil hcs) h
  | cons c more =>
    refine ⟨cs.takeWhile isSpace, c, more, ?_, hws, Text.head_dropWhile hcs⟩
    rw [← hcs, List.takeWhile_append_dropWhile]

section

variable {run rest : List Char} (start : Nat)

/-- A run that is not blank is the next token, and what follows it is left. -/
theorem nextToken_run (hrun : '<' ∉ run) (hblank : ¬ Blank run)
    (hrest : ∀ c ∈ rest.head?, c = '<') :
    -- the white space in front belongs to the token but not to its text
    ∃ origin, nextToken start (run ++ rest) =
      .token ⟨.text (Text.trimBoth isSpace run), start, origin, start + byteLength run⟩ rest := by
  obtain ⟨ws, c, more, rfl, hws, hc⟩ := exists_of_not_blank hblank
  obtain ⟨-, hword⟩ := not_or.mp (mt List.mem_append.mpr hrun)
  have hopening : c ≠ '<' := by
    rintro rfl
    exact hword List.mem_cons_self
  -- the run goes on to the next `<` or to the end of the text
  have hother : ∀ d ∈ c :: more, (d != '<') = true := by
    intro d hd
    rw [bne_iff_ne]
    rintro rfl
    exact hword hd
  have hstop : rest.takeWhile (· != '<') = [] ∧ rest.dropWhile (· != '<') = rest := by
    cases rest with
    | nil => exact ⟨rfl, rfl⟩
    | cons d rest =>
      obtain rfl := hrest d rfl
      exact ⟨rfl, rfl⟩
  have hdrop : (ws ++ (c :: more ++ rest)).dropWhile isSpace = c :: more ++ rest := by
    rw [hws.dropWhile_append, List.cons_append, List.dropWhile_cons_of_neg (by simp [hc])]
  have htake : (ws ++ (c :: more ++ rest)).takeWhile isSpace = ws := by
    rw [List.takeWhile_append_of_pos hws, List.cons_append,
      List.takeWhile_cons_of_neg (by simp [hc]), List.append_nil]
  have htrim : Text.trimBoth isSpace (ws ++ c :: more) =
      Text.dropEndWhile isSpace (c :: more) := by
    rw [Text.trimBoth, hws.dropWhile_append, List.dropWhile_cons_of_neg (by simp [hc])]
  refine ⟨start + byteLength ws, ?_⟩
  rw [List.append_assoc, nextToken_eq_readText hdrop (by simp) (by simpa using hopening), htake,
    readText, List.takeWhile_append_of_pos hother, List.dropWhile_append_of_pos hother, hstop.1,
    hstop.2, List.append_nil, htrim, Text.byteLength_append, Nat.add_assoc]

/-- A blank run is read with the markup behind it. -/
theorem nextToken_bracket (hblank : Blank run) (b : Bracket) :
    nextToken start (run ++ (b.chars ++ rest)) =
      .token ⟨b.piece, start, start + byteLength run, start + byteLength (run ++ b.chars)⟩
        rest := by
  -- the white space in front is passed over, and the first other character is the `<`
  have hdrop : (run ++ (b.chars ++ rest)).dropWhile isSpace = '<' :: (b.content ++ '>' :: rest) := by
    rw [hblank.dropWhile_append, Bracket.chars, bracketed_append,
      List.dropWhile_cons_of_neg (by decide)]
  have htake : (run ++ (b.chars ++ rest)).takeWhile isSpace = run := by
    rw [List.takeWhile_append_of_pos hblank, Bracket.chars, bracketed_append,
      List.takeWhile_cons_of_neg (by decide), List.append_nil]
  have hopen : ('<' : Char).utf8Size = 1 := rfl
  have hclose : ('>' : Char).utf8Size = 1 := rfl
  -- the piece is that of the content, and the offsets are the lengths of what was read
  rw [nextToken_eq_readMarkup hdrop, htake, readMarkup, b.isMarkup.splitMarkup_eq]
  dsimp only
  rw [b.isMarkup.reads]
  simp only [Bracket.chars, bracketed, Text.byteLength_append, Text.byteLength_cons,
    Text.byteLength_nil]
  congr 2
  omega

/-- A run and the markup behind it are scanned to their tokens. -/
theorem scansTo_bracket (hrun : '<' ∉ run) (b : Bracket) (rest : List Char) :
    ∃ tokens next origin, RunTokens start run tokens next ∧
      ScansTo start (run ++ (b.chars ++ rest))
        (tokens ++ [⟨b.piece, next, origin, start + byteLength (run ++ b.chars)⟩])
        (start + byteLength (run ++ b.chars)) rest := by
  by_cases hblank : Blank run
  -- a blank run gives no token, and the markup is read with it
  · exact ⟨[], start, _, .blank hblank, scansTo_token (nextToken_bracket start hblank b)⟩
  -- a run that is not blank is a token of its own, and the markup is read from where it ends
  · have hhead : ∀ c ∈ (b.chars ++ rest).head?, c = '<' := by
      rintro c ⟨⟩
      rfl
    obtain ⟨origin, htext⟩ := nextToken_run start hrun hblank hhead
    have hmarkup := @nextToken_bracket [] rest (start + byteLength run) blank_nil b
    have hstop : start + byteLength run + byteLength b.chars =
        start + byteLength (run ++ b.chars) := by
      rw [Text.byteLength_append, Nat.add_assoc]
    rw [List.nil_append, List.nil_append, hstop] at hmarkup
    exact ⟨_, _, _, .text hblank, (scansTo_token htext).trans (scansTo_token hmarkup)⟩

/-- A run at the end of a text is scanned to its tokens. -/
theorem scanFrom_run (hrun : '<' ∉ run) :
    ∃ tokens next, RunTokens start run tokens next ∧ scanFrom start run = (tokens, none) := by
  by_cases hblank : Blank run
  · exact ⟨[], start, .blank hblank, scanFrom_blank hblank start⟩
  · obtain ⟨origin, htext⟩ := @nextToken_run run [] start hrun hblank nofun
    rw [List.append_nil] at htext
    -- nothing is left behind the run, so this token is the last one
    refine ⟨_, _, @RunTokens.text _ _ origin hblank, ?_⟩
    rw [scanFrom_token htext, scanFrom_blank blank_nil]

end

/-- A text that is scanned to its end can be cut. -/
theorem cut_of_scanFrom {start : Nat} {cs : List Char} (h : (scanFrom start cs).2 = none) :
    ∃ bs, Cut cs bs := by
  induction start, cs using scanFrom.induct with
  -- a scan that finds nothing more has only white space left, which is a run
  | case1 start cs hfinished => exact ⟨[], cut_run (not_mem_blank (blank_of_nextToken hfinished))⟩
  | case2 start cs f position hfault =>
    rw [scanFrom_fault hfault] at h
    exact nomatch h
  | case3 start cs t rest htoken ih =>
    rw [scanFrom_token htoken] at h
    obtain ⟨bs, hrest⟩ := ih h
    obtain ⟨ws, text, hws, htext, rfl, -, -⟩ := exists_text_of_nextToken htoken
    -- white space is a run, and so is text that is no markup
    generalize t.piece = piece at htext
    cases htext with
    | markup hm => exact ⟨_, .run (not_mem_blank hws) (.markup ⟨_, _, hm⟩ hrest)⟩
    | run hrun => exact ⟨bs, .run (not_mem_blank hws) (.run hrun hrest)⟩

end Markup

end EntityModel
