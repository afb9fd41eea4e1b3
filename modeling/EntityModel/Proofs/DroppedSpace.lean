import EntityModel.Proofs.MarkupCuts
import EntityModel.Proofs.FirstFailure

/-!
# Dropped white space

Character data is read piece by piece, and a run of text loses the white space at its ends.  What is
written is then the same as what is kept but for white space at the ends of the whole, unless white
space is dropped between two pieces that hold more than white space.

* `sameBetweenEnds_iff`     when only the ends of the whole are lost
* `join_value_eq_ok`        what is written is what the data stands for
-/

namespace EntityModel

namespace Text

variable {p : Char → Bool} {a b : List Char}

/-- An end that is all dropped leaves what stands before it. -/
theorem dropEndWhile_append_of_all (h : ∀ c ∈ b, p c = true) :
    dropEndWhile p (a ++ b) = dropEndWhile p a := by
  unfold dropEndWhile
  rw [List.reverse_append, List.dropWhile_append_of_pos fun c hc => h c (List.mem_reverse.mp hc)]

/-- An end that is not all dropped protects what stands before it. -/
theorem dropEndWhile_append_of_not_all (h : ¬ ∀ c ∈ b, p c = true) :
    dropEndWhile p (a ++ b) = a ++ dropEndWhile p b := by
  have hne : b.reverse.dropWhile p ≠ [] := by
    -- something of the second part is left when it is turned round
    intro hnil
    exact h fun c hc => all_of_dropWhile_eq_nil hnil c (List.mem_reverse.mpr hc)
  unfold dropEndWhile
  rw [List.reverse_append, List.dropWhile_append, if_neg (by simpa using hne),
    List.reverse_append, List.reverse_reverse]

end Text

namespace Markup

open Text (trimBoth dropEndWhile)

/-! ### Fragments -/

/-- A part of a written text: one that is kept, or white space that is dropped. -/
inductive Fragment where
  | kept (cs : List Char)
  | dropped (ws : List Char) (blank : Blank ws)

/-- The fragment as it is written. -/
def Fragment.written : Fragment → List Char
  | kept cs => cs
  | dropped ws _ => ws

/-- What is kept of the fragment. -/
def Fragment.remains : Fragment → List Char
  | kept cs => cs
  | dropped _ _ => []

/-- The fragments as they are written. -/
def written (fs : List Fragment) : List Char := fs.flatMap Fragment.written

/-- What is kept of the fragments. -/
def remains (fs : List Fragment) : List Char := fs.flatMap Fragment.remains

/-- No fragments are no text. -/
@[simp] theorem written_nil : written [] = [] := rfl

/-- Of no fragments nothing is kept. -/
@[simp] theorem remains_nil : remains [] = [] := rfl

/-- A kept fragment is written as it is. -/
@[simp] theorem written_kept (cs : List Char) (fs : List Fragment) :
    written (.kept cs :: fs) = cs ++ written fs := List.flatMap_cons

/-- A kept fragment is kept. -/
@[simp] theorem remains_kept (cs : List Char) (fs : List Fragment) :
    remains (.kept cs :: fs) = cs ++ remains fs := List.flatMap_cons

/-- A dropped fragment is written as it is. -/
@[simp] theorem written_dropped (ws : List Char) (h : Blank ws) (fs : List Fragment) :
    written (.dropped ws h :: fs) = ws ++ written fs := List.flatMap_cons

/-- A dropped fragment is not kept. -/
@[simp] theorem remains_dropped (ws : List Char) (h : Blank ws) (fs : List Fragment) :
    remains (.dropped ws h :: fs) = remains fs := List.flatMap_cons

/-- What is kept of fragments one behind the other. -/
@[simp] theorem remains_append (fs gs : List Fragment) :
    remains (fs ++ gs) = remains fs ++ remains gs := List.flatMap_append

/-- The texts are the same but for white space at their ends. -/
def SameBetweenEnds (a b : List Char) : Prop := trimBoth isSpace a = trimBoth isSpace b

/-- White space is dropped between two parts that hold more than white space. -/
def DropsBetweenWords (fs : List Fragment) : Prop :=
  ∃ front ws h back, fs = front ++ .dropped ws h :: back ∧ ws ≠ [] ∧ ¬ Blank (remains front) ∧
    ¬ Blank (remains back)

/-- White space is dropped before a part that holds more than white space. -/
def DropsBeforeWord (fs : List Fragment) : Prop :=
  ∃ front ws h back, fs = front ++ .dropped ws h :: back ∧ ws ≠ [] ∧ ¬ Blank (remains back)

section

variable {a b cs ws : List Char} {fs : List Fragment}

/-- A text is white space if both of its parts are. -/
private theorem blank_append_iff : Blank (a ++ b) ↔ Blank a ∧ Blank b := List.forall_mem_append

/-- The dropped parts hold nothing but white space. -/
theorem blank_written_iff (fs : List Fragment) : Blank (written fs) ↔ Blank (remains fs) := by
  induction fs with
  | nil => rfl
  -- a kept part counts on both sides, a dropped one is white space anyway
  | cons f fs ih =>
    cases f with
    | kept cs => rw [written_kept, remains_kept, blank_append_iff, blank_append_iff, ih]
    | dropped ws h => rw [written_dropped, remains_dropped, blank_append_iff, ih, and_iff_right h]

/-- What is kept in front says nothing about what is dropped before a word. -/
private theorem dropsBeforeWord_kept : DropsBeforeWord (.kept cs :: fs) ↔ DropsBeforeWord fs := by
  constructor
  -- the dropped fragment is not the first one
  · rintro ⟨_ | ⟨f, front⟩, ws, h, back, heq, hne, hback⟩
    · exact nomatch heq
    · obtain ⟨rfl, rfl⟩ := List.cons.inj heq
      exact ⟨front, ws, h, back, rfl, hne, hback⟩
  · rintro ⟨front, ws, h, back, rfl, hne, hback⟩
    exact ⟨.kept cs :: front, ws, h, back, rfl, hne, hback⟩

/-- A dropped fragment in front stands before a word if any word follows. -/
private theorem dropsBeforeWord_dropped {h : Blank ws} :
    DropsBeforeWord (.dropped ws h :: fs) ↔
      (ws ≠ [] ∧ ¬ Blank (remains fs)) ∨ DropsBeforeWord fs := by
  constructor
  -- the dropped fragment is the first one, or one of those behind it
  · rintro ⟨_ | ⟨f, front⟩, ws', h', back, heq, hne, hback⟩
    · obtain ⟨hf, rfl⟩ := List.cons.inj heq
      obtain rfl := (Fragment.dropped.inj hf)
      exact .inl ⟨hne, hback⟩
    · obtain ⟨rfl, rfl⟩ := List.cons.inj heq
      exact .inr ⟨front, ws', h', back, rfl, hne, hback⟩
  · rintro (⟨hne, hback⟩ | ⟨front, ws', h', back, rfl, hne, hback⟩)
    · exact ⟨[], ws, h, fs, rfl, hne, hback⟩
    · exact ⟨.dropped ws h :: front, ws', h', back, rfl, hne, hback⟩

/-- White space in front of everything is not between words. -/
private theorem dropsBetweenWords_dropped {h : Blank ws} :
    DropsBetweenWords (.dropped ws h :: fs) ↔ DropsBetweenWords fs := by
  constructor
  · rintro ⟨_ | ⟨f, front⟩, ws', h', back, heq, hne, hfront, hback⟩
    · exact absurd blank_nil hfront
    · obtain ⟨rfl, rfl⟩ := List.cons.inj heq
      exact ⟨front, ws', h', back, rfl, hne, hfront, hback⟩
  · rintro ⟨front, ws', h', back, rfl, hne, hfront, hback⟩
    exact ⟨.dropped ws h :: front, ws', h', back, rfl, hne, hfront, hback⟩

/-- Behind the first word white space is between words if it stands before one. -/
private theorem dropsBetweenWords_kept :
    DropsBetweenWords (.kept cs :: fs) ↔
      (Blank cs ∧ DropsBetweenWords fs) ∨ (¬ Blank cs ∧ DropsBeforeWord fs) := by
  constructor
  · rintro ⟨_ | ⟨f, front⟩, ws, h, back, heq, hne, hfront, hback⟩
    · exact nomatch heq
    · obtain ⟨rfl, rfl⟩ := List.cons.inj heq
      -- whether the front holds a word is decided by the new fragment or by those before the
      -- dropped one
      rw [remains_kept, blank_append_iff, not_and] at hfront
      by_cases hcs : Blank cs
      · exact .inl ⟨hcs, front, ws, h, back, rfl, hne, hfront hcs, hback⟩
      · exact .inr ⟨hcs, front, ws, h, back, rfl, hne, hback⟩
  · rintro (⟨hcs, front, ws, h, back, rfl, hne, hfront, hback⟩ |
      ⟨hcs, front, ws, h, back, rfl, hne, hback⟩)
    · refine ⟨.kept cs :: front, ws, h, back, rfl, hne, ?_, hback⟩
      rw [remains_kept, blank_append_iff]
      exact fun hboth => hfront hboth.2
    · refine ⟨.kept cs :: front, ws, h, back, rfl, hne, ?_, hback⟩
      rw [remains_kept, blank_append_iff]
      exact fun hboth => hcs hboth.1

/-! ### The end of a text -/

/-- Texts with the same beginning have the same end if what follows it has. -/
theorem dropEndWhile_append_inj_iff (h : Blank a ↔ Blank b) :
    dropEndWhile isSpace (cs ++ a) = dropEndWhile isSpace (cs ++ b) ↔
      dropEndWhile isSpace a = dropEndWhile isSpace b := by
  -- either both are dropped as a whole, or the beginning stands whatever follows
  by_cases ha : Blank a
  · have hb := h.mp ha
    rw [Text.dropEndWhile_append_of_all ha, Text.dropEndWhile_append_of_all hb,
      Text.dropEndWhile_eq_nil_iff.mpr ha, Text.dropEndWhile_eq_nil_iff.mpr hb]
    exact iff_of_true rfl rfl
  · have hb := mt h.mpr ha
    rw [Text.dropEndWhile_append_of_not_all ha, Text.dropEndWhile_append_of_not_all hb,
      List.append_right_inj]

/-- What is kept is no longer than what is written. -/
private theorem length_dropEndWhile_remains_le (fs : List Fragment) :
    (dropEndWhile isSpace (remains fs)).length ≤ (dropEndWhile isSpace (written fs)).length := by
  -- by the fragments from the front; whether any word follows decides what is trimmed
  induction fs with
  | nil => exact Nat.le_refl _
  | cons f fs ih =>
    have hiff := blank_written_iff fs
    by_cases hblank : Blank (remains fs)
    -- no word follows, so the end is trimmed up to this fragment
    · cases f with
      | kept cs =>
        have hsame : dropEndWhile isSpace (cs ++ remains fs) =
            dropEndWhile isSpace (cs ++ written fs) := by
          rw [Text.dropEndWhile_append_of_all hblank,
            Text.dropEndWhile_append_of_all (hiff.mpr hblank)]
        rw [remains_kept, written_kept]
        exact Nat.le_of_eq (congrArg List.length hsame)
      | dropped ws h =>
        rw [remains_dropped, Text.dropEndWhile_eq_nil_iff.mpr hblank]
        exact Nat.zero_le _
    -- a word follows, so this fragment stays as it is
    · have hwritten := mt hiff.mp hblank
      cases f with
      | kept cs =>
        rw [remains_kept, written_kept, Text.dropEndWhile_append_of_not_all hblank,
          Text.dropEndWhile_append_of_not_all hwritten, List.length_append, List.length_append]
        omega
      | dropped ws h =>
        rw [remains_dropped, written_dropped, Text.dropEndWhile_append_of_not_all hwritten,
          List.length_append]
        omega

/-- What is kept has the end of what is written if no white space is dropped before a word. -/
private theorem dropEndWhile_remains_eq_iff (fs : List Fragment) :
    dropEndWhile isSpace (remains fs) = dropEndWhile isSpace (written fs) ↔
      ¬ DropsBeforeWord fs := by
  induction fs with
  | nil =>
    refine iff_of_true rfl ?_
    rintro ⟨front, ws, h, back, heq, -⟩
    exact absurd heq (by simp)
  | cons f fs ih =>
    have hiff := blank_written_iff fs
    cases f with
    -- a kept fragment is the same on both sides
    | kept cs =>
      rw [remains_kept, written_kept, dropsBeforeWord_kept, ← ih,
        dropEndWhile_append_inj_iff hiff.symm]
    -- a dropped one is on the written side only
    | dropped ws h =>
      rw [remains_dropped, written_dropped, dropsBeforeWord_dropped, not_or, ← ih]
      -- no word follows, so nothing is left on either side
      by_cases hblank : Blank (remains fs)
      · have hwritten := hiff.mpr hblank
        rw [Text.dropEndWhile_eq_nil_iff.mpr hblank, Text.dropEndWhile_eq_nil_iff.mpr hwritten,
          Text.dropEndWhile_eq_nil_iff.mpr (h.append hwritten)]
        exact iff_of_true rfl ⟨fun hboth => hboth.2 hblank, rfl⟩
      · rw [Text.dropEndWhile_append_of_not_all (mt hiff.mp hblank)]
        constructor
        · intro heq
          -- the kept text would be too long if any white space stood in front of the written one
          have hlength := congrArg List.length heq
          have hle := length_dropEndWhile_remains_le fs
          rw [List.length_append] at hlength
          obtain rfl : ws = [] := List.length_eq_zero_iff.mp (by omega)
          exact ⟨fun hboth => hboth.1 rfl, heq⟩
        · rintro ⟨hnone, heq⟩
          obtain rfl : ws = [] := Decidable.byContradiction fun hne => hnone ⟨hne, hblank⟩
          exact heq

/-! ### Both ends -/

/-- White space in front of a text is trimmed with that of the text. -/
private theorem trimBoth_append_of_blank (h : Blank a) :
    trimBoth isSpace (a ++ b) = trimBoth isSpace b := by
  unfold trimBoth
  rw [h.dropWhile_append]

/-- What is kept is what is written, but for white space at the ends, if no white space is dropped
    between words. -/
theorem sameBetweenEnds_iff (fs : List Fragment) :
    SameBetweenEnds (remains fs) (written fs) ↔ ¬ DropsBetweenWords fs := by
  unfold SameBetweenEnds
  induction fs with
  | nil =>
    refine iff_of_true rfl ?_
    rintro ⟨front, ws, h, back, heq, -⟩
    exact absurd heq (by simp)
  | cons f fs ih =>
    cases f with
    | dropped ws h =>
      -- dropped in front of everything, where it is trimmed anyway
      rw [remains_dropped, written_dropped, dropsBetweenWords_dropped, trimBoth_append_of_blank h,
        ih]
    | kept cs =>
      rw [remains_kept, written_kept, dropsBetweenWords_kept]
      -- a kept part of white space alone is trimmed as well
      by_cases hcs : Blank cs
      · simp only [trimBoth_append_of_blank hcs, ih, hcs, true_and, not_true_eq_false, false_and,
          or_false]
      · -- from the first word on only the end is trimmed
        obtain ⟨ws, c, more, rfl, hws, hc⟩ := exists_of_not_blank hcs
        have htrim : ∀ rest, trimBoth isSpace (ws ++ c :: more ++ rest) =
            dropEndWhile isSpace (c :: more ++ rest) := by
          intro rest
          rw [List.append_assoc, trimBoth_append_of_blank hws, trimBoth, List.cons_append,
            List.dropWhile_cons_of_neg (by simp [hc])]
        rw [htrim, htrim, dropEndWhile_append_inj_iff (blank_written_iff fs).symm,
          dropEndWhile_remains_eq_iff]
        simp [hcs]

end

/-! ### Resolving references part by part -/

/-- Where a reference stands is told only by its fault. -/
-- a reference by number does not look at its position, and one by name only to fail
private theorem resolve_eq_ok {position : Nat} {body : List Char} {c : Char}
    (h : Reference.resolve position body = .ok c) (other : Nat) :
    Reference.resolve other body = .ok c := by
  unfold Reference.resolve at h ⊢
  split at h
  · exact h
  · cases hlookup : Reference.named.lookup body with
    | none =>
      rw [hlookup] at h
      exact nomatch h
    | some d =>
      rw [hlookup] at h
      exact h

/-- Two functions on a result one after the other. -/
theorem map_map {α β γ ε : Type} (f : α → β) (g : β → γ) (x : Except ε α) :
    (x.map f).map g = x.map (g ∘ f) := by
  cases x <;> rfl

/-- A text whose references are resolved is resolved in the same way within a longer one. -/
theorem unescapeFrom_append {total position : Nat} {cs v : List Char}
    (h : unescapeFrom total position cs = .ok v) (total' position' : Nat) (more : List Char) :
    ∃ next, unescapeFrom total' position' (cs ++ more) =
      (unescapeFrom total' next more).map (v ++ ·) := by
  -- by the search for references, which reads the longer text in the same steps
  induction position, cs using unescapeFrom.induct generalizing position' v with
  | case1 position =>
    rw [unescapeFrom_nil] at h
    obtain rfl := Except.ok.inj h
    refine ⟨position', ?_⟩
    rw [List.nil_append]
    cases unescapeFrom total' position' more <;> rfl
  -- a reference that ends within the text
  | case2 position cs rest hrest body =>
    rename_i ih
    have hcs : cs = body ++ ';' :: rest := by
      rw [← hrest, List.takeWhile_append_dropWhile]
    have hbody : ∀ d ∈ body, Reference.endsBody d = false := by
      intro d hd
      simpa using List.all_eq_true.mp List.all_takeWhile d hd
    clear_value body
    subst hcs
    rw [unescapeFrom_body hbody] at h
    cases hc : Reference.resolve (position + 1) body with
    | error f =>
      rw [hc] at h
      simp [Except.bind] at h
    | ok c =>
      rw [hc] at h
      obtain ⟨w, hw, rfl⟩ := map_eq_ok_iff.mp h
      obtain ⟨next, hnext⟩ := ih hw (position' + 1 + Text.byteLength body + 1)
      refine ⟨next, ?_⟩
      rw [List.cons_append, List.append_assoc, List.cons_append, unescapeFrom_body hbody,
        resolve_eq_ok hc, hnext]
      exact map_map _ _ _
  -- a reference that does not end would be a fault
  | case3 position cs hrest =>
    rw [unescapeFrom] at h
    split at h
    · exact absurd ‹_› (hrest _)
    · simp at h
  -- any other character
  | case4 position c cs hc ih =>
    rw [unescapeFrom_cons_of_ne hc] at h
    obtain ⟨w, hw, rfl⟩ := map_eq_ok_iff.mp h
    obtain ⟨next, hnext⟩ := ih hw (position' + c.utf8Size)
    refine ⟨next, ?_⟩
    rw [List.cons_append, unescapeFrom_cons_of_ne hc, hnext, map_map]
    rfl

/-- White space around a text stays around what the text stands for. -/
private theorem unescape_padded {front back cs v : List Char} (hfront : Blank front)
    (hback : Blank back)
    (h : unescape cs = .ok v) : unescape (front ++ (cs ++ back)) = .ok (front ++ (v ++ back)) := by
  have hplain {ws : List Char} (hws : Blank ws) (total position : Nat) :
      unescapeFrom total position ws = .ok ws := by
    -- white space has no reference in it
    apply unescapeFrom_of_not_mem
    intro hmem
    exact absurd (hws _ hmem) (by decide)
  unfold unescape
  -- in front, then the text itself, then behind
  obtain ⟨middle, hmiddle⟩ := unescapeFrom_append (hplain hfront 0 0)
    (Text.byteLength (front ++ (cs ++ back))) 0 (cs ++ back)
  obtain ⟨last, hlast⟩ := unescapeFrom_append h
    (Text.byteLength (front ++ (cs ++ back))) middle back
  rw [hmiddle, hlast, hplain hback]
  rfl

/-! ### Character data -/

/-- A part of the character data of an element: what stands between two pieces of markup, or a
    `CDATA` section. -/
inductive CharacterData where
  | run (cs : List Char)
  | verbatim (cs : List Char)

/-- The white space before everything else. -/
def leading (cs : List Char) : List Char := cs.takeWhile isSpace

/-- The white space behind everything else. -/
def trailing (cs : List Char) : List Char := ((cs.dropWhile isSpace).reverse.takeWhile isSpace).reverse

/-- What is leading is white space. -/
theorem blank_leading (cs : List Char) : Blank (leading cs) :=
  List.all_eq_true.mp List.all_takeWhile

/-- What is trailing is white space. -/
theorem blank_trailing (cs : List Char) : Blank (trailing cs) := fun c hc =>
  List.all_eq_true.mp List.all_takeWhile c (List.mem_reverse.mp hc)

/-- A text is its trimmed part with what was trimmed around it. -/
private theorem leading_append_trimBoth (cs : List Char) :
    leading cs ++ (trimBoth isSpace cs ++ trailing cs) = cs := by
  unfold leading trailing trimBoth dropEndWhile
  rw [← List.reverse_append, List.takeWhile_append_dropWhile, List.reverse_reverse,
    List.takeWhile_append_dropWhile]

namespace CharacterData

-- the value is read off the text as it stands, without a look at its ends
/-- What the data stands for: references are resolved, in a section there are none. -/
def value : CharacterData → Except ReferenceFault (List Char)
  | run cs => unescape cs
  | verbatim cs => .ok cs

/-- What is kept of the data, and what is dropped: the white space around a run. -/
def fragments : CharacterData → Except ReferenceFault (List Fragment)
  | run cs => (unescape (trimBoth isSpace cs)).map fun v =>
      [.dropped (leading cs) (blank_leading cs), .kept v, .dropped (trailing cs) (blank_trailing cs)]
  | verbatim cs => .ok [.kept cs]

/-- The fragments of the data are together what it stands for. -/
private theorem value_eq_ok {d : CharacterData} {fs : List Fragment} (h : d.fragments = .ok fs) :
    d.value = .ok (written fs) := by
  cases d with
  | verbatim cs =>
    obtain rfl := Except.ok.inj h
    simp [value]
  | run cs =>
    obtain ⟨v, hv, rfl⟩ := map_eq_ok_iff.mp h
    -- resolving the whole is resolving its trimmed part between the two ends
    have hall := unescape_padded (blank_leading cs) (blank_trailing cs) hv
    rw [leading_append_trimBoth] at hall
    simp [value, hall]

end CharacterData

/-- What is read from each part of the data, one after the other. -/
def join {α : Type} (f : CharacterData → Except ReferenceFault (List α))
    (ds : List CharacterData) : Except ReferenceFault (List α) :=
  (ds.mapM f).map List.flatten

/-- What is joined is read part by part. -/
theorem join_eq_ok_iff {α : Type} {f : CharacterData → Except ReferenceFault (List α)}
    {ds : List CharacterData} {as : List α} :
    join f ds = .ok as ↔ ∃ parts, List.Forall₂ (fun d part => f d = .ok part) ds parts ∧
      parts.flatten = as := by
  simp only [join, map_eq_ok_iff, mapM_eq_ok_iff]

/-- What is joined of two lists of data is joined of each. -/
theorem join_append {α : Type} {f : CharacterData → Except ReferenceFault (List α)}
    {ds more : List CharacterData} {as bs : List α} (h : join f ds = .ok as)
    (h' : join f more = .ok bs) : join f (ds ++ more) = .ok (as ++ bs) := by
  obtain ⟨parts, hparts, rfl⟩ := join_eq_ok_iff.mp h
  obtain ⟨others, hothers, rfl⟩ := join_eq_ok_iff.mp h'
  exact join_eq_ok_iff.mpr ⟨parts ++ others, List.rel_append hparts hothers, List.flatten_append⟩

/-- What the data stands for is what is kept of it with what is dropped. -/
theorem join_value_eq_ok {ds : List CharacterData} {fs : List Fragment}
    (h : join CharacterData.fragments ds = .ok fs) :
    join CharacterData.value ds = .ok (written fs) := by
  obtain ⟨parts, hparts, rfl⟩ := join_eq_ok_iff.mp h
  refine join_eq_ok_iff.mpr ⟨parts.map written, ?_, ?_⟩
  -- each part is what the data stands for, by the lemma about one piece
  · exact List.forall₂_map_right_iff.mpr (hparts.imp fun d part => CharacterData.value_eq_ok)
  · rw [written, List.flatMap_def, List.map_flatten, List.flatten_flatten, List.map_map]
    rfl

end Markup

end EntityModel
