import EntityModel.Output.Destination

/-!
# Names put into a pattern

A pattern for paths has no slash in the placeholder, and a plain file name has none either.  So the
name is put into each part of a pattern by itself, and a path has the components of its pattern, each
filled with the name.  A filled component is a normal one: it keeps its place, and it leads neither
up nor to where it is.

* `replaceAll_append_cons`          replacing goes on by itself behind a character that is not replaced
* `components_fill`                 a filled pattern is filled component by component
* `components_join`                 a file within a directory is one component more
* `path_stays_within_pattern`       the components of a path, against those of its pattern
-/

namespace EntityModel

/-! ### Replacing around a character -/

namespace Text

variable {pattern replacement before after cs : List Char} {c : Char}

/-- A pattern without the character begins in front of it, or not at all. -/
theorem isPrefixOf_append_cons (hc : c ∉ pattern) :
    pattern.isPrefixOf (before ++ c :: after) = pattern.isPrefixOf before := by
  rw [Bool.eq_iff_iff, List.isPrefixOf_iff_prefix, List.isPrefixOf_iff_prefix]
  constructor
  -- the pattern cannot reach the character, as it would hold it
  · intro h
    have hfront : before ++ [c] <+: before ++ c :: after := ⟨after, by simp⟩
    rcases List.prefix_or_prefix_of_prefix h hfront with hshort | hlong
    · rcases List.prefix_concat_iff.mp hshort with rfl | hshort
      · exact absurd (by simp) hc
      · exact hshort
    · exact absurd (hlong.subset (by simp)) hc
  · exact fun h => h.trans (List.prefix_append before (c :: after))

/-- The first occurrence of a pattern without the character is in front of it if there is one. -/
theorem breakOn_append_cons (hc : c ∉ pattern) (before after : List Char) :
    breakOn pattern (before ++ c :: after) =
      -- by the text in front, from its first position to the character
      ((breakOn pattern before).map fun p => (p.1, p.2 ++ c :: after)).or
        ((breakOn pattern after).map fun p => (before ++ c :: p.1, p.2)) := by
  induction before with
  | nil =>
    rw [List.nil_append]
    cases pattern with
    | nil => simp [breakOn]
    -- at the character itself the pattern does not begin
    | cons d pattern =>
      have hne : (d :: pattern).isPrefixOf (c :: after) = false :=
        show (d :: pattern).isPrefixOf ([] ++ c :: after) = false from isPrefixOf_append_cons hc
      simp [breakOn, hne]
  | cons d before ih =>
    rw [List.cons_append, breakOn, breakOn, ← List.cons_append, isPrefixOf_append_cons hc]
    -- at an earlier position, either it begins there or it is looked for further on
    split
    · rename_i hprefix
      have hlength := (List.isPrefixOf_iff_prefix.mp hprefix).length_le
      rw [List.drop_append_of_le_length hlength]
      rfl
    · rw [ih]
      cases breakOn pattern before with
      | some p => rfl
      | none => cases breakOn pattern after <;> rfl

/-- A text in which the pattern occurs, before and behind the first occurrence. -/
theorem replaceAll_of_breakOn_eq_some (hp : pattern ≠ []) (h : breakOn pattern cs = some (before, after)) :
    replaceAll pattern replacement cs =
      before ++ replacement ++ replaceAll pattern replacement after := by
  rw [replaceAll]
  split
  · rename_i hnone
    cases hnone.symm.trans h
  · rename_i b a hsome
    obtain ⟨rfl, rfl⟩ := Prod.mk.inj (Option.some.inj (hsome.symm.trans h))
    rw [dif_neg hp]

/-- A text in which the pattern does not occur stays as it is. -/
theorem replaceAll_of_breakOn_eq_none (h : breakOn pattern cs = none) :
    replaceAll pattern replacement cs = cs := by
  rw [replaceAll]
  split
  · rfl
  · rename_i hsome
    cases hsome.symm.trans h

/-- Replacing goes on by itself behind a character that the pattern does not hold. -/
theorem replaceAll_append_cons (hp : pattern ≠ []) (hc : c ∉ pattern) (before after : List Char) :
    replaceAll pattern replacement (before ++ c :: after) =
      replaceAll pattern replacement before ++ c :: replaceAll pattern replacement after := by
  -- by the occurrences in front of the character
  induction before using replaceAll.induct pattern with
  -- there are none, so the first one is behind the character if there is any
  | case1 before hnone =>
    have hwhole := breakOn_append_cons hc before after
    rw [hnone, Option.map_none, Option.none_or] at hwhole
    rw [replaceAll_of_breakOn_eq_none hnone]
    cases hafter : breakOn pattern after with
    | none =>
      rw [hafter] at hwhole
      rw [replaceAll_of_breakOn_eq_none hwhole, replaceAll_of_breakOn_eq_none hafter]
    | some p =>
      rw [hafter] at hwhole
      rw [replaceAll_of_breakOn_eq_some hp hwhole, replaceAll_of_breakOn_eq_some hp hafter]
      simp
  | case2 before first rest hsome hnil => exact absurd hnil hp
  -- the first one is in front, on both sides
  | case3 before first rest hsome hne ih =>
    have hwhole := breakOn_append_cons hc before after
    rw [hsome, Option.map_some, Option.some_or] at hwhole
    rw [replaceAll_of_breakOn_eq_some hp hwhole, replaceAll_of_breakOn_eq_some hp hsome, ih]
    simp

/-- A text without the character occurs in front of it or behind it. -/
private theorem occurs_append_cons (hc : c ∉ pattern) (before after : List Char) :
    occurs pattern (before ++ c :: after) = (occurs pattern before || occurs pattern after) := by
  rw [occurs, occurs, occurs, breakOn_append_cons hc]
  cases breakOn pattern before <;> cases breakOn pattern after <;> rfl

/-- What is in a text after replacing was in it before or is part of the replacement. -/
theorem mem_of_mem_replaceAll (hp : pattern ≠ []) (h : c ∈ replaceAll pattern replacement cs) :
    c ∈ cs ∨ c ∈ replacement := by
  -- by the occurrences, in the text in front of one, in the replacement or behind it
  induction cs using replaceAll.induct pattern with
  | case1 cs hnone =>
    rw [replaceAll_of_breakOn_eq_none hnone] at h
    exact .inl h
  | case2 cs first rest hsome hnil => exact absurd hnil hp
  | case3 cs first rest hsome hne ih =>
    rw [replaceAll_of_breakOn_eq_some hp hsome, List.mem_append, List.mem_append] at h
    rw [breakOn_eq_append hsome]
    rcases h with (h | h) | h
    · exact .inl (by simp [h])
    · exact .inr h
    · exact (ih h).imp_left fun h => by simp [h]

/-- The replacement is part of a text in which something was replaced. -/
private theorem exists_replaceAll_eq (hp : pattern ≠ []) (h : occurs pattern cs = true)
    (replacement : List Char) :
    ∃ front back, replaceAll pattern replacement cs = front ++ replacement ++ back := by
  obtain ⟨⟨first, rest⟩, hsome⟩ := Option.isSome_iff_exists.mp h
  exact ⟨first, _, replaceAll_of_breakOn_eq_some hp hsome⟩

/-- A text begins with a character of neither the pattern nor the replacement exactly if it did so
    before. -/
private theorem head?_replaceAll_eq_iff (hp : pattern ≠ []) (hc : c ∉ pattern)
    (hr : replacement ≠ []) (hreplacement : c ∉ replacement) (cs : List Char) :
    (replaceAll pattern replacement cs).head? = some c ↔ cs.head? = some c := by
  -- where nothing is replaced nothing changes
  cases hsome : breakOn pattern cs with
  | none => rw [replaceAll_of_breakOn_eq_none hsome]
  | some p =>
    obtain ⟨first, rest⟩ := p
    rw [replaceAll_of_breakOn_eq_some hp hsome, breakOn_eq_append hsome]
    -- the first occurrence is not at the beginning, so the first character stays
    cases first with
    | cons d first => rfl
    -- it is, and then the text begins with the pattern, and with the replacement after it
    | nil =>
      obtain ⟨d, pattern, rfl⟩ := List.exists_cons_of_ne_nil hp
      obtain ⟨e, replacement, rfl⟩ := List.exists_cons_of_ne_nil hr
      refine iff_of_false ?_ ?_
      · rintro ⟨⟩
        exact hreplacement List.mem_cons_self
      · rintro ⟨⟩
        exact hc List.mem_cons_self

/-- A longer replacement makes a text no shorter. -/
theorem length_replaceAll_le (hp : pattern ≠ []) {a b : List Char} (h : a.length ≤ b.length)
    (cs : List Char) : (replaceAll pattern a cs).length ≤ (replaceAll pattern b cs).length := by
  -- by the occurrences; what stands between them is the same on both sides
  induction cs using replaceAll.induct pattern with
  | case1 cs hnone =>
    simp only [replaceAll_of_breakOn_eq_none hnone, Nat.le_refl]
  | case2 cs first rest hsome hnil => exact absurd hnil hp
  | case3 cs first rest hsome hne ih =>
    rw [replaceAll_of_breakOn_eq_some hp hsome, replaceAll_of_breakOn_eq_some hp hsome]
    simp only [List.length_append]
    omega

/-- A text in which something was replaced tells by what. -/
theorem replaceAll_inj (hp : pattern ≠ []) (hoccurs : occurs pattern cs = true) {a b : List Char}
    (h : replaceAll pattern a cs = replaceAll pattern b cs) : a = b := by
  obtain ⟨⟨first, rest⟩, hsome⟩ := Option.isSome_iff_exists.mp hoccurs
  -- both begin with what stands in front of the first occurrence
  rw [replaceAll_of_breakOn_eq_some hp hsome, replaceAll_of_breakOn_eq_some hp hsome, List.append_assoc,
    List.append_assoc] at h
  have hrest := List.append_cancel_left h
  -- a longer replacement would make all of the text longer
  have hlength : a.length = b.length := by
    have hsame := congrArg List.length hrest
    rw [List.length_append, List.length_append] at hsame
    rcases Nat.le_total a.length b.length with hle | hle
    · have := length_replaceAll_le hp hle rest
      omega
    · have := length_replaceAll_le hp hle rest
      omega
  exact (List.append_inj hrest hlength).1

end Text

/-! ### Parts -/

namespace FilePath

/-- A text has at least one part. -/
private theorem splitSlash_ne_nil (cs : List Char) : splitSlash cs ≠ [] := by
  cases cs with
  | nil => simp [splitSlash]
  | cons c cs =>
    rw [splitSlash]
    split
    · simp
    · split <;> simp

/-- The parts on both sides of a slash. -/
theorem splitSlash_append_slash (before after : List Char) :
    splitSlash (before ++ '/' :: after) = splitSlash before ++ splitSlash after := by
  -- by the text in front of the slash
  induction before with
  | nil => simp [splitSlash]
  | cons c before ih =>
    rw [List.cons_append, splitSlash, splitSlash, ih]
    split
    · rfl
    · cases hparts : splitSlash before with
      | nil => exact absurd hparts (splitSlash_ne_nil before)
      | cons part parts => rfl

/-- A part of a text has no slash. -/
private theorem not_mem_of_mem_splitSlash {cs part : List Char} (h : part ∈ splitSlash cs) :
    '/' ∉ part := by
  by_cases hslash : '/' ∈ cs
  -- a part is the one in front of the first slash or a part of what is behind it
  · obtain ⟨before, after, hsplit, hbefore⟩ := List.eq_append_cons_of_mem hslash
    rw [hsplit, splitSlash_append_slash, splitSlash_eq_singleton hbefore, List.mem_append,
      List.mem_singleton] at h
    rcases h with rfl | h
    · exact hbefore
    · exact not_mem_of_mem_splitSlash h
  · rw [splitSlash_eq_singleton hslash, List.mem_singleton] at h
    exact h ▸ hslash
termination_by cs.length
decreasing_by simp [hsplit]; omega

/-- Where neither the pattern nor the replacement has a slash, each part is replaced in by itself. -/
theorem splitSlash_replaceAll {pattern replacement : List Char} (hp : pattern ≠ [])
    (hpattern : '/' ∉ pattern) (hreplacement : '/' ∉ replacement) (cs : List Char) :
    splitSlash (Text.replaceAll pattern replacement cs) =
      (splitSlash cs).map (Text.replaceAll pattern replacement) := by
  -- by the first slash; the part in front of it has none and is replaced in as a whole
  by_cases hslash : '/' ∈ cs
  · obtain ⟨before, after, hsplit, hbefore⟩ := List.eq_append_cons_of_mem hslash
    have hfilled : '/' ∉ Text.replaceAll pattern replacement before := fun hmem =>
      (Text.mem_of_mem_replaceAll hp hmem).elim hbefore hreplacement
    rw [hsplit, Text.replaceAll_append_cons hp hpattern, splitSlash_append_slash,
      splitSlash_append_slash, splitSlash_eq_singleton hfilled, splitSlash_eq_singleton hbefore,
      splitSlash_replaceAll hp hpattern hreplacement after, List.map_append, List.map_singleton]
  · have hfilled : '/' ∉ Text.replaceAll pattern replacement cs := fun hmem =>
      (Text.mem_of_mem_replaceAll hp hmem).elim hslash hreplacement
    rw [splitSlash_eq_singleton hfilled, splitSlash_eq_singleton hslash, List.map_singleton]
termination_by cs.length
decreasing_by simp [hsplit]; omega

/-- What occurs in a text and has no slash occurs in one of its parts. -/
theorem exists_mem_splitSlash_of_occurs {pattern : List Char} (hpattern : '/' ∉ pattern)
    {cs : List Char} (h : Text.occurs pattern cs = true) :
    ∃ part ∈ splitSlash cs, Text.occurs pattern part = true := by
  by_cases hslash : '/' ∈ cs
  · obtain ⟨before, after, hsplit, hbefore⟩ := List.eq_append_cons_of_mem hslash
    -- what occurs is in front of the first slash or behind it
    rw [hsplit, Text.occurs_append_cons hpattern, Bool.or_eq_true] at h
    rw [hsplit, splitSlash_append_slash, splitSlash_eq_singleton hbefore]
    rcases h with h | h
    · exact ⟨before, List.mem_cons_self, h⟩
    · obtain ⟨part, hpart, hoccurs⟩ := exists_mem_splitSlash_of_occurs hpattern h
      exact ⟨part, List.mem_cons_of_mem before hpart, hoccurs⟩
  · rw [splitSlash_eq_singleton hslash]
    exact ⟨cs, List.mem_cons_self, h⟩
termination_by cs.length
decreasing_by simp [hsplit]; omega

/-! ### Components -/

/-- A component that leads to something within the directory before it. -/
structure IsNormal (component : String) : Prop where
  no_slash : '/' ∉ component.toList
  not_empty : component ≠ ""
  not_here : component ≠ "."
  not_up : component ≠ ".."

/-- What is no normal component has a slash or is made of two dots at most. -/
theorem isNormal_iff {component : String} :
    IsNormal component ↔
      '/' ∉ component.toList ∧ ∀ n ≤ 2, component.toList ≠ List.replicate n '.' := by
  -- none, one or two dots are the three texts that are excluded
  have hdots : (∀ n ≤ 2, component.toList ≠ List.replicate n '.') ↔
      component ≠ "" ∧ component ≠ "." ∧ component ≠ ".." := by
    constructor
    · intro h
      refine ⟨?_, ?_, ?_⟩
      · rintro rfl
        exact h 0 (by decide) rfl
      · rintro rfl
        exact h 1 (by decide) rfl
      · rintro rfl
        exact h 2 (by decide) rfl
    · rintro ⟨hempty, hhere, hup⟩ n hn heq
      have hcomponent := congrArg String.ofList heq
      rw [String.ofList_toList] at hcomponent
      obtain rfl | rfl | rfl : n = 0 ∨ n = 1 ∨ n = 2 := by omega
      · exact hempty hcomponent
      · exact hhere hcomponent
      · exact hup hcomponent
  rw [hdots]
  exact ⟨fun h => ⟨h.no_slash, h.not_empty, h.not_here, h.not_up⟩, fun h => ⟨h.1, h.2.1, h.2.2.1,
    h.2.2.2⟩⟩

/-- A plain file name is a normal component. -/
theorem isNormal_of_isFileName {name : String} (h : isFileName name = true) : IsNormal name := by
  simp only [isFileName, isComponent, Bool.and_eq_true, Bool.not_eq_true', bne_iff_ne,
    List.contains_eq_mem, decide_eq_false_iff_not] at h
  exact ⟨h.1.1.1, h.1.2.1, h.1.2.2, h.2⟩

/-- A normal component stays one with more text around it. -/
theorem IsNormal.append {name component : String} (h : IsNormal name) {front back : List Char}
    (heq : component.toList = front ++ name.toList ++ back) (hslash : '/' ∉ component.toList) :
    IsNormal component := by
  refine isNormal_iff.mpr ⟨hslash, fun n hn hdots => ?_⟩
  -- of dots alone, the text would make its part a text of dots alone
  have hname : name.toList.Sublist (List.replicate n '.') := by
    rw [← hdots, heq]
    exact (List.sublist_append_right front _).trans (List.sublist_append_left _ back)
  obtain ⟨m, hm, hname⟩ := List.sublist_replicate_iff.mp hname
  exact (isNormal_iff.mp h).2 m (Nat.le_trans hm hn) hname

/-- A normal component is a component. -/
theorem IsNormal.isComponent {component : String} (h : IsNormal component) :
    isComponent component = true := by
  simp [FilePath.isComponent, h.not_empty, h.not_here]

/-- A component of a path is one of its parts. -/
private theorem mem_parts_of_mem_namesOf {absolute : Bool} {path : List String} {component : String}
    (h : component ∈ namesOf absolute path) : component ∈ path := by
  cases path with
  | nil => exact h
  | cons part rest =>
    rw [namesOf] at h
    -- a part that stays where it is counts only in front
    split at h
    · rename_i hdot
      rcases List.mem_cons.mp h with rfl | h
      · simp only [Bool.and_eq_true, beq_iff_eq] at hdot
        exact hdot.1 ▸ List.mem_cons_self
      · exact List.mem_cons_of_mem _ (List.mem_filter.mp h).1
    · exact (List.mem_filter.mp h).1

/-- A part that is a component is one of the path. -/
private theorem mem_namesOf {absolute : Bool} {path : List String} {part : String} (h : part ∈ path)
    (hpart : isComponent part = true) : part ∈ namesOf absolute path := by
  cases path with
  | nil => exact h
  | cons first rest =>
    rw [namesOf]
    split
    · rename_i hdot
      simp only [Bool.and_eq_true, beq_iff_eq] at hdot
      rcases List.mem_cons.mp h with rfl | h
      · exact hdot.1 ▸ List.mem_cons_self
      · exact List.mem_cons_of_mem "." (List.mem_filter.mpr ⟨h, hpart⟩)
    · exact List.mem_filter.mpr ⟨h, hpart⟩

/-- The components among parts that are each changed without becoming or ceasing to be one. -/
private theorem namesOf_map {absolute : Bool} {f : String → String} {path : List String}
    (hdot : ∀ part ∈ path, f part = "." ↔ part = ".")
    (h : ∀ part ∈ path, isComponent (f part) = isComponent part) :
    namesOf absolute (path.map f) = (namesOf absolute path).map f := by
  -- the parts behind the first are filtered by what they are before or after the change
  have hfilter : ∀ rest ⊆ path, (rest.map f).filter isComponent =
      (rest.filter isComponent).map f := by
    intro rest hrest
    rw [List.filter_map]
    exact congrArg _ (List.filter_congr fun part hpart => h part (hrest hpart))
  cases path with
  | nil => rfl
  | cons part rest =>
    -- the first part keeps whether it stays where it is
    have hhere : (f part == ".") = (part == ".") :=
      Bool.eq_iff_iff.mpr (by simpa using hdot part List.mem_cons_self)
    rw [List.map_cons, namesOf, namesOf, hhere, ← List.map_cons (f := f),
      hfilter _ (List.Subset.refl _), hfilter rest (List.subset_cons_self part rest)]
    split
    · rename_i hpart
      simp only [Bool.and_eq_true, beq_iff_eq] at hpart
      have hself : "." ∈ part :: rest := hpart.1 ▸ List.mem_cons_self
      rw [List.map_cons, (hdot "." hself).mpr rfl]
    · rfl

/-- Parts behind a path that has some are components as they are anywhere else. -/
theorem namesOf_append {absolute : Bool} {path : List String} (hpath : path ≠ [])
    (more : List String) :
    namesOf absolute (path ++ more) = namesOf absolute path ++ more.filter isComponent := by
  cases path with
  | nil => exact absurd rfl hpath
  | cons part rest =>
    rw [List.cons_append, namesOf, namesOf, ← List.cons_append, List.filter_append,
      List.filter_append]
    split <;> rfl

/-- The components of a path, the root among them. -/
def Components.count (c : Components) : Nat := (if c.isAbsolute then 1 else 0) + c.names.length

/-- A path has at least one part. -/
private theorem parts_ne_nil (path : String) : parts path ≠ [] := by
  simp [parts, splitSlash_ne_nil]

/-- The parts of two paths with a slash between them. -/
private theorem parts_append_slash (before after : String) :
    parts (before ++ "/" ++ after) = parts before ++ parts after := by
  simp [parts, splitSlash_append_slash]

/-- A normal component is its only part. -/
private theorem parts_of_isNormal {file : String} (h : IsNormal file) : parts file = [file] := by
  simp [parts, splitSlash_eq_singleton h.no_slash]

/-- A path begins at the root if the text in front of it does. -/
private theorem isAbsolute_append {path : String} (h : path ≠ "") (more : String) :
    isAbsolute (path ++ more) = isAbsolute path := by
  rw [isAbsolute, isAbsolute, String.toList_append, List.head?_append]
  cases hpath : path.toList with
  | nil => exact absurd (String.toList_eq_nil_iff.mp hpath) h
  | cons c rest => rfl

/-- A normal component does not begin at the root. -/
private theorem not_isAbsolute_of_isNormal {file : String} (h : IsNormal file) :
    isAbsolute file = false := by
  have hhead : file.toList.head? ≠ some '/' := fun hhead => h.no_slash (List.mem_of_head? hhead)
  simpa [isAbsolute] using hhead

/-- A file within a directory is one component more. -/
theorem components_join {file : String} (hfile : IsNormal file) (directory : String) :
    components (join directory file) =
      ⟨(components directory).isAbsolute, (components directory).names ++ [file]⟩ := by
  have hlast : [file].filter isComponent = [file] := by simp [hfile.isComponent]
  -- a file of its own does not begin at the root, so it is put behind the directory
  rw [join, not_isAbsolute_of_isNormal hfile, if_neg Bool.false_ne_true]
  split
  -- the directory is empty or ends in a slash, so nothing stands between the two
  · rename_i hends
    obtain hempty | ⟨front, hfront⟩ :
        directory = "" ∨ ∃ front : String, directory = front ++ "/" := by
      cases hdirectory : directory.toList.getLast? with
      | none => exact .inl (String.toList_eq_nil_iff.mp (List.getLast?_eq_none_iff.mp hdirectory))
      | some c =>
        obtain ⟨front, hfront⟩ := List.getLast?_eq_some_iff.mp hdirectory
        rw [hdirectory, Option.all_some, beq_iff_eq] at hends
        refine .inr ⟨String.ofList front, String.toList_inj.mp ?_⟩
        simp [hfront, hends]
    · subst hempty
      have hnone : (components "").names = [] := by decide
      rw [String.empty_append, components, not_isAbsolute_of_isNormal hfile,
        parts_of_isNormal hfile, hnone]
      simp [namesOf, hfile.not_here, hfile.isComponent, components]
      rfl
    · -- the slash that the directory ends in adds a part, but no component
      have hnames : (components directory).names =
          namesOf (isAbsolute directory) (parts front) := by
        have hparts : parts directory = parts front ++ [""] := by
          rw [hfront, ← String.append_empty (s := front ++ "/"), parts_append_slash]
          rfl
        rw [components, hparts, namesOf_append (parts_ne_nil front)]
        exact List.append_nil _
      have hslash : directory ≠ "" := by
        rintro rfl
        simpa using congrArg String.toList hfront
      rw [hnames, components, isAbsolute_append hslash, hfront, parts_append_slash,
        parts_of_isNormal hfile, namesOf_append (parts_ne_nil front), hlast]
      rfl
  -- a slash is put between the two
  · rename_i hends
    have hslash : directory ≠ "" := by
      rintro rfl
      exact hends rfl
    rw [components, String.append_assoc, isAbsolute_append hslash, ← String.append_assoc,
      parts_append_slash, parts_of_isNormal hfile, namesOf_append (parts_ne_nil directory), hlast]
    rfl

end FilePath

namespace Output

open FilePath (components Components IsNormal isFileName)

/-! ### Filled patterns -/

/-- The placeholder is not empty. -/
theorem placeholder_ne_nil : namePlaceholder.toList ≠ [] := by decide

/-- The placeholder has no slash. -/
private theorem slash_not_mem_placeholder : '/' ∉ namePlaceholder.toList := by decide

/-- A text without a place for the name stays as it is. -/
theorem fill_of_not_hasPlaceholder {text : String} (h : hasPlaceholder text = false)
    (name : String) : fill text name = text := by
  rw [fill, Text.replaceAll_of_breakOn_eq_none (Option.not_isSome_iff_eq_none.mp (by
    simpa [hasPlaceholder, Text.occurs] using h)), String.ofList_toList]

/-- A part of a pattern with a place for the name is filled to a normal component. -/
theorem isNormal_fill {part name : String} (hpart : '/' ∉ part.toList)
    (hplace : hasPlaceholder part = true) (hname : IsNormal name) : IsNormal (fill part name) := by
  obtain ⟨front, back, heq⟩ := Text.exists_replaceAll_eq placeholder_ne_nil hplace name.toList
  have hslash : '/' ∉ (fill part name).toList := by
    -- a slash would be of the part or of the name
    rw [fill, String.toList_ofList]
    exact fun h => (Text.mem_of_mem_replaceAll placeholder_ne_nil h).elim hpart hname.no_slash
  exact hname.append (by rw [fill, String.toList_ofList, heq]) hslash

/-- The placeholder is no part that leads nowhere or up. -/
theorem isNormal_of_hasPlaceholder {part : String} (hpart : '/' ∉ part.toList)
    (hplace : hasPlaceholder part = true) : IsNormal part := by
  -- the placeholder is a normal component itself, and stays one with text around it
  obtain ⟨⟨front, back⟩, hsome⟩ := Option.isSome_iff_exists.mp hplace
  have hname : IsNormal namePlaceholder := ⟨by decide, by decide, by decide, by decide⟩
  exact hname.append (Text.breakOn_eq_append hsome) hpart

/-- The parts of a filled pattern are those of the pattern, each filled. -/
private theorem parts_fill {name : String} (hname : IsNormal name) (pattern : String) :
    FilePath.parts (fill pattern name) = (FilePath.parts pattern).map (fill · name) := by
  rw [FilePath.parts, fill, String.toList_ofList,
    FilePath.splitSlash_replaceAll placeholder_ne_nil slash_not_mem_placeholder hname.no_slash,
    FilePath.parts, List.map_map, List.map_map]
  refine List.map_congr_left fun part _ => ?_
  simp [fill]

/-- A part of a path has no slash. -/
private theorem not_mem_of_mem_parts {path part : String} (h : part ∈ FilePath.parts path) :
    '/' ∉ part.toList := by
  obtain ⟨cs, hcs, rfl⟩ := List.mem_map.mp h
  rw [String.toList_ofList]
  exact FilePath.not_mem_of_mem_splitSlash hcs

/-- A pattern with a place for the name has one in a component. -/
theorem exists_component_of_hasPlaceholder {pattern : String} (h : hasPlaceholder pattern = true) :
    ∃ c ∈ (components pattern).names, hasPlaceholder c = true := by
  -- the place is in one of the parts, which is a component as it holds more than dots
  obtain ⟨cs, hcs, hoccurs⟩ := FilePath.exists_mem_splitSlash_of_occurs slash_not_mem_placeholder h
  have hpart : String.ofList cs ∈ FilePath.parts pattern := List.mem_map_of_mem hcs
  have hplace : hasPlaceholder (String.ofList cs) = true := by
    rwa [hasPlaceholder, String.toList_ofList]
  have hnormal := isNormal_of_hasPlaceholder (not_mem_of_mem_parts hpart) hplace
  exact ⟨_, FilePath.mem_namesOf hpart hnormal.isComponent, hplace⟩

/-- A pattern leads to the root exactly if it does with a name in it. -/
private theorem isAbsolute_fill {name : String} (hname : IsNormal name) (pattern : String) :
    FilePath.isAbsolute (fill pattern name) = FilePath.isAbsolute pattern := by
  -- the name is not empty, so filling does not bring a later character to the front
  have hname' : name.toList ≠ [] := mt String.toList_eq_nil_iff.mp hname.not_empty
  have hhead := Text.head?_replaceAll_eq_iff placeholder_ne_nil slash_not_mem_placeholder hname'
    hname.no_slash pattern.toList
  rw [Bool.eq_iff_iff, FilePath.isAbsolute, FilePath.isAbsolute, fill, String.toList_ofList,
    beq_iff_eq, beq_iff_eq, hhead]

/-- A filled pattern is filled component by component. -/
theorem components_fill {name : String} (hname : IsNormal name) (pattern : String) :
    components (fill pattern name) =
      ⟨(components pattern).isAbsolute, (components pattern).names.map (fill · name)⟩ := by
  -- a part is filled to a normal component, or has no place and stays as it is
  have hpart : ∀ part ∈ FilePath.parts pattern,
      (IsNormal (fill part name) ∧ IsNormal part) ∨ fill part name = part := by
    intro part hmem
    have hslash := not_mem_of_mem_parts hmem
    by_cases hplace : hasPlaceholder part = true
    · exact .inl ⟨isNormal_fill hslash hplace hname, isNormal_of_hasPlaceholder hslash hplace⟩
    · exact .inr (fill_of_not_hasPlaceholder (Bool.eq_false_iff.mpr hplace) name)
  rw [components, isAbsolute_fill hname, parts_fill hname, FilePath.namesOf_map]
  · rfl
  -- whether a part stays where it is
  · intro part hmem
    obtain ⟨hfilled, hnormal⟩ | hsame := hpart part hmem
    · exact iff_of_false hfilled.not_here hnormal.not_here
    · rw [hsame]
  -- whether a part is a component at all
  · intro part hmem
    obtain ⟨hfilled, hnormal⟩ | hsame := hpart part hmem
    · rw [hfilled.isComponent, hnormal.isComponent]
    · rw [hsame]

/-- The file that a pattern without a place for its name is a directory of, if it is one. -/
def addedNames (pattern name : String) (layout : Layout) : List String :=
  if hasPlaceholder pattern then []
  else
    match layout with
    | .singleFile => []
    | .filePerDeclaration => [name ++ ".cs"]

/-- The name of a file within a directory. -/
theorem isNormal_fileName {name : String} (hname : IsNormal name) : IsNormal (name ++ ".cs") := by
  have hparts : (name ++ ".cs").toList = [] ++ name.toList ++ ".cs".toList := by simp
  exact hname.append hparts (by simpa using hname.no_slash)

/-- The components of a path are those of its pattern, each filled with the name, and a file where
    the pattern is its directory. -/
theorem components_pathOf {name : String} (hname : IsNormal name) (pattern : String)
    (layout : Layout) :
    components (pathOf pattern name layout) =
      ⟨(components pattern).isAbsolute,
        (components pattern).names.map (fill · name) ++ addedNames pattern name layout⟩ := by
  have hfill := components_fill hname pattern
  by_cases hplace : hasPlaceholder pattern = true
  -- with a place for it the name is only put into the pattern
  · have hnone : addedNames pattern name layout = [] := if_pos hplace
    rw [pathOf_placeholder hplace, hfill, hnone, List.append_nil]
  · -- without a place for it the name changes no component
    rw [fill_of_not_hasPlaceholder (Bool.eq_false_iff.mpr hplace)] at hfill
    have hnames := congrArg Components.names hfill
    unfold pathOf addedNames
    rw [if_neg hplace, if_neg hplace]
    cases layout with
    | singleFile => rw [List.append_nil, ← hfill]
    | filePerDeclaration =>
      rw [FilePath.components_join (isNormal_fileName hname)]
      exact congrArg (fun names => Components.mk _ (names ++ _)) hnames

/-- A filled component leads up exactly if it did so before. -/
theorem fill_eq_up_iff {name part : String} (hname : IsNormal name) (hpart : '/' ∉ part.toList) :
    fill part name = ".." ↔ part = ".." := by
  by_cases hplace : hasPlaceholder part = true
  · exact iff_of_false (isNormal_fill hpart hplace hname).not_up
      (isNormal_of_hasPlaceholder hpart hplace).not_up
  · rw [fill_of_not_hasPlaceholder (Bool.eq_false_iff.mpr hplace)]

/-- A plain file name keeps its path where the pattern leads.  The path begins at the root exactly
    if the pattern does, and it has as many components, or one more where the pattern is the
    directory of the file.  Each component is that of the pattern, unless that has a place for the
    name; then it is filled to a normal one.  So the path leads up exactly where the pattern
    does. -/
theorem path_stays_within_pattern (pattern : String) (layout : Layout) {name : String}
    (h : isFileName name = true) :
    (components (pathOf pattern name layout)).isAbsolute = (components pattern).isAbsolute ∧
    (components (pathOf pattern name layout)).count = (components pattern).count +
      (if hasPlaceholder pattern = false ∧ layout = .filePerDeclaration then 1 else 0) ∧
    (components (pathOf pattern name layout)).names =
      (components pattern).names.map (fill · name) ++ addedNames pattern name layout ∧
    (∀ c ∈ (components pattern).names,
      (hasPlaceholder c = true → IsNormal (fill c name)) ∧
      (hasPlaceholder c = false → fill c name = c)) ∧
    (∀ c ∈ addedNames pattern name layout, IsNormal c) ∧
    ∀ i : Nat, (components (pathOf pattern name layout)).names[i]? = some ".." ↔
      (components pattern).names[i]? = some ".." := by
  -- the facts about the name and about the added file, then one goal for each part of the claim
  have hname := FilePath.isNormal_of_isFileName h
  have hslash : ∀ c ∈ (components pattern).names, '/' ∉ c.toList := fun c hc =>
    not_mem_of_mem_parts (FilePath.mem_parts_of_mem_namesOf hc)
  have hadded : ∀ c ∈ addedNames pattern name layout, IsNormal c := by
    unfold addedNames
    split
    · simp
    · split
      · simp
      · exact List.forall_mem_singleton.mpr (isNormal_fileName hname)
  have hcount : (addedNames pattern name layout).length =
      if hasPlaceholder pattern = false ∧ layout = .filePerDeclaration then 1 else 0 := by
    unfold addedNames
    cases hasPlaceholder pattern <;> cases layout <;> rfl
  have hpath := components_pathOf hname pattern layout
  rw [hpath]
  refine ⟨rfl, ?_, rfl, fun c hc => ⟨fun hplace => isNormal_fill (hslash c hc) hplace hname,
    fun hplace => fill_of_not_hasPlaceholder hplace name⟩, hadded, fun i => ?_⟩
  · rw [← hcount]
    simp [FilePath.Components.count, Nat.add_assoc]
  -- a component is one of the pattern, filled, or the added file, which does not lead up
  · rw [List.getElem?_append]
    split
    · rw [List.getElem?_map, Option.map_eq_some_iff]
      constructor
      · rintro ⟨c, hc, hup⟩
        rw [hc, (fill_eq_up_iff hname (hslash c (List.mem_of_getElem? hc))).mp hup]
      · exact fun hc => ⟨_, hc, (fill_eq_up_iff hname (by decide)).mpr rfl⟩
    · rename_i hlength
      rw [List.length_map] at hlength
      rw [List.getElem?_eq_none (Nat.not_lt.mp hlength)]
      exact iff_of_false (fun hup => (hadded _ (List.mem_of_getElem? hup)).not_up rfl) (by simp)

/-- A name of three dots is a plain one, and stays below the directory of its pattern. -/
theorem dots_stay_within_pattern :
    isFileName "..." = true ∧
    (components (pathOf "../gen/\x7bname\x7d/\x7bname\x7d.cs" "..." .singleFile)).names =
      ["..", "gen", "...", "....cs"] ∧
    (components (pathOf "../gen/\x7bname\x7d/\x7bname\x7d.cs" "..." .singleFile)).count = 4 ∧
    IsNormal (fill "\x7bname\x7d" "...") := by
  -- what the theorem says of this pattern and this name
  have hname : isFileName "..." = true := by decide
  obtain ⟨-, hcount, hnames, hfilled, -, -⟩ :=
    path_stays_within_pattern "../gen/\x7bname\x7d/\x7bname\x7d.cs" .singleFile hname
  refine ⟨hname, ?_, ?_, (hfilled "\x7bname\x7d" (by decide +kernel)).1 (by decide +kernel)⟩
  · rw [hnames]
    decide +kernel
  · rw [hcount]
    decide +kernel

end Output

end EntityModel
