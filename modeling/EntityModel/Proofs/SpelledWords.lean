import EntityModel.Settings.Basic
import Mathlib.Data.List.Nodup

/-!
# How words may be spelled

The names of settings and the words for their values are looked up in tables after all that
comparison disregards has been taken away.  So a text stands for a word of a table exactly if it
spells the word: in letters of either case, with underscores, hyphens and spaces anywhere among
them, and with blanks of any kind around the whole.

* `Spells`                     the spellings of a word
* `normalizeWord_eq_iff`       they are the texts that are normalized to the word
* `ReadsWords`                 a reader of words succeeds on their spellings and on nothing else
* `SettingKey.read?_eq_some_iff`   the spellings of the name of a setting
-/

namespace EntityModel

/-! ### Trimming -/

namespace Text

/-- What is trimmed are blanks. -/
theorem exists_trimChars (cs : List Char) :
    ∃ before after, cs = before ++ trimChars cs ++ after ∧ (∀ c ∈ before, isBlank c = true) ∧
      ∀ c ∈ after, isBlank c = true := by
  -- what is left is cut at both ends, first at the front and then at the back
  let rest := cs.dropWhile isBlank
  refine ⟨cs.takeWhile isBlank, (rest.reverse.takeWhile isBlank).reverse, ?_, fun c hc => ?_,
    fun c hc => ?_⟩
  · have hrest : trimChars cs ++ (rest.reverse.takeWhile isBlank).reverse = rest := by
      show (rest.reverse.dropWhile isBlank).reverse ++ _ = rest
      rw [← List.reverse_append, List.takeWhile_append_dropWhile, List.reverse_reverse]
    rw [List.append_assoc, hrest, List.takeWhile_append_dropWhile]
  · exact List.all_eq_true.mp List.all_takeWhile c hc
  · exact List.all_eq_true.mp List.all_takeWhile c (List.mem_reverse.mp hc)

/-- What is dropped at the end of a text is dropped with more of it behind. -/
theorem dropEndWhile_append {p : Char → Bool} {after : List Char} (h : ∀ c ∈ after, p c = true)
    (cs : List Char) : dropEndWhile p (cs ++ after) = dropEndWhile p cs := by
  have hreverse : ∀ c ∈ after.reverse, p c = true := fun c hc => h c (List.mem_reverse.mp hc)
  unfold dropEndWhile
  rw [List.reverse_append, List.dropWhile_append_of_pos hreverse]

/-- Blanks around a text make no difference to what is left after trimming. -/
theorem trimChars_append {before after : List Char} (hbefore : ∀ c ∈ before, isBlank c = true)
    (hafter : ∀ c ∈ after, isBlank c = true) (cs : List Char) :
    trimChars (before ++ cs ++ after) = trimChars cs := by
  unfold trimChars trimBoth
  rw [List.append_assoc, List.dropWhile_append_of_pos hbefore, List.dropWhile_append]
  -- trimming either stops in the text or goes on through all of it
  split
  · rename_i hnone
    rw [List.isEmpty_iff.mp hnone, dropWhile_eq_nil_of_all hafter]
  · exact dropEndWhile_append hafter _

/-- There are no letters among the blanks. -/
private theorem toLower_of_isBlank {c : Char} (h : isBlank c = true) : c.toLower = c := by
  unfold Char.toLower
  -- the letters that have a lower case stand between `A` and `Z`, and no blank does
  split
  · rename_i hupper
    have hle : 65 ≤ c.toNat := UInt32.le_iff_toNat_le.mp hupper.1
    have hge : c.toNat ≤ 90 := UInt32.le_iff_toNat_le.mp hupper.2
    simp only [isBlank, Bool.or_eq_true, Bool.and_eq_true, decide_eq_true_eq, beq_iff_eq] at h
    omega
  · rfl

end Text

/-! ### Spellings -/

/-- What may stand anywhere in a word. -/
def isSeparator (c : Char) : Bool := c == '_' || c == '-' || c == ' '

/-- The text has the letters of the word, in either case, and separators anywhere among them. -/
inductive Interspersed : List Char → List Char → Prop
  | nil : Interspersed [] []
  | letter (c : Char) {word text : List Char} (h : Interspersed word text) :
      Interspersed (c.toLower :: word) (c :: text)
  | separator {c : Char} {word text : List Char} (hc : isSeparator c = true)
      (h : Interspersed word text) : Interspersed word (c :: text)

/-- The text is a spelling of the word, with blanks around it. -/
def Spells (word text : String) : Prop :=
  ∃ before body after, text.toList = before ++ body ++ after ∧
    (∀ c ∈ before, Text.isBlank c = true) ∧ Interspersed word.toList body ∧
    ∀ c ∈ after, Text.isBlank c = true

/-- The text is a spelling of one of the words. -/
def SpellsOneOf (words : List String) (text : String) : Prop := ∃ word ∈ words, Spells word text

/-- A word without separators and blanks. -/
def IsPlainWord (word : String) : Prop :=
  ∀ c ∈ word.toList, isSeparator c = false ∧ Text.isBlank c = false

instance (word : String) : Decidable (IsPlainWord word) :=
  List.decidableBAll _ _

/-- A separator is no letter. -/
private theorem toLower_of_isSeparator {c : Char} (h : isSeparator c = true) : c.toLower = c := by
  simp only [isSeparator, Bool.or_eq_true, beq_iff_eq] at h
  rcases h with (rfl | rfl) | rfl <;> rfl

/-- Separators stand among the letters of a word exactly if the letters are left without them. -/
theorem interspersed_iff {word text : List Char} (hword : ∀ c ∈ word, isSeparator c = false) :
    Interspersed word text ↔ (text.filter (!isSeparator ·)).map Char.toLower = word := by
  constructor
  -- each letter keeps its own, and each separator falls away
  · intro h
    induction h with
    | nil => rfl
    | @letter c word text _ ih =>
      -- a letter of the word is no separator, and so neither is the one it is the lower case of
      obtain ⟨hlower, hword⟩ := List.forall_mem_cons.mp hword
      have hc : isSeparator c = false := by
        rw [← Bool.not_eq_true]
        intro hc
        rw [toLower_of_isSeparator hc, hc] at hlower
        exact nomatch hlower
      rw [List.filter_cons_of_pos (by simp [hc]), List.map_cons, ih hword]
    | separator hc _ ih => rw [List.filter_cons_of_neg (by simp [hc]), ih hword]
  -- the text decides at each character which of the two it is
  · intro h
    induction text generalizing word with
    | nil => exact h ▸ .nil
    | cons c text ih =>
      cases hc : isSeparator c with
      | true =>
        rw [List.filter_cons_of_neg (by simp [hc])] at h
        exact .separator hc (ih hword h)
      | false =>
        rw [List.filter_cons_of_pos (by simp [hc]), List.map_cons] at h
        subst h
        exact .letter c (ih (List.forall_mem_cons.mp hword).2 rfl)

/-- No letter of a plain word is blank, so among blanks there are only separators. -/
theorem filter_eq_nil_of_blank {word blanks : List Char}
    (hword : ∀ c ∈ word, Text.isBlank c = false) (hblanks : ∀ c ∈ blanks, Text.isBlank c = true)
    (h : ∀ c ∈ blanks.filter (!isSeparator ·), c.toLower ∈ word) :
    blanks.filter (!isSeparator ·) = [] := by
  refine List.eq_nil_iff_forall_not_mem.mpr fun c hc => ?_
  have hblank := hblanks c (List.mem_filter.mp hc).1
  have hmem := h c hc
  rw [Text.toLower_of_isBlank hblank] at hmem
  exact nomatch hblank.symm.trans (hword c hmem)

/-- Blanks at the ends of the letters of a plain word are separators. -/
private theorem map_filter_trimChars {word body : List Char}
    (hword : ∀ c ∈ word, Text.isBlank c = false)
    (h : (body.filter (!isSeparator ·)).map Char.toLower = word) :
    ((Text.trimChars body).filter (!isSeparator ·)).map Char.toLower = word := by
  obtain ⟨before, after, hbody, hbefore, hafter⟩ := Text.exists_trimChars body
  -- whatever is left of the blanks would be a letter of the word
  have hletters : ∀ c ∈ body.filter (!isSeparator ·), c.toLower ∈ word :=
    fun c hc => h ▸ List.mem_map_of_mem hc
  rw [hbody, List.filter_append, List.filter_append] at hletters
  have hbefore := filter_eq_nil_of_blank hword hbefore fun c hc =>
    hletters c (by simp only [List.mem_append]; exact .inl (.inl hc))
  have hafter := filter_eq_nil_of_blank hword hafter fun c hc =>
    hletters c (by simp only [List.mem_append]; exact .inr hc)
  rwa [hbody, List.filter_append, List.filter_append, hbefore, hafter, List.nil_append,
    List.append_nil] at h

/-- The spellings of a plain word are the texts of which it is left when all that comparison
    disregards is taken away. -/
theorem normalizeWord_eq_iff {word : String} (hword : IsPlainWord word) (text : String) :
    normalizeWord text = word ↔ Spells word text := by
  have hseparators : ∀ c ∈ word.toList, isSeparator c = false := fun c hc => (hword c hc).1
  have hblanks : ∀ c ∈ word.toList, Text.isBlank c = false := fun c hc => (hword c hc).2
  have hnormalize : normalizeWord text = word ↔
      ((Text.trimChars text.toList).filter (!isSeparator ·)).map Char.toLower = word.toList := by
    rw [← String.toList_inj, normalizeWord, String.toList_ofList]
    rfl
  rw [hnormalize]
  constructor
  -- blanks are trimmed away first, so they stand around and not in the spelling
  · intro h
    obtain ⟨before, after, htext, hbefore, hafter⟩ := Text.exists_trimChars text.toList
    exact ⟨before, _, after, htext, hbefore, (interspersed_iff hseparators).mpr h, hafter⟩
  · rintro ⟨before, body, after, htext, hbefore, hbody, hafter⟩
    -- trimming can go on into the body, but takes nothing but spaces from it
    rw [htext, Text.trimChars_append hbefore hafter]
    exact map_filter_trimChars hblanks ((interspersed_iff hseparators).mp hbody)

/-! ### Words of a table -/

section

variable {α : Type}

/-- Where no word stands twice, looking it up finds the value it stands with. -/
theorem lookup_eq_some_iff_mem {table : List (String × α)} (hkeys : (table.map Prod.fst).Nodup)
    {word : String} {a : α} : table.lookup word = some a ↔ (word, a) ∈ table := by
  induction table with
  | nil => simp
  | cons entry rest ih =>
    -- the first entry has the word or does not, and no later one has it if it does
    obtain ⟨other, b⟩ := entry
    obtain ⟨hother, hrest⟩ := List.nodup_cons.mp hkeys
    rw [List.lookup_cons, List.mem_cons, Prod.mk.injEq]
    cases hword : word == other with
    | true =>
      obtain rfl := beq_iff_eq.mp hword
      have hnot : (word, a) ∉ rest := fun h => hother (List.mem_map.mpr ⟨_, h, rfl⟩)
      simp [hnot, eq_comm]
    | false =>
      have hne : word ≠ other := beq_eq_false_iff_ne.mp hword
      simp [hne, ih hrest]

/-- The values with each of their words. -/
def wordTable (values : List α) (words : α → List String) : List (String × α) :=
  values.flatMap fun a => (words a).map (·, a)

/-- A text is found in a table exactly if it spells one of the words of a value. -/
theorem lookup_wordTable_eq_some_iff {values : List α} {words : α → List String}
    (hvalues : ∀ a, a ∈ values) (hnodup : (values.flatMap words).Nodup)
    (hplain : ∀ word ∈ values.flatMap words, IsPlainWord word) {text : String} {a : α} :
    (wordTable values words).lookup (normalizeWord text) = some a ↔
      SpellsOneOf (words a) text := by
  -- the words of a table are those of its values
  have hkeys : (wordTable values words).map Prod.fst = values.flatMap words := by
    simp [wordTable, List.map_flatMap, Function.comp_def]
  have hmem : ∀ word, (word, a) ∈ wordTable values words ↔ word ∈ words a := by
    intro word
    simp only [wordTable, List.mem_flatMap, List.mem_map, Prod.mk.injEq]
    constructor
    · rintro ⟨_, -, _, h, rfl, rfl⟩
      exact h
    · exact fun h => ⟨a, hvalues a, word, h, rfl, rfl⟩
  have hplain : ∀ word ∈ words a, IsPlainWord word := fun word h =>
    hplain word (List.mem_flatMap.mpr ⟨a, hvalues a, h⟩)
  rw [lookup_eq_some_iff_mem (hkeys ▸ hnodup), hmem]
  constructor
  · intro h
    exact ⟨_, h, (normalizeWord_eq_iff (hplain _ h) text).mp rfl⟩
  · rintro ⟨word, h, hspells⟩
    rwa [(normalizeWord_eq_iff (hplain _ h) text).mpr hspells]

/-- Reading succeeds exactly on the spellings of words for a value, with that value, and on any
    other text it fails with the fault of the text. -/
structure ReadsWords (read : String → Except SettingFault α) (words : α → List String)
    (fault : String → SettingFault) : Prop where
  eq_ok_iff (text : String) (a : α) : read text = .ok a ↔ SpellsOneOf (words a) text
  eq_error_iff (text : String) (f : SettingFault) :
    read text = .error f ↔ f = fault text ∧ ∀ a, ¬ SpellsOneOf (words a) text

/-- A text spells words for one value only. -/
theorem ReadsWords.unique {read : String → Except SettingFault α} {words : α → List String}
    {fault : String → SettingFault} (hread : ReadsWords read words fault) {text : String} {a b : α}
    (ha : SpellsOneOf (words a) text) (hb : SpellsOneOf (words b) text) : a = b :=
  Except.ok.inj (((hread.eq_ok_iff text a).mpr ha).symm.trans ((hread.eq_ok_iff text b).mpr hb))

/-- Reading by a table of plain words. -/
theorem ReadsWords.of_wordTable {read : String → Except SettingFault α}
    {fault : String → SettingFault} (values : List α) {words : α → List String}
    (hvalues : ∀ a, a ∈ values) (hnodup : (values.flatMap words).Nodup)
    (hplain : ∀ word ∈ values.flatMap words, IsPlainWord word)
    (hread : ∀ text,
      (∃ a, (wordTable values words).lookup (normalizeWord text) = some a ∧ read text = .ok a) ∨
      (wordTable values words).lookup (normalizeWord text) = none ∧
        read text = .error (fault text)) :
    ReadsWords read words fault := by
  constructor
  -- what a text spells is what its normal form is looked up as
  · intro text a
    rw [← lookup_wordTable_eq_some_iff hvalues hnodup hplain]
    obtain ⟨b, hlookup, hok⟩ | ⟨hlookup, herror⟩ := hread text
    · simp [hlookup, hok]
    · simp [hlookup, herror]
  · intro text f
    simp only [← lookup_wordTable_eq_some_iff hvalues hnodup hplain]
    obtain ⟨b, hlookup, hok⟩ | ⟨hlookup, herror⟩ := hread text
    · simp [hlookup, hok]
    · simp [hlookup, herror, eq_comm]

end

/-! ### The words of the settings -/

/-- The words for a collection type. -/
def CollectionType.words : CollectionType → List String
  | .array => ["array"]
  | .list => ["list"]
  | .set => ["set", "hashset"]

/-- The words for a layout. -/
def Layout.words : Layout → List String
  | .singleFile => ["singlefile", "single"]
  | .filePerDeclaration => ["perdeclarationfile", "perdeclaration", "pertypefile", "pertype"]

/-- The words for what complex types become. -/
def ComplexTypeKind.words : ComplexTypeKind → List String
  | .classKind => ["class"]
  | .structKind => ["struct"]

/-- The words for whether to load on demand. -/
def lazyLoadingWords : Bool → List String
  | true => ["true", "1", "yes", "on"]
  | false => ["false", "0", "no", "off"]

/-- The name of a setting. -/
def SettingKey.word : SettingKey → String
  | .collectionType => "collectiontype"
  | .lazyLoading => "lazyloading"
  | .fileMode => "filemode"
  | .complexTypeKind => "complextypekind"
  | .containerBaseType => "containerbasetype"
  | .outputPathPattern => "outputpathpattern"

/-- A collection type is read from any spelling of its words. -/
theorem readsWords_collectionType :
    ReadsWords CollectionType.read CollectionType.words .unknownCollectionType := by
  -- every value has its words, none of them twice and all of them plain
  refine .of_wordTable [.array, .list, .set] (by rintro ⟨⟩ <;> simp) (by decide) (by decide)
    fun text => ?_
  unfold CollectionType.read
  split
  · exact .inl ⟨_, ‹_›, rfl⟩
  · exact .inr ⟨‹_›, rfl⟩

/-- A layout is read from any spelling of its words. -/
theorem readsWords_layout :
    ReadsWords Layout.read Layout.words
      (.invalidValue "FileMode" · "`SingleFile` or `PerDeclarationFile`") := by
  refine .of_wordTable [.singleFile, .filePerDeclaration] (by rintro ⟨⟩ <;> simp) (by decide)
    (by decide) fun text => ?_
  unfold Layout.read
  split
  · exact .inl ⟨_, ‹_›, rfl⟩
  · exact .inr ⟨‹_›, rfl⟩

/-- What complex types become is read from any spelling of its words. -/
theorem readsWords_complexTypeKind :
    ReadsWords ComplexTypeKind.read ComplexTypeKind.words
      (.invalidValue "ComplexTypeKind" · "`Class` or `Struct`") := by
  refine .of_wordTable [.classKind, .structKind] (by rintro ⟨⟩ <;> simp) (by decide) (by decide)
    fun text => ?_
  unfold ComplexTypeKind.read
  split
  · exact .inl ⟨_, ‹_›, rfl⟩
  · exact .inr ⟨‹_›, rfl⟩

/-- Whether to load on demand is read from any spelling of its words. -/
theorem readsWords_lazyLoading :
    ReadsWords readLazyLoading lazyLoadingWords
      (.invalidValue "LazyLoading" · "`true` or `false`") := by
  refine .of_wordTable [true, false] (by rintro ⟨⟩ <;> simp) (by decide) (by decide)
    fun text => ?_
  unfold readLazyLoading
  split
  · exact .inl ⟨_, ‹_›, rfl⟩
  · exact .inr ⟨‹_›, rfl⟩

/-- A setting is named by the spellings of its name. -/
theorem SettingKey.read?_eq_some_iff {key : String} {k : SettingKey} :
    read? key = some k ↔ Spells k.word key := by
  have hread : read? key = (wordTable [collectionType, lazyLoading, fileMode, complexTypeKind,
      containerBaseType, outputPathPattern] fun k => [k.word]).lookup (normalizeWord key) := rfl
  -- the names of the settings are plain words, and no two are the same
  rw [hread, lookup_wordTable_eq_some_iff (by rintro ⟨⟩ <;> simp) (by decide) (by decide)]
  simp [SpellsOneOf]

/-- A text that spells none of the names names no setting. -/
theorem SettingKey.read?_eq_none_iff {key : String} :
    read? key = none ↔ ∀ k : SettingKey, ¬ Spells k.word key := by
  simp only [← read?_eq_some_iff, Option.eq_none_iff_forall_ne_some, ne_eq]

end EntityModel
