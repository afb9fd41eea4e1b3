import EntityModel.Text.Numeral

/-! # Simple identifiers

The names a model may declare: a letter or an underscore, then letters, numerals and underscores.

* `isIdentifier_iff`               the first character starts a name and every other continues one
* `continuesName_of_separator`     what stands between names is not part of one -/

namespace EntityModel.Text

/-- Whether a name may begin with the character. -/
def startsName (c : Char) : Bool := c == '_' || isAlphabetic c

/-- Whether a name may contain the character after its first. -/
def continuesName (c : Char) : Bool := c == '_' || isAlphanumeric c

/-- Whether the characters form a name. -/
def isIdentifierChars : List Char → Bool
  | [] => false
  | c :: cs => startsName c && cs.all continuesName

/-- Whether the text is a name. -/
def isIdentifier (s : String) : Bool := isIdentifierChars s.toList

/-- A name has a first character that starts a name, and each of the others continues one. -/
theorem isIdentifier_iff {s : String} :
    isIdentifier s = true ↔
      ∃ c cs, s.toList = c :: cs ∧ startsName c = true ∧ ∀ d ∈ cs, continuesName d = true := by
  unfold isIdentifier
  cases s.toList with
  | nil => simp [isIdentifierChars]
  | cons c cs =>
    constructor
    · intro h
      exact ⟨c, cs, rfl, by simpa [isIdentifierChars] using h⟩
    · rintro ⟨c', cs', h, h'⟩
      obtain ⟨rfl, rfl⟩ := List.cons.inj h
      simpa [isIdentifierChars] using h'

/-- A character that starts a name may also continue one. -/
theorem continuesName_of_startsName {c : Char} (h : startsName c = true) :
    continuesName c = true := by
  simp only [startsName, continuesName, isAlphanumeric, Bool.or_eq_true] at h ⊢
  rcases h with h | h
  · exact Or.inl h
  · exact Or.inr (Or.inl h)

/-- A dot or a slash does not continue a name. -/
theorem continuesName_of_separator {c : Char} (h : c ∈ ['.', '/', '\\']) :
    continuesName c = false := by
  have hnone : ['.', '/', '\\'].any continuesName = false := by decide +kernel
  exact Bool.eq_false_iff.mpr (List.any_eq_false.mp hnone c h)

/-- A name holds no character that cannot continue one. -/
theorem not_mem_of_isIdentifier {s : String} (h : isIdentifier s = true) {c : Char}
    (hc : continuesName c = false) : c ∉ s.toList := by
  obtain ⟨first, rest, hs, hfirst, hrest⟩ := isIdentifier_iff.mp h
  rw [hs, List.mem_cons, not_or]
  constructor
  · rintro rfl
    exact absurd ((continuesName_of_startsName hfirst).symm.trans hc) nofun
  · intro hmem
    exact absurd ((hrest _ hmem).symm.trans hc) nofun

end EntityModel.Text
