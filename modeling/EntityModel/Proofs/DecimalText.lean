import EntityModel.Text.Blank
import EntityModel.Text.Integer

/-!
# Integers as decimal text

The decimal text of an integer is read as that integer in every range that contains it, and there is
nothing around it to be trimmed.

* `DigitRun`                 a run of at least one digit
* `readNatural_toDigits`     the digits of a number
* `parseInteger_toString`    the text of an integer
* `trim_toString`            its text less the blanks around it
-/

namespace EntityModel.Text

/-! ### Digits -/

/-- The decimal digits are the characters with the codes from 48 to 57. -/
theorem isDigit_iff_bounds {c : Char} : c.isDigit = true ↔ 48 ≤ c.toNat ∧ c.toNat ≤ 57 := by
  simp [Char.isDigit, UInt32.le_iff_toNat_le]

/-- The value of a decimal digit is its distance from zero. -/
theorem digitValue?_of_isDigit {c : Char} (h : c.isDigit = true) :
    digitValue? 10 c = some (c.toNat - '0'.toNat) := by
  have hlt : c.toNat - '0'.toNat < 10 := by
    have := (isDigit_iff_bounds.mp h).2
    simp only [Char.reduceToNat]
    omega
  simp only [digitValue?, h, if_true]
  rw [if_pos hlt]

/-- A run of at least one decimal digit. -/
structure DigitRun where
  chars : List Char
  ne_nil : chars ≠ []
  isDigit : ∀ c ∈ chars, c.isDigit = true

namespace DigitRun

/-- The number that the digits spell. -/
def number (d : DigitRun) : Nat := Nat.ofDigitChars 10 d.chars 0

/-- A run begins with a digit. -/
theorem exists_cons (d : DigitRun) : ∃ c cs, d.chars = c :: cs ∧ c.isDigit = true := by
  obtain ⟨c, cs, hcs⟩ := List.exists_cons_of_ne_nil d.ne_nil
  exact ⟨c, cs, hcs, d.isDigit c (hcs ▸ List.mem_cons_self)⟩

end DigitRun

/-- Digits only make a number larger. -/
private theorem le_ofDigitChars (cs : List Char) (init : Nat) :
    init ≤ Nat.ofDigitChars 10 cs init := by
  induction cs generalizing init with
  | nil => exact Nat.le_refl init
  | cons c cs ih =>
    -- a number is multiplied before each digit is added, so it does not become smaller
    rw [Nat.ofDigitChars_cons]
    exact Nat.le_trans (by omega) (ih _)

/-- Digits are read as their number if it keeps to the limit. -/
theorem readDigits_of_isDigit {cs : List Char} (hcs : ∀ c ∈ cs, c.isDigit = true) {limit acc : Nat}
    (hlimit : Nat.ofDigitChars 10 cs acc ≤ limit) (overflow : IntegerError) :
    readDigits 10 limit overflow acc cs = .ok (Nat.ofDigitChars 10 cs acc) := by
  induction cs generalizing acc with
  | nil => rfl
  | cons c cs ih =>
    obtain ⟨hc, hcs⟩ := List.forall_mem_cons.mp hcs
    -- the number read so far is on the way to the whole, so it keeps to the limit as well
    rw [Nat.ofDigitChars_cons, Nat.mul_comm] at hlimit ⊢
    rw [readDigits_cons (digitValue?_of_isDigit hc),
      if_pos (Nat.le_trans (le_ofDigitChars _ _) hlimit), ih hcs hlimit]

/-- The digits of a number are decimal digits. -/
theorem isDigit_of_mem_toDigits {n : Nat} : ∀ c ∈ Nat.toDigits 10 n, c.isDigit = true := fun _ hc =>
  Nat.isDigit_of_mem_toDigits (by decide) (by decide) hc

/-- The digits of a number are read as the number. -/
theorem readNatural_toDigits {n limit : Nat} (h : n ≤ limit) (overflow : IntegerError) :
    readNatural 10 limit overflow (Nat.toDigits 10 n) = .ok n := by
  obtain ⟨c, cs, hcs⟩ := List.exists_cons_of_ne_nil (Nat.toDigits_ne_nil (n := n) (b := 10))
  have hread := readDigits_of_isDigit isDigit_of_mem_toDigits
    (show Nat.ofDigitChars 10 (Nat.toDigits 10 n) 0 ≤ limit by rwa [Nat.ofDigitChars_ten_toDigits])
    overflow
  rw [Nat.ofDigitChars_ten_toDigits, hcs] at hread
  rw [hcs]
  exact hread

/-! ### Integers -/

/-- The text of an integer is that of its magnitude, behind a minus sign if it is negative. -/
private theorem toList_toString (i : Int) : (toString i).toList =
    if 0 ≤ i then Nat.toDigits 10 i.toNat else '-' :: Nat.toDigits 10 (-i).toNat := by
  rw [Int.toString_eq_repr, Int.repr_eq_if]
  split
  · exact Nat.toList_repr
  · rw [String.toList_append, Nat.toList_repr]
    rfl

/-- Text that begins with a digit has no sign. -/
theorem readInteger_of_isDigit {cs : List Char} (hne : cs ≠ []) (hcs : ∀ c ∈ cs, c.isDigit = true)
    (r : IntegerRange) :
    readInteger r cs = (readNatural 10 r.above .tooLarge cs).map fun n => (n : Int) := by
  unfold readInteger
  split
  · exact absurd rfl hne
  · exact absurd (hcs '+' List.mem_cons_self) (by decide)
  · exact absurd (hcs '-' List.mem_cons_self) (by decide)
  · rfl

/-- The text of an integer is read as the integer, in every range that contains it. -/
theorem parseInteger_toString {r : IntegerRange} {i : Int} (h : r.contains i = true) :
    parseInteger r (toString i) = .ok i := by
  obtain ⟨hbelow, habove⟩ := IntegerRange.contains_iff.mp h
  unfold parseInteger
  rw [toList_toString]
  -- without a sign the digits are read as they are, behind one they are negated
  split
  · rename_i hsign
    rw [readInteger_of_isDigit Nat.toDigits_ne_nil isDigit_of_mem_toDigits,
      readNatural_toDigits (by omega)]
    exact congrArg _ (Int.toNat_of_nonneg hsign)
  · rename_i hsign
    show (if r.below = 0 then _ else Except.map _ _) = _
    rw [if_neg (by omega), readNatural_toDigits (by omega)]
    show Except.ok (-((-i).toNat : Int)) = _
    rw [Int.toNat_of_nonneg (by omega), Int.neg_neg]

/-! ### Trimming -/

/-- Where nothing is blank there is nothing to trim. -/
private theorem trimChars_of_not_blank {cs : List Char} (h : ∀ c ∈ cs, isBlank c = false) :
    trimChars cs = cs := by
  -- neither end of the text begins with a blank
  have hstart : ∀ ds : List Char, (∀ c ∈ ds, isBlank c = false) → ds.dropWhile isBlank = ds := by
    intro ds hds
    cases ds with
    | nil => rfl
    | cons c ds => exact List.dropWhile_cons_of_neg (by simp [hds c List.mem_cons_self])
  unfold trimChars trimBoth dropEndWhile
  rw [hstart cs h, hstart cs.reverse fun c hc => h c (List.mem_reverse.mp hc), List.reverse_reverse]

/-- A decimal digit is not blank. -/
private theorem isBlank_of_isDigit {c : Char} (h : c.isDigit = true) : isBlank c = false := by
  have := isDigit_iff_bounds.mp h
  simp only [isBlank, Bool.or_eq_false_iff, Bool.and_eq_false_iff, decide_eq_false_iff_not,
    beq_eq_false_iff_ne]
  omega

/-- There is nothing to trim from the text of an integer. -/
theorem trim_toString (i : Int) : trim (toString i) = toString i := by
  refine String.toList_inj.mp ?_
  rw [toList_trim]
  refine trimChars_of_not_blank fun c hc => ?_
  rw [toList_toString] at hc
  -- the digits of a number that is not negative, or a minus sign and digits
  split at hc
  · exact isBlank_of_isDigit (isDigit_of_mem_toDigits c hc)
  · rcases List.mem_cons.mp hc with rfl | hc
    · decide
    · exact isBlank_of_isDigit (isDigit_of_mem_toDigits c hc)

/-! ### Numbers and words -/

/-- Decimal digits have no other case. -/
private theorem toLower_of_isDigit {c : Char} (h : c.isDigit = true) : c.toLower = c := by
  have hle := (isDigit_iff_bounds.mp h).2
  unfold Char.toLower
  split
  -- the upper case letters come behind the digits
  · rename_i hupper
    have hge : 65 ≤ c.toNat := UInt32.le_iff_toNat_le.mp hupper.1
    omega
  · rfl

/-- A number is no word that begins with a letter. -/
theorem map_toLower_toString_ne {n : Nat} {c : Char} (hc : c.isDigit = false) (cs : List Char) :
    (toString n).toList.map Char.toLower ≠ c :: cs := by
  intro h
  rw [Nat.toString_eq_repr, Nat.toList_repr] at h
  obtain ⟨d, hd, hdc⟩ := List.mem_map.mp (h ▸ List.mem_cons_self)
  have hdigit := isDigit_of_mem_toDigits d hd
  rw [toLower_of_isDigit hdigit] at hdc
  rw [hdc, hc] at hdigit
  exact nomatch hdigit

end EntityModel.Text
