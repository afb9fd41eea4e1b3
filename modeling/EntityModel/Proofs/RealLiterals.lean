import EntityModel.CSharp.Literal
import EntityModel.Proofs.DecimalText
import EntityModel.Proofs.Rounding

/-!
# Real literals

The default value of a real is copied into the generated source if it has the form of a C# literal
and is finite in its type.  `RealText` describes the texts of that form part by part, each with its
exact value, a fraction.  The scanner reads these texts and no other, and its comparison with the
bound of a format is exact although it never expands a large power of ten.

* `RealText.read?_eq_some_iff`           the texts that the scanner reads
* `RealLiteral.magnitudeBelow_iff`       the comparison of a magnitude with a bound
* `FloatFormat.isFinite_literal_iff`     which reals are finite in a format
* `real_literal_iff_rounds_to_finite`    the literals of the three real types
-/

namespace EntityModel.Text

/-! ### Decimal texts of reals -/

/-- The exponent of a real: a mark, a sign that may be missing and digits. -/
structure ExponentText where
  mark : Char
  sign : List Char
  digits : DigitRun
  isMark : mark = 'e' ∨ mark = 'E'
  isSign : sign = [] ∨ sign = ['+'] ∨ sign = ['-']

namespace ExponentText

/-- The exponent as it is written. -/
def chars (x : ExponentText) : List Char := x.mark :: (x.sign ++ x.digits.chars)

/-- The power of ten that the exponent stands for. -/
def number (x : ExponentText) : ℤ :=
  if x.sign = ['-'] then -(x.digits.number : ℤ) else x.digits.number

end ExponentText

/-- A real: a minus sign that may be missing, digits, a fraction with digits of its own that may be
    missing, and an exponent that may be missing. -/
structure RealText where
  sign : List Char
  whole : DigitRun
  fraction : Option DigitRun
  exponent : Option ExponentText
  isSign : sign = [] ∨ sign = ['-']

namespace RealText

/-- A fraction as it is written behind the whole digits. -/
def fractionChars (f : Option DigitRun) : List Char := f.elim [] fun run => '.' :: run.chars

/-- The digits of a fraction. -/
def fractionDigits (f : Option DigitRun) : List Char := f.elim [] DigitRun.chars

/-- An exponent as it is written behind the fraction. -/
def exponentChars (x : Option ExponentText) : List Char := x.elim [] ExponentText.chars

/-- The power of ten that an exponent stands for, none without one. -/
def exponentNumber (x : Option ExponentText) : ℤ := x.elim 0 ExponentText.number

/-- The real as it is written. -/
def chars (d : RealText) : List Char :=
  d.sign ++ (d.whole.chars ++ (fractionChars d.fraction ++ exponentChars d.exponent))

/-- The exact value of the real. -/
def value (d : RealText) : ℚ :=
  (if d.sign = ['-'] then -1 else 1) *
    (d.whole.number + d.fraction.elim 0 fun f => (f.number : ℚ) / 10 ^ f.chars.length) *
    10 ^ exponentNumber d.exponent

/-- The real as digits and a power of ten. -/
def literal (d : RealText) : RealLiteral where
  negative := d.sign = ['-']
  digits := d.whole.chars ++ fractionDigits d.fraction
  scale := exponentNumber d.exponent - (fractionDigits d.fraction).length

end RealText

/-! ### Runs of digits -/

/-- The value of digits, with the factors of each step the other way round. -/
private theorem digitsValue_eq (cs : List Char) : digitsValue cs = Nat.ofDigitChars 10 cs 0 := by
  unfold digitsValue Nat.ofDigitChars
  simp only [Nat.mul_comm]

/-- The text does not go on with a digit. -/
def EndsRun (rest : List Char) : Prop := ∀ c, rest.head? = some c → c.isDigit = false

/-- A run of digits is taken up to where it ends. -/
-- the run is taken in full, and no digit behind it is there to be taken with it
theorem takeDigits?_append (d : DigitRun) {rest : List Char} (h : EndsRun rest) :
    takeDigits? (d.chars ++ rest) = some (d.chars, rest) := by
  have htake : (d.chars ++ rest).takeWhile Char.isDigit = d.chars := by
    rw [List.takeWhile_append_of_pos d.isDigit]
    cases rest with
    | nil => simp
    | cons c rest => simp [h c rfl]
  have hdrop : (d.chars ++ rest).dropWhile Char.isDigit = rest := by
    rw [List.dropWhile_append_of_pos d.isDigit]
    cases rest with
    | nil => rfl
    | cons c rest => simp [h c rfl]
  unfold takeDigits?
  rw [htake, hdrop]
  exact if_neg (by simpa using d.ne_nil)

/-- What is taken is a run of digits. -/
theorem exists_run_of_takeDigits? {cs run rest : List Char}
    (h : takeDigits? cs = some (run, rest)) :
    ∃ d : DigitRun, d.chars = run ∧ cs = d.chars ++ rest := by
  unfold takeDigits? at h
  -- what is taken without a digit is refused
  simp only at h
  split at h
  · cases h
  · rename_i hne
    obtain ⟨rfl, rfl⟩ := Prod.mk.inj (Option.some.inj h)
    exact ⟨⟨cs.takeWhile Char.isDigit, by simpa using hne,
      fun c hc => List.all_eq_true.mp List.all_takeWhile c hc⟩, rfl,
      List.takeWhile_append_dropWhile.symm⟩

/-! ### Reading what is written -/

namespace RealText

open RealLiteral

/-- At the end of a text no run goes on. -/
private theorem endsRun_nil : EndsRun [] := by simp [EndsRun]

/-- A run does not go on with anything but a digit. -/
private theorem endsRun_cons {c : Char} (h : c.isDigit = false) (cs : List Char) :
    EndsRun (c :: cs) := by
  rintro d ⟨⟩
  exact h

/-- The digits of an exponent are read up to the end. -/
private theorem readExponentDigits_run (negative : Bool) (d : DigitRun) :
    readExponentDigits negative d.chars =
      some (if negative then -(d.number : ℤ) else d.number, []) := by
  have htake := takeDigits?_append d endsRun_nil
  rw [List.append_nil] at htake
  simp only [readExponentDigits, htake, Option.map_some, digitsValue_eq]
  rfl

/-- An exponent is read with its sign, or without one. -/
private theorem readSignedExponent_written (x : ExponentText) :
    readSignedExponent (x.sign ++ x.digits.chars) = some (x.number, []) := by
  unfold ExponentText.number
  obtain hsign | hsign | hsign := x.isSign
  -- the first digit is not taken for a sign
  · obtain ⟨c, cs, hcs, hc⟩ := x.digits.exists_cons
    have hread : readSignedExponent (c :: cs) = readExponentDigits false (c :: cs) := by
      unfold readSignedExponent
      split
      · rename_i heq
        obtain ⟨rfl, -⟩ := List.cons.inj heq
        exact absurd hc (by decide)
      · rename_i heq
        obtain ⟨rfl, -⟩ := List.cons.inj heq
        exact absurd hc (by decide)
      · rfl
    rw [hsign, List.nil_append, hcs, hread, ← hcs, readExponentDigits_run]
    rfl
  · rw [hsign, List.singleton_append]
    exact readExponentDigits_run false x.digits
  · rw [hsign, List.singleton_append]
    exact readExponentDigits_run true x.digits

/-- An exponent is read behind either mark, and none is read where there is none. -/
private theorem readExponent_written (x : Option ExponentText) :
    readExponent (exponentChars x) = some (exponentNumber x, []) := by
  cases x with
  | none => rfl
  | some x =>
    obtain hmark | hmark := x.isMark
    · simp only [exponentChars, exponentNumber, Option.elim_some, ExponentText.chars, hmark]
      exact readSignedExponent_written x
    · simp only [exponentChars, exponentNumber, Option.elim_some, ExponentText.chars, hmark]
      exact readSignedExponent_written x

/-- An exponent ends a run of digits, and it does not begin with a point. -/
private theorem endsRun_exponentChars (x : Option ExponentText) :
    EndsRun (exponentChars x) ∧ (exponentChars x).head? ≠ some '.' := by
  cases x with
  | none => exact ⟨endsRun_nil, by simp [exponentChars]⟩
  | some x =>
    simp only [exponentChars, Option.elim_some, ExponentText.chars]
    obtain hmark | hmark := x.isMark
    · rw [hmark]
      exact ⟨endsRun_cons (by decide) _, by simp⟩
    · rw [hmark]
      exact ⟨endsRun_cons (by decide) _, by simp⟩

/-- A fraction is read if there is one. -/
private theorem readFraction_written (f : Option DigitRun) {rest : List Char} (h : EndsRun rest)
    (hpoint : rest.head? ≠ some '.') :
    readFraction (fractionChars f ++ rest) = some (fractionDigits f, rest) := by
  cases f with
  -- what stands here is not a point
  | none =>
    show readFraction rest = some ([], rest)
    unfold readFraction
    split
    · exact absurd rfl hpoint
    · rfl
  | some run => exact takeDigits?_append run h

/-- A real without its sign is read part by part. -/
private theorem readUnsigned_written (negative : Bool) (d : RealText) :
    readUnsigned negative
        (d.whole.chars ++ (fractionChars d.fraction ++ exponentChars d.exponent)) =
      some ⟨negative, d.whole.chars ++ fractionDigits d.fraction,
        exponentNumber d.exponent - (fractionDigits d.fraction).length⟩ := by
  obtain ⟨hends, hpoint⟩ := endsRun_exponentChars d.exponent
  -- behind the whole digits stands a point, the mark of an exponent or nothing
  have hrest : EndsRun (fractionChars d.fraction ++ exponentChars d.exponent) := by
    cases d.fraction with
    | none => exact hends
    | some run => exact endsRun_cons (by decide) _
  simp only [readUnsigned, takeDigits?_append d.whole hrest,
    readFraction_written d.fraction hends hpoint, readExponent_written, Option.bind_eq_bind,
    Option.bind_some, List.isEmpty_nil, if_true]

/-- A real that is written is read. -/
theorem read?_chars (d : RealText) : read? d.chars = some d.literal := by
  unfold literal chars
  obtain hsign | hsign := d.isSign
  -- without a sign the text begins with a digit
  · obtain ⟨c, cs, hcs, hc⟩ := d.whole.exists_cons
    have hread : ∀ ds, read? (c :: ds) = readUnsigned false (c :: ds) := by
      intro ds
      unfold read?
      split
      · rename_i heq
        obtain ⟨rfl, -⟩ := List.cons.inj heq
        exact absurd hc (by decide)
      · rfl
    rw [hsign, List.nil_append, ← readUnsigned_written]
    rw [hcs, List.cons_append, hread]
    rfl
  · rw [hsign, List.singleton_append]
    exact readUnsigned_written true d

/-! ### What is read is written so -/

/-- What is read as the digits of an exponent is a run of digits. -/
private theorem exists_exponentDigits_of_read {negative : Bool} {cs rest : List Char} {e : ℤ}
    (h : readExponentDigits negative cs = some (e, rest)) :
    ∃ run : DigitRun, cs = run.chars ++ rest ∧
      e = if negative then -(run.number : ℤ) else run.number := by
  obtain ⟨⟨digits, rest'⟩, hdigits, heq⟩ := Option.map_eq_some_iff.mp h
  obtain ⟨rfl, rfl⟩ := Prod.mk.inj heq
  obtain ⟨run, rfl, rfl⟩ := exists_run_of_takeDigits? hdigits
  exact ⟨run, rfl, by rw [digitsValue_eq]; rfl⟩

/-- What is read behind the mark of an exponent is an exponent. -/
private theorem exists_signedExponent_of_read {mark : Char} (hmark : mark = 'e' ∨ mark = 'E')
    {cs rest : List Char} {e : ℤ} (h : readSignedExponent cs = some (e, rest)) :
    ∃ x : ExponentText, mark :: cs = x.chars ++ rest ∧ e = x.number := by
  unfold readSignedExponent at h
  -- with a minus sign, with a plus sign or with none
  split at h
  · obtain ⟨run, rfl, rfl⟩ := exists_exponentDigits_of_read h
    exact ⟨⟨mark, ['-'], run, hmark, .inr (.inr rfl)⟩, rfl, rfl⟩
  · obtain ⟨run, rfl, rfl⟩ := exists_exponentDigits_of_read h
    exact ⟨⟨mark, ['+'], run, hmark, .inr (.inl rfl)⟩, rfl, rfl⟩
  · obtain ⟨run, rfl, rfl⟩ := exists_exponentDigits_of_read h
    exact ⟨⟨mark, [], run, hmark, .inl rfl⟩, rfl, rfl⟩

/-- What is read as an exponent is one, or nothing. -/
private theorem exists_exponent_of_read {cs rest : List Char} {e : ℤ}
    (h : readExponent cs = some (e, rest)) :
    ∃ x : Option ExponentText, cs = exponentChars x ++ rest ∧ e = exponentNumber x := by
  unfold readExponent at h
  split at h
  · obtain ⟨x, hx, rfl⟩ := exists_signedExponent_of_read (.inl rfl) h
    exact ⟨some x, hx, rfl⟩
  · obtain ⟨x, hx, rfl⟩ := exists_signedExponent_of_read (.inr rfl) h
    exact ⟨some x, hx, rfl⟩
  · obtain ⟨rfl, rfl⟩ := Prod.mk.inj (Option.some.inj h)
    exact ⟨none, rfl, rfl⟩

/-- What is read as a fraction is one, or nothing. -/
private theorem exists_fraction_of_read {cs digits rest : List Char}
    (h : readFraction cs = some (digits, rest)) :
    ∃ f : Option DigitRun, cs = fractionChars f ++ rest ∧ digits = fractionDigits f := by
  unfold readFraction at h
  split at h
  · obtain ⟨run, rfl, rfl⟩ := exists_run_of_takeDigits? h
    exact ⟨some run, rfl, rfl⟩
  · obtain ⟨rfl, rfl⟩ := Prod.mk.inj (Option.some.inj h)
    exact ⟨none, rfl, rfl⟩

/-- What is read behind a sign is a real with that sign. -/
private theorem exists_of_readUnsigned {sign : List Char} (hsign : sign = [] ∨ sign = ['-'])
    {cs : List Char} {r : RealLiteral} (h : readUnsigned (sign = ['-']) cs = some r) :
    ∃ d : RealText, sign ++ cs = d.chars ∧ r = d.literal := by
  simp only [readUnsigned, Option.bind_eq_bind] at h
  -- the three parts were read one after the other, and nothing was left
  obtain ⟨⟨whole, afterWhole⟩, hwhole, h⟩ := Option.bind_eq_some_iff.mp h
  obtain ⟨⟨fraction, afterFraction⟩, hfraction, h⟩ := Option.bind_eq_some_iff.mp h
  obtain ⟨⟨exponent, rest⟩, hexponent, h⟩ := Option.bind_eq_some_iff.mp h
  obtain ⟨run, rfl, rfl⟩ := exists_run_of_takeDigits? hwhole
  obtain ⟨f, rfl, rfl⟩ := exists_fraction_of_read hfraction
  obtain ⟨x, rfl, rfl⟩ := exists_exponent_of_read hexponent
  split at h
  · rename_i hrest
    obtain rfl := Option.some.inj h
    obtain rfl := List.isEmpty_iff.mp hrest
    exact ⟨⟨sign, run, f, x, hsign⟩, by rw [chars, List.append_nil], rfl⟩
  · cases h

/-- A text is read exactly if it is a real as it is written, and as that real. -/
theorem read?_eq_some_iff {cs : List Char} {r : RealLiteral} :
    read? cs = some r ↔ ∃ d : RealText, cs = d.chars ∧ r = d.literal := by
  constructor
  · intro h
    unfold read? at h
    -- the first character decides whether there is a sign
    split at h
    · exact exists_of_readUnsigned (.inr rfl) h
    · exact exists_of_readUnsigned (.inl rfl) h
  · rintro ⟨d, rfl, rfl⟩
    exact read?_chars d

end RealText

/-! ### Exact values -/

/-- Digits are below the power of ten with as many zeros. -/
private theorem ofDigitChars_lt {cs : List Char} (h : ∀ c ∈ cs, c.isDigit = true) :
    Nat.ofDigitChars 10 cs 0 < 10 ^ cs.length := by
  induction cs with
  | nil => exact Nat.one_pos
  | cons c cs ih =>
    obtain ⟨hc, hcs⟩ := List.forall_mem_cons.mp h
    -- a digit stands for nine at most, and the rest is smaller than its power of ten
    have hdigit : c.toNat - '0'.toNat ≤ 9 := by
      have := (isDigit_iff_bounds.mp hc).2
      simp only [Char.reduceToNat]
      omega
    have hrest := ih hcs
    rw [Nat.ofDigitChars_cons, Nat.ofDigitChars_eq_ofDigitChars_zero, List.length_cons, pow_succ,
      Nat.mul_zero, Nat.zero_add]
    have := Nat.mul_le_mul_left (10 ^ cs.length) hdigit
    omega

namespace RealLiteral

/-- The number that the literal stands for. -/
def value (r : RealLiteral) : ℚ :=
  (if r.negative then -1 else 1) * digitsValue r.digits * 10 ^ r.scale

/-- The magnitude leaves the sign away. -/
private theorem abs_value (r : RealLiteral) : |r.value| = digitsValue r.digits * 10 ^ r.scale := by
  have hsign : |(if r.negative then -1 else 1 : ℚ)| = 1 := by
    split <;> simp
  rw [value, abs_mul, abs_mul, hsign, one_mul, Nat.abs_cast, abs_of_pos (by positivity)]

/-- The comparison of the magnitude is exact, although it expands no power of ten that is large
    enough to decide it. -/
theorem magnitudeBelow_iff {r : RealLiteral} (h : ∀ c ∈ r.digits, c.isDigit = true) {bound : Nat} :
    r.magnitudeBelow bound = true ↔ |r.value| < bound := by
  have hdigits : digitsValue r.digits < 10 ^ r.digits.length := by
    rw [digitsValue_eq]
    exact ofDigitChars_lt h
  rw [abs_value]
  unfold magnitudeBelow
  generalize digitsValue r.digits = n at hdigits ⊢
  -- zero is below every bound but zero, whatever the power of ten is
  obtain rfl | hn := Nat.eq_zero_or_pos n
  · simp
  simp only [if_neg hn.ne']
  obtain hscale | hscale := le_or_gt 0 r.scale
  · obtain ⟨k, hk⟩ := Int.eq_ofNat_of_zero_le hscale
    have hvalue : (n : ℚ) * 10 ^ r.scale < bound ↔ n * 10 ^ k < bound := by
      rw [hk, zpow_natCast]
      exact_mod_cast Iff.rfl
    -- a number of so many digits is above every power of two that the bound reaches
    have hlog : n * 10 ^ k < bound → k ≤ bound.log2 := by
      intro hlt
      rw [Nat.le_log2 (by omega)]
      calc 2 ^ k ≤ 10 ^ k := Nat.pow_le_pow_left (by norm_num) k
        _ ≤ n * 10 ^ k := Nat.le_mul_of_pos_left _ hn
        _ ≤ bound := hlt.le
    rw [hvalue, if_pos hscale, hk, Int.toNat_natCast, Bool.and_eq_true, decide_eq_true_eq,
      decide_eq_true_eq]
    exact and_iff_right_of_imp hlog
  -- a negative power of ten is moved to the side of the bound
  · obtain ⟨k, hk⟩ := Int.eq_ofNat_of_zero_le (show 0 ≤ -r.scale by omega)
    have hvalue : (n : ℚ) * 10 ^ r.scale < bound ↔ n < bound * 10 ^ k := by
      rw [← neg_neg r.scale, hk, zpow_neg, zpow_natCast, ← div_eq_mul_inv,
        div_lt_iff₀ (by positivity)]
      exact_mod_cast Iff.rfl
    -- a number with no more digits than the power takes away is below one
    have hshort : r.digits.length ≤ k ∧ 0 < bound → n < bound * 10 ^ k := by
      rintro ⟨hlength, hbound⟩
      calc n < 10 ^ r.digits.length := hdigits
        _ ≤ 10 ^ k := Nat.pow_le_pow_right (by norm_num) hlength
        _ ≤ bound * 10 ^ k := Nat.le_mul_of_pos_left _ hbound
    rw [hvalue, if_neg (not_le.mpr hscale), hk, Int.toNat_natCast, Bool.or_eq_true,
      Bool.and_eq_true, decide_eq_true_eq, decide_eq_true_eq, decide_eq_true_eq]
    exact or_iff_right_of_imp hshort

end RealLiteral

namespace RealText

/-- The digits of a real are digits. -/
private theorem isDigit_of_mem_digits (d : RealText) :
    ∀ c ∈ d.literal.digits, c.isDigit = true := by
  refine List.forall_mem_append.mpr ⟨d.whole.isDigit, ?_⟩
  cases d.fraction with
  | none => exact fun c hc => absurd hc List.not_mem_nil
  | some run => exact run.isDigit

/-- Digits and a power of ten stand for the same number as the real that they are of. -/
theorem value_literal (d : RealText) : d.literal.value = d.value := by
  -- the digits of the fraction are divided by as many tens as there are of them
  have hten : (10 : ℚ) ≠ 0 := by norm_num
  unfold RealLiteral.value value literal
  simp only [digitsValue_eq, Nat.ofDigitChars_append, decide_eq_true_eq]
  rw [Nat.ofDigitChars_eq_ofDigitChars_zero, zpow_sub₀ hten]
  cases d.fraction with
  | none => simp [fractionDigits, DigitRun.number, Nat.ofDigitChars]
  | some run =>
    simp only [fractionDigits, Option.elim_some, DigitRun.number, zpow_natCast]
    push_cast
    field_simp

end RealText

/-- A real is finite in a format exactly if its value is rounded to a finite one. -/
theorem FloatFormat.isFinite_literal_iff {f : FloatFormat} (hprecision : 0 < f.precision)
    (h : f.precision ≤ f.maxExponent) (d : RealText) :
    f.isFinite d.literal = true ↔ f.RoundsToFinite d.value := by
  rw [isFinite, RealLiteral.magnitudeBelow_iff d.isDigit_of_mem_digits, d.value_literal,
    roundsToFinite_iff hprecision h]

end EntityModel.Text

namespace EntityModel.CSharp

open Text (RealText FloatFormat)

/-- The literal of a real is its text with the suffix, if the text is a real that is rounded to a
    finite value. -/
theorem realLiteral?_eq_some_iff {f : FloatFormat} (hprecision : 0 < f.precision)
    (h : f.precision ≤ f.maxExponent) (suffix literal : String) (cs : List Char) :
    realLiteral? f suffix cs = some literal ↔
      literal = String.ofList cs ++ suffix ∧
        ∃ d : RealText, cs = d.chars ∧ f.RoundsToFinite d.value := by
  -- what remains is what is known of the scanner and of the formats
  have hread : realLiteral? f suffix cs = some literal ↔
      ∃ r, Text.RealLiteral.read? cs = some r ∧ f.isFinite r = true ∧
        String.ofList cs ++ suffix = literal := by
    unfold realLiteral?
    cases Text.RealLiteral.read? cs <;> simp
  rw [hread]
  constructor
  · rintro ⟨r, hr, hfinite, rfl⟩
    obtain ⟨d, rfl, rfl⟩ := RealText.read?_eq_some_iff.mp hr
    exact ⟨rfl, d, rfl, (FloatFormat.isFinite_literal_iff hprecision h d).mp hfinite⟩
  · rintro ⟨rfl, d, rfl, hfinite⟩
    exact ⟨d.literal, d.read?_chars,
      (FloatFormat.isFinite_literal_iff hprecision h d).mpr hfinite, rfl⟩

/-- A default value has a literal of a real type exactly if its trimmed text is a real whose value
    is rounded to a finite one: of single precision for `float`, of double precision for `double`
    and for `decimal`.  The literal is the trimmed text with the suffix of the type. -/
theorem real_literal_iff_rounds_to_finite (v literal : String) :
    (defaultLiteral? v .double = some literal ↔
      literal = Text.trim v ∧ ∃ d : RealText, (Text.trim v).toList = d.chars ∧
        FloatFormat.double.RoundsToFinite d.value) ∧
    (defaultLiteral? v .float = some literal ↔
      literal = Text.trim v ++ "f" ∧ ∃ d : RealText, (Text.trim v).toList = d.chars ∧
        FloatFormat.single.RoundsToFinite d.value) ∧
    (defaultLiteral? v .decimal = some literal ↔
      literal = Text.trim v ++ "m" ∧ ∃ d : RealText, (Text.trim v).toList = d.chars ∧
        FloatFormat.double.RoundsToFinite d.value) := by
  -- the two formats are wide enough for the theorem about one of them
  have hdouble := realLiteral?_eq_some_iff (f := .double) (by decide) (by decide)
  have hsingle := realLiteral?_eq_some_iff (f := .single) (by decide) (by decide)
  rw [Text.toList_trim]
  refine ⟨?_, hsingle "f" literal _, hdouble "m" literal _⟩
  have hplain := hdouble "" literal (Text.trimChars v.toList)
  rwa [String.append_empty] at hplain

/-- The largest magnitude of a C# decimal. -/
def largestDecimal : ℚ := 79228162514264337593543950335

/-- A literal of type `decimal` may be beyond the largest magnitude of that type. -/
theorem decimal_literal_may_be_too_large :
    ∃ v literal, defaultLiteral? v .decimal = some literal ∧
      ∃ d : RealText, (Text.trim v).toList = d.chars ∧ largestDecimal < |d.value| := by
  -- 1e29 is within double precision, and beyond 28 digits of a decimal
  let one : Text.DigitRun := ⟨['1'], by decide, List.all_eq_true.mp rfl⟩
  let power : Text.DigitRun := ⟨['2', '9'], by decide, List.all_eq_true.mp rfl⟩
  let d : RealText :=
    ⟨[], one, none, some ⟨'e', [], power, .inl rfl, .inl rfl⟩, .inl rfl⟩
  have hliteral : d.literal = ⟨false, ['1'], 29⟩ := by decide
  have hvalue : d.value = 10 ^ 29 := by
    rw [← d.value_literal, hliteral]
    simp [Text.RealLiteral.value, Text.digitsValue]
  refine ⟨" 1e29", "1e29m", by decide +kernel, d, by decide, ?_⟩
  rw [hvalue, largestDecimal]
  norm_num

end EntityModel.CSharp
