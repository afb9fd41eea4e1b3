/-! # Integers of a fixed width, read from decimal text

An integer is an optional sign and at least one ASCII digit; a minus sign is admitted only where the
range has negative values, and any number of leading zeros is.  Digits are taken from the left, and
the first one that is no digit or that leaves the range decides the error.

* `readDigits_cons`             one step of the loop over the digits
* `IntegerRange.contains_iff`   membership in a range as two inequalities -/

namespace EntityModel.Text

/-- Why a text is not an integer of the range asked for. -/
inductive IntegerError where
  | empty
  | invalidDigit
  | tooLarge
  | tooSmall
deriving DecidableEq, Repr

/-- The wording of an integer error. -/
def IntegerError.message : IntegerError → String
  | .empty => "cannot parse integer from empty string"
  | .invalidDigit => "invalid digit found in string"
  | .tooLarge => "number too large to fit in target type"
  | .tooSmall => "number too small to fit in target type"

/-- The integers from `-below` to `above`. -/
structure IntegerRange where
  below : Nat
  above : Nat
deriving DecidableEq, Repr

namespace IntegerRange

/-- The range of an unsigned integer of the given number of bits. -/
def unsigned (bits : Nat) : IntegerRange := ⟨0, Nat.pow 2 bits - 1⟩

/-- The range of a two's complement integer of the given number of bits. -/
def signed (bits : Nat) : IntegerRange :=
  ⟨Nat.pow 2 (bits - 1), Nat.pow 2 (bits - 1) - 1⟩

/-- Whether the integer lies in the range. -/
def contains (r : IntegerRange) (i : Int) : Bool := -(r.below : Int) ≤ i && i ≤ r.above

theorem contains_iff {r : IntegerRange} {i : Int} :
    r.contains i = true ↔ -(r.below : Int) ≤ i ∧ i ≤ r.above := by
  simp [contains]

end IntegerRange

/-- The value of a digit in the given base, at most sixteen. -/
def digitValue? (base : Nat) (c : Char) : Option Nat :=
  let v :=
    if c.isDigit then c.toNat - '0'.toNat
    else if 'a'.toNat ≤ c.toNat && c.toNat ≤ 'f'.toNat then c.toNat - 'a'.toNat + 10
    else if 'A'.toNat ≤ c.toNat && c.toNat ≤ 'F'.toNat then c.toNat - 'A'.toNat + 10
    else base
  if v < base then some v else none

/-- Continue the number `acc` with more digits, as long as it stays within `limit`. -/
def readDigits (base limit : Nat) (overflow : IntegerError) :
    Nat → List Char → Except IntegerError Nat
  | acc, [] => .ok acc
  | acc, c :: cs =>
    match digitValue? base c with
    | none => .error .invalidDigit
    | some d =>
      if acc * base + d ≤ limit then readDigits base limit overflow (acc * base + d) cs
      else .error overflow

theorem readDigits_cons {base : Nat} {c : Char} {d : Nat} (h : digitValue? base c = some d)
    (limit : Nat) (overflow : IntegerError) (acc : Nat) (cs : List Char) :
    readDigits base limit overflow acc (c :: cs) =
      if acc * base + d ≤ limit then readDigits base limit overflow (acc * base + d) cs
      else .error overflow := by
  simp [readDigits, h]

/-- Read a number without a sign: at least one digit, no more than `limit`. -/
def readNatural (base limit : Nat) (overflow : IntegerError) :
    List Char → Except IntegerError Nat
  | [] => .error .invalidDigit
  | cs => readDigits base limit overflow 0 cs

/-- Read an integer of the range from decimal text. -/
def readInteger (r : IntegerRange) : List Char → Except IntegerError Int
  | [] => .error .empty
  | '+' :: cs => (readNatural 10 r.above .tooLarge cs).map fun n => (n : Int)
  | '-' :: cs =>
    if r.below = 0 then .error .invalidDigit
    else (readNatural 10 r.below .tooSmall cs).map fun n => -(n : Int)
  | cs => (readNatural 10 r.above .tooLarge cs).map fun n => (n : Int)

/-- Read an integer of the range from decimal text. -/
def parseInteger (r : IntegerRange) (s : String) : Except IntegerError Int :=
  readInteger r s.toList

end EntityModel.Text
