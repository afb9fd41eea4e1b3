/-! # Decimal real literals and the range of binary floats

A real literal is an optional minus sign, digits, an optional fraction with at least one digit and
an optional exponent with at least one digit.  Its value is `± digits · 10 ^ scale`, held as two
integers, and whether that value rounds to a finite float is decided in exact arithmetic.

* `RealLiteral.read?`          the grammar
* `FloatFormat.isFinite`       the value is below the point from which rounding gives infinity -/

namespace EntityModel.Text

/-- A decimal real: `digits · 10 ^ scale`, negative if so marked. -/
structure RealLiteral where
  negative : Bool
  digits : List Char
  scale : Int
deriving DecidableEq, Repr

/-- The number a run of decimal digits spells. -/
def digitsValue (cs : List Char) : Nat :=
  cs.foldl (fun n c => n * 10 + (c.toNat - '0'.toNat)) 0

/-- A nonempty run of digits and what follows it. -/
def takeDigits? (cs : List Char) : Option (List Char × List Char) :=
  let run := cs.takeWhile Char.isDigit
  if run.isEmpty then none else some (run, cs.dropWhile Char.isDigit)

namespace RealLiteral

/-- A fraction, if a point follows: its digits and what comes after them. -/
def readFraction : List Char → Option (List Char × List Char)
  | '.' :: cs => takeDigits? cs
  | cs => some ([], cs)

/-- The digits of an exponent after its sign. -/
def readExponentDigits (negative : Bool) (cs : List Char) : Option (Int × List Char) :=
  (takeDigits? cs).map fun (run, rest) =>
    (if negative then -(digitsValue run : Int) else digitsValue run, rest)

/-- The part after the exponent mark: an optional sign and digits. -/
def readSignedExponent : List Char → Option (Int × List Char)
  | '-' :: cs => readExponentDigits true cs
  | '+' :: cs => readExponentDigits false cs
  | cs => readExponentDigits false cs

/-- An exponent, if its mark follows: its value and what comes after it. -/
def readExponent : List Char → Option (Int × List Char)
  | 'e' :: cs => readSignedExponent cs
  | 'E' :: cs => readSignedExponent cs
  | cs => some (0, cs)

/-- A real literal without its sign, which must take up the whole text. -/
def readUnsigned (negative : Bool) (cs : List Char) : Option RealLiteral := do
  let (whole, afterWhole) ← takeDigits? cs
  let (fraction, afterFraction) ← readFraction afterWhole
  let (exponent, rest) ← readExponent afterFraction
  if rest.isEmpty then
    some ⟨negative, whole ++ fraction, exponent - fraction.length⟩
  else none

/-- Read a text that is a real literal as a whole. -/
def read? : List Char → Option RealLiteral
  | '-' :: cs => readUnsigned true cs
  | cs => readUnsigned false cs

/-- Whether the absolute value is below the bound.  A scale so large or so small that it decides
    the question alone is not expanded. -/
def magnitudeBelow (r : RealLiteral) (bound : Nat) : Bool :=
  let n := digitsValue r.digits
  -- a nonzero number is at least one, and below ten to the number of its digits
  if n = 0 then 0 < bound
  else if 0 ≤ r.scale then
    r.scale.toNat ≤ bound.log2 && n * Nat.pow 10 r.scale.toNat < bound
  else
    (r.digits.length ≤ (-r.scale).toNat && 0 < bound) ||
      n < bound * Nat.pow 10 (-r.scale).toNat

end RealLiteral

/-- A binary floating-point format: its precision in bits and its largest exponent. -/
structure FloatFormat where
  precision : Nat
  maxExponent : Nat
deriving DecidableEq, Repr

namespace FloatFormat

/-- IEEE 754 double precision. -/
def double : FloatFormat := ⟨53, 1023⟩

/-- IEEE 754 single precision. -/
def single : FloatFormat := ⟨24, 127⟩

/-- The least magnitude that rounds to infinity: halfway between the largest finite value and the
    power of two above it, which the tie rule sends upwards. -/
def overflowBound (f : FloatFormat) : Nat :=
  (Nat.pow 2 (f.precision + 1) - 1) * Nat.pow 2 (f.maxExponent - f.precision)

/-- Whether the nearest float to the literal's value is finite. -/
def isFinite (f : FloatFormat) (r : RealLiteral) : Bool := r.magnitudeBelow f.overflowBound

end FloatFormat

end EntityModel.Text
