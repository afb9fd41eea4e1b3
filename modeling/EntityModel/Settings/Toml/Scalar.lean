import EntityModel.Settings.Value
import EntityModel.Text.Integer
import EntityModel.Text.Real

/-! # TOML: texts, numbers, dates and times

The values of a TOML document (version 1.1) that hold no other values.  A text stands in quotes of
either kind, one or three of them, and behind a backslash a text in double quotes spells the
characters that cannot stand for themselves.  Every other value is a word: `true` or `false`, an
integer, a real, or a date, a time or both.

The text of a document is read with its line ends written as line feeds.

* `Reader`       takes something off the front of what is left of a document
* `text`         reads a text, in any of the four ways to write one
* `wordValue?`   the value that a word spells -/

namespace EntityModel.Toml

/-- A reader takes something off the front of the characters that are left, or fails. -/
abbrev Reader := StateT (List Char) Option

namespace Reader

/-- The character in front, which stays. -/
def peek? : Reader (Option Char) := return (← get).head?

/-- Take the character in front. -/
def next : Reader Char
  | [] => none
  | c :: rest => some (c, rest)

/-- Take the longest run of characters of a kind. -/
def takeWhile (p : Char → Bool) : Reader (List Char)
  | cs => some (cs.takeWhile p, cs.dropWhile p)

/-- Take some characters if they are in front, and tell whether they were. -/
def accept (expected : List Char) : Reader Bool
  | cs => if expected.isPrefixOf cs then some (true, cs.drop expected.length) else some (false, cs)

/-- Take some characters that have to be in front. -/
def expect (expected : List Char) : Reader Unit := do
  guard (← accept expected)

/-- Whether the reader takes up all the characters. -/
def takesAll (reader : Reader Unit) (cs : List Char) : Bool := reader cs matches some ((), [])

/-- Two readers in a row succeed exactly if the second one does on what the first one leaves. -/
theorem run_bind_eq_some_iff {α β : Type} {reader : Reader α} {f : α → Reader β}
    {cs rest : List Char} {b : β} :
    (reader >>= f).run cs = some (b, rest) ↔
      ∃ a left, reader.run cs = some (a, left) ∧ (f a).run left = some (b, rest) := by
  rw [StateT.run_bind, Option.bind_eq_bind, Option.bind_eq_some_iff]
  exact ⟨fun ⟨(a, left), ha, hb⟩ => ⟨a, left, ha, hb⟩, fun ⟨a, left, ha, hb⟩ => ⟨(a, left), ha, hb⟩⟩

end Reader

open Reader

/-! ### Characters -/

/-- The blanks within a line. -/
def isGap (c : Char) : Bool := c == ' ' || c == '\t'

/-- The control characters, of which a document holds only the line feeds between its lines. -/
def isControl (c : Char) : Bool := (c.toNat < 0x20 && c != '\t') || c.toNat == 0x7F

/-! ### Texts -/

/-- The character that stands after a backslash for another one. -/
def shortEscape? (c : Char) : Option Char :=
  [('b', '\x08'), ('t', '\t'), ('n', '\n'), ('f', '\x0c'), ('r', '\r'), ('e', '\x1b'), ('"', '"'),
    ('\\', '\\')].lookup c

/-- The character whose code point some hexadecimal digits spell. -/
def codePoint? (digits : List Char) : Option Char := do
  let code ← (Text.readNatural 16 0x10FFFF .tooLarge digits).toOption
  if h : code.isValidChar then some (Char.ofNatAux code h) else none

/-- The characters that a text in double quotes spells.  A backslash at the end of a line joins it
    to what comes after all blanks and line ends behind it; `joining` tells that such blanks are
    being passed over. -/
def unescape (joining : Bool) : List Char → Option (List Char)
  | [] => some []
  | '\\' :: 'x' :: a :: b :: rest => return (← codePoint? [a, b]) :: (← unescape false rest)
  | '\\' :: 'u' :: a :: b :: c :: d :: rest =>
    return (← codePoint? [a, b, c, d]) :: (← unescape false rest)
  | '\\' :: 'U' :: a :: b :: c :: d :: e :: f :: g :: h :: rest =>
    return (← codePoint? [a, b, c, d, e, f, g, h]) :: (← unescape false rest)
  | '\\' :: c :: rest =>
    if isGap c || c == '\n' then
      -- nothing but blanks may stand between the backslash and the end of its line
      if ((c :: rest).dropWhile isGap).head? = some '\n' then unescape true rest else none
    else return (← shortEscape? c) :: (← unescape false rest)
  | c :: rest =>
    if joining && (isGap c || c == '\n') then unescape true rest
    else if c = '\\' then none
    else (unescape false rest).map (c :: ·)

/-- What is behind a quote in front. -/
def endShort (quote : Char) : List Char → Option (List Char × List Char)
  | [] => none
  | c :: rest => if c = quote then some ([], rest) else none

/-- What is behind three quotes in front.  One or two more of them belong to the text. -/
def endLong (quote : Char) (cs : List Char) : Option (List Char × List Char) :=
  let quotes := (cs.takeWhile (· == quote)).length
  if quotes < 3 then none
  else
    let more := min (quotes - 3) 2
    some (List.replicate more quote, cs.drop (more + 3))

/-- Cut a text off the characters in front, up to where `end?` finds its end.  Where backslashes
    escape, the character behind one of them does not end the text. -/
def cut (end? : List Char → Option (List Char × List Char)) (escapes : Bool) : Reader (List Char)
  | [] => none
  | c :: rest =>
    match end? (c :: rest) with
    | some last => some last
    | none =>
      match escapes && c == '\\', rest with
      | true, d :: rest => (cut end? escapes rest).map fun (cs, rest) => (c :: d :: cs, rest)
      | _, rest => (cut end? escapes rest).map fun (cs, rest) => (c :: cs, rest)

/-- Read a text in quotes. -/
def text : Reader String := do
  let quote ← next
  guard (quote = '"' ∨ quote = '\'')
  let escapes := quote == '"'
  let long ← accept [quote, quote]
  -- a line end right behind three quotes is not part of the text
  if long then discard (accept ['\n'])
  let raw ← cut (if long then endLong quote else endShort quote) escapes
  guard (raw.all fun c => !isControl c || (long && c == '\n'))
  if escapes then
    match unescape false raw with
    | some cs => return String.ofList cs
    | none => failure
  else return String.ofList raw

/-! ### Numbers -/

/-- The digits of a number without its underscores, each of which stands between two digits. -/
def dropUnderscores? (isDigit : Char → Bool) : List Char → Option (List Char)
  | [] => some []
  | c :: '_' :: d :: rest =>
    if isDigit c && isDigit d then (dropUnderscores? isDigit (d :: rest)).map (c :: ·) else none
  | c :: rest => if c = '_' then none else (dropUnderscores? isDigit rest).map (c :: ·)

/-- The range of an integer: what a word of 128 bits holds, read with a sign or without one. -/
def integerRange : Text.IntegerRange := ⟨Nat.pow 2 127, Nat.pow 2 128 - 1⟩

/-- The integer of some digits in a base, which has no sign. -/
def basedInteger? (base : Nat) (cs : List Char) : Option Int := do
  let digits ← dropUnderscores? (fun c => (Text.digitValue? base c).isSome) cs
  let n ← (Text.readNatural base integerRange.above .tooLarge digits).toOption
  some n

/-- A sign in front, and what is behind it. -/
def cutSign : List Char → List Char × List Char
  | '+' :: cs => (['+'], cs)
  | '-' :: cs => (['-'], cs)
  | cs => ([], cs)

/-- Whether a number begins with a zero that it does not need. -/
def hasExtraZero : List Char → Bool
  | '0' :: c :: _ => c.isDigit
  | _ => false

/-- The integer of decimal digits, after a sign or without one. -/
def decimalInteger? (cs : List Char) : Option Int := do
  let (sign, cs) := cutSign cs
  let digits ← dropUnderscores? Char.isDigit cs
  if hasExtraZero digits then none
  else (Text.readInteger integerRange (sign ++ digits)).toOption

/-- The integer that a word spells. -/
def integer? : List Char → Option Int
  | '0' :: 'x' :: cs => basedInteger? 16 cs
  | '0' :: 'o' :: cs => basedInteger? 8 cs
  | '0' :: 'b' :: cs => basedInteger? 2 cs
  | cs => decimalInteger? cs

/-- Whether a word spells a real: an infinity, no number at all, or a decimal with a fraction or an
    exponent that a double holds. -/
def isReal (word : List Char) : Bool :=
  let (_, cs) := cutSign word
  if cs = "inf".toList ∨ cs = "nan".toList then true
  else
    match dropUnderscores? Char.isDigit cs with
    -- the one sign that a real may have is cut off already
    | none | some ('-' :: _) => false
    | some digits =>
      digits.any (fun c => c ∈ ['.', 'e', 'E']) && !hasExtraZero digits &&
        (Text.RealLiteral.read? digits).any Text.FloatFormat.double.isFinite

/-! ### Dates and times -/

/-- Take a number of two digits between two bounds. -/
def pair (low high : Nat) : Reader Nat := do
  let a ← next
  let b ← next
  guard (a.isDigit && b.isDigit)
  let n := Text.digitsValue [a, b]
  guard (low ≤ n ∧ n ≤ high)
  return n

/-- The days of a month. -/
def daysIn (year month : Nat) : Nat :=
  if month = 2 then
    if year % 4 = 0 ∧ (year % 100 ≠ 0 ∨ year % 400 = 0) then 29 else 28
  else if month ∈ [4, 6, 9, 11] then 30
  else 31

/-- Take a date. -/
def date : Reader Unit := do
  let century ← pair 0 99
  let year ← pair 0 99
  expect ['-']
  let month ← pair 1 12
  expect ['-']
  discard (pair 1 (daysIn (century * 100 + year) month))

/-- Take a time of day, to the minute or the second or a fraction of it. -/
def time : Reader Unit := do
  discard (pair 0 23)
  expect [':']
  discard (pair 0 59)
  if ← accept [':'] then
    -- a minute may have a leap second
    discard (pair 0 60)
    if ← accept ['.'] then
      guard !(← takeWhile Char.isDigit).isEmpty

/-- Take the distance from universal time, if it is given. -/
def offset : Reader Unit := do
  match ← peek? with
  | some 'Z' | some 'z' => discard next
  | some '+' | some '-' =>
    discard next
    discard (pair 0 23)
    expect [':']
    discard (pair 0 59)
  | _ => return

/-- Take what stands between a date and a time. -/
def dateMark : Reader Unit := do
  let c ← next
  guard (c = 'T' ∨ c = 't' ∨ c = ' ')

/-- Whether a word spells a date. -/
def isDate (word : List Char) : Bool := takesAll date word

/-- Whether a word spells a date, a time or both. -/
def isMoment (word : List Char) : Bool :=
  isDate word || takesAll time word || takesAll (do date; dateMark; time; offset) word

/-! ### Words -/

/-- The characters of a word. -/
def inWord (c : Char) : Bool := !(isGap c || isControl c || c ∈ ['#', ',', ']', '\x7d'])

/-- Take a word. A date and the time behind it are one word, although a blank may stand between
    them. -/
def word : Reader (List Char) := do
  let first ← takeWhile inWord
  match isDate first, ← get with
  | true, ' ' :: c :: _ =>
    if c.isDigit then
      discard next
      return first ++ ' ' :: (← takeWhile inWord)
    else return first
  | _, _ => return first

/-- The value that a word spells. -/
def wordValue? (word : List Char) : Option Value :=
  if word = "true".toList then some (.boolean true)
  else if word = "false".toList then some (.boolean false)
  else if isReal word then some (.other "floating point")
  else if isMoment word then some (.other "date or time")
  else (integer? word).map .integer

end EntityModel.Toml
