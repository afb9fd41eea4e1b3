import EntityModel.Text.Integer
import EntityModel.Text.Offset
import EntityModel.Text.Search

/-! # References in character data

Text and attribute values spell some characters by reference: `&name;` for five named characters,
`&#n;` and `&#xn;` for a code point.  `unescape` resolves them all or reports the first that it
cannot resolve.

* `unescapeFrom_cons_of_ne`   a character other than `&` stands for itself
* `unescapeFrom_of_not_mem`   a text without references is left as it is -/

namespace EntityModel.Markup

/-- Why a numeric reference stands for no character. -/
inductive NumberFault where
  | sign
  | malformed (error : Text.IntegerError)
  | zero
  | noCharacter (code : Nat)
deriving DecidableEq, Repr

/-- The wording of a fault in a numeric reference. -/
def NumberFault.message : NumberFault → String
  | .sign => "unexpected number sign"
  | .malformed e => e.message
  | .zero => "0x0 character is not permitted in XML"
  | .noCharacter code => "`" ++ toString code ++ "` is not a valid codepoint"

/-- Why a reference cannot be resolved.  Offsets count the bytes of the text being read. -/
inductive ReferenceFault where
  | unterminated (start stop : Nat)
  | unknownName (start stop : Nat) (name : String)
  | number (fault : NumberFault)
deriving DecidableEq, Repr

/-- The wording of a fault in a reference. -/
def ReferenceFault.message : ReferenceFault → String
  | .unterminated start stop =>
    "Error while escaping character at range " ++ toString start ++ ".." ++ toString stop ++
      ": Cannot find ';' after '&'"
  | .unknownName start stop name =>
    "at " ++ toString start ++ ".." ++ toString stop ++ ": unrecognized entity `" ++ name ++ "`"
  | .number fault => "invalid character reference: " ++ fault.message

namespace Reference

/-- The largest number that a numeric reference may spell before it is too large to read. -/
def numberLimit : Nat := 0xFFFFFFFF

/-- Read the digits of a numeric reference. -/
def readCode (base : Nat) : List Char → Except NumberFault Nat
  | [] => .error (.malformed .empty)
  | '+' :: _ => .error .sign
  | '-' :: _ => .error .sign
  | cs => (Text.readNatural base numberLimit .tooLarge cs).mapError .malformed

/-- The code point that a numeric reference spells, in base sixteen after an `x`. -/
def readNumber : List Char → Except NumberFault Nat
  | 'x' :: cs => readCode 16 cs
  | cs => readCode 10 cs

/-- The character of a code point. -/
def character (code : Nat) : Except NumberFault Char :=
  if code = 0 then .error .zero
  else if h : code.isValidChar then .ok (Char.ofNatAux code h)
  else .error (.noCharacter code)

/-- The five named characters. -/
def named : List (List Char × Char) :=
  [(['l', 't'], '<'), (['g', 't'], '>'), (['a', 'm', 'p'], '&'), (['a', 'p', 'o', 's'], '\''),
    (['q', 'u', 'o', 't'], '"')]

/-- The character that the text between `&` and `;` stands for.  `position` is the offset of that
    text. -/
def resolve (position : Nat) : List Char → Except ReferenceFault Char
  | '#' :: cs => ((readNumber cs).bind character).mapError .number
  | cs =>
    match named.lookup cs with
    | some c => .ok c
    | none => .error (.unknownName position (position + Text.byteLength cs) (String.ofList cs))

/-- Whether a character ends the text of a reference. -/
def endsBody (c : Char) : Bool := c == '&' || c == ';'

end Reference

/-- Resolve every reference of a text of `total` bytes from the offset `position` on. -/
def unescapeFrom (total position : Nat) : List Char → Except ReferenceFault (List Char)
  | [] => .ok []
  | '&' :: cs =>
    match _h : cs.dropWhile (fun c => !Reference.endsBody c) with
    | ';' :: rest => do
      let body := cs.takeWhile fun c => !Reference.endsBody c
      let c ← Reference.resolve (position + 1) body
      let more ← unescapeFrom total (position + 1 + Text.byteLength body + 1) rest
      .ok (c :: more)
    | _ => .error (.unterminated position total)
  | c :: cs => do
    let more ← unescapeFrom total (position + c.utf8Size) cs
    .ok (c :: more)
termination_by cs => cs.length
decreasing_by
  · have := Text.length_dropWhile_le (fun c => !Reference.endsBody c) cs
    rw [_h] at this
    simp at this ⊢
    omega
  · simp

/-- Resolve every reference of a text. -/
def unescape (cs : List Char) : Except ReferenceFault (List Char) :=
  unescapeFrom (Text.byteLength cs) 0 cs

@[simp] theorem unescapeFrom_nil (total position : Nat) :
    unescapeFrom total position [] = .ok [] := by
  rw [unescapeFrom]

theorem unescapeFrom_cons_of_ne {c : Char} (hc : c ≠ '&') (total position : Nat)
    (cs : List Char) :
    unescapeFrom total position (c :: cs) =
      (unescapeFrom total (position + c.utf8Size) cs).map (c :: ·) := by
  rw [unescapeFrom.eq_3 _ _ _ _ (by simpa using hc)]
  cases unescapeFrom total (position + c.utf8Size) cs <;> rfl

/-- A text without references is left as it is. -/
theorem unescapeFrom_of_not_mem {cs : List Char} (h : '&' ∉ cs) (total position : Nat) :
    unescapeFrom total position cs = .ok cs := by
  induction cs generalizing position with
  | nil => simp
  | cons c cs ih =>
    rw [unescapeFrom_cons_of_ne (by rintro rfl; simp at h), ih (by simp_all)]
    rfl

end EntityModel.Markup
