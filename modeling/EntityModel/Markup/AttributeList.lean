import EntityModel.Markup.Element
import EntityModel.Markup.Reference
import EntityModel.Markup.Token

/-! # The attributes of a tag

Behind its name a tag holds attributes: a nonempty key, an equals sign and a quoted value, blanks
allowed around the sign and none needed after the value.  They are read from the left and each value
is resolved before the next key is looked at, so the first fault is the one reported.

* `tagName`, `tagRest`   the name of a tag and what stands behind it
* `readAttributes`       the attributes of a tag, or the first fault in them -/

namespace EntityModel.Markup

/-- Faults in the attributes of a tag.  Positions count bytes from the start of the tag's name. -/
inductive AttributeFault where
  | expectedEquals (position : Nat)
  | duplicated (position previous : Nat)
  | missingValue (position : Nat)
  | unquoted (position : Nat)
  | unclosedQuote (position : Nat) (quote : Char)
deriving DecidableEq, Repr

/-- The wording of a fault in the attributes of a tag. -/
def AttributeFault.message : AttributeFault → String
  | .expectedEquals position =>
    "position " ++ toString position ++
      ": attribute key must be directly followed by `=` or space"
  | .duplicated position previous =>
    "position " ++ toString position ++
      ": duplicated attribute, previous declaration at position " ++ toString previous
  | .missingValue position =>
    "position " ++ toString position ++ ": `=` must be followed by an attribute value"
  | .unquoted position =>
    "position " ++ toString position ++ ": attribute value must be enclosed in `\"` or `'`"
  | .unclosedQuote position quote =>
    "position " ++ toString position ++ ": missing closing quote `" ++ String.singleton quote ++
      "` in attribute value"

/-- Why the attributes of a tag cannot be read. -/
inductive TagFault where
  | attribute (fault : AttributeFault)
  | value (fault : ReferenceFault)
deriving DecidableEq, Repr

/-- Whether a character ends a key. -/
def endsKey (c : Char) : Bool := c == '=' || isSpace c

/-- The name at the beginning of a tag. -/
def tagName (content : List Char) : List Char := content.takeWhile fun c => !isSpace c

/-- What follows the name of a tag. -/
def tagRest (content : List Char) : List Char := content.dropWhile fun c => !isSpace c

/-- An attribute as written: its key, the position of the key and the value still to be resolved. -/
structure RawAttribute where
  key : List Char
  position : Nat
  value : List Char
deriving DecidableEq, Repr

/-- What comes next among the attributes of a tag. -/
inductive AttributeStep where
  | finished
  | attribute (a : RawAttribute) (stop : Nat) (rest : List Char)
  | fault (f : AttributeFault)

/-- Read the quoted value that follows an equals sign.  `total` is the length of the tag. -/
def readValue (total position : Nat) (key : List Char) (valueStart : Nat) (cs : List Char) :
    AttributeStep :=
  let origin := valueStart + Text.byteLength (cs.takeWhile isSpace)
  match cs.dropWhile isSpace with
  | [] => .fault (.missingValue total)
  | quote :: body =>
    if quote = '"' ∨ quote = '\'' then
      match Text.breakOn [quote] body with
      | none => .fault (.unclosedQuote total quote)
      | some (value, rest) =>
        .attribute ⟨key, position, value⟩ (origin + 1 + Text.byteLength value + 1) rest
    else .fault (.unquoted origin)

/-- Read the next attribute.  `seen` holds the keys before it with their positions.  The first
    character of a key is taken whatever it is, so even an equals sign can begin one. -/
def nextAttribute (total : Nat) (seen : List (List Char × Nat)) (start : Nat) (cs : List Char) :
    AttributeStep :=
  let position := start + Text.byteLength (cs.takeWhile isSpace)
  match cs.dropWhile isSpace with
  | [] => .finished
  | first :: body =>
    -- `first` may be an equals sign
    let key := first :: body.takeWhile fun c => !endsKey c
    let afterKey := body.dropWhile fun c => !endsKey c
    let equals := position + Text.byteLength key + Text.byteLength (afterKey.takeWhile isSpace)
    match afterKey.dropWhile isSpace with
    | '=' :: afterEquals =>
      match seen.lookup key with
      | some previous => .fault (.duplicated position previous)
      | none => readValue total position key (equals + 1) afterEquals
    | _ => .fault (.expectedEquals equals)

private theorem length_readValue_lt {total position valueStart stop : Nat} {key cs rest : List Char}
    {a : RawAttribute} (h : readValue total position key valueStart cs = .attribute a stop rest) :
    rest.length < cs.length := by
  have hle := Text.length_dropWhile_le isSpace cs
  unfold readValue at h
  dsimp only at h
  split at h
  · simp at h
  · rename_i quote body hq
    rw [hq] at hle
    split at h
    · split at h
      · simp at h
      · rename_i value r hr
        obtain ⟨_, _, rfl⟩ := AttributeStep.attribute.inj h
        have := Text.length_breakOn_lt (by simp) hr
        simp only [List.length_cons] at hle
        omega
    · simp at h

/-- Every attribute leaves less to read. -/
theorem length_nextAttribute_lt {total start stop : Nat} {seen : List (List Char × Nat)}
    {cs rest : List Char} {a : RawAttribute}
    (h : nextAttribute total seen start cs = .attribute a stop rest) :
    rest.length < cs.length := by
  have h1 := Text.length_dropWhile_le isSpace cs
  unfold nextAttribute at h
  dsimp only at h
  split at h
  · simp at h
  · rename_i first body hb
    have h2 := Text.length_dropWhile_le (fun c => !endsKey c) body
    have h3 := Text.length_dropWhile_le isSpace (body.dropWhile fun c => !endsKey c)
    rw [hb] at h1
    split at h
    · rename_i r hr
      split at h
      · simp at h
      · have := length_readValue_lt h
        rw [hr] at h3
        simp only [List.length_cons] at h1 h3
        omega
    · simp at h

/-- Read the attributes that remain in a tag of `total` bytes. -/
def readAttributesFrom (total : Nat) (seen : List (List Char × Nat)) (start : Nat)
    (cs : List Char) : Except TagFault (List Attribute) :=
  match _h : nextAttribute total seen start cs with
  | .finished => .ok []
  | .fault f => .error (.attribute f)
  | .attribute a stop rest => do
    let value ← (unescape a.value).mapError .value
    let more ← readAttributesFrom total ((a.key, a.position) :: seen) stop rest
    .ok (⟨Name.ofChars a.key, String.ofList value⟩ :: more)
termination_by cs.length
decreasing_by exact length_nextAttribute_lt _h

/-- The attributes of a tag, given what stands between its brackets. -/
def readAttributes (content : List Char) : Except TagFault (List Attribute) :=
  readAttributesFrom (Text.byteLength content) [] (Text.byteLength (tagName content))
    (tagRest content)

end EntityModel.Markup
