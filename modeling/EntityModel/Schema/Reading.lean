import EntityModel.Markup.Element
import EntityModel.Schema.Fault
import EntityModel.Schema.Keyword
import EntityModel.Text.Blank

/-! # Reading with faults

Reading a model does not stop at the first fault.  `Reading α` is a value together with the faults
met on the way to it; sequencing appends them.  The readers of attributes are built on it: a missing
or unreadable attribute is a fault and yields nothing.

* `value_bind`, `faults_bind`     what sequencing does to both parts
* `value_collect`, `faults_collect`   a list of elements is read one by one -/

namespace EntityModel

/-- A value and the faults met while reading it. -/
structure Reading (α : Type) where
  value : α
  faults : List Fault

namespace Reading

variable {α β : Type}

instance : Monad Reading where
  pure a := ⟨a, []⟩
  bind x f := ⟨(f x.value).value, x.faults ++ (f x.value).faults⟩

/-- Report a fault. -/
def report (f : Fault) : Reading Unit := ⟨(), [f]⟩

/-- Report a fault and go without a value. -/
def reject (f : Fault) : Reading (Option α) := ⟨none, [f]⟩

@[simp] theorem value_pure (a : α) : (pure a : Reading α).value = a := rfl

@[simp] theorem faults_pure (a : α) : (pure a : Reading α).faults = [] := rfl

@[simp] theorem value_bind (x : Reading α) (f : α → Reading β) :
    (x >>= f).value = (f x.value).value := rfl

@[simp] theorem value_reject (f : Fault) : (reject f : Reading (Option α)).value = none := rfl

@[simp] theorem faults_reject (f : Fault) : (reject f : Reading (Option α)).faults = [f] := rfl

@[simp] theorem faults_bind (x : Reading α) (f : α → Reading β) :
    (x >>= f).faults = x.faults ++ (f x.value).faults := rfl

/-- Read the elements of a list and keep what could be read. -/
def collect (read : Markup.Element → Reading (Option α)) :
    List Markup.Element → Reading (List α)
  | [] => pure []
  | e :: es => do
    let a ← read e
    let as ← collect read es
    pure (a.toList ++ as)

/-- What is kept of a list is what could be read of each element. -/
theorem value_collect (read : Markup.Element → Reading (Option α)) (es : List Markup.Element) :
    (collect read es).value = es.filterMap fun e => (read e).value := by
  induction es with
  | nil => rfl
  | cons e es ih =>
    simp only [collect, value_bind, value_pure, ih, List.filterMap_cons]
    cases (read e).value <;> simp

/-- The faults of a list are those of its elements, in order. -/
theorem faults_collect (read : Markup.Element → Reading (Option α)) (es : List Markup.Element) :
    (collect read es).faults = es.flatMap fun e => (read e).faults := by
  induction es with
  | nil => rfl
  | cons e es ih => simp [collect, ih]

end Reading

/-! ### Attributes -/

/-- An attribute that must be there. -/
def requireAttribute (e : Markup.Element) (name : String) : Reading (Option String) :=
  match e.attribute? name with
  | some value => pure (some value)
  | none => Reading.reject (.missingAttribute e.localName name e.span)

/-- An attribute that is there is its value. -/
theorem requireAttribute_of_some {e : Markup.Element} {name value : String}
    (h : e.attribute? name = some value) : requireAttribute e name = pure (some value) := by
  unfold requireAttribute
  rw [h]

/-- An attribute that is missing is reported. -/
theorem requireAttribute_of_none {e : Markup.Element} {name : String} (h : e.attribute? name = none) :
    requireAttribute e name = Reading.reject (.missingAttribute e.localName name e.span) := by
  unfold requireAttribute
  rw [h]

/-- A reader that cannot go on without an attribute gives a value only where the attribute is. -/
theorem exists_of_requireAttribute {α : Type} {e : Markup.Element} {name : String}
    {next : Option String → Reading (Option α)} {a : α}
    (h : (requireAttribute e name >>= next).value = some a) (hnone : (next none).value = none) :
    ∃ value, e.attribute? name = some value ∧ (next (some value)).value = some a := by
  cases hvalue : e.attribute? name with
  | none =>
    rw [requireAttribute_of_none hvalue] at h
    exact nomatch hnone.symm.trans h
  | some value =>
    rw [requireAttribute_of_some hvalue] at h
    exact ⟨value, rfl, h⟩

/-- A value that was read from the text of an attribute, or the reason why it could not be. -/
def acceptValue {α : Type} (e : Markup.Element) (name text : String) :
    Except String α → Reading (Option α)
  | .ok a => pure (some a)
  | .error reason => Reading.reject (.invalidValue text name reason e.span)

/-- An attribute that may be missing, read from its text less the blanks around it. -/
def readAttribute {α : Type} (e : Markup.Element) (name : String)
    (read : String → Except String α) : Reading (Option α) :=
  match e.attribute? name with
  | none => pure none
  | some text => acceptValue e name text (read (Text.trim text))

/-- Read a word of a vocabulary. -/
def Vocabulary.read {α : Type} (v : Vocabulary α) (word : String) : Except String α :=
  match v.read? word with
  | some a => .ok a
  | none => .error v.expected

/-- Read a truth value. -/
def readTruth (word : String) : Except String Bool :=
  if word = "true" ∨ word = "1" then .ok true
  else if word = "false" ∨ word = "0" then .ok false
  else .error "expected `true` or `false`"

/-- Read the name of an underlying type. -/
def UnderlyingType.read (word : String) : Except String UnderlyingType :=
  match UnderlyingType.read? word with
  | some t => .ok t
  | none => .error UnderlyingType.vocabulary.expected

/-- Read an integer of the given range. -/
def readIntegerValue (range : Text.IntegerRange) (word : String) : Except String Int :=
  (Text.parseInteger range word).mapError Text.IntegerError.message

/-- The largest length of a value: an integer, or the word `Max` for no limit, which also holds
    without the attribute. -/
def readMaxLength (e : Markup.Element) : Reading (Option Nat) :=
  match (e.attribute? "MaxLength").map Text.trim with
  | none => pure none
  | some text =>
    if text.toList.map Char.toLower = ['m', 'a', 'x'] then pure none
    else do
      let length ← acceptValue e "MaxLength" text (readIntegerValue (.unsigned 32) text)
      pure (length.map Int.toNat)

end EntityModel
