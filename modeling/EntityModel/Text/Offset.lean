/-! # Byte offsets into a text

Positions in a source text count the bytes of its UTF-8 form, while the text itself is read as a
list of characters.

* `byteLength_append`     lengths add up
* `dropBytes_append`      dropping as many bytes as a text has leaves what follows it
* `takeBytes_append`      taking them gives it back -/

namespace EntityModel.Text

/-- The number of bytes of the UTF-8 form. -/
def byteLength : List Char → Nat
  | [] => 0
  | c :: cs => c.utf8Size + byteLength cs

@[simp] theorem byteLength_nil : byteLength [] = 0 := rfl

@[simp] theorem byteLength_cons (c : Char) (cs : List Char) :
    byteLength (c :: cs) = c.utf8Size + byteLength cs := rfl

@[simp] theorem byteLength_append (a b : List Char) :
    byteLength (a ++ b) = byteLength a + byteLength b := by
  induction a with
  | nil => simp
  | cons c a ih => simp [ih, Nat.add_assoc]

/-- What is left after `n` bytes, if a character ends there. -/
def dropBytes (n : Nat) : List Char → Option (List Char)
  | [] => if n = 0 then some [] else none
  | c :: cs =>
    if n = 0 then some (c :: cs)
    else if c.utf8Size ≤ n then dropBytes (n - c.utf8Size) cs else none

/-- The first `n` bytes, if a character ends there. -/
def takeBytes (n : Nat) : List Char → Option (List Char)
  | [] => if n = 0 then some [] else none
  | c :: cs =>
    if n = 0 then some []
    else if c.utf8Size ≤ n then (takeBytes (n - c.utf8Size) cs).map (c :: ·) else none

@[simp] theorem dropBytes_zero (cs : List Char) : dropBytes 0 cs = some cs := by
  cases cs <;> simp [dropBytes]

@[simp] theorem takeBytes_zero (cs : List Char) : takeBytes 0 cs = some [] := by
  cases cs <;> simp [takeBytes]

/-- Dropping as many bytes as a text has leaves what follows it. -/
theorem dropBytes_append (a b : List Char) : dropBytes (byteLength a) (a ++ b) = some b := by
  induction a with
  | nil => simp
  | cons c a ih =>
    have hc := Char.utf8Size_pos c
    simp only [byteLength_cons, List.cons_append, dropBytes]
    rw [if_neg (by omega), if_pos (by omega),
      show c.utf8Size + byteLength a - c.utf8Size = byteLength a by omega, ih]

/-- Taking as many bytes as a text has gives it back. -/
theorem takeBytes_append (a b : List Char) : takeBytes (byteLength a) (a ++ b) = some a := by
  induction a with
  | nil => simp
  | cons c a ih =>
    have hc := Char.utf8Size_pos c
    simp only [byteLength_cons, List.cons_append, takeBytes]
    rw [if_neg (by omega), if_pos (by omega),
      show c.utf8Size + byteLength a - c.utf8Size = byteLength a by omega, ih]
    rfl

/-- The text from one byte offset to another, if both are ends of characters. -/
def sliceBytes? (cs : List Char) (start stop : Nat) : Option (List Char) :=
  if start ≤ stop then (dropBytes start cs).bind (takeBytes (stop - start)) else none

end EntityModel.Text
