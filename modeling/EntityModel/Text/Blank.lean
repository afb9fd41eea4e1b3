/-! # Blank characters, trimming and lines

White space in names, keywords and documentation is Unicode's `White_Space` property; only the
markup layer has a narrower notion of its own.  Everything here works on `List Char`, with a
`String` front for each function.

* `trimChars_eq_nil_iff`   trimming leaves nothing exactly when every character is blank
* `head_dropWhile`         what is left of a text does not begin with what was dropped
* `splitLines`             the lines of a text, without what ends them -/

namespace EntityModel.Text

/-- The characters with Unicode's `White_Space` property. -/
def isBlank (c : Char) : Bool :=
  let n := c.toNat
  (0x09 ≤ n && n ≤ 0x0D) || n == 0x20 || n == 0x85 || n == 0xA0 || n == 0x1680 ||
    (0x2000 ≤ n && n ≤ 0x200A) || n == 0x2028 || n == 0x2029 || n == 0x202F ||
    n == 0x205F || n == 0x3000

/-- Remove the longest run at the end whose characters all satisfy `p`. -/
def dropEndWhile (p : Char → Bool) (cs : List Char) : List Char :=
  (cs.reverse.dropWhile p).reverse

/-- Remove the characters satisfying `p` from both ends. -/
def trimBoth (p : Char → Bool) (cs : List Char) : List Char :=
  dropEndWhile p (cs.dropWhile p)

/-- Remove the blanks at both ends. -/
def trimChars (cs : List Char) : List Char := trimBoth isBlank cs

/-- Remove the blanks at both ends. -/
def trim (s : String) : String := String.ofList (trimChars s.toList)

@[simp] theorem toList_trim (s : String) : (trim s).toList = trimChars s.toList := by
  simp [trim]

@[simp] theorem dropEndWhile_nil (p : Char → Bool) : dropEndWhile p [] = [] := rfl

theorem dropWhile_eq_nil_of_all {p : Char → Bool} {cs : List Char} (h : ∀ c ∈ cs, p c = true) :
    cs.dropWhile p = [] := by
  induction cs with
  | nil => rfl
  | cons c cs ih =>
    rw [List.dropWhile_cons_of_pos (h c (by simp))]
    exact ih fun d hd => h d (by simp [hd])

theorem all_of_dropWhile_eq_nil {p : Char → Bool} {cs : List Char} (h : cs.dropWhile p = []) :
    ∀ c ∈ cs, p c = true := by
  induction cs with
  | nil => simp
  | cons c cs ih =>
    cases hc : p c with
    | true =>
      rw [List.dropWhile_cons_of_pos hc] at h
      intro d hd
      rcases List.mem_cons.mp hd with rfl | hd
      · exact hc
      · exact ih h d hd
    | false => rw [List.dropWhile_cons_of_neg (by simp [hc])] at h; simp at h

/-- Dropping at the end leaves nothing exactly when every character is dropped. -/
theorem dropEndWhile_eq_nil_iff {p : Char → Bool} {cs : List Char} :
    dropEndWhile p cs = [] ↔ ∀ c ∈ cs, p c = true := by
  constructor
  · intro h c hc
    exact all_of_dropWhile_eq_nil (List.reverse_eq_nil_iff.mp h) c (by simpa using hc)
  · intro h
    have hr : ∀ c ∈ cs.reverse, p c = true := by simpa using h
    simp [dropEndWhile, dropWhile_eq_nil_of_all hr]

/-- The head of what `dropWhile` leaves does not satisfy the predicate. -/
theorem head_dropWhile {p : Char → Bool} {cs : List Char} {c : Char} {r : List Char}
    (h : cs.dropWhile p = c :: r) : p c = false := by
  induction cs with
  | nil => simp at h
  | cons d cs ih =>
    cases hd : p d with
    | true => rw [List.dropWhile_cons_of_pos hd] at h; exact ih h
    | false =>
      rw [List.dropWhile_cons_of_neg (by simp [hd])] at h
      obtain ⟨rfl, rfl⟩ := List.cons.inj h
      exact hd

theorem length_dropWhile_le (p : Char → Bool) (cs : List Char) :
    (cs.dropWhile p).length ≤ cs.length := by
  induction cs with
  | nil => simp
  | cons c cs ih =>
    rw [List.dropWhile_cons]
    split
    · simp; omega
    · simp

/-- Trimming leaves nothing exactly when every character is blank. -/
theorem trimChars_eq_nil_iff {cs : List Char} : trimChars cs = [] ↔ ∀ c ∈ cs, isBlank c = true := by
  rw [trimChars, trimBoth, dropEndWhile_eq_nil_iff]
  constructor
  · intro h
    cases hd : cs.dropWhile isBlank with
    | nil => exact all_of_dropWhile_eq_nil hd
    | cons c r =>
      have h1 := head_dropWhile hd
      have h2 := h c (by simp [hd])
      simp [h1] at h2
  · intro h
    simp [dropWhile_eq_nil_of_all h]

/-- Whether the text is empty or all blank. -/
def isAllBlank (s : String) : Bool := (trimChars s.toList).isEmpty

/-- The text without its blanks at both ends, if anything is left. -/
def nonBlank? (s : String) : Option String :=
  if isAllBlank s then none else some (trim s)

/-! ### Lines -/

/-- Remove one carriage return at the end. -/
def dropReturn (cs : List Char) : List Char :=
  match cs.reverse with
  | '\r' :: rest => rest.reverse
  | _ => cs

/-- The lines of a text: each ends before a line feed, less one carriage return in front of it.
    The last line needs no line feed, and a text that ends in one has no empty line after it. -/
def splitLines (cs : List Char) : List (List Char) :=
  match _h : cs.dropWhile (· != '\n') with
  | [] => if cs.isEmpty then [] else [cs]
  | _ :: rest => dropReturn (cs.takeWhile (· != '\n')) :: splitLines rest
termination_by cs.length
decreasing_by
  have := length_dropWhile_le (· != '\n') cs
  rw [_h] at this
  simp at this
  omega

/-- The lines of a text. -/
def lines (s : String) : List String := (splitLines s.toList).map String.ofList

end EntityModel.Text
