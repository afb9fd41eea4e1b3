import EntityModel.Text.Blank

/-! # Splitting a text

Cuts of a character list at a condition or at the first occurrence of a pattern.  Each cut loses
nothing, which is what the scanners above it rely on.

* `breakOn_eq_append`     the pattern stands between the two parts
* `length_breakOn_lt`     the part after a nonempty pattern is shorter
* `stripStart?_eq_some_iff`   what stripping a text's beginning means -/

namespace EntityModel.Text

/-- The text before the first occurrence of the pattern and the text after it. -/
def breakOn (pattern : List Char) : List Char → Option (List Char × List Char)
  | [] => if pattern.isEmpty then some ([], []) else none
  | c :: cs =>
    if pattern.isPrefixOf (c :: cs) then some ([], (c :: cs).drop pattern.length)
    else (breakOn pattern cs).map fun (before, after) => (c :: before, after)

/-- The pattern stands between the two parts. -/
theorem breakOn_eq_append {pattern cs before after : List Char}
    (h : breakOn pattern cs = some (before, after)) : cs = before ++ pattern ++ after := by
  induction cs generalizing before with
  | nil =>
    simp only [breakOn] at h
    split at h
    · rename_i hp
      obtain ⟨rfl, rfl⟩ := Prod.mk.inj (Option.some.inj h)
      simp [List.isEmpty_iff.mp hp]
    · simp at h
  | cons c cs ih =>
    simp only [breakOn] at h
    split at h
    · rename_i hp
      obtain ⟨rfl, rfl⟩ := Prod.mk.inj (Option.some.inj h)
      obtain ⟨t, ht⟩ := List.isPrefixOf_iff_prefix.mp hp
      rw [← ht]
      simp
    · obtain ⟨⟨b, a⟩, hb, hcons⟩ := Option.map_eq_some_iff.mp h
      obtain ⟨rfl, rfl⟩ := Prod.mk.inj hcons
      rw [ih hb]
      simp

/-- The part after a nonempty pattern is shorter than the whole. -/
theorem length_breakOn_lt {pattern cs before after : List Char} (hp : pattern ≠ [])
    (h : breakOn pattern cs = some (before, after)) : after.length < cs.length := by
  have := List.length_pos_iff.mpr hp
  rw [breakOn_eq_append h]
  simp only [List.length_append]
  omega

/-- What follows `front`, if the text begins with it. -/
def stripStart? (front cs : List Char) : Option (List Char) :=
  if front.isPrefixOf cs then some (cs.drop front.length) else none

/-- Exactly the texts that begin with `front` can be stripped of it. -/
theorem stripStart?_eq_some_iff {front cs rest : List Char} :
    stripStart? front cs = some rest ↔ cs = front ++ rest := by
  unfold stripStart?
  constructor
  · intro h
    split at h
    · rename_i hp
      obtain ⟨t, rfl⟩ := List.isPrefixOf_iff_prefix.mp hp
      simpa using h
    · simp at h
  · rintro rfl
    simp [List.isPrefixOf_iff_prefix.mpr (List.prefix_append front rest)]

/-- Replace every occurrence of a pattern from the left.  An empty pattern occurs nowhere. -/
def replaceAll (pattern replacement : List Char) (cs : List Char) : List Char :=
  match _h : breakOn pattern cs with
  | none => cs
  | some (before, after) =>
    if _hp : pattern = [] then cs
    else before ++ replacement ++ replaceAll pattern replacement after
termination_by cs.length
decreasing_by exact length_breakOn_lt _hp _h

/-- Whether the pattern occurs. -/
def occurs (pattern cs : List Char) : Bool := (breakOn pattern cs).isSome

end EntityModel.Text
