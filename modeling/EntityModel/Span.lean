/-! # Spans of a source text

A span is a half-open range of byte offsets.  That it does not run backwards is part of the type, so
its length is a true difference.

* `ofRange`   the span between two offsets
* `union`     the span that covers two others -/

namespace EntityModel

/-- A half-open range of byte offsets. -/
structure Span where
  start : Nat
  stop : Nat
  start_le_stop : start ≤ stop := by omega
deriving DecidableEq, Repr

namespace Span

instance : Inhabited Span := ⟨⟨0, 0, Nat.le_refl 0⟩⟩

/-- The span of a range; one that runs backwards is empty at its start. -/
def ofRange (start stop : Nat) : Span := ⟨start, max start stop, Nat.le_max_left _ _⟩

/-- The number of bytes covered. -/
def length (s : Span) : Nat := s.stop - s.start

/-- Whether no byte is covered. -/
def isEmpty (s : Span) : Bool := s.start == s.stop

/-- The smallest span that covers both. -/
def union (s t : Span) : Span :=
  ⟨min s.start t.start, max s.stop t.stop, by
    have := s.start_le_stop
    omega⟩

@[simp] theorem start_ofRange (a b : Nat) : (ofRange a b).start = a := rfl

@[simp] theorem stop_ofRange (a b : Nat) : (ofRange a b).stop = max a b := rfl

@[simp] theorem start_union (s t : Span) : (s.union t).start = min s.start t.start := rfl

@[simp] theorem stop_union (s t : Span) : (s.union t).stop = max s.stop t.stop := rfl

/-- Whether `t` covers all of `s`. -/
def Covers (t s : Span) : Prop := t.start ≤ s.start ∧ s.stop ≤ t.stop

/-- The start together with the length gives the stop. -/
theorem start_add_length (s : Span) : s.start + s.length = s.stop := by
  have := s.start_le_stop
  simp only [length]
  omega

end Span

end EntityModel
