import EntityModel.CSharp.Writer

/-!
# Balanced steps

Steps are balanced if every block that they open is closed again and no other is.  Balanced steps
are written at one depth: what stands before them does not change how they look, and they do not
change how what follows looks.  So a text made of balanced parts is the texts of its parts.

* `Balanced.depth_eq`      balanced steps come back to the depth they began at
* `writeAll_flatMap`       balanced parts are written side by side
-/

namespace EntityModel.CSharp

/-- The steps close the blocks that they open, and no other. -/
inductive Balanced : List Step → Prop
  | nil : Balanced []
  | inside {s : Step} {rest : List Step} (h : s.opens = false) (hc : s ≠ .close)
      (hrest : Balanced rest) : Balanced (s :: rest)
  | block {s : Step} {inner rest : List Step} (h : s.opens = true) (hinner : Balanced inner)
      (hrest : Balanced rest) : Balanced (s :: inner ++ .close :: rest)

/-- Steps that neither open nor close a block are balanced. -/
theorem balanced_of_inside {steps : List Step}
    (h : ∀ s ∈ steps, s.opens = false ∧ s ≠ .close) : Balanced steps := by
  induction steps with
  | nil => exact .nil
  | cons s rest ih =>
    obtain ⟨⟨hs, hc⟩, hrest⟩ := List.forall_mem_cons.mp h
    exact .inside hs hc (ih hrest)

theorem Balanced.append {ss ts : List Step} (hs : Balanced ss) (ht : Balanced ts) :
    Balanced (ss ++ ts) := by
  induction hs with
  | nil => exact ht
  | inside h hc _ ih => exact .inside h hc ih
  | block h hinner _ _ ih =>
    rw [List.append_assoc, List.cons_append]
    exact .block h hinner ih

theorem balanced_flatMap {α : Type} {f : α → List Step} {as : List α}
    (h : ∀ a ∈ as, Balanced (f a)) : Balanced (as.flatMap f) := by
  induction as with
  | nil => exact .nil
  | cons a as ih =>
    obtain ⟨ha, has⟩ := List.forall_mem_cons.mp h
    rw [List.flatMap_cons]
    exact ha.append (ih has)

/-! ### Depths -/

/-- A step that opens a block is followed by steps one level down. -/
theorem writeAll_cons_open {s : Step} (h : s.opens = true) (depth : Nat) (rest : List Step) :
    (writeAll depth (s :: rest)).2 = (writeAll (depth + 1) rest).2 := by
  obtain ⟨⟨ls, after⟩, hwrite, hafter⟩ := Option.map_eq_some_iff.mp (s.write_open h depth)
  obtain rfl : after = depth + 1 := hafter
  rw [writeAll, hwrite]

/-- A step inside a block is followed by steps at its level. -/
theorem writeAll_cons_inside {s : Step} (h : s.opens = false) (hc : s ≠ .close) (depth : Nat)
    (rest : List Step) :
    writeAll depth (s :: rest) =
      (s.insideLines depth ++ (writeAll depth rest).1, (writeAll depth rest).2) := by
  rw [writeAll, Step.write_inside h hc]

/-- A step that closes a block is followed by steps one level up. -/
theorem writeAll_cons_close (depth : Nat) (rest : List Step) :
    writeAll (depth + 1) (.close :: rest) =
      (⟨depth, closingBrace⟩ :: (writeAll depth rest).1, (writeAll depth rest).2) := rfl

/-- Balanced steps come back to the depth they began at. -/
theorem Balanced.depth_eq {steps : List Step} (h : Balanced steps) (depth : Nat) :
    (writeAll depth steps).2 = depth := by
  induction h generalizing depth with
  | nil => rfl
  | inside hs hc _ ih =>
    rw [writeAll_cons_inside hs hc]
    exact ih depth
  | block hs _ _ ihinner ihrest =>
    -- the inner steps come back to the level below, from which the closing step returns
    rw [List.cons_append, writeAll_cons_open hs, writeAll_append, ihinner, writeAll_cons_close]
    exact ihrest depth

/-- What follows balanced steps is written as if they were not there. -/
theorem Balanced.writeAll_append {ss : List Step} (h : Balanced ss) (depth : Nat)
    (ts : List Step) :
    writeAll depth (ss ++ ts) =
      ((writeAll depth ss).1 ++ (writeAll depth ts).1, (writeAll depth ts).2) := by
  rw [CSharp.writeAll_append, h.depth_eq]

/-- Balanced parts are written side by side. -/
theorem writeAll_flatMap {α : Type} (f : α → List Step) (as : List α)
    (h : ∀ a ∈ as, Balanced (f a)) (depth : Nat) :
    writeAll depth (as.flatMap f) = (as.flatMap fun a => (writeAll depth (f a)).1, depth) := by
  induction as with
  | nil => rfl
  | cons a as ih =>
    obtain ⟨ha, has⟩ := List.forall_mem_cons.mp h
    rw [List.flatMap_cons, ha.writeAll_append, ih has, List.flatMap_cons]

/-! ### Texts -/

theorem renderLines_cons (l : Line) (ls : List Line) :
    renderLines (l :: ls) = l.render ++ renderLines ls := by
  rw [renderLines, List.map_cons, String.join_cons]
  rfl

theorem renderLines_append (ls ms : List Line) :
    renderLines (ls ++ ms) = renderLines ls ++ renderLines ms := by
  rw [renderLines, List.map_append, String.join_append]
  rfl

/-- The text of lines that come in parts is that of the parts in a row. -/
theorem renderLines_flatMap {α : Type} (f : α → List Line) (as : List α) :
    renderLines (as.flatMap f) = String.join (as.map fun a => renderLines (f a)) := by
  induction as with
  | nil => rfl
  | cons a as ih =>
    rw [List.flatMap_cons, renderLines_append, ih, List.map_cons, String.join_cons]

end EntityModel.CSharp
