import EntityModel.Storage.Activity
import EntityModel.Storage.FileTree
import Mathlib.Order.Defs.Unbundled

/-!
# What activities do to a tree

On a tree of files an activity is a function: it ends in a value or an error and leaves a tree.  The
log does not matter for that.  What an activity leaves is put together from what its parts leave,
and a relation that every part keeps is kept by the whole.

* `Activity.result`             the end of an activity and the tree that it leaves
* `result_bind_eq_ok_iff`, `result_bind_eq_error_iff`     two activities in a row
* `result_bind_error_of_reads`  the same where the first one changes nothing
* `FileTree.Keeps`              relations between the tree before and the tree after
-/

namespace EntityModel

namespace Activity

variable {ε δ α β : Type} {t u v : FileTree}

/-- What an activity on a tree ends in, and the tree that it leaves. -/
def result (x : Activity (StateM FileTree) ε α) (t : FileTree) : Except ε α × FileTree :=
  ((x.run t).1.outcome, (x.run t).2)

/-- What a program on the tree ends in is its value. -/
@[simp] theorem result_perform (x : StateM FileTree α) (t : FileTree) :
    (perform x : Activity (StateM FileTree) ε α).result t = (.ok (x t).1, (x t).2) := rfl

/-- What an attempt ends in is what was tried, with the fault in other words. -/
@[simp] theorem result_attempt (f : δ → ε) (x : StateM FileTree (Except δ α)) (t : FileTree) :
    (attempt f x).result t = ((x t).1.mapError f, (x t).2) := rfl

/-- Putting a fault in other words leaves the tree as it is. -/
@[simp] theorem result_mapError (f : δ → ε) (x : Activity (StateM FileTree) δ α) (t : FileTree) :
    (x.mapError f).result t = ((x.result t).1.mapError f, (x.result t).2) := rfl

/-- An attempt succeeds where what was tried does. -/
theorem result_attempt_eq_ok_iff {f : δ → ε} {x : StateM FileTree (Except δ α)} {a : α} :
    (attempt f x).result t = (.ok a, u) ↔ x t = (.ok a, u) := by
  rw [result_attempt]
  rcases x t with ⟨d | b, w⟩
  · exact ⟨nofun, nofun⟩
  · exact ⟨fun h => by cases h; rfl, fun h => by cases h; rfl⟩

/-- An attempt fails where what was tried does. -/
theorem result_attempt_eq_error_iff {f : δ → ε} {x : StateM FileTree (Except δ α)} {e : ε} :
    (attempt f x).result t = (.error e, u) ↔ ∃ d, x t = (.error d, u) ∧ f d = e := by
  rw [result_attempt]
  rcases x t with ⟨d | b, w⟩
  · exact ⟨fun h => by cases h; exact ⟨d, rfl, rfl⟩, fun ⟨_, h, he⟩ => by cases h; cases he; rfl⟩
  · exact ⟨nofun, nofun⟩

/-- With the fault in other words an activity fails where it failed before. -/
theorem result_mapError_eq_error_iff {f : δ → ε} {x : Activity (StateM FileTree) δ α} {e : ε} :
    (x.mapError f).result t = (.error e, u) ↔ ∃ d, x.result t = (.error d, u) ∧ f d = e := by
  rw [result_mapError]
  rcases x.result t with ⟨d | b, w⟩
  · exact ⟨fun h => by cases h; exact ⟨d, rfl, rfl⟩, fun ⟨_, h, he⟩ => by cases h; cases he; rfl⟩
  · exact ⟨nofun, nofun⟩

/-- One activity follows the other in the tree that is left. -/
theorem result_bind (x : Activity (StateM FileTree) ε α)
    (f : α → Activity (StateM FileTree) ε β) (t : FileTree) :
    (x >>= f).result t =
      match x.result t with
      | (.ok a, u) => (f a).result u
      | (.error e, u) => (.error e, u) := by
  -- the second activity is run on what the first one left, if that ended in a value
  show ((resume (x.run t).1 f (x.run t).2).1.outcome, (resume (x.run t).1 f (x.run t).2).2) = _
  unfold result
  cases h : (x.run t).1.outcome with
  | ok a =>
    rw [resume_ok h]
    rfl
  | error e =>
    rw [resume_error h]
    rfl

/-- Two activities in a row end in a value exactly where each does. -/
theorem result_bind_eq_ok_iff {x : Activity (StateM FileTree) ε α}
    {f : α → Activity (StateM FileTree) ε β} {b : β} :
    (x >>= f).result t = (.ok b, v) ↔
      ∃ a u, x.result t = (.ok a, u) ∧ (f a).result u = (.ok b, v) := by
  rw [result_bind]
  rcases x.result t with ⟨e | a, w⟩
  · simp
  · exact ⟨fun h => ⟨a, w, rfl, h⟩, fun ⟨_, _, hx, h⟩ => by cases hx; exact h⟩

/-- Two activities in a row end in an error where one of them does. -/
theorem result_bind_eq_error_iff {x : Activity (StateM FileTree) ε α}
    {f : α → Activity (StateM FileTree) ε β} {e : ε} :
    (x >>= f).result t = (.error e, v) ↔
      x.result t = (.error e, v) ∨
        ∃ a u, x.result t = (.ok a, u) ∧ (f a).result u = (.error e, v) := by
  rw [result_bind]
  -- the first one has failed, or has ended in a value for the second one
  rcases x.result t with ⟨e' | a, w⟩
  · simp
  · constructor
    · exact fun h => .inr ⟨a, w, rfl, h⟩
    · rintro (hx | ⟨_, _, hx, h⟩)
      · cases hx
      · cases hx
        exact h

/-- Only where an activity ends in an error is there something to clean up. -/
theorem result_onError (x : Activity (StateM FileTree) ε α) (cleanup : StateM FileTree Unit)
    (t : FileTree) :
    (x.onError cleanup).result t =
      match x.result t with
      | (.ok a, u) => (.ok a, u)
      | (.error e, u) => (.error e, (cleanup u).2) := by
  unfold result onError
  dsimp only [bind, StateT.bind]
  -- the cleanup is run in the tree that the activity leaves
  rcases x.run t with ⟨⟨records, e | a⟩, u⟩
  · rfl
  · rfl

end Activity

namespace FileTree

variable {α β : Type} {R : FileTree → FileTree → Prop}

/-- The tree that the program leaves is so related to the tree that it was given. -/
def Keeps (R : FileTree → FileTree → Prop) (x : StateM FileTree α) : Prop := ∀ t, R t (x t).2

/-- A program that does nothing keeps every relation of a tree to itself. -/
theorem keeps_pure [Std.Refl R] (a : α) : Keeps R (pure a : StateM FileTree α) := Std.Refl.refl

/-- Two programs in a row keep what each of them keeps. -/
theorem keeps_bind [IsTrans FileTree R] {x : StateM FileTree α} {f : α → StateM FileTree β}
    (hx : Keeps R x) (hf : ∀ a, Keeps R (f a)) : Keeps R (x >>= f) :=
  fun t => IsTrans.trans _ _ _ (hx t) (hf (x t).1 (x t).2)

end FileTree

namespace Activity

open FileTree (Keeps keeps_pure keeps_bind)

variable {ε α β : Type} {R : FileTree → FileTree → Prop}

/-- What two activities leave in a row, whether or not the first one fails. -/
theorem keeps_run_bind [Std.Refl R] [IsTrans FileTree R] {x : Activity (StateM FileTree) ε α}
    {f : α → Activity (StateM FileTree) ε β} (hx : Keeps R x.run) (hf : ∀ a, Keeps R (f a).run) :
    Keeps R (x >>= f).run := by
  -- whether the second one is run is decided by the end of the first
  refine keeps_bind hx fun first => ?_
  unfold resume
  split
  · exact keeps_pure _
  · exact keeps_bind (hf _) fun second => keeps_pure _

/-- After an activity that changes nothing the next one starts from the same tree. -/
theorem result_bind_error_of_reads {x : Activity (StateM FileTree) ε α}
    {f : α → Activity (StateM FileTree) ε β} {t u : FileTree} {e : ε} (hx : Keeps Eq x.run)
    (h : (x >>= f).result t = (.error e, u)) :
    u = t ∨ ∃ a, x.result t = (.ok a, t) ∧ (f a).result t = (.error e, u) := by
  -- the tree in between is the one that there was at first
  have hreads : (x.result t).2 = t := (hx t).symm
  obtain hfirst | ⟨a, v, hfirst, hnext⟩ := result_bind_eq_error_iff.mp h
  · rw [hfirst] at hreads
    exact .inl hreads
  · rw [hfirst] at hreads
    dsimp only at hreads
    rw [hreads] at hfirst hnext
    exact .inr ⟨a, hfirst, hnext⟩

end Activity

end EntityModel
