import EntityModel.Proofs.FirstFailure
import EntityModel.Storage.FileTree
import Mathlib.Tactic.SplitIfs
import Mathlib.Logic.Basic

/-!
# Where paths lead

A path is followed part by part, through directories only.  What is at its end need not be there
yet: the place of a path is settled by the directories on the way, and whether something is there is
a second question.  So a path keeps its place as long as directories stay.

* `step_eq_ok_iff`, `slotOf_eq_ok_iff`     one step, and the end of a path
* `placeOf`                                where a path leads, with or without something there
* `locate_of_placeOf`                      what is found at the place of a path
* `KeepsDirectories.placeOf`               places stay while directories do
-/

namespace EntityModel.FileTree

variable {t u v : FileTree}

/-! ### Following a path -/

/-- The part is a name that an entry of a directory can have. -/
structure IsName (part : String) : Prop where
  ne_empty : part ≠ ""
  ne_dot : part ≠ "."
  ne_up : part ≠ ".."
  size_le : part.utf8ByteSize ≤ longestName

/-- Steps are made from directories only: to the same place, up, or down to what is there. -/
theorem step_eq_ok_iff {l next : Location} {part : String} :
    t.step l part = .ok next ↔ t.node? l = some .directory ∧
      ((part = "" ∨ part = ".") ∧ l = next ∨ part = ".." ∧ l.dropLast = next ∨
        IsName part ∧ t.node? (l ++ [part]) ≠ none ∧ l ++ [part] = next) := by
  unfold step
  -- one case for each test that a step makes, in their order
  split_ifs with hl hdot hup hlong hnone
  · simp [hl]
  · have hname : ¬ IsName part := fun h => hdot.elim h.ne_empty h.ne_dot
    have hup : part ≠ ".." := by rintro rfl; revert hdot; decide
    rw [and_iff_right (not_not.mp hl), and_iff_right hdot, Except.ok.injEq]
    simp [hname, hup]
  · subst hup
    have hname : ¬ IsName ".." := fun h => h.ne_up rfl
    simp [hname, not_not.mp hl]
  · have hname : ¬ IsName part := fun h => absurd h.size_le (Nat.not_le.mpr hlong)
    simp [hname, hdot, hup]
  · simp [hnone, hdot, hup]
  · have hname : IsName part :=
      ⟨fun h => hdot (.inl h), fun h => hdot (.inr h), hup, Nat.not_lt.mp hlong⟩
    simp [hname, hdot, hup, hnone, not_not.mp hl]

/-- A path is followed by its first part and then by the rest. -/
private theorem walk_cons (t : FileTree) (l : Location) (part : String) (rest : List String) :
    t.walk l (part :: rest) = t.step l part >>= fun next => t.walk next rest := rfl

/-- A path is followed part by part. -/
private theorem walk_append (t : FileTree) (l : Location) (ps qs : List String) :
    t.walk l (ps ++ qs) = t.walk l ps >>= fun next => t.walk next qs := by
  induction ps generalizing l with
  | nil => rfl
  | cons p ps ih =>
    rw [List.cons_append, walk_cons, walk_cons]
    cases t.step l p with
    | error fault => rfl
    | ok next => exact ih next

/-- A path is made anew in a directory by its last part, which is a name. -/
theorem slotOf_eq_ok_iff {path : String} {parts : List String} {l : Location} :
    t.slotOf path parts = .ok l ↔
      ∃ d name, t.walk (t.origin path) parts.dropLast = .ok d ∧ parts.getLast? = some name ∧
        t.node? d = some .directory ∧ IsName name ∧ d ++ [name] = l := by
  unfold slotOf
  refine bind_eq_ok_iff.trans (exists_congr fun d => ?_)
  cases parts.getLast? with
  | none => simp
  | some name =>
    simp only [exists_and_left, Option.some.injEq, exists_eq_left']
    refine and_congr_right fun _ => ?_
    -- one case for each test that is made of the last part
    split_ifs with hd hdot hlong
    · simp [hd]
    · have hname : ¬ IsName name := fun h =>
        hdot.elim h.ne_empty fun hdot => hdot.elim h.ne_dot h.ne_up
      simp [hname]
    · have hname : ¬ IsName name := fun h => absurd h.size_le (Nat.not_le.mpr hlong)
      simp [hname]
    · have hname : IsName name :=
        ⟨fun h => hdot (.inl h), fun h => hdot (.inr (.inl h)), fun h => hdot (.inr (.inr h)),
          Nat.not_lt.mp hlong⟩
      simp [hname, not_not.mp hd]

/-- Where a path leads, whether or not something is there already. -/
def placeOf (t : FileTree) (path : String) : Except StorageFault Location :=
  checkPath path >>= fun _ => t.slotOf path (FilePath.parts path)

/-- A path has a place if it is one that can be followed and its last part has a slot. -/
theorem placeOf_eq_ok_iff {path : String} {l : Location} :
    t.placeOf path = .ok l ↔
      checkPath path = .ok () ∧ t.slotOf path (FilePath.parts path) = .ok l := by
  unfold placeOf
  rw [bind_eq_ok_iff]
  exact ⟨fun ⟨(), h, hs⟩ => ⟨h, hs⟩, fun ⟨h, hs⟩ => ⟨(), h, hs⟩⟩

/-- The place of a path is not the root. -/
theorem ne_nil_of_slotOf {path : String} {parts : List String} {l : Location}
    (h : t.slotOf path parts = .ok l) : l ≠ [] := by
  obtain ⟨d, name, -, -, -, -, rfl⟩ := slotOf_eq_ok_iff.mp h
  exact List.append_ne_nil_of_right_ne_nil d (List.cons_ne_nil _ _)

/-- A path with a place leads there if something is there. -/
theorem locate_of_placeOf {path : String} {l : Location} (h : t.placeOf path = .ok l) :
    t.locate path = if t.node? l = none then .error .notFound else .ok l := by
  obtain ⟨hcheck, hslot⟩ := placeOf_eq_ok_iff.mp h
  obtain ⟨d, name, hwalk, hlast, hd, hname, rfl⟩ := slotOf_eq_ok_iff.mp hslot
  have hparts : FilePath.parts path = (FilePath.parts path).dropLast ++ [name] :=
    (List.dropLast_append_getLast? name hlast).symm
  unfold locate
  rw [hcheck, hparts]
  show t.walk _ _ = _
  rw [walk_append, hwalk]
  show (t.step d name >>= fun next => t.walk next []) = _
  -- the last step is made from a directory, and ends at what is there
  split_ifs with hnone
  · have hstep : t.step d name = .error .notFound := by
      unfold step
      simp [hd, hname.ne_empty, hname.ne_dot, hname.ne_up, hname.size_le, hnone]
    rw [hstep]
    rfl
  · rw [step_eq_ok_iff.mpr ⟨hd, .inr (.inr ⟨hname, hnone, rfl⟩)⟩]
    rfl

/-- What is found under a path with a place is what is at the place. -/
theorem find?_of_placeOf {path : String} {l : Location} (h : t.placeOf path = .ok l) :
    t.find? path = t.node? l := by
  unfold find?
  rw [locate_of_placeOf h]
  split_ifs with hnone
  · exact hnone.symm
  · rfl

/-- Every directory of the first tree is one of the second, and relative paths are followed from the
    same directory. -/
structure KeepsDirectories (t u : FileTree) : Prop where
  directory : ∀ {l}, t.node? l = some .directory → u.node? l = some .directory
  workingDirectory : u.workingDirectory = t.workingDirectory

namespace KeepsDirectories

/-- A tree keeps its own directories. -/
theorem refl (t : FileTree) : KeepsDirectories t t := ⟨id, rfl⟩

/-- Directories that are kept from tree to tree are kept. -/
theorem trans (h : KeepsDirectories t u) (h' : KeepsDirectories u v) : KeepsDirectories t v :=
  ⟨fun hl => h'.directory (h.directory hl), h'.workingDirectory.trans h.workingDirectory⟩

/-- A step to a directory leads there as long as directories stay. -/
theorem step (h : KeepsDirectories t u) {l next : Location} {part : String}
    (hs : t.step l part = .ok next) (hnext : t.node? next = some .directory) :
    u.step l part = .ok next := by
  obtain ⟨hl, hstep⟩ := step_eq_ok_iff.mp hs
  refine step_eq_ok_iff.mpr ⟨h.directory hl, ?_⟩
  -- to the same place, up, or down to what is there
  obtain hdot | hup | ⟨hname, -, rfl⟩ := hstep
  · exact .inl hdot
  · exact .inr (.inl hup)
  · exact .inr (.inr ⟨hname, by simp [h.directory hnext], rfl⟩)

/-- A walk to a directory leads there as long as directories stay. -/
theorem walk (h : KeepsDirectories t u) {l d : Location} {parts : List String}
    (hw : t.walk l parts = .ok d) (hd : t.node? d = some .directory) :
    u.walk l parts = .ok d := by
  induction parts generalizing l with
  | nil => exact hw
  | cons part rest ih =>
    rw [walk_cons] at hw ⊢
    obtain ⟨next, hs, hrest⟩ := bind_eq_ok_iff.mp hw
    -- what is passed on the way is a directory, since a step was made from it
    have hnext : t.node? next = some .directory := by
      cases rest with
      | nil => rwa [Except.ok.inj hrest]
      | cons p ps =>
        rw [walk_cons] at hrest
        obtain ⟨_, hp, -⟩ := bind_eq_ok_iff.mp hrest
        exact (step_eq_ok_iff.mp hp).1
    rw [h.step hs hnext]
    exact ih hrest

/-- A path leads to the same place as long as directories stay. -/
theorem placeOf (h : KeepsDirectories t u) {path : String} {l : Location}
    (hp : t.placeOf path = .ok l) : u.placeOf path = .ok l := by
  obtain ⟨hcheck, hslot⟩ := placeOf_eq_ok_iff.mp hp
  obtain ⟨d, name, hwalk, hlast, hd, hname, rfl⟩ := slotOf_eq_ok_iff.mp hslot
  -- relative paths begin at the same directory
  have horigin : u.origin path = t.origin path := by
    unfold origin
    rw [h.workingDirectory]
  refine placeOf_eq_ok_iff.mpr ⟨hcheck, slotOf_eq_ok_iff.mpr
    ⟨d, name, ?_, hlast, h.directory hd, hname, rfl⟩⟩
  rw [horigin]
  exact h.walk hwalk hd

end KeepsDirectories

end EntityModel.FileTree
