import EntityModel.Output.Commit
import EntityModel.Proofs.Effects
import EntityModel.Proofs.Paths

/-!
# Staging

To stage a file is to make the directories that its path leads through and to put its text into a
new temporary file.  All other files stay as they are.  Where one of some files cannot be staged,
the temporary files of those before it are removed, so that only directories have been added.

* `Grown`, `Enlarged`        nothing but directories was added
* `Held`                     which temporary files hold which files, and what else there is
* `result_stageAll_ok`       all files are held
* `result_stageAll_error`    none is
-/

namespace EntityModel

open Generation (GeneratedFile)

namespace FileTree

variable {t u v : FileTree}

/-! ### More directories -/

/-- Nothing was added to the tree but directories. -/
structure Grown (t u : FileTree) : Prop where
  node : ∀ l, u.node? l = t.node? l ∨ t.node? l = none ∧ u.node? l = some .directory
  workingDirectory : u.workingDirectory = t.workingDirectory

namespace Grown

/-- Nothing was added to the tree itself. -/
theorem refl (t : FileTree) : Grown t t := ⟨fun _ => .inl rfl, rfl⟩

/-- Only directories are added in two steps that each add only directories. -/
theorem trans (h : Grown t u) (h' : Grown u v) : Grown t v := by
  refine ⟨fun l => ?_, h'.workingDirectory.trans h.workingDirectory⟩
  -- at each place something was added by the first step, by the second one or by neither
  rcases h.node l with hl | ⟨hnone, hl⟩ <;> rcases h'.node l with hl' | ⟨hnone', hl'⟩
  · exact .inl (hl'.trans hl)
  · exact .inr ⟨hl.symm.trans hnone', hl'⟩
  · exact .inr ⟨hnone, hl'.trans hl⟩
  · exact .inr ⟨hnone, hl'⟩

/-- The files are the same. -/
theorem file_iff (h : Grown t u) {l : Location} {contents : ByteArray} :
    u.node? l = some (.file contents) ↔ t.node? l = some (.file contents) := by
  rcases h.node l with heq | ⟨hnone, hdir⟩
  · rw [heq]
  · simp [hnone, hdir]

end Grown

/-- A directory is made where nothing was. -/
private theorem makeDirectory_eq_ok {path : String} (h : t.makeDirectory path = .ok u) :
    ∃ l ≠ [], t.node? l = none ∧ u = t.insert l .directory := by
  unfold makeDirectory at h
  obtain ⟨-, -, h⟩ := bind_eq_ok_iff.mp h
  -- the path has a slot, and nothing is in it
  obtain ⟨l, hslot, h⟩ := bind_eq_ok_iff.mp h
  split at h
  · exact nomatch h
  · rename_i hnone
    exact ⟨l, ne_nil_of_slotOf hslot, by simpa using hnone, (Except.ok.inj h).symm⟩

/-- A directory in an empty place is all that is added. -/
private theorem grown_insert {l : Location} (hl : l ≠ []) (hnone : t.node? l = none) :
    Grown t (t.insert l .directory) := by
  refine ⟨fun k => ?_, rfl⟩
  rw [node?_insert hl]
  split
  · rename_i hk
    exact .inr ⟨hk ▸ hnone, rfl⟩
  · exact .inl rfl

/-- Making directories adds only directories, and no temporary file. -/
def Enlarged (t u : FileTree) : Prop := Grown t u ∧ u.temporaries = t.temporaries

instance : Std.Refl Enlarged := ⟨fun t => ⟨.refl t, rfl⟩⟩

instance : IsTrans FileTree Enlarged :=
  ⟨fun _ _ _ h h' => ⟨h.1.trans h'.1, h'.2.trans h.2⟩⟩

/-- Making a directory adds nothing else, whether or not it succeeds. -/
private theorem keeps_makeDirectory (path : String) :
    Keeps Enlarged (Storage.makeDirectory path : StateM FileTree _) := by
  intro t
  show Enlarged t (update (fun t => t.makeDirectory path) t).2
  unfold update
  dsimp only
  cases h : t.makeDirectory path with
  | error fault => exact Std.Refl.refl t
  | ok u =>
    obtain ⟨l, hl, hnone, rfl⟩ := makeDirectory_eq_ok h
    exact ⟨grown_insert hl hnone, rfl⟩

/-- That a directory is there already changes nothing. -/
private theorem keeps_orPresent (path : String) (r : Except StorageFault Unit) :
    Keeps Enlarged (Output.orPresent path r : StateM FileTree _) := by
  cases r with
  | ok _ => exact keeps_pure _
  | error fault => exact Std.Refl.refl

/-- Making the directories of a path adds nothing else. -/
private theorem keeps_makeAncestors (paths : List String) :
    Keeps Enlarged (Output.makeAncestors paths : StateM FileTree _) := by
  -- a directory is tried once more after those above it have been made
  induction paths with
  | nil => exact keeps_pure _
  | cons path shorter ih =>
    unfold Output.makeAncestors
    split
    · exact keeps_pure _
    · refine keeps_bind (keeps_makeDirectory path) fun r => ?_
      split
      · refine keeps_bind ih fun r => ?_
        split
        · exact keeps_pure _
        · exact keeps_bind (keeps_makeDirectory path) (keeps_orPresent path)
      · exact keeps_orPresent path _

end FileTree

/-! ### Temporary files -/

/-- A generated file, the temporary file that holds it and the path that it is meant for. -/
structure StagedFile where
  temporary : Temporary
  file : GeneratedFile
  path : String

namespace StagedFile

/-- What was staged: the file and its path. -/
def source (f : StagedFile) : GeneratedFile × String := (f.file, f.path)

/-- What is to be published: the temporary file and its path. -/
def pending (f : StagedFile) : Temporary × String := (f.temporary, f.path)

end StagedFile

/-- The temporary files that hold some staged files stand beside those of `base`. -/
structure Held (base temporaries : List (Temporary × String)) (files : List StagedFile) :
    Prop where
  nodup : (files.map (·.temporary)).Nodup
  text : ∀ f ∈ files, temporaries.lookup f.temporary = some f.file.contents
  rest : (temporaries.filter fun e => e.1 ∉ files.map (·.temporary)) = base

namespace Held

variable {base temporaries : List (Temporary × String)} {f : StagedFile} {files : List StagedFile}

/-- No file is held at first. -/
theorem nil (base : List (Temporary × String)) : Held base base [] := by
  refine ⟨List.nodup_nil, fun f hf => absurd hf List.not_mem_nil, ?_⟩
  simp

/-- Where no file is held, there are no temporary files but those of `base`. -/
theorem eq_base (h : Held base temporaries []) : temporaries = base := by
  rw [← h.rest, eq_comm, List.filter_eq_self]
  exact fun e _ => by simp

/-- The temporary files of `base` are none of those that hold the files. -/
theorem not_mem (h : Held base temporaries files) {e : Temporary × String} (he : e ∈ base) :
    e.1 ∉ files.map (·.temporary) := by
  rw [← h.rest] at he
  simpa using (List.mem_filter.mp he).2

/-- One more file is held by a temporary file that is not one of `base`. -/
theorem cons (h : Held ((f.temporary, f.file.contents) :: base) temporaries files)
    (hf : f.temporary ∉ base.map (·.1)) : Held base temporaries (f :: files) := by
  have hnew : f.temporary ∉ files.map (·.temporary) := h.not_mem List.mem_cons_self
  constructor
  -- the new temporary file is none of those that hold the others
  case nodup => exact List.nodup_cons.mpr ⟨hnew, h.nodup⟩
  case text =>
    refine List.forall_mem_cons.mpr ⟨?_, h.text⟩
    have hkept := FileTree.lookup_filter_key (· ∉ files.map (·.temporary)) f.temporary temporaries
    rw [if_pos (by simpa using hnew), h.rest, List.lookup_cons_self] at hkept
    exact hkept.symm
  case rest =>
    -- the other files are left out first, and then the new one
    have hsplit : (temporaries.filter fun e => e.1 ∉ (f :: files).map (·.temporary)) =
        (temporaries.filter fun e => e.1 ∉ files.map (·.temporary)).filter
          fun e => e.1 ≠ f.temporary := by
      rw [List.filter_filter]
      exact List.filter_congr fun e _ => by simp
    rw [hsplit, h.rest, List.filter_cons_of_neg (by simp), List.filter_eq_self]
    intro e he
    have hne : e.1 ≠ f.temporary := fun heq => hf (heq ▸ List.mem_map_of_mem he)
    simpa using hne

/-- Without its temporary file the first file is held no longer, and the others are. -/
theorem discard (h : Held base temporaries (f :: files)) :
    Held base (temporaries.filter fun e => e.1 != f.temporary) files := by
  -- the first temporary file is not needed by any of the others
  have hnew : f.temporary ∉ files.map (·.temporary) := (List.nodup_cons.mp h.nodup).1
  constructor
  case nodup => exact (List.nodup_cons.mp h.nodup).2
  case text =>
    intro g hg
    have hne : g.temporary ≠ f.temporary := fun heq => hnew (heq ▸ List.mem_map_of_mem hg)
    rw [FileTree.lookup_filter_key (· != f.temporary), if_pos (by simpa using hne)]
    exact h.text g (List.mem_cons_of_mem f hg)
  case rest =>
    rw [← h.rest, List.filter_filter]
    exact List.filter_congr fun e _ => by by_cases he : e.1 = f.temporary <;> simp [he]

end Held

namespace FileTree

variable {t u : FileTree}

/-- Every temporary file has a smaller number than a new one. -/
private theorem number_lt_freshNumber {e : Temporary × String} (he : e ∈ t.temporaries) :
    e.1.number < t.freshNumber := by
  -- by the list of temporary files, from any number that is reached so far
  have hfold : ∀ (entries : List (Temporary × String)) (n : Nat),
      n ≤ entries.foldl (fun n e => max n (e.1.number + 1)) n ∧
        ∀ e ∈ entries, e.1.number < entries.foldl (fun n e => max n (e.1.number + 1)) n := by
    intro entries
    induction entries with
    | nil => exact fun n => ⟨Nat.le_refl n, fun e he => absurd he List.not_mem_nil⟩
    | cons first rest ih =>
      intro n
      obtain ⟨hle, hlt⟩ := ih (max n (first.1.number + 1))
      rw [List.foldl_cons]
      refine ⟨by omega, List.forall_mem_cons.mpr ⟨by omega, hlt⟩⟩
  exact (hfold t.temporaries 0).2 e he

/-- A text is staged in a temporary file that was not there. -/
private theorem stage_eq_ok {directory text : String} {temporary : Temporary}
    (h : t.stage directory text = .ok (temporary, u)) :
    temporary ∉ t.temporaries.map (·.1) ∧
      u = { t with temporaries := (temporary, text) :: t.temporaries } := by
  unfold stage at h
  obtain ⟨l, -, h⟩ := bind_eq_ok_iff.mp h
  split at h
  · exact nomatch h
  · obtain ⟨rfl, rfl⟩ := Prod.mk.inj (Except.ok.inj h)
    -- the number of a new temporary file is larger than all that there are
    refine ⟨fun hmem => ?_, rfl⟩
    obtain ⟨e, he, heq⟩ := List.mem_map.mp hmem
    have hlt := number_lt_freshNumber he
    rw [heq] at hlt
    exact Nat.lt_irrefl _ hlt

end FileTree

/-! ### Staging -/

namespace Output

open FileTree (Enlarged Grown)

variable {t u : FileTree}

/-- Making the directories of a path adds nothing else. -/
private theorem enlarged_makeDirectories {path : String} {r : Except StorageFault Unit}
    (h : (makeDirectories path : StateM FileTree _) t = (r, u)) : Enlarged t u := by
  have hkeeps := FileTree.keeps_makeAncestors (ancestors path) t
  rw [show (makeAncestors (ancestors path) : StateM FileTree _) t = (r, u) from h] at hkeeps
  exact hkeeps

/-- A text that cannot be staged leaves the tree as it is. -/
private theorem eq_of_stageM {directory text : String} {r : Except StorageFault Temporary}
    (h : FileTree.stageM directory text t = (r, u)) :
    (∃ fault, r = .error fault ∧ u = t) ∨
      ∃ temporary, r = .ok temporary ∧ t.stage directory text = .ok (temporary, u) := by
  unfold FileTree.stageM at h
  split at h
  · rename_i temporary changed hstage
    obtain ⟨rfl, rfl⟩ := Prod.mk.inj h
    exact .inr ⟨temporary, rfl, hstage⟩
  · rename_i fault hstage
    obtain ⟨rfl, rfl⟩ := Prod.mk.inj h
    exact .inl ⟨fault, rfl, rfl⟩

/-- A file that is staged is held by a new temporary file, and only directories are added. -/
theorem result_stage_ok {file : GeneratedFile} {path : String} {temporary : Temporary}
    (h : (stage file path).result t = (.ok temporary, u)) :
    ∃ v, Enlarged t v ∧ temporary ∉ t.temporaries.map (·.1) ∧
      u = { v with temporaries := (temporary, file.contents) :: v.temporaries } := by
  unfold stage at h
  -- directories, the temporary file and the note, one after the other
  obtain ⟨⟨⟩, v, hmake, h⟩ := Activity.result_bind_eq_ok_iff.mp h
  obtain ⟨held, w, hstage, h⟩ := Activity.result_bind_eq_ok_iff.mp h
  obtain ⟨⟨⟩, x, hnote, h⟩ := Activity.result_bind_eq_ok_iff.mp h
  have hv : Enlarged t v := enlarged_makeDirectories (Activity.result_attempt_eq_ok_iff.mp hmake)
  -- writing into the temporary file has succeeded, as the whole did
  obtain ⟨_, hno, _⟩ | ⟨_, hheld, hok⟩ :=
    eq_of_stageM (Activity.result_attempt_eq_ok_iff.mp hstage)
  · exact nomatch hno
  cases hheld
  cases hnote
  cases h
  obtain ⟨hfresh, rfl⟩ := FileTree.stage_eq_ok hok
  exact ⟨v, hv, hv.2 ▸ hfresh, rfl⟩

/-- Where a file cannot be staged, only directories are added. -/
private theorem result_stage_error {file : GeneratedFile} {path : String} {e : OutputFault}
    (h : (stage file path).result t = (.error e, u)) :
    Enlarged t u ∧ ∃ fault, e = .write path fault := by
  unfold stage at h
  -- it is the directories that cannot be made, or the text that cannot be staged
  obtain hmake | ⟨⟨⟩, v, hmake, h⟩ := Activity.result_bind_eq_error_iff.mp h
  · obtain ⟨fault, hfailed, rfl⟩ := Activity.result_attempt_eq_error_iff.mp hmake
    exact ⟨enlarged_makeDirectories hfailed, fault, rfl⟩
  have hv : Enlarged t v := enlarged_makeDirectories (Activity.result_attempt_eq_ok_iff.mp hmake)
  obtain hstage | ⟨held, w, hstage, h⟩ := Activity.result_bind_eq_error_iff.mp h
  · obtain ⟨fault, hfailed, rfl⟩ := Activity.result_attempt_eq_error_iff.mp hstage
    obtain ⟨_, _, rfl⟩ | ⟨_, hno, _⟩ := eq_of_stageM hfailed
    · exact ⟨hv, fault, rfl⟩
    · exact nomatch hno
  -- writing a record cannot fail
  · obtain hnote | ⟨⟨⟩, x, -, h⟩ := Activity.result_bind_eq_error_iff.mp h
    · exact nomatch hnote
    · exact nomatch h

/-- Files that are all staged are held by new temporary files, and only directories are added. -/
theorem result_stageAll_ok {sources : List (GeneratedFile × String)}
    {staged : List (Temporary × String)} (h : (stageAll sources).result t = (.ok staged, u)) :
    ∃ files : List StagedFile, sources = files.map (·.source) ∧ staged = files.map (·.pending) ∧
      Grown t u ∧ Held t.temporaries u.temporaries files := by
  -- the first file is staged before the others, so for them its temporary file is one of the base
  induction sources generalizing t u staged with
  | nil =>
    cases h
    exact ⟨[], rfl, rfl, .refl t, .nil t.temporaries⟩
  | cons first rest ih =>
    obtain ⟨file, path⟩ := first
    unfold stageAll at h
    obtain ⟨temporary, v, hfirst, h⟩ := Activity.result_bind_eq_ok_iff.mp h
    obtain ⟨more, w, hrest, h⟩ := Activity.result_bind_eq_ok_iff.mp h
    cases h
    -- the first file is staged in the tree that the others start from
    obtain ⟨x, hx, hfresh, rfl⟩ := result_stage_ok hfirst
    rw [Activity.result_onError] at hrest
    split at hrest
    · rename_i hok
      cases hrest
      obtain ⟨files, rfl, rfl, hgrown, hheld⟩ := ih hok
      refine ⟨⟨temporary, file, path⟩ :: files, rfl, rfl, ?_, ?_⟩
      · exact hx.1.trans ⟨hgrown.node, hgrown.workingDirectory⟩
      · rw [← hx.2] at hfresh ⊢
        exact Held.cons (f := ⟨temporary, file, path⟩) hheld hfresh
    · exact nomatch hrest

/-- Where one of some files cannot be staged, no temporary file is left of those before it. -/
theorem result_stageAll_error {sources : List (GeneratedFile × String)} {e : OutputFault}
    (h : (stageAll sources).result t = (.error e, u)) :
    Enlarged t u ∧ ∃ path fault, e = .write path fault := by
  -- whichever file fails, each of those before it removes its own temporary file on the way out
  induction sources generalizing t u with
  | nil => exact nomatch h
  | cons first rest ih =>
    obtain ⟨file, path⟩ := first
    unfold stageAll at h
    -- either the first file fails, or one of the others
    obtain hfirst | ⟨temporary, v, hfirst, h⟩ := Activity.result_bind_eq_error_iff.mp h
    · obtain ⟨hu, fault, rfl⟩ := result_stage_error hfirst
      exact ⟨hu, path, fault, rfl⟩
    obtain hrest | ⟨more, w, -, h⟩ := Activity.result_bind_eq_error_iff.mp h
    · obtain ⟨x, hx, hfresh, rfl⟩ := result_stage_ok hfirst
      rw [Activity.result_onError] at hrest
      split at hrest
      · exact nomatch hrest
      · rename_i f y herror
        cases hrest
        obtain ⟨hy, hwrite⟩ := ih herror
        refine ⟨⟨hx.1.trans ⟨hy.1.node, hy.1.workingDirectory⟩, ?_⟩, hwrite⟩
        -- of the temporary files only the first one is new, and it is removed
        show (y.temporaries.filter fun entry => entry.1 != temporary) = t.temporaries
        rw [hy.2, hx.2, List.filter_cons_of_neg (by simp), List.filter_eq_self]
        intro entry hentry
        have hne : entry.1 ≠ temporary := fun heq => hfresh (heq ▸ List.mem_map_of_mem hentry)
        simpa using hne
    · exact nomatch h

end Output

end EntityModel
