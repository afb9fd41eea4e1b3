import EntityModel.Proofs.Staging

/-!
# Publishing

Publishing moves the text of a temporary file to the place of its path.  Directories stay, so every
path keeps its place while files are published one after the other, and what is at a place
afterwards is the last file that was published there.  Where a file cannot be published, the paths
at which nothing was are emptied again and the remaining temporary files are removed.

* `SameDirectories`             trees in which all paths have the same places
* `publish_eq_ok`               one file
* `Published`                   one file after the other
* `Published.after`             what is where afterwards
* `result_publishAll_ok`        all files are published
* `result_publishAll_error`     some are, and then it is cleaned up
-/

namespace EntityModel

namespace FileTree

variable {t u v : FileTree}

/-- The same directories are in both trees, so every path leads to the same place in both. -/
structure SameDirectories (t u : FileTree) : Prop where
  there : KeepsDirectories t u
  back : KeepsDirectories u t

namespace SameDirectories

/-- A tree has the same directories as itself. -/
theorem refl (t : FileTree) : SameDirectories t t := ⟨.refl t, .refl t⟩

/-- Having the same directories goes on from tree to tree. -/
theorem trans (h : SameDirectories t u) (h' : SameDirectories u v) : SameDirectories t v :=
  ⟨h.there.trans h'.there, h'.back.trans h.back⟩

/-- A path has the same place in both trees. -/
theorem placeOf_iff (h : SameDirectories t u) {path : String} {l : Location} :
    u.placeOf path = .ok l ↔ t.placeOf path = .ok l :=
  ⟨h.back.placeOf, h.there.placeOf⟩

/-- A directory of one tree is one of the other. -/
private theorem directory_iff (h : SameDirectories t u) {l : Location} :
    u.node? l = some .directory ↔ t.node? l = some .directory :=
  ⟨h.back.directory, h.there.directory⟩

/-- Trees that differ at one place only, where neither has a directory. -/
theorem of_node? {l : Location} (ht : t.node? l ≠ some .directory)
    (hu : u.node? l ≠ some .directory) (h : ∀ k, k ≠ l → u.node? k = t.node? k)
    (hw : u.workingDirectory = t.workingDirectory) : SameDirectories t u := by
  have hiff : ∀ k, u.node? k = some .directory ↔ t.node? k = some .directory := by
    intro k
    -- at the place itself neither has a directory, and elsewhere they are equal
    by_cases hk : k = l
    · rw [hk]
      exact iff_of_false hu ht
    · rw [h k hk]
  exact ⟨⟨(hiff _).mpr, hw⟩, ⟨(hiff _).mp, hw.symm⟩⟩

end SameDirectories

/-! ### One file -/

/-- Publishing moves the text of a temporary file to the place of a path, where no directory is. -/
theorem publish_eq_ok {temporary : Temporary} {path : String}
    (h : t.publish temporary path = .ok u) :
    ∃ l text, t.placeOf path = .ok l ∧ t.temporaries.lookup temporary = some text ∧
      t.node? l ≠ some .directory ∧ u = (t.discard temporary).insert l (.file text.toUTF8) := by
  unfold publish at h
  -- the path has a place, the temporary file a text, and there is no directory
  obtain ⟨⟨⟩, hcheck, h⟩ := bind_eq_ok_iff.mp h
  obtain ⟨l, hslot, h⟩ := bind_eq_ok_iff.mp h
  split at h
  · exact nomatch h
  · rename_i text htext
    split at h
    · exact nomatch h
    · rename_i hdir
      exact ⟨l, text, placeOf_eq_ok_iff.mpr ⟨hcheck, hslot⟩, htext, hdir,
        (Except.ok.inj h).symm⟩

/-- The place of a path is not the working directory itself. -/
private theorem ne_nil_of_placeOf {path : String} {l : Location} (h : t.placeOf path = .ok l) :
    l ≠ [] :=
  ne_nil_of_slotOf (placeOf_eq_ok_iff.mp h).2

/-- A file that is removed leaves nothing at its place. -/
theorem remove_eq_ok_iff {path : String} :
    t.remove path = .ok u ↔
      ∃ l contents, t.placeOf path = .ok l ∧ t.node? l = some (.file contents) ∧
        t.erase l = u := by
  unfold remove
  constructor
  · intro h
    -- a place with nothing or with a directory cannot be removed
    obtain ⟨⟨⟩, hcheck, h⟩ := bind_eq_ok_iff.mp h
    obtain ⟨l, hslot, h⟩ := bind_eq_ok_iff.mp h
    split at h
    · exact nomatch h
    · exact nomatch h
    · rename_i contents hfile
      exact ⟨l, contents, placeOf_eq_ok_iff.mpr ⟨hcheck, hslot⟩, hfile, Except.ok.inj h⟩
  · rintro ⟨l, contents, hplace, hfile, rfl⟩
    obtain ⟨hcheck, hslot⟩ := placeOf_eq_ok_iff.mp hplace
    refine bind_eq_ok_iff.mpr ⟨(), hcheck, bind_eq_ok_iff.mpr ⟨l, hslot, ?_⟩⟩
    rw [hfile]

/-- The tree without the file of a path, or as it is if there is none. -/
def without (t : FileTree) (path : String) : FileTree :=
  match t.remove path with
  | .ok u => u
  | .error _ => t

/-- Removing the file of a path leaves nothing at its place, and all else as it is. -/
private theorem without_spec (t : FileTree) (path : String) :
    SameDirectories t (t.without path) ∧ (t.without path).temporaries = t.temporaries ∧
      ∀ k, (t.without path).node? k =
        if t.placeOf path = .ok k ∧ t.node? k ≠ some .directory then none else t.node? k := by
  unfold without
  -- either there was a file to remove, or nothing happens
  cases hremove : t.remove path with
  | ok u =>
    obtain ⟨l, contents, hplace, hfile, rfl⟩ := remove_eq_ok_iff.mp hremove
    have hnode := node?_erase (t := t) (ne_nil_of_placeOf hplace)
    refine ⟨?_, rfl, fun k => ?_⟩
    · refine .of_node? (l := l) (by simp [hfile]) (by simp [hnode]) (fun k hk => ?_) rfl
      rw [hnode, if_neg hk]
    -- at the place of the path nothing is left, and elsewhere nothing changes
    · show (t.erase l).node? k = _
      rw [hnode, hplace]
      by_cases hk : k = l
      · subst hk
        simp [hfile]
      · simp [hk, Ne.symm hk]
  | error fault =>
    refine ⟨.refl t, rfl, fun k => ?_⟩
    show t.node? k = _
    split
    · rename_i hk
      -- with a file at the place there would have been something to remove
      cases hnode : t.node? k with
      | none => rfl
      | some n =>
        cases n with
        | directory => exact absurd hnode hk.2
        | file contents =>
          have hok := remove_eq_ok_iff.mpr ⟨k, contents, hk.1, hnode, rfl⟩
          exact nomatch hremove.symm.trans hok
    · rfl

/-- Removing the files of some paths leaves nothing at their places, and all else as it is. -/
theorem foldl_without_spec (t : FileTree) (paths : List String) :
    SameDirectories t (paths.foldl without t) ∧
      (paths.foldl without t).temporaries = t.temporaries ∧
      ∀ k, (paths.foldl without t).node? k =
        if (∃ p ∈ paths, t.placeOf p = .ok k) ∧ t.node? k ≠ some .directory then none
        else t.node? k := by
  induction paths generalizing t with
  | nil => exact ⟨.refl t, rfl, fun k => by simp⟩
  | cons path rest ih =>
    obtain ⟨hsame, htemporaries, hnode⟩ := without_spec t path
    obtain ⟨hsame', htemporaries', hnode'⟩ := ih (t.without path)
    refine ⟨hsame.trans hsame', htemporaries'.trans htemporaries, fun k => ?_⟩
    rw [List.foldl_cons, hnode', hnode]
    -- paths have the same places in both trees, so the conditions are joined
    simp only [hsame.placeOf_iff, List.exists_mem_cons_iff, ne_eq]
    by_cases hdir : t.node? k = some .directory
    · simp [hdir]
    · by_cases hfirst : t.placeOf path = .ok k <;> simp [hfirst, hdir]

/-! ### One file after the other -/

/-- Publishing some staged files turns one tree into another.  The paths at which nothing was are
    put behind those that are given. -/
inductive Published : FileTree → List String → List StagedFile → FileTree → List String → Prop
  | nil (t : FileTree) (created : List String) : Published t created [] t created
  | cons {t u v : FileTree} {created created' : List String} {f : StagedFile}
      {rest : List StagedFile} (h : t.publish f.temporary f.path = .ok u)
      (hrest : Published u (if (t.find? f.path).isSome then created else created ++ [f.path]) rest
        v created') : Published t created (f :: rest) v created'

/-- Publishing a held file puts its contents to the place of its path, where no directory is. -/
private theorem publish_held {base : List (Temporary × String)} {f : StagedFile}
    {rest : List StagedFile}
    (h : t.publish f.temporary f.path = .ok u) (hheld : Held base t.temporaries (f :: rest)) :
    ∃ l, t.placeOf f.path = .ok l ∧ t.node? l ≠ some .directory ∧ SameDirectories t u ∧
      Held base u.temporaries rest ∧
      ∀ k, u.node? k = if k = l then some (.file f.file.contents.toUTF8) else t.node? k := by
  obtain ⟨l, text, hplace, htext, hdir, rfl⟩ := publish_eq_ok h
  obtain rfl : f.file.contents = text :=
    -- the temporary file holds the contents of the file that is published
    Option.some.inj ((hheld.text f List.mem_cons_self).symm.trans htext)
  have hnode : ∀ k, ((t.discard f.temporary).insert l (.file f.file.contents.toUTF8)).node? k =
      if k = l then some (.file f.file.contents.toUTF8) else t.node? k :=
    node?_insert (ne_nil_of_placeOf hplace) _
  refine ⟨l, hplace, hdir, ?_, hheld.discard, hnode⟩
  refine .of_node? (l := l) hdir ?_ (fun k hk => ?_) rfl
  · rw [hnode, if_pos rfl]
    exact nofun
  · rw [hnode, if_neg hk]

/-- The last of some staged files whose path leads to a place. -/
def lastAt (t : FileTree) (files : List StagedFile) (k : Location) : Option StagedFile :=
  (files.filter fun f => t.placeOf f.path = .ok k).getLast?

/-- The last file at a place is the first one only where no other leads there. -/
private theorem lastAt_cons (t : FileTree) (f : StagedFile) (files : List StagedFile)
    (k : Location) : t.lastAt (f :: files) k =
      (t.lastAt files k).or (if t.placeOf f.path = .ok k then some f else none) := by
  unfold lastAt
  rw [List.filter_cons]
  -- either the first file leads there too, or it is not counted at all
  by_cases hk : t.placeOf f.path = .ok k
  · simp only [hk, decide_true, if_true, List.getLast?_cons]
    cases (files.filter fun f => t.placeOf f.path = .ok k).getLast? <;> rfl
  · simp [hk]

/-- The last file at a place is one of the files and leads there. -/
theorem mem_of_lastAt {files : List StagedFile} {f : StagedFile} {k : Location}
    (h : t.lastAt files k = some f) : f ∈ files ∧ t.placeOf f.path = .ok k := by
  obtain ⟨hf, hplace⟩ := List.mem_filter.mp (List.mem_of_getLast? h)
  exact ⟨hf, of_decide_eq_true hplace⟩

/-- Where the path of a file leads, one of the files is the last that leads there. -/
theorem exists_lastAt {staged : List StagedFile} {f : StagedFile} {l : Location}
    (hf : f ∈ staged) (hl : t.placeOf f.path = .ok l) : ∃ g, t.lastAt staged l = some g := by
  have hmem : f ∈ staged.filter fun f => t.placeOf f.path = .ok l :=
    List.mem_filter.mpr ⟨hf, by simpa using hl⟩
  exact ⟨_, List.getLast?_eq_some_getLast (List.ne_nil_of_mem hmem)⟩

/-- Where no file leads there is no last one. -/
theorem lastAt_eq_none {staged : List StagedFile} {l : Location}
    (h : ∀ f ∈ staged, t.placeOf f.path ≠ .ok l) : t.lastAt staged l = none := by
  have hnone : (staged.filter fun f => t.placeOf f.path = .ok l) = [] :=
    List.filter_eq_nil_iff.mpr fun f hf => by simpa using h f hf
  unfold lastAt
  rw [hnone]
  rfl

/-- Where no later file leads, a file is the last one at its place. -/
theorem lastAt_append_cons {before after : List StagedFile} {f : StagedFile} {l : Location}
    (hf : t.placeOf f.path = .ok l) (hafter : ∀ g ∈ after, t.placeOf g.path ≠ .ok l) :
    t.lastAt (before ++ f :: after) l = some f := by
  have hnone : (after.filter fun g => t.placeOf g.path = .ok l) = [] :=
    List.filter_eq_nil_iff.mpr fun g hg => by simpa using hafter g hg
  unfold lastAt
  rw [List.filter_append, List.filter_cons_of_pos (by simpa using hf), hnone,
    List.getLast?_append, List.getLast?_singleton]
  rfl

/-- The same files are the last ones in trees with the same directories. -/
theorem SameDirectories.lastAt_eq (h : SameDirectories t u) (files : List StagedFile)
    (k : Location) : u.lastAt files k = t.lastAt files k := by
  unfold lastAt
  simp only [h.placeOf_iff]

/-- What is known of a tree after some held files were published. -/
structure AfterPublishing (base : List (Temporary × String)) (t : FileTree) (created : List String)
    (files rest : List StagedFile) (u : FileTree) (created' : List String) : Prop where
  directories : SameDirectories t u
  held : Held base u.temporaries rest
  place : ∀ f ∈ files, ∃ l, t.placeOf f.path = .ok l ∧ t.node? l ≠ some .directory
  /-- At each place is what was last published there, or else what was there before. -/
  node : ∀ k, u.node? k =
    ((t.lastAt files k).map fun f => .file f.file.contents.toUTF8).or (t.node? k)
  /-- New paths lead to where nothing was. -/
  created : ∀ k, (∃ p ∈ created', t.placeOf p = .ok k) ↔
    (∃ p ∈ created, t.placeOf p = .ok k) ∨
      t.node? k = none ∧ ∃ f ∈ files, t.placeOf f.path = .ok k

/-- What is known after publishing some files. -/
theorem Published.after {base : List (Temporary × String)} {created created' : List String}
    {files rest : List StagedFile} (h : Published t created files u created')
    (hheld : Held base t.temporaries (files ++ rest)) :
    AfterPublishing base t created files rest u created' := by
  -- the first file counts as what was there before the others, unless one of them follows it
  induction h with
  | nil t created =>
    exact ⟨.refl t, hheld, fun f hf => absurd hf List.not_mem_nil, fun k => rfl, fun k => by simp⟩
  | @cons t w v created created' f files hpublish _ ih =>
    obtain ⟨l, hplace, hdir, hsame, hheld', hnode⟩ := publish_held hpublish hheld
    have hafter := ih hheld'
    -- directories, what is still held, places, what is at them, and which of them are new
    refine ⟨hsame.trans hafter.directories, hafter.held, ?_, ?_, ?_⟩
    -- the place of the first file, and the places of the others before it was published
    · refine List.forall_mem_cons.mpr ⟨⟨l, hplace, hdir⟩, fun g hg => ?_⟩
      obtain ⟨k, hk, hkdir⟩ := hafter.place g hg
      exact ⟨k, hsame.placeOf_iff.mp hk, fun h => hkdir (hsame.directory_iff.mpr h)⟩
    · intro k
      rw [hafter.node, hsame.lastAt_eq, lastAt_cons, hnode]
      cases t.lastAt files k with
      | some g => rfl
      | none =>
        -- no later file leads here, so the first one counts if it does
        by_cases hk : k = l
        · simp [hk, hplace]
        · simp [hk, hplace, Ne.symm hk]
    -- a new path is that of the first file if nothing was at its place
    · intro k
      have hcreated := hafter.created k
      simp only [hsame.placeOf_iff, hnode, find?_of_placeOf hplace] at hcreated
      rw [hcreated, List.exists_mem_cons_iff, hplace]
      by_cases hk : k = l
      · subst hk
        -- nothing was there before, so the path of the first file is among the new ones
        cases hnone : t.node? k with
        | none => simp [hplace]
        | some n => simp
      · split <;> simp [hplace, Ne.symm hk]

/-- The tree without some temporary files. -/
def withoutTemporaries (t : FileTree) (temporaries : List Temporary) : FileTree :=
  { t with temporaries := t.temporaries.filter fun e => e.1 ∉ temporaries }

end FileTree

namespace Output

open FileTree (Published)

variable {t u : FileTree}

/-- Rolling back removes the files of the paths, and cannot fail. -/
private theorem result_rollBack (paths : List String) (t : FileTree) :
    (rollBack paths).result t = (.ok (), paths.foldl FileTree.without t) := by
  induction paths generalizing t with
  | nil => rfl
  | cons path rest ih =>
    -- in the tree removing is one step, which fails without a change
    have hremove : (Storage.remove path : StateM FileTree _) t =
        match t.remove path with
        | .ok u => (.ok (), u)
        | .error fault => (.error fault, t) := rfl
    unfold rollBack
    rw [Activity.result_bind, Activity.result_perform, hremove, List.foldl_cons]
    unfold FileTree.without
    cases t.remove path with
    | ok u => exact ih u
    | error fault => exact ih t

/-- Discarding all temporary files leaves a tree without them. -/
private theorem discardAll_eq (temporaries : List Temporary) (t : FileTree) :
    ((discardAll temporaries : StateM FileTree Unit) t).2 = t.withoutTemporaries temporaries := by
  induction temporaries generalizing t with
  | nil =>
    have hall : (t.temporaries.filter fun e => e.1 ∉ ([] : List Temporary)) = t.temporaries :=
      List.filter_eq_self.mpr fun e _ => by simp
    unfold FileTree.withoutTemporaries
    rw [hall]
    rfl
  | cons first rest ih =>
    show ((discardAll rest : StateM FileTree Unit) (t.discard first)).2 = _
    rw [ih]
    unfold FileTree.withoutTemporaries FileTree.discard
    rw [List.filter_filter]
    congr 1
    -- what is left of the others is filtered once more
    exact List.filter_congr fun e _ => by by_cases he : e.1 = first <;> simp [he]

/-- Publishing the first of some files either goes on with the others or cleans up. -/
theorem result_publishAll_cons (created : List String) (f : StagedFile) (rest : List StagedFile)
    (t : FileTree) :
    (publishAll created ((f :: rest).map (·.pending))).result t =
      match t.publish f.temporary f.path with
      | .ok u => (publishAll (if (t.find? f.path).isSome then created else created ++ [f.path])
          (rest.map (·.pending))).result u
      | .error fault => (.error (.write f.path fault),
          (created.foldl FileTree.without t).withoutTemporaries
            ((f :: rest).map (·.temporary))) := by
  -- in the tree publishing is one step, which fails without a change
  have hpublish : (Storage.publish f.temporary f.path : StateM FileTree _) t =
      match t.publish f.temporary f.path with
      | .ok u => (.ok (), u)
      | .error fault => (.error fault, t) := rfl
  have htemporaries : (f :: rest).map (·.temporary) =
      f.temporary :: (rest.map (·.pending)).map (·.1) := by
    rw [List.map_map]
    rfl
  rw [List.map_cons, StagedFile.pending, publishAll, Activity.result_bind,
    Activity.result_perform]
  show (Activity.perform (Storage.publish f.temporary f.path) >>= _).result t = _
  rw [Activity.result_bind, Activity.result_perform, hpublish]
  cases t.publish f.temporary f.path with
  | ok u => rfl
  | error fault =>
    -- with the failure come the roll back and the temporary files that are left
    show (rollBack created >>= _).result t = _
    rw [Activity.result_bind, result_rollBack, ← discardAll_eq, htemporaries]
    rfl

/-- Where publishing ends well, all files are published one after the other. -/
theorem result_publishAll_ok {created : List String} {files : List StagedFile}
    (h : (publishAll created (files.map (·.pending))).result t = (.ok (), u)) :
    ∃ created', Published t created files u created' := by
  induction files generalizing t created with
  | nil =>
    cases h
    exact ⟨created, .nil t created⟩
  | cons f rest ih =>
    -- one file is published, and the run goes on with the others
    rw [result_publishAll_cons] at h
    split at h
    · rename_i v hpublish
      obtain ⟨created', hrest⟩ := ih h
      exact ⟨created', .cons hpublish hrest⟩
    · exact nomatch h

/-- The tree that is left where a file cannot be published after some others were. -/
def cleanedUp (t : FileTree) (created : List String) (rest : List StagedFile) : FileTree :=
  (created.foldl FileTree.without t).withoutTemporaries (rest.map (·.temporary))

/-- Where publishing fails, it does so at one of the files, after those before it are published. -/
theorem result_publishAll_error {created : List String} {files : List StagedFile}
    {e : OutputFault}
    (h : (publishAll created (files.map (·.pending))).result t = (.error e, u)) :
    ∃ done f rest v created' fault, files = done ++ f :: rest ∧
      Published t created done v created' ∧ v.publish f.temporary f.path = .error fault ∧
      e = .write f.path fault ∧ u = cleanedUp v created' (f :: rest) := by
  -- either the first file cannot be published, or the failing one is among the others
  induction files generalizing t created with
  | nil => exact nomatch h
  | cons f rest ih =>
    rw [result_publishAll_cons] at h
    split at h
    · rename_i w hpublish
      obtain ⟨done, g, after, v, created', fault, rfl, hdone, hfail, he, hu⟩ := ih h
      exact ⟨f :: done, g, after, v, created', fault, rfl, .cons hpublish hdone, hfail, he, hu⟩
    -- this file fails, and nothing is published before it
    · rename_i fault hpublish
      cases h
      exact ⟨[], f, rest, t, created, fault, rfl, .nil t created, hpublish, rfl, rfl⟩

end Output

end EntityModel
