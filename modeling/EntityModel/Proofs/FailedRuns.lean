import EntityModel.CommandLine.Run
import EntityModel.Proofs.Publishing

/-!
# What a failed run leaves behind

A run reads until all files are generated, so up to there a failure leaves the tree as it is.  A
commit fails before it writes, while it stages or at one of the files that it publishes.  Only in
the last case can a file hold something else afterwards: one that was there before, at the place of
a file that was published already.  All this holds for any format of settings files.

* `Interruption`                a commit that stops between two files
* `Interruption.node?_tree`     what is where after it
* `result_commit_error`         the three ways in which a commit fails
* `result_run_error`            the two ways in which a run fails
* `run_error_keeps_files`       what both come to
-/

namespace EntityModel

open Generation (GeneratedFile)

variable {t u : FileTree}

/-! ### Failed commits -/

namespace Output

open FileTree (AfterPublishing Enlarged Grown Published SameDirectories)

/-- A commit that stops after all files are staged: those of `done` are published, and the next one
    cannot be. -/
structure Interruption (sources : List (GeneratedFile × String)) (t : FileTree) where
  done : List StagedFile
  failing : StagedFile
  waiting : List StagedFile
  fault : StorageFault
  /-- The paths of `done` at which nothing was. -/
  created : List String
  /-- The tree with all files staged. -/
  staged : FileTree
  /-- The tree with the files of `done` published. -/
  stopped : FileTree
  staging : (stageAll sources).result t =
    (.ok ((done ++ failing :: waiting).map (·.pending)), staged)
  sources_eq : sources = (done ++ failing :: waiting).map (·.source)
  grown : Grown t staged
  held : Held t.temporaries staged.temporaries (done ++ failing :: waiting)
  published : Published staged [] done stopped created
  failure : stopped.publish failing.temporary failing.path = .error fault

namespace Interruption

variable {sources : List (GeneratedFile × String)} (i : Interruption sources t)

/-- The fault that the commit ends in. -/
def error : OutputFault := .write i.failing.path i.fault

/-- The tree that the commit leaves. -/
def tree : FileTree := cleanedUp i.stopped i.created (i.failing :: i.waiting)

/-- What is known of the tree once the files before the failing one are published. -/
theorem after : AfterPublishing t.temporaries i.staged [] i.done (i.failing :: i.waiting) i.stopped
    i.created :=
  i.published.after i.held

/-- The temporary files are those that there were before. -/
private theorem temporaries_tree : i.tree.temporaries = t.temporaries := by
  have hremoved := (FileTree.foldl_without_spec i.stopped i.created).2.1
  show ((i.created.foldl FileTree.without i.stopped).temporaries.filter fun e =>
    e.1 ∉ (i.failing :: i.waiting).map (·.temporary)) = t.temporaries
  rw [hremoved]
  -- all temporary files that are left are taken away, and no other
  exact i.after.held.rest

/-- Afterwards there is nothing where nothing was, and elsewhere what was published there last, or
    else what was there before. -/
theorem node?_tree (k : Location) : i.tree.node? k =
    if i.staged.node? k = none then none
    else ((i.staged.lastAt i.done k).map fun f => .file f.file.contents.toUTF8).or
      (i.staged.node? k) := by
  have hremoved := (FileTree.foldl_without_spec i.stopped i.created).2.2 k
  have hcreated : (∃ p ∈ i.created, i.stopped.placeOf p = .ok k) ↔
      i.staged.node? k = none ∧ ∃ f ∈ i.done, i.staged.placeOf f.path = .ok k := by
    simpa [i.after.directories.placeOf_iff] using i.after.created k
  show (i.created.foldl FileTree.without i.stopped).node? k = _
  simp only [hremoved, hcreated, i.after.node]
  cases hk : i.staged.node? k with
  | some n => simp
  | none =>
    -- where nothing was there is something only if a file was published there
    by_cases hdone : ∃ f ∈ i.done, i.staged.placeOf f.path = .ok k
    · obtain ⟨f, hf, hplace⟩ := hdone
      obtain ⟨g, hg⟩ := FileTree.exists_lastAt hf hplace
      rw [hg, if_pos ⟨⟨rfl, f, hf, hplace⟩, nofun⟩]
      rfl
    · rw [FileTree.lastAt_eq_none fun f hf hplace => hdone ⟨f, hf, hplace⟩]
      simp

/-- Making and cleaning up leave the directories of the staged tree. -/
private theorem sameDirectories_tree : SameDirectories i.staged i.tree := by
  have hremoved := (FileTree.foldl_without_spec i.stopped i.created).1
  -- temporary files are no part of any path
  have htemporaries : SameDirectories (i.created.foldl FileTree.without i.stopped) i.tree :=
    ⟨⟨id, rfl⟩, ⟨id, rfl⟩⟩
  exact i.after.directories.trans (hremoved.trans htemporaries)

/-- A file of `done` that is the last one at its place was put where no directory is. -/
theorem placeOf_lastAt {f : StagedFile} {l : Location} (h : i.staged.lastAt i.done l = some f) :
    f ∈ i.done ∧ i.staged.placeOf f.path = .ok l ∧ i.staged.node? l ≠ some .directory := by
  obtain ⟨hf, hplace⟩ := FileTree.mem_of_lastAt h
  obtain ⟨k, hk, hdir⟩ := i.after.place f hf
  -- a place is told by its path, so the two are one
  obtain rfl := Except.ok.inj (hk.symm.trans hplace)
  exact ⟨hf, hk, hdir⟩

/-- Where there is a file afterwards there was one before. -/
private theorem file_of_tree {l : Location} {contents : ByteArray}
    (h : i.tree.node? l = some (.file contents)) :
    ∃ before, t.node? l = some (.file before) := by
  rw [i.node?_tree] at h
  split at h
  · exact nomatch h
  rename_i hthere
  -- the file was published at this place, or has been there all the time
  cases hlast : i.staged.lastAt i.done l with
  | none =>
    rw [hlast] at h
    exact ⟨contents, i.grown.file_iff.mp h⟩
  | some f =>
    obtain ⟨-, -, hdir⟩ := i.placeOf_lastAt hlast
    cases hstaged : i.staged.node? l with
    | none => exact absurd hstaged hthere
    | some n =>
      cases n with
      | directory => exact absurd hstaged hdir
      | file before => exact ⟨before, i.grown.file_iff.mp hstaged⟩

/-- A file is afterwards as it was, or holds what was published at its place. -/
private theorem file_tree {l : Location} {contents : ByteArray}
    (h : t.node? l = some (.file contents)) :
    i.tree.node? l = some (.file contents) ∨ ∃ f ∈ i.done, i.tree.locate f.path = .ok l ∧
      i.tree.node? l = some (.file f.file.contents.toUTF8) := by
  -- a file of the tree is there when all files are staged
  have hstaged : i.staged.node? l = some (.file contents) := i.grown.file_iff.mpr h
  have htree := i.node?_tree l
  rw [if_neg (by rw [hstaged]; exact nofun), hstaged] at htree
  cases hlast : i.staged.lastAt i.done l with
  | none =>
    rw [hlast] at htree
    exact .inl htree
  -- what was published there last is what is there now
  | some f =>
    rw [hlast] at htree
    obtain ⟨hf, hplace, -⟩ := i.placeOf_lastAt hlast
    refine .inr ⟨f, hf, ?_, htree⟩
    rw [FileTree.locate_of_placeOf (i.sameDirectories_tree.placeOf_iff.mpr hplace),
      if_neg (by rw [htree]; exact nofun)]

end Interruption

/-- A commit fails before it does anything, while it stages its files, or at one of the files that
    it publishes. -/
theorem result_commit_error {files : List GeneratedFile} {pattern : String} {layout : Layout}
    {e : OutputFault} (h : (commit files pattern layout).result t = (.error e, u)) :
    (destinations pattern layout (files.map (·.name)) = .error e ∧ u = t) ∨
      ∃ paths, destinations pattern layout (files.map (·.name)) = .ok paths ∧
        ((Enlarged t u ∧ ∃ path fault, e = .write path fault) ∨
          ∃ i : Interruption (files.zip paths) t, e = i.error ∧ u = i.tree) := by
  unfold commit at h
  -- the paths, then the temporary files, then the publishing, each of which may fail
  obtain hpaths | ⟨paths, w, hpaths, h⟩ := Activity.result_bind_eq_error_iff.mp h
  · obtain ⟨hdestinations, rfl⟩ := Prod.mk.inj hpaths
    exact .inl ⟨hdestinations, rfl⟩
  obtain ⟨hdestinations, rfl⟩ := Prod.mk.inj hpaths
  refine .inr ⟨paths, hdestinations, ?_⟩
  obtain hstage | ⟨pending, v, hstage, h⟩ := Activity.result_bind_eq_error_iff.mp h
  · exact .inl (result_stageAll_error hstage)
  obtain hpublish | ⟨⟨⟩, x, -, h⟩ := Activity.result_bind_eq_error_iff.mp h
  · obtain ⟨staged, hsources, rfl, hgrown, hheld⟩ := result_stageAll_ok hstage
    obtain ⟨done, f, rest, w, created, fault, rfl, hdone, hfail, rfl, rfl⟩ :=
      result_publishAll_error hpublish
    exact .inr ⟨⟨done, f, rest, fault, created, v, w, hstage, hsources, hgrown, hheld, hdone,
      hfail⟩, rfl, rfl⟩
  -- writing a record cannot fail
  · obtain hnote | ⟨⟨⟩, y, -, h⟩ := Activity.result_bind_eq_error_iff.mp h
    · exact nomatch hnote
    · exact nomatch h

end Output

/-! ### Failed runs -/

namespace CommandLine

open FileTree (Keeps keeps_pure keeps_bind)

/-- Looking for a file that is there changes nothing. -/
private theorem reads_firstPresent (paths : List String) :
    Keeps Eq (firstPresent paths : StateM FileTree _) := by
  induction paths with
  | nil => exact keeps_pure _
  | cons path rest ih =>
    unfold firstPresent
    refine keeps_bind (fun _ => rfl) fun present => ?_
    split
    · exact keeps_pure _
    · exact ih

/-- Writing records of paths cannot fail. -/
@[simp] theorem outcome_notePaths (paths : List String) : (notePaths paths).outcome = .ok () := by
  induction paths with
  | nil => rfl
  | cons path rest ih => exact (Traced.outcome_bind _ _).trans ih

section

-- nothing is known of the format: a settings file may be read into anything or not at all
variable [SettingsFormat]

/-- Reading a settings file changes nothing. -/
private theorem reads_readSettings (path : String) :
    Keeps Eq (readSettings path : Activity (StateM FileTree) _ _).run := by
  unfold readSettings
  refine Activity.keeps_run_bind (fun _ => rfl) fun _ => ?_
  refine Activity.keeps_run_bind (fun _ => rfl) fun text => ?_
  split <;> exact fun _ => rfl

/-- Looking for a settings file changes nothing. -/
private theorem reads_findSettings (userDirectory : Option String) :
    Keeps Eq (findSettings userDirectory : Activity (StateM FileTree) _ _).run := by
  unfold findSettings
  split
  on_goal 1 => refine Activity.keeps_run_bind (fun _ => rfl) fun _ => ?_
  -- with the note or without it, the rest is the same
  all_goals
    refine Activity.keeps_run_bind (keeps_bind (reads_firstPresent _) fun _ => keeps_pure _)
      fun found => ?_
    split
    · exact reads_readSettings _
    · exact fun _ => rfl

/-- Settings are loaded without any change. -/
private theorem reads_loadSettings (userDirectory named : Option String) :
    Keeps Eq (loadSettings userDirectory named : Activity (StateM FileTree) _ _).run := by
  unfold loadSettings
  -- either a file is named, or one is looked for
  split
  · exact reads_findSettings userDirectory
  · refine Activity.keeps_run_bind (fun _ => rfl) fun present => ?_
    split
    · exact reads_readSettings _
    · exact fun _ => rfl

/-- The files that the run generates, from its settings and the text of its model. -/
def Generates (userDirectory : Option String) (a : Arguments) (t : FileTree) (settings : Settings)
    (files : List GeneratedFile) : Prop :=
  ∃ found source, (loadSettings userDirectory a.config).result t = (.ok found, t) ∧
    (layer found a.settings a.output).outcome = .ok settings ∧ t.readText a.input = .ok source ∧
    (Generation.generateDocument settings source).outcome = .ok files

/-- A run fails before its files are generated, without any change, or as it commits them. -/
theorem result_run_error {userDirectory : Option String} {a : Arguments} {e : Failure}
    (h : (run userDirectory a).result t = (.error e, u)) :
    u = t ∨ ∃ settings files fault, Generates userDirectory a t settings files ∧
      (Output.commit files settings.outputPattern settings.layout).result t = (.error fault, u) ∧
      e = .output fault := by
  unfold run at h
  -- up to the commit every part only reads
  obtain hu | ⟨⟨⟩, -, h⟩ := Activity.result_bind_error_of_reads (fun _ => rfl) h
  · exact .inl hu
  obtain hu | ⟨found, hload, h⟩ :=
    Activity.result_bind_error_of_reads (reads_loadSettings userDirectory a.config) h
  · exact .inl hu
  obtain hu | ⟨settings, hlayer, h⟩ := Activity.result_bind_error_of_reads (fun _ => rfl) h
  · exact .inl hu
  obtain hu | ⟨source, hread, h⟩ := Activity.result_bind_error_of_reads (fun _ => rfl) h
  · exact .inl hu
  obtain hu | ⟨files, hgenerate, h⟩ := Activity.result_bind_error_of_reads (fun _ => rfl) h
  · exact .inl hu
  obtain hwrite | ⟨paths, v, -, h⟩ := Activity.result_bind_eq_error_iff.mp h
  · have hsource : t.readText a.input = .ok source :=
      (Prod.mk.inj (Activity.result_attempt_eq_ok_iff.mp hread)).1
    obtain ⟨fault, hcommit, rfl⟩ := Activity.result_mapError_eq_error_iff.mp hwrite
    exact .inr ⟨settings, files, fault, ⟨found, source, hload, (Prod.mk.inj hlayer).1, hsource,
      (Prod.mk.inj hgenerate).1⟩, hcommit, rfl⟩
  -- writing records cannot fail
  · obtain hnotes | ⟨⟨⟩, w, -, h⟩ := Activity.result_bind_eq_error_iff.mp h
    · exact nomatch (outcome_notePaths paths).symm.trans (Prod.mk.inj hnotes).1
    · exact nomatch h

/-- A run that fails leaves no file that was not there before, and every file as it was, unless it
    fails as it publishes a file: then a file may hold what was published at its place until then.
    Where it fails other than in writing, nothing at all has changed. -/
theorem run_error_keeps_files {userDirectory : Option String} {a : Arguments} {e : Failure}
    (h : (run userDirectory a).result t = (.error e, u)) :
    u.temporaries = t.temporaries ∧
      (∀ l contents, u.node? l = some (.file contents) →
        ∃ before, t.node? l = some (.file before)) ∧
      (∀ l contents, t.node? l = some (.file contents) →
        u.node? l = some (.file contents) ∨
          ∃ settings files paths, Generates userDirectory a t settings files ∧
            Output.destinations settings.outputPattern settings.layout (files.map (·.name)) =
              .ok paths ∧
            ∃ i : Output.Interruption (files.zip paths) t, e = .output i.error ∧
              ∃ f ∈ i.done, u.locate f.path = .ok l ∧
                u.node? l = some (.file f.file.contents.toUTF8)) ∧
      ((∀ path fault, e ≠ .output (.write path fault)) → u = t) := by
  -- before the commit nothing has changed, and in it one of three things has happened
  obtain rfl | ⟨settings, files, fault, hgenerates, hcommit, rfl⟩ := result_run_error h
  · exact ⟨rfl, fun l contents hl => ⟨contents, hl⟩, fun l contents hl => .inl hl, fun _ => rfl⟩
  obtain ⟨-, rfl⟩ | ⟨paths, hpaths, ⟨henlarged, path, fault, rfl⟩ | ⟨i, rfl, rfl⟩⟩ :=
    Output.result_commit_error hcommit
  · exact ⟨rfl, fun l contents hl => ⟨contents, hl⟩, fun l contents hl => .inl hl, fun _ => rfl⟩
  · refine ⟨henlarged.2, fun l contents hl => ⟨contents, henlarged.1.file_iff.mp hl⟩,
      fun l contents hl => .inl (henlarged.1.file_iff.mpr hl), fun hno => ?_⟩
    exact absurd rfl (hno path fault)
  -- the commit has stopped between two files
  · refine ⟨i.temporaries_tree, fun l contents hl => i.file_of_tree hl, fun l contents hl => ?_,
      fun hno => absurd rfl (hno i.failing.path i.fault)⟩
    obtain hkept | ⟨f, hf, hlocate, hcontents⟩ := i.file_tree hl
    · exact .inl hkept
    · exact .inr ⟨settings, files, paths, hgenerates, hpaths, i, rfl, f, hf, hlocate, hcontents⟩

end

/-- A model of two types and a settings file, where a directory is in the way of the file of the
    second type.  The file of the first one is published and keeps its new contents, since there was
    one before. -/
theorem failed_rename_replaces_file :
    ∃ t a u, (run none a).result t = (.error (.output (.write "B.cs" .isDirectory)), u) ∧
      u.temporaries = t.temporaries ∧
      t.readText "A.cs" = .ok "old" ∧ u.readText "A.cs" ≠ .ok "old" ∧
      ∃ settings files paths, Generates none a t settings files ∧
        ∃ i : Output.Interruption (files.zip paths) t,
          i.error = .write "B.cs" .isDirectory ∧ ∃ f ∈ i.done, u.locate f.path = .ok ["A.cs"] := by
  -- a directory of the name that the second file should have
  let t : FileTree :=
    { nodes :=
        [(["A.cs"], .file "old".toUTF8), (["B.cs"], .directory), (["edmgen"], .directory),
          (["edmgen", "config.toml"], .file "file_mode = 'PerDeclarationFile'\n".toUTF8),
          (["m"], .file ("<Schema Namespace='N'><ComplexType Name='A'/>" ++
            "<ComplexType Name='B'/></Schema>").toUTF8)] }
  let a : Arguments := { input := "m" }
  have herror : ((run none a).result t).1 = .error (.output (.write "B.cs" .isDirectory)) := by
    decide +kernel
  obtain ⟨u, hu⟩ : ∃ u, ((run none a).result t).2 = u := ⟨_, rfl⟩
  have h : (run none a).result t = (.error (.output (.write "B.cs" .isDirectory)), u) :=
    Prod.ext herror hu
  obtain ⟨htemporaries, -, hfiles, -⟩ := run_error_keeps_files h
  -- the first file was kept as it was, or holds what was published in its place
  obtain hkept | ⟨settings, files, paths, hgenerates, -, i, hi, f, hf, hlocate, -⟩ :=
    hfiles ["A.cs"] "old".toUTF8 rfl
  · exact absurd (hu ▸ hkept) (by decide +kernel)
  · exact ⟨t, a, u, h, htemporaries, by decide +kernel, hu ▸ by decide +kernel, settings, files,
      paths, hgenerates, i, (Failure.output.inj hi).symm, f, hf, hlocate⟩

end CommandLine

end EntityModel
