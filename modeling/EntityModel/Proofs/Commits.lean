import EntityModel.Proofs.Publishing

/-!
# What a commit leaves behind

A commit that succeeds has staged all of its files and then published them in order.  Paths are told
apart by their text, but two of them can lead to one place; then the later file is left there.

* `AfterPublishing.readText_eq`          what a path leads to after publishing
* `result_commit_ok`                     the two stages of a commit
* `commit_leaves_last_at_each_place`     what every path leads to afterwards
* `commit_can_overwrite`                 a file that is lost although its commit succeeds
-/

namespace EntityModel

open Generation (GeneratedFile)

variable {t u v : FileTree}

namespace FileTree

/-- A text that is put to the place of a path is read from there. -/
private theorem readText_of_placeOf {path text : String} {l : Location} (h : t.placeOf path = .ok l)
    (hl : t.node? l = some (.file text.toUTF8)) : t.readText path = .ok text := by
  have hdecode : String.fromUTF8? text.toUTF8 = some text := dif_pos text.isValidUTF8
  have hlocate : t.locate path = .ok l := by
    rw [locate_of_placeOf h, if_neg (by simp [hl])]
  unfold readText
  rw [hlocate]
  simp only [bind, Except.bind, hl, hdecode]

namespace AfterPublishing

variable {base : List (Temporary × String)} {created created' : List String}
  {files rest : List StagedFile}

/-- At each place is what was last published there, or else what was there before. -/
theorem node?_eq (h : AfterPublishing base t created files rest u created') (k : Location) :
    u.node? k = ((u.lastAt files k).map fun f => .file f.file.contents.toUTF8).or (t.node? k) := by
  rw [h.node, h.directories.lastAt_eq]

/-- Something is at the place of each path, so the path leads there. -/
theorem exists_place (h : AfterPublishing base t created files rest u created') {f : StagedFile}
    (hf : f ∈ files) : ∃ l, u.placeOf f.path = .ok l ∧ u.locate f.path = .ok l := by
  obtain ⟨l, hl, -⟩ := h.place f hf
  have hl : u.placeOf f.path = .ok l := h.directories.placeOf_iff.mpr hl
  obtain ⟨g, hg⟩ := exists_lastAt hf hl
  refine ⟨l, hl, ?_⟩
  rw [locate_of_placeOf hl, if_neg]
  rw [h.node?_eq, hg]
  exact nofun

/-- Where no path of a published file leads, all is as it was. -/
private theorem node?_of_locate_ne (h : AfterPublishing base t created files rest u created')
    {l : Location} (hl : ∀ f ∈ files, u.locate f.path ≠ .ok l) : u.node? l = t.node? l := by
  have hnone : u.lastAt files l = none := by
    refine lastAt_eq_none fun f hf hfl => ?_
    obtain ⟨k, hk, hlocate⟩ := h.exists_place hf
    obtain rfl := Except.ok.inj (hk.symm.trans hfl)
    exact hl f hf hlocate
  rw [h.node?_eq, hnone]
  rfl

/-- A path leads to the last of the files whose paths lead to the same place. -/
theorem readText_eq {before after : List StagedFile} {f : StagedFile}
    (h : AfterPublishing base t created (before ++ f :: after) rest u created')
    (hlast : ∀ g ∈ after, u.locate g.path ≠ u.locate f.path) {e : StagedFile}
    (he : e ∈ before ++ f :: after) (hsame : u.locate e.path = u.locate f.path) :
    u.readText e.path = .ok f.file.contents := by
  have hf : f ∈ before ++ f :: after := List.mem_append_right before List.mem_cons_self
  obtain ⟨l, hl, hlocate⟩ := h.exists_place hf
  obtain ⟨k, hk, hlocate'⟩ := h.exists_place he
  rw [hlocate, hlocate', Except.ok.injEq] at hsame
  subst hsame
  have hlater : ∀ g ∈ after, u.placeOf g.path ≠ .ok k := by
    intro g hg hgk
    have hgmem : g ∈ before ++ f :: after :=
      List.mem_append_right before (List.mem_cons_of_mem f hg)
    obtain ⟨m, hm, hglocate⟩ := h.exists_place hgmem
    obtain rfl := Except.ok.inj (hm.symm.trans hgk)
    exact hlast g hg (hglocate.trans hlocate.symm)
  refine readText_of_placeOf hk ?_
  rw [h.node?_eq, lastAt_append_cons hl hlater]
  rfl

end AfterPublishing

end FileTree

namespace Output

open FileTree (Grown Published)

variable {files : List GeneratedFile} {pattern : String} {layout : Layout}

/-- Files that are staged at the paths of a pattern are the files of that pattern, in order. -/
private theorem eq_of_sources {paths : List String} {staged : List StagedFile}
    (hpaths : paths = files.map fun f => pathOf pattern f.name layout)
    (h : files.zip paths = staged.map (·.source)) :
    files = staged.map (·.file) ∧ paths = staged.map (·.path) ∧
      ∀ f ∈ staged, f.path = pathOf pattern f.file.name layout := by
  have hlength : paths.length = files.length := by rw [hpaths, List.length_map]
  have hfiles : files = staged.map (·.file) := by
    have hfst : (files.zip paths).map Prod.fst = files :=
      List.map_fst_zip (Nat.le_of_eq hlength.symm)
    rw [← hfst, h, List.map_map]
    rfl
  have hstaged : paths = staged.map (·.path) := by
    have hsnd : (files.zip paths).map Prod.snd = paths :=
      List.map_snd_zip (Nat.le_of_eq hlength)
    rw [← hsnd, h, List.map_map]
    rfl
  refine ⟨hfiles, hstaged, ?_⟩
  rw [hstaged, hfiles, List.map_map, List.map_inj_left] at hpaths
  exact hpaths

/-- A commit that succeeds has staged all files and then published them. -/
theorem result_commit_ok {paths : List String}
    (h : (commit files pattern layout).result t = (.ok paths, u)) :
    ∃ staged v created, destinations pattern layout (files.map (·.name)) = .ok paths ∧
      files.zip paths = staged.map (·.source) ∧ Grown t v ∧
      Held t.temporaries v.temporaries staged ∧ Published v [] staged u created := by
  unfold commit at h
  obtain ⟨ps, w, hpaths, h⟩ := Activity.result_bind_eq_ok_iff.mp h
  obtain ⟨pending, v, hstage, h⟩ := Activity.result_bind_eq_ok_iff.mp h
  obtain ⟨⟨⟩, x, hpublish, h⟩ := Activity.result_bind_eq_ok_iff.mp h
  obtain ⟨⟨⟩, y, hnote, h⟩ := Activity.result_bind_eq_ok_iff.mp h
  cases hnote
  cases h
  obtain ⟨hdestinations, rfl⟩ := Prod.mk.inj hpaths
  obtain ⟨staged, hsources, rfl, hgrown, hheld⟩ := result_stageAll_ok hstage
  obtain ⟨created, hpublished⟩ := result_publishAll_ok hpublish
  exact ⟨staged, v, created, hdestinations, hsources, hgrown, hheld, hpublished⟩

/-- A commit that succeeds answers with the paths that the pattern gives the files.  Each of them
    leads to the contents of the last file whose path leads to the same place, no other file has
    changed and no temporary file is left. -/
theorem commit_leaves_last_at_each_place {paths : List String}
    (h : (commit files pattern layout).result t = (.ok paths, u)) :
    paths = files.map (fun f => pathOf pattern f.name layout) ∧
      (∀ before f after, files = before ++ f :: after →
        (∀ g ∈ after, u.locate (pathOf pattern g.name layout) ≠
          u.locate (pathOf pattern f.name layout)) →
        ∀ e ∈ files, u.locate (pathOf pattern e.name layout) =
            u.locate (pathOf pattern f.name layout) →
          u.readText (pathOf pattern e.name layout) = .ok f.contents) ∧
      (∀ l, (∀ p ∈ paths, u.locate p ≠ .ok l) → ∀ contents,
        u.node? l = some (.file contents) ↔ t.node? l = some (.file contents)) ∧
      u.temporaries = t.temporaries := by
  obtain ⟨staged, v, created, hdestinations, hsources, hgrown, hheld, hpublished⟩ :=
    result_commit_ok h
  have hpaths : paths = files.map fun f => pathOf pattern f.name layout := by
    rw [destinations_eq_ok hdestinations, List.map_map]
    rfl
  obtain ⟨hfiles, hstaged, hpath⟩ := eq_of_sources hpaths hsources
  rw [← List.append_nil staged] at hheld
  have hafter := hpublished.after hheld
  refine ⟨hpaths, ?_, ?_, hafter.held.eq_base⟩
  · intro before f after hsplit hlast e he hsame
    -- the files are split as the staged files are
    rw [hfiles] at hsplit he
    obtain ⟨before, rest, rfl, rfl, hrest⟩ := List.map_eq_append_iff.mp hsplit
    obtain ⟨f, after, rfl, rfl, rfl⟩ := List.map_eq_cons_iff.mp hrest
    obtain ⟨e, hmem, rfl⟩ := List.mem_map.mp he
    have hf : f ∈ before ++ f :: after := List.mem_append_right before List.mem_cons_self
    rw [← hpath e hmem] at hsame ⊢
    rw [← hpath f hf] at hsame hlast
    refine hafter.readText_eq (fun g hg => ?_) hmem hsame
    have hgmem : g ∈ before ++ f :: after :=
      List.mem_append_right before (List.mem_cons_of_mem f hg)
    rw [hpath g hgmem]
    exact hlast g.file (List.mem_map_of_mem hg)
  · intro l hl contents
    have hunchanged : u.node? l = v.node? l :=
      hafter.node?_of_locate_ne fun f hf => hl f.path (hstaged ▸ List.mem_map_of_mem hf)
    rw [hunchanged]
    exact hgrown.file_iff

/-- Two files whose paths lead to the same place, where the second one is left. -/
theorem second_of_two_files_is_left :
    ∃ u paths, (commit [⟨"A", "first"⟩, ⟨"B", "second"⟩] "\x7bname\x7d/../X.cs"
        .filePerDeclaration).result {} = (.ok paths, u) ∧
      paths = ["A/../X.cs", "B/../X.cs"] ∧ u.readText "A/../X.cs" = .ok "second" ∧
      u.readText "B/../X.cs" = .ok "second" ∧ u.temporaries = [] := by
  let files : List GeneratedFile := [⟨"A", "first"⟩, ⟨"B", "second"⟩]
  have hpaths : ((commit files "\x7bname\x7d/../X.cs" .filePerDeclaration).result {}).1 =
      .ok ["A/../X.cs", "B/../X.cs"] := by
    decide +kernel
  obtain ⟨u, hu⟩ :
      ∃ u, ((commit files "\x7bname\x7d/../X.cs" .filePerDeclaration).result {}).2 = u := ⟨_, rfl⟩
  have h : (commit files "\x7bname\x7d/../X.cs" .filePerDeclaration).result {} =
      (.ok ["A/../X.cs", "B/../X.cs"], u) := Prod.ext hpaths hu
  have hsame : u.locate "A/../X.cs" = u.locate "B/../X.cs" := by
    rw [← hu]
    decide +kernel
  have hA : pathOf "\x7bname\x7d/../X.cs" "A" .filePerDeclaration = "A/../X.cs" := by decide +kernel
  have hB : pathOf "\x7bname\x7d/../X.cs" "B" .filePerDeclaration = "B/../X.cs" := by decide +kernel
  obtain ⟨-, hread, -, htemporaries⟩ := commit_leaves_last_at_each_place h
  have hlast := hread [⟨"A", "first"⟩] ⟨"B", "second"⟩ [] rfl
    fun g hg => absurd hg List.not_mem_nil
  refine ⟨u, _, h, rfl, ?_, ?_, htemporaries⟩
  · rw [← hA]
    exact hlast ⟨"A", "first"⟩ List.mem_cons_self (by rw [hA, hB]; exact hsame)
  · rw [← hB]
    exact hlast ⟨"B", "second"⟩ (List.mem_cons_of_mem _ List.mem_cons_self) rfl

/-- A commit can succeed although one of its files is overwritten by another one. -/
theorem commit_can_overwrite :
    ¬ ∀ (files : List GeneratedFile) (pattern : String) (layout : Layout) (t u : FileTree)
      (paths : List String), (commit files pattern layout).result t = (.ok paths, u) →
        ∀ f ∈ files, u.readText (pathOf pattern f.name layout) = .ok f.contents := by
  intro h
  have hpaths : ((commit [⟨"A", "first"⟩, ⟨"B", "second"⟩] "\x7bname\x7d/../X.cs"
      .filePerDeclaration).result {}).1 = .ok ["A/../X.cs", "B/../X.cs"] := by
    decide +kernel
  have hread := h _ _ _ _ _ _ (Prod.ext hpaths rfl) ⟨"A", "first"⟩ List.mem_cons_self
  exact absurd hread (by decide +kernel)

end Output

end EntityModel
