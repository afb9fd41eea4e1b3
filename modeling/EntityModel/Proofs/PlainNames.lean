import EntityModel.Proofs.FileNames

/-!
# Whether generated files have plain names

A commit refuses a name that could lead out of the directory of its pattern.  The names of
declarations are identifiers, so they are never refused.  The file of a whole schema is named as its
namespace, of which an accepted document only says that there is one, so this name can be refused.

* `map_name_files_singleFile`         the only file is named as the namespace
* `result_writeFiles_invalidName`     the first name that is not plain, as writing reports it
* `names_are_plain_iff`               which files of an accepted document have plain names
* `namespace_may_be_refused`          a document of which the file has none
-/

namespace EntityModel

open FilePath (isFileName)
open Generation (GeneratedFile generate plan Item)

/-! ### Refused names -/

namespace Output

variable {pattern : String} {layout : Layout}

/-- Names that are all plain are not refused for not being so. -/
private theorem not_firstRefused_invalidName {names : List String}
    (hnames : ∀ name ∈ names, isFileName name = true) (name : String) :
    ¬ FirstRefused pattern layout [] names (.invalidName name) := by
  rintro ⟨before, other, after, rfl, -, hrefused⟩
  cases hrefused with
  | invalidName hno => cases hno.symm.trans (hnames name (by simp))

/-- An only name is refused for not being plain exactly if it is not. -/
private theorem firstRefused_singleton_iff {only name : String} :
    FirstRefused pattern layout [] [only] (.invalidName name) ↔
      name = only ∧ isFileName only = false := by
  rw [firstRefused_cons_iff accepted_nil]
  constructor
  · rintro (hrefused | ⟨before, other, after, hsplit, -⟩)
    · cases hrefused with
      | invalidName hno => exact ⟨rfl, hno⟩
    · simp at hsplit
  · rintro ⟨rfl, hno⟩
    exact .inl (.invalidName hno)

end Output

namespace CommandLine

/-- Writing files fails for a name that is not plain exactly if it is the first one that is refused,
    whatever is in the tree. -/
theorem result_writeFiles_invalidName {settings : Settings} {files : List GeneratedFile}
    {t : FileTree} {name : String} :
    (∃ u, (writeFiles settings files).result t = (.error (.output (.invalidName name)), u)) ↔
      Output.FirstRefused settings.outputPattern settings.layout [] (files.map (·.name))
        (.invalidName name) := by
  unfold writeFiles
  simp only [Activity.result_mapError_eq_error_iff, Failure.output.injEq]
  constructor
  · rintro ⟨u, fault, hcommit, rfl⟩
    exact Output.destinations_eq_error_iff.mp
      (Output.result_commit_eq_error_iff.mp ⟨hcommit, nofun⟩).2
  · intro hrefused
    have hcommit := Output.result_commit_eq_error_iff (t := t).mpr
      ⟨rfl, Output.destinations_eq_error_iff.mpr hrefused⟩
    exact ⟨t, _, hcommit.1, rfl⟩

end CommandLine

/-! ### The names of generated files -/

namespace Generation

open CommandLine (writeFiles)

variable {settings : Settings} {s : Schema} {files : List GeneratedFile}

/-- The only file of a schema is named as its namespace. -/
theorem map_name_files_singleFile (hlayout : settings.layout = .singleFile)
    (h : (generate settings s).outcome = .ok files) : files.map (·.name) = [s.name] := by
  rw [outcome_generate, hlayout] at h
  obtain ⟨pieces, -, rfl⟩ := map_eq_ok_iff.mp h
  rfl

/-- With a file for each declaration of an accepted document the names are identifiers. -/
private theorem isFileName_of_filePerDeclaration (hs : s.WellFormed)
    (hlayout : settings.layout = .filePerDeclaration)
    (h : (generate settings s).outcome = .ok files) :
    ∀ name ∈ files.map (·.name), isFileName name = true := by
  rw [map_name_files hlayout h, List.forall_mem_map]
  exact fun item hitem => Output.isFileName_of_isIdentifier (isIdentifier_of_mem_plan hs hitem)

/-- The files of an accepted document have plain names, but for the file of a whole schema of which
    the namespace is no plain name.  Writing files fails for a name in that case and in no other, in
    every tree and for the name of the namespace. -/
theorem names_are_plain_iff {source : String} (hparse : Model.parse source = .ok s)
    (hfiles : (generate settings s).outcome = .ok files) :
    ((∀ file ∈ files, isFileName file.name = true) ↔
      settings.layout = .filePerDeclaration ∨ isFileName s.name = true) ∧
    ∀ t name,
      (∃ u, (writeFiles settings files).result t = (.error (.output (.invalidName name)), u)) ↔
        settings.layout = .singleFile ∧ name = s.name ∧ isFileName s.name = false := by
  simp only [CommandLine.result_writeFiles_invalidName]
  have hmap : (∀ file ∈ files, isFileName file.name = true) ↔
      ∀ name ∈ files.map (·.name), isFileName name = true := by
    rw [List.forall_mem_map]
  cases hlayout : settings.layout with
  | singleFile =>
    have hnames := map_name_files_singleFile hlayout hfiles
    rw [hmap, hnames]
    simp [Output.firstRefused_singleton_iff]
  | filePerDeclaration =>
    have hplain := isFileName_of_filePerDeclaration (wellFormed_of_parse hparse) hlayout hfiles
    refine ⟨⟨fun _ => .inl rfl, fun _ => hmap.mpr hplain⟩, fun t name => ?_⟩
    exact iff_of_false (Output.not_firstRefused_invalidName hplain name) nofun

/-- A schema with a namespace that leads into a directory. -/
def shopModelDocument : String :=
  String.ofList "<Schema Namespace='Shop/Model'><EntityType Name='Order'/></Schema>".toList

/-- The schema of the document. -/
def shopModelSchema : Schema := { name := "Shop/Model", entityTypes := [{ name := "Order" }] }

set_option maxRecDepth 4000 in
private theorem parse_shopModelDocument : Model.parse shopModelDocument = .ok shopModelSchema :=
  Model.parse_eq_ok_of_chars String.toList_ofList (by decide +kernel)

/-- The file of the schema cannot be written, while the files of its declarations can be. -/
theorem file_of_shopModel_is_refused :
    Model.parse shopModelDocument = .ok shopModelSchema ∧
    (∃ files, (generate {} shopModelSchema).outcome = .ok files ∧ ∀ t, ∃ u,
      (writeFiles {} files).result t = (.error (.output (.invalidName "Shop/Model")), u)) ∧
    ∃ files, (generate { layout := .filePerDeclaration } shopModelSchema).outcome = .ok files ∧
      ∀ file ∈ files, isFileName file.name = true := by
  obtain ⟨single, hsingle⟩ : ∃ files, (generate {} shopModelSchema).outcome = .ok files :=
    failure?_eq_none_iff.mp (by decide +kernel)
  obtain ⟨several, hseveral⟩ : ∃ files,
      (generate { layout := .filePerDeclaration } shopModelSchema).outcome = .ok files :=
    failure?_eq_none_iff.mp (by decide +kernel)
  refine ⟨parse_shopModelDocument, ⟨single, hsingle, fun t => ?_⟩, several, hseveral, ?_⟩
  · exact ((names_are_plain_iff parse_shopModelDocument hsingle).2 t _).mpr
      ⟨rfl, rfl, by decide⟩
  · exact (names_are_plain_iff parse_shopModelDocument hseveral).1.mpr (.inl rfl)

/-- Not every file that is generated for an accepted document has a plain name, and writing files of
    an accepted document can fail for a name. -/
theorem namespace_may_be_refused :
    ¬ (∀ source s settings files, Model.parse source = .ok s →
      (generate settings s).outcome = .ok files →
      (∀ file ∈ files, isFileName file.name = true) ∧
      ∀ t name u, (writeFiles settings files).result t ≠
        (.error (.output (.invalidName name)), u)) := by
  intro h
  obtain ⟨files, hgenerate⟩ : ∃ files, (generate {} shopModelSchema).outcome = .ok files :=
    failure?_eq_none_iff.mp (by decide +kernel)
  have hplain := (h _ _ _ _ parse_shopModelDocument hgenerate).1
  have hname : shopModelSchema.name ∈ files.map (·.name) := by
    rw [map_name_files_singleFile rfl hgenerate]
    exact List.mem_cons_self
  obtain ⟨file, hfile, hname⟩ := List.mem_map.mp hname
  exact absurd (hname ▸ hplain file hfile) (by decide)

end Generation

end EntityModel
