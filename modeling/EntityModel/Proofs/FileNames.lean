import EntityModel.Proofs.DeclarationOrder
import EntityModel.Proofs.NameChecks

/-!
# Names of generated files

A name that is an identifier is a plain file name.  Files with distinct names therefore never meet
at one path, and only the names of declarations decide whether the files of a schema can be committed
together.

* `destinations_duplicate_iff`   two paths are one exactly if two names are
* `commit_duplicate_iff`         when a commit fails for that
* `duplicate_iff_container_named_as_type`   what it means for the declarations of a document
* `container_may_be_named_as_type`          declarations of one name that are accepted
-/

namespace EntityModel

open Generation (GeneratedFile)
open FilePath (isComponent isFileName)

namespace Output

/-! ### Names that are identifiers -/

/-- An identifier is the name of a file. -/
theorem isFileName_of_isIdentifier {name : String} (h : Text.isIdentifier name = true) :
    isFileName name = true := by
  -- slashes and dots do not continue a name
  have hslash := Text.not_mem_of_isIdentifier h (c := '/') (Text.continuesName_of_separator (by simp))
  have hbackslash := Text.not_mem_of_isIdentifier h (c := '\\')
    (Text.continuesName_of_separator (by simp))
  have hdot := Text.not_mem_of_isIdentifier h (c := '.') (Text.continuesName_of_separator (by simp))
  have hempty : name ≠ "" := by
    rintro rfl
    exact absurd h (by decide)
  have hdots : name ≠ "." ∧ name ≠ ".." := by
    constructor <;> rintro rfl <;> exact hdot (by decide)
  simp [isFileName, isComponent, hslash, hbackslash, hempty, hdots.1, hdots.2]

/-- With a file for each declaration, identifiers go through exactly if they are distinct. -/
private theorem accepted_iff_nodup (pattern : String) {names : List String}
    (hnames : ∀ name ∈ names, Text.isIdentifier name = true) :
    Accepted pattern .filePerDeclaration names ↔ names.Nodup := by
  -- with a file for each declaration two names clash only if they are the same
  have hclashes : ∀ a b, Clashes pattern .filePerDeclaration a b ↔ a = b := by
    simp [Clashes]
  constructor
  · exact fun h => h.apart.imp fun hapart => mt (hclashes _ _).mpr hapart
  · exact fun h => ⟨fun name hname => isFileName_of_isIdentifier (hnames name hname),
      h.imp fun hne => mt (hclashes _ _).mp hne⟩

/-- Two paths are one exactly if two names are, whatever the pattern. -/
theorem destinations_duplicate_iff (pattern : String) {names : List String}
    (hnames : ∀ name ∈ names, Text.isIdentifier name = true) :
    (∃ path first second, destinations pattern .filePerDeclaration names =
        .error (.duplicatePath path first second)) ↔ ¬ names.Nodup := by
  rw [← accepted_iff_nodup pattern hnames]
  constructor
  · rintro ⟨path, first, second, h⟩ haccepted
    cases h.symm.trans (destinations_eq_ok_iff.mpr ⟨haccepted, rfl⟩)
  -- the refusal of a path is no acceptance, and an identifier is refused for nothing else
  · intro hrefused
    cases h : destinations pattern .filePerDeclaration names with
    | ok paths => exact absurd (destinations_eq_ok_iff.mp h).1 hrefused
    | error fault =>
      obtain ⟨before, name, after, rfl, -, hname⟩ := destinations_eq_error_iff.mp h
      cases hname with
      | invalidName hno =>
        have hplain := isFileName_of_isIdentifier (hnames name (by simp))
        cases hno.symm.trans hplain
      | duplicatePath => exact ⟨_, _, _, rfl⟩

/-! ### Commits -/

/-- A commit of files named by identifiers fails for a path that two of them share exactly if two of
    their names are the same. -/
theorem commit_duplicate_iff {files : List GeneratedFile} {pattern : String} {t : FileTree}
    (hnames : ∀ file ∈ files, Text.isIdentifier file.name = true) :
    (∃ path first second u, (commit files pattern .filePerDeclaration).result t =
        (.error (.duplicatePath path first second), u)) ↔ ¬ (files.map (·.name)).Nodup := by
  -- before anything is written, a commit fails as its paths do
  rw [← destinations_duplicate_iff pattern (by simpa using hnames)]
  constructor
  · rintro ⟨path, first, second, u, h⟩
    exact ⟨path, first, second, (result_commit_eq_error_iff.mp ⟨h, by simp⟩).2⟩
  · rintro ⟨path, first, second, h⟩
    exact ⟨path, first, second, t, (result_commit_eq_error_iff.mpr ⟨rfl, h⟩).1⟩

end Output

/-! ### Declarations -/

/-- The names of all types. -/
def Schema.namesOfTypes (s : Schema) : List String :=
  s.entityNames ++ s.complexTypes.map (·.name) ++ s.enumTypes.map (·.name)

namespace Generation

open Output (commit)

variable {s : Schema}

/-- The names of what is generated are those of the types and of the containers. -/
private theorem perm_map_name_plan (s : Schema) :
    ((plan s).map Item.name).Perm (s.namesOfTypes ++ s.entityContainers.map (·.name)) := by
  have hnames : (plan s).map Item.name =
      s.enumTypes.map (·.name) ++ s.complexTypes.map (·.name) ++
        s.entityContainers.map (·.name) ++ s.entityNames := map_plan Item.name s
  -- the kinds stand in different orders
  rw [hnames, Schema.namesOfTypes, List.perm_iff_count]
  intro name
  simp only [List.count_append]
  omega

/-- Containers and types are checked apart, so what is generated has distinct names exactly if no
    container is named as a type. -/
theorem nodup_map_name_plan_iff (hs : s.WellFormed) :
    ((plan s).map Item.name).Nodup ↔ ¬ ∃ c ∈ s.entityContainers, c.name ∈ s.namesOfTypes := by
  rw [(perm_map_name_plan s).nodup_iff, List.nodup_append]
  simp only [List.forall_mem_map]
  -- the names of types are distinct, and so are those of containers
  constructor
  · rintro ⟨-, -, hdistinct⟩ ⟨c, hc, hname⟩
    exact hdistinct _ hname c hc rfl
  · intro hnone
    exact ⟨hs.typeNames, hs.containerNames, fun name hname c hc heq => hnone ⟨c, hc, heq ▸ hname⟩⟩

/-- What is generated is named by identifiers. -/
theorem isIdentifier_of_mem_plan (hs : s.WellFormed) {item : Item} (h : item ∈ plan s) :
    Text.isIdentifier item.name = true := by
  refine hs.identifiers _ ?_
  simp only [Schema.declaredNames, List.mem_append, List.mem_flatMap]
  have hitem := mem_plan_iff.mp h
  cases item with
  | enumType t => exact .inl (.inl (.inl (.inl ⟨t, hitem, List.mem_cons_self⟩)))
  | complexType t => exact .inl (.inl (.inl (.inr ⟨t, hitem, List.mem_cons_self⟩)))
  | entityType t => exact .inl (.inl (.inr ⟨t, hitem, List.mem_cons_self⟩))
  | entityContainer c => exact .inr ⟨c, hitem, List.mem_cons_self⟩

/-- The declarations of an accepted document have distinct names unless an entity container is named
    as a type.  With a file for each declaration the files are named as the declarations are, and
    committing them fails for a path of two files in that case and in no other, whatever the
    pattern. -/
theorem duplicate_iff_container_named_as_type {source : String}
    (hparse : Model.parse source = .ok s) :
    (((plan s).map Item.name).Nodup ↔ ¬ ∃ c ∈ s.entityContainers, c.name ∈ s.namesOfTypes) ∧
    ∀ settings files, settings.layout = .filePerDeclaration →
      (generate settings s).outcome = .ok files →
      files.map (·.name) = (plan s).map Item.name ∧
      ∀ pattern t, (∃ path first second u, (commit files pattern .filePerDeclaration).result t =
          (.error (.duplicatePath path first second), u)) ↔
        ∃ c ∈ s.entityContainers, c.name ∈ s.namesOfTypes := by
  have hs := wellFormed_of_parse hparse
  refine ⟨nodup_map_name_plan_iff hs, fun settings files hlayout hfiles => ?_⟩
  have hnames := map_name_files hlayout hfiles
  refine ⟨hnames, fun pattern t => ?_⟩
  -- every file is named as a declaration is
  have hidentifiers : ∀ file ∈ files, Text.isIdentifier file.name = true := by
    intro file hfile
    have hmem : file.name ∈ (plan s).map Item.name := hnames ▸ List.mem_map_of_mem hfile
    obtain ⟨item, hitem, hname⟩ := List.mem_map.mp hmem
    rw [← hname]
    exact isIdentifier_of_mem_plan hs hitem
  rw [Output.commit_duplicate_iff hidentifiers, hnames, nodup_map_name_plan_iff hs, not_not]

/-- A type and a container of one name. -/
def shopDocument : String :=
  String.ofList ("<Schema Namespace='N'><EntityType Name='Shop'/>".toList ++
    "<EntityContainer Name='Shop'/></Schema>".toList)

/-- The schema of the document. -/
def shopSchema : Schema :=
  { name := "N", entityTypes := [{ name := "Shop" }], entityContainers := [{ name := "Shop" }] }

set_option maxRecDepth 4000 in
private theorem parse_shopDocument : Model.parse shopDocument = .ok shopSchema :=
  Model.parse_eq_ok_of_chars String.toList_ofList (by decide +kernel)

/-- The files of a type and a container of one name cannot be committed together. -/
theorem files_of_shop_share_a_path :
    Model.parse shopDocument = .ok shopSchema ∧ ¬ ((plan shopSchema).map Item.name).Nodup ∧
    ∃ files, (generate { layout := .filePerDeclaration } shopSchema).outcome = .ok files ∧
      files.map (·.name) = ["Shop", "Shop"] ∧
      ∀ pattern t, ∃ path first second u, (commit files pattern .filePerDeclaration).result t =
        (.error (.duplicatePath path first second), u) := by
  -- the container is named as the type is
  have hcontainer : ∃ c ∈ shopSchema.entityContainers, c.name ∈ shopSchema.namesOfTypes :=
    ⟨_, List.mem_cons_self, List.mem_cons_self⟩
  obtain ⟨hnodup, hfiles⟩ := duplicate_iff_container_named_as_type parse_shopDocument
  obtain ⟨files, hgenerate⟩ : ∃ files,
      (generate { layout := .filePerDeclaration } shopSchema).outcome = .ok files :=
    failure?_eq_none_iff.mp (by decide +kernel)
  obtain ⟨hnames, hcommit⟩ := hfiles { layout := .filePerDeclaration } files rfl hgenerate
  exact ⟨parse_shopDocument, mt hnodup.mp (not_not.mpr hcontainer), files, hgenerate, hnames,
    fun pattern t => (hcommit pattern t).mpr hcontainer⟩

/-- An accepted document can declare a container named as a type, so names of declarations are not
    distinct, and a commit of the files that are generated for it can fail for a path of two. -/
theorem container_may_be_named_as_type :
    ¬ (∀ source s, Model.parse source = .ok s → ((plan s).map Item.name).Nodup) ∧
    ¬ (∀ source s settings files, Model.parse source = .ok s →
      settings.layout = .filePerDeclaration → (generate settings s).outcome = .ok files →
      (files.map (·.name)).Nodup ∧
      ∀ pattern t path first second u, (commit files pattern .filePerDeclaration).result t ≠
        (.error (.duplicatePath path first second), u)) := by
  have hnodup : ¬ ((plan shopSchema).map Item.name).Nodup := by decide +kernel
  refine ⟨fun h => hnodup (h _ _ parse_shopDocument), fun h => ?_⟩
  obtain ⟨files, hgenerate⟩ : ∃ files,
      (generate { layout := .filePerDeclaration } shopSchema).outcome = .ok files :=
    failure?_eq_none_iff.mp (by decide +kernel)
  have hnames := map_name_files rfl hgenerate
  exact hnodup (hnames ▸ (h _ _ _ _ parse_shopDocument rfl hgenerate).1)

end Generation

end EntityModel
