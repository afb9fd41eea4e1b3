import EntityModel.Generation.File
import EntityModel.Proofs.InverseNavigation
import EntityModel.Proofs.WellFormed

/-!
# The order of declarations

What is generated for a declaration depends on the rest of the schema only through look-ups by name.
Where names are distinct a look-up finds the same declaration in whichever order they stand, so two
schemas that differ in the order of their declarations give each of them the same body, and in the
layout with a file for each declaration the same file.

* `SameLookups.body_eq`              bodies depend on look-ups alone
* `Reordered.sameLookups`            reordered declarations are looked up alike
* `outcome_filePerDeclaration`       the files are those of the declarations one by one
* `forDeclarations`                  the declarations of a schema in the order of generation
* `reordered_files`                  reordered declarations have the same files, reordered
-/

namespace EntityModel

/-- Where keys are distinct, the order of a list does not matter to what is found under a key. -/
theorem find?_eq_of_perm {α : Type} {key : α → String} {as bs : List α} (hp : bs.Perm as)
    (hn : (as.map key).Nodup) (k : String) :
    (bs.find? fun b => key b == k) = as.find? fun a => key a == k := by
  have hn' : (bs.map key).Nodup := (hp.map key).nodup_iff.mpr hn
  -- both lists have the same elements, and at most one of them has the key
  refine Option.ext fun a => ?_
  rw [find?_key_eq_some_iff hn, find?_key_eq_some_iff hn', hp.mem_iff]

/-! ### Look-ups -/

namespace Schema

/-- References lead to the same declarations in both schemas, which have the same containers. -/
structure SameLookups (s' s : Schema) : Prop where
  name : s'.name = s.name
  localName : s'.localName = s.localName
  findType? : s'.findType? = s.findType?
  findAssociation? : s'.findAssociation? = s.findAssociation?
  entityContainers : s'.entityContainers = s.entityContainers

/-- The schemas differ at most in the order of their types and associations. -/
structure Reordered (s' s : Schema) : Prop where
  name : s'.name = s.name
  aliasName : s'.aliasName = s.aliasName
  enumTypes : s'.enumTypes.Perm s.enumTypes
  complexTypes : s'.complexTypes.Perm s.complexTypes
  entityTypes : s'.entityTypes.Perm s.entityTypes
  associations : s'.associations.Perm s.associations
  entityContainers : s'.entityContainers = s.entityContainers

/-- Declarations with distinct names are looked up alike in any order. -/
theorem Reordered.sameLookups {s s' : Schema} (h : s'.Reordered s) (hs : s.WellFormed) :
    s'.SameLookups s where
  name := h.name
  localName := by
    funext name
    unfold Schema.localName qualifiers
    rw [h.name, h.aliasName]
  findType? := by
    funext name
    have hnames := hs.typeNames
    -- the kinds of types are looked up one after the other, each in its own list
    unfold Schema.findType?
    rw [find?_eq_of_perm h.entityTypes hnames.of_append_left.of_append_left,
      find?_eq_of_perm h.complexTypes hnames.of_append_left.of_append_right,
      find?_eq_of_perm h.enumTypes hnames.of_append_right]
  findAssociation? := by
    funext name
    exact find?_eq_of_perm h.associations hs.associationNames name
  entityContainers := h.entityContainers

end Schema

/-! ### Bodies -/

open Generation

namespace Schema.SameLookups

variable {s s' : Schema}

/-- The same entity type is found. -/
private theorem resolveEntityType_eq (h : s'.SameLookups s) :
    s'.resolveEntityType = s.resolveEntityType := by
  funext name owner
  unfold resolveEntityType
  rw [h.localName, h.findType?]

/-- Types of scalar properties are mapped alike. -/
private theorem mapType_eq (h : s'.SameLookups s) : CSharp.mapType s' = CSharp.mapType s := by
  funext name owner
  unfold CSharp.mapType resolveType
  rw [h.localName, h.findType?]

/-- The way back is the same. -/
private theorem inverseNavigation_eq (h : s'.SameLookups s) :
    s'.inverseNavigation = s.inverseNavigation := by
  funext a role
  unfold inverseNavigation follows
  rw [h.localName, h.resolveEntityType_eq]

/-- A navigation property leads to the same target. -/
private theorem resolveNavigation_eq (h : s'.SameLookups s) :
    resolveNavigation s' = resolveNavigation s := by
  funext owner n
  unfold resolveNavigation resolveAssociation
  rw [h.localName, h.findAssociation?, h.resolveEntityType_eq, h.inverseNavigation_eq]

/-- The steps of a scalar property are the same. -/
private theorem propertySteps_eq (h : s'.SameLookups s) : propertySteps s' = propertySteps s := by
  funext owner isKey p
  unfold propertySteps
  rw [h.mapType_eq]

/-- The steps of a navigation property are the same. -/
private theorem navigationSteps_eq (h : s'.SameLookups s) :
    navigationSteps s' = navigationSteps s := by
  funext collection lazyLoading owner n
  unfold navigationSteps
  rw [h.resolveNavigation_eq]

/-- The body of a declaration depends on the rest of the schema through look-ups alone. -/
theorem body_eq (h : s'.SameLookups s) (settings : Settings) (item : Item) :
    body settings s' item = body settings s item := by
  -- one case for each kind of declaration, with the look-ups that it makes
  cases item with
  | enumType t => rfl
  | complexType t =>
    show complexSteps settings s' t = complexSteps settings s t
    unfold complexSteps
    rw [h.propertySteps_eq]
  | entityContainer c =>
    show containerSteps settings s' c = containerSteps settings s c
    unfold containerSteps containerMembers
    rw [h.resolveEntityType_eq]
  | entityType t =>
    show entitySteps settings s' t = entitySteps settings s t
    unfold entitySteps resolveBase loadsLazily
    rw [h.resolveEntityType_eq, h.propertySteps_eq, h.navigationSteps_eq, h.entityContainers]

end Schema.SameLookups

namespace Generation

/-! ### A file for each declaration -/

variable {settings : Settings} {s s' : Schema}

/-- The file that a declaration has to itself, or the reference for which there is none. -/
def fileOf (settings : Settings) (s : Schema) (item : Item) :
    Except UnresolvedReference GeneratedFile :=
  (body settings s item).outcome.map fun steps =>
    ⟨item.name, fileText s.name item.imports [steps]⟩

/-- In the layout with a file for each declaration, generation makes these files one by one. -/
theorem outcome_filePerDeclaration (h : settings.layout = .filePerDeclaration) :
    (generate settings s).outcome = (plan s).mapM (fileOf settings s) := by
  rw [outcome_generate, h]
  show Except.map (List.map _) (List.mapM _ _) = _
  -- both sides make the pieces one by one, and a file of each
  rw [map_mapM]
  congr 1
  funext item
  rw [outcome_piece]
  unfold fileOf
  cases (body settings s item).outcome <;> rfl

/-- The file of a declaration bears its name. -/
private theorem name_fileOf {item : Item} {file : GeneratedFile}
    (h : fileOf settings s item = .ok file) : file.name = item.name := by
  obtain ⟨steps, -, rfl⟩ := map_eq_ok_iff.mp h
  rfl

/-- Each file bears the name of its declaration. -/
theorem map_name_files {files : List GeneratedFile}
    (hlayout : settings.layout = .filePerDeclaration)
    (h : (generate settings s).outcome = .ok files) :
    files.map (·.name) = (plan s).map Item.name := by
  rw [outcome_filePerDeclaration hlayout] at h
  have hnames : List.Forall₂ (· = ·) (files.map (·.name)) ((plan s).map Item.name) := by
    rw [List.forall₂_map_left_iff, List.forall₂_map_right_iff]
    exact (mapM_eq_ok_iff.mp h).flip.imp fun _ _ hfile => name_fileOf hfile
  rwa [List.forall₂_eq_eq_eq] at hnames

/-- Every declaration has the same file in both schemas. -/
private theorem fileOf_eq (h : s'.SameLookups s) (item : Item) :
    fileOf settings s' item = fileOf settings s item := by
  unfold fileOf
  rw [h.body_eq, h.name]

/-- The plan of reordered declarations is the plan, reordered. -/
private theorem perm_plan (h : s'.Reordered s) : (plan s').Perm (plan s) := by
  unfold plan
  rw [h.entityContainers]
  exact (((h.enumTypes.map _).append (h.complexTypes.map _)).append (.refl _)).append
    (h.entityTypes.map _)

/-- What a function gives for the declarations of a schema: for its enum types first, then for its
    complex types, its entity containers and its entity types, each kind in order. -/
def forDeclarations {α : Type} (f : Item → α) (s : Schema) : List α :=
  s.enumTypes.map (fun t => f (.enumType t)) ++ s.complexTypes.map (fun t => f (.complexType t)) ++
    s.entityContainers.map (fun c => f (.entityContainer c)) ++
    s.entityTypes.map (fun t => f (.entityType t))

/-- What is generated are the declarations of the schema in this order. -/
theorem map_plan {α : Type} (f : Item → α) (s : Schema) :
    (plan s).map f = forDeclarations f s := by
  simp [plan, forDeclarations, Function.comp_def]

/-- The order in which a document declares its types and associations does not matter to their
    files: where they stand in another order, generation succeeds exactly if it did before, and each
    declaration has the same file. -/
theorem reordered_files {source : String} (hparse : Model.parse source = .ok s)
    (hs' : s'.Reordered s) (hlayout : settings.layout = .filePerDeclaration) :
    ((∃ files, (generate settings s').outcome = .ok files) ↔
      ∃ files, (generate settings s).outcome = .ok files) ∧
    ∀ files, (generate settings s).outcome = .ok files →
      ∃ file : Item → GeneratedFile, files = forDeclarations file s ∧
        (generate settings s').outcome = .ok (forDeclarations file s') ∧
        (forDeclarations file s').Perm files ∧ ∀ item, (file item).name = item.name := by
  -- accepted schemas have distinct names, so their look-ups are the same
  have hsame := hs'.sameLookups (wellFormed_of_parse hparse)
  have hfile : fileOf settings s' = fileOf settings s := funext (fileOf_eq hsame)
  have hplan := perm_plan hs'
  rw [outcome_filePerDeclaration hlayout, outcome_filePerDeclaration hlayout, hfile]
  -- generation succeeds if every declaration has a file, in whichever order
  have hsucceeds : ∀ items : List Item, (∃ files, items.mapM (fileOf settings s) = .ok files) ↔
      ∀ item ∈ items, ∃ file, fileOf settings s item = .ok file := by
    intro items
    rw [← failure?_eq_none_iff, failure?_mapM, List.findSome?_eq_none_iff]
    exact forall₂_congr fun item _ => failure?_eq_none_iff
  refine ⟨?_, fun files hfiles => ?_⟩
  · rw [hsucceeds, hsucceeds]
    exact forall_congr' fun item => by rw [hplan.mem_iff]
  · -- a declaration of neither schema may as well have an empty file
    have htotal : ∀ item, ∃ file : GeneratedFile, file.name = item.name ∧
        ((∃ f, fileOf settings s item = .ok f) → fileOf settings s item = .ok file) := by
      intro item
      cases h : fileOf settings s item with
      | ok file => exact ⟨file, name_fileOf h, fun _ => rfl⟩
      | error u => exact ⟨⟨item.name, ""⟩, rfl, fun ⟨f, hf⟩ => nomatch hf⟩
    choose file hname hchoice using htotal
    have hall := (hsucceeds (plan s)).mp ⟨files, hfiles⟩
    have hmap : (plan s).mapM (fileOf settings s) = .ok ((plan s).map file) :=
      mapM_eq_ok_map fun item hitem => hchoice item (hall item hitem)
    obtain rfl : files = (plan s).map file := Except.ok.inj (hfiles.symm.trans hmap)
    have hmap' : (plan s').mapM (fileOf settings s) = .ok ((plan s').map file) :=
      mapM_eq_ok_map fun item hitem => hchoice item (hall item (hplan.mem_iff.mp hitem))
    refine ⟨file, map_plan file s, ?_, ?_, hname⟩
    · rw [hmap', map_plan]
    · rw [← map_plan]
      exact hplan.map file

/-- Two types that lead to each other have the same files in either order. -/
theorem two_types_have_same_files_in_either_order :
    ∃ file : Item → GeneratedFile,
      Schema.Reordered { ordersSchema with entityTypes := [customerType, orderType] }
        ordersSchema ∧
      (generate { layout := .filePerDeclaration } ordersSchema).outcome =
        .ok [file (.entityType orderType), file (.entityType customerType)] ∧
      (generate { layout := .filePerDeclaration }
          { ordersSchema with entityTypes := [customerType, orderType] }).outcome =
        .ok [file (.entityType customerType), file (.entityType orderType)] := by
  have hreordered : Schema.Reordered
      { ordersSchema with entityTypes := [customerType, orderType] } ordersSchema :=
    ⟨rfl, rfl, .refl _, .refl _, .swap orderType customerType [], .refl _, rfl⟩
  obtain ⟨files, hfiles⟩ : ∃ files,
      (generate { layout := .filePerDeclaration } ordersSchema).outcome = .ok files :=
    failure?_eq_none_iff.mp (by decide +kernel)
  obtain ⟨file, rfl, hfiles', -, -⟩ :=
    (reordered_files parse_ordersDocument hreordered rfl).2 files hfiles
  exact ⟨file, hreordered, hfiles, hfiles'⟩

end Generation

end EntityModel
