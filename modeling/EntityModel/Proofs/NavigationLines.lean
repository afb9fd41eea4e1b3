import EntityModel.Proofs.FirstFailure
import EntityModel.Proofs.Indentation
import EntityModel.Generation.File

/-!
# What collection type and lazy loading decide

The collection that leads to many entities and loading on demand are settings of their own: they
decide nothing but the words `virtual` and the collection in the lines of navigation properties.
So one template serves all choices of the two: a list of files whose lines are fixed, but for those
of navigation properties, which leave out just these words.

* `outcome_body_fill`               bodies are filled from one template
* `lines_fill`                      so are the lines that their steps write
* `settings_fill_navigation_lines`  so are all files, of which the template does not change
-/

namespace EntityModel.Generation

open CSharp (Step Line)

/-! ### Lines of navigation properties -/

/-- The line of a navigation property without the words that the two settings decide. -/
structure NavigationText where
  opening : String
  leadsToMany : Bool
  typeName : String
  closing : String
deriving DecidableEq, Repr

/-- The line with a collection where it leads to many, and virtual or not. -/
def NavigationText.fill (collection : CollectionType) (isVirtual : Bool) (x : NavigationText) :
    String :=
  x.opening ++ (if isVirtual then "virtual " else "") ++
    (if x.leadsToMany then collection.wrap x.typeName else x.typeName) ++ x.closing

/-- What is fixed in the line of a navigation property. -/
def navigationText (target : NavigationTarget) (n : NavigationProperty) : NavigationText where
  opening := CSharp.accessKeyword (n.getter.widest n.setter) ++ " "
  leadsToMany := target.multiplicity == .many
  typeName := target.typeName
  closing :=
    " " ++ n.name ++ " \x7b " ++ CSharp.accessorText (n.getter.widest n.setter) n.getter "get" ++
      " " ++ CSharp.accessorText (n.getter.widest n.setter) n.setter "set" ++ " \x7d"

/-- The line of a navigation property is filled from what is fixed in it. -/
private theorem text_navigationLine (collection : CollectionType) (isVirtual : Bool)
    (target : NavigationTarget) (n : NavigationProperty) :
    (navigationLine collection isVirtual target n).text =
      (navigationText target n).fill collection isVirtual := by
  have htype : navigationTypeName collection target =
      if target.multiplicity == .many then collection.wrap target.typeName
      else target.typeName := by
    simp [navigationTypeName]
  have hvirtual : CSharp.Definition.text (if isVirtual then .virtual else .sealed) =
      if isVirtual then "virtual " else "" := by
    cases isVirtual <;> rfl
  -- both sides are the same words with brackets at other places
  simp only [CSharp.AutoProperty.text, CSharp.AutoProperty.access, navigationLine, htype, hvirtual,
    NavigationText.fill, navigationText, String.append_assoc, String.append_empty]

/-! ### Steps -/

/-- A step that is fixed, or the line of a navigation property. -/
inductive TemplateStep where
  | fixed (step : Step)
  | navigation (target : NavigationTarget) (n : NavigationProperty)

namespace TemplateStep

/-- The step under a choice of the two settings. -/
def fill (collection : CollectionType) (isVirtual : Bool) : TemplateStep → Step
  | fixed step => step
  | navigation target n => .property (navigationLine collection isVirtual target n)

/-- The line of a navigation property. -/
def navigation? : TemplateStep → Option NavigationText
  | fixed _ => none
  | navigation target n => some (navigationText target n)

end TemplateStep

/-- The steps under a choice of the two settings. -/
def fillSteps (collection : CollectionType) (isVirtual : Bool) (steps : List TemplateStep) :
    List Step :=
  steps.map (TemplateStep.fill collection isVirtual)

/-- The lines of navigation properties among some steps. -/
def navigationTexts (steps : List TemplateStep) : List NavigationText :=
  steps.filterMap TemplateStep.navigation?

/-- Steps that are fixed. -/
def fixedSteps (steps : List Step) : List TemplateStep := steps.map .fixed

section

variable (collection : CollectionType) (isVirtual : Bool)

/-- Steps one behind the other are filled one behind the other. -/
@[simp] theorem fillSteps_append (ss ts : List TemplateStep) :
    fillSteps collection isVirtual (ss ++ ts) =
      fillSteps collection isVirtual ss ++ fillSteps collection isVirtual ts :=
  List.map_append

/-- The first step is filled by itself. -/
@[simp] theorem fillSteps_cons (t : TemplateStep) (ts : List TemplateStep) :
    fillSteps collection isVirtual (t :: ts) =
      t.fill collection isVirtual :: fillSteps collection isVirtual ts := rfl

/-- Without steps there is nothing to fill. -/
@[simp] theorem fillSteps_nil : fillSteps collection isVirtual [] = [] := rfl

/-- Fixed steps stay as they are. -/
@[simp] theorem fillSteps_fixedSteps (steps : List Step) :
    fillSteps collection isVirtual (fixedSteps steps) = steps := by
  unfold fillSteps fixedSteps
  rw [List.map_map]
  exact List.map_id steps

/-- Steps one behind the other leave the lines of both open. -/
@[simp] theorem navigationTexts_append (ss ts : List TemplateStep) :
    navigationTexts (ss ++ ts) = navigationTexts ss ++ navigationTexts ts :=
  List.filterMap_append

/-- The first step leaves its own line open, if it has one. -/
@[simp] theorem navigationTexts_cons (t : TemplateStep) (ts : List TemplateStep) :
    navigationTexts (t :: ts) = t.navigation?.toList ++ navigationTexts ts := by
  unfold navigationTexts
  rw [List.filterMap_cons]
  cases t.navigation? <;> rfl

/-- Without steps no line is left open. -/
@[simp] theorem navigationTexts_nil : navigationTexts [] = [] := rfl

/-- Fixed steps leave no line open. -/
@[simp] theorem navigationTexts_fixedSteps (steps : List Step) :
    navigationTexts (fixedSteps steps) = [] := by
  unfold navigationTexts fixedSteps
  rw [List.filterMap_map]
  exact List.filterMap_none steps

/-! ### Bodies -/

/-- The members of a type with a blank line between each two. -/
def separateTemplate : List (List TemplateStep) → List TemplateStep
  | [] => []
  | [m] => m
  | m :: ms => m ++ .fixed .blankLine :: separateTemplate ms

/-- A type with its members. -/
def typeTemplate (m : Metadata) (header : CSharp.TypeHeader)
    (members : List (List TemplateStep)) : List TemplateStep :=
  fixedSteps (documentationSteps m) ++ .fixed (.openType header) :: separateTemplate members ++
    [.fixed .close]

/-- A navigation property. -/
def navigationTemplate (n : NavigationProperty) (target : NavigationTarget) : List TemplateStep :=
  fixedSteps (documentationSteps n.toMetadata ++ navigationAttributes target n) ++
    [.navigation target n]

/-- An entity type. -/
def entityTemplate (s : Schema) (t : EntityType) :
    Except UnresolvedReference (List TemplateStep) := do
  let base ← resolveBase s t
  let properties ← t.properties.mapM fun p =>
    (propertySteps s t.name (t.keyContains p.name) p).outcome
  let navigations ← t.navigationProperties.mapM fun n =>
    (resolveNavigation s t.name n).map (navigationTemplate n)
  .ok (typeTemplate t.toMetadata (entityHeader t base) (properties.map fixedSteps ++ navigations))

/-- The body of a planned declaration; only those of entity types have navigation properties. -/
def bodyTemplate (settings : Settings) (s : Schema) :
    Item → Except UnresolvedReference (List TemplateStep)
  | .entityType t => entityTemplate s t
  | item => (body settings s item).outcome.map fixedSteps

/-- Separating members and filling them can be done in either order. -/
private theorem separate_fill (members : List (List TemplateStep)) :
    separate (members.map (fillSteps collection isVirtual)) =
      fillSteps collection isVirtual (separateTemplate members) := by
  induction members using separateTemplate.induct with
  | case1 => rfl
  | case2 m => rfl
  | case3 m rest hrest ih =>
    -- there is a further member, so both sides put a blank line here
    obtain ⟨m', rest', rfl⟩ := List.exists_cons_of_ne_nil hrest
    rw [separateTemplate, fillSteps_append, fillSteps_cons, ← ih]
    · rfl
    · exact hrest

/-- The blank lines between members leave nothing open. -/
private theorem navigationTexts_separateTemplate (members : List (List TemplateStep)) :
    navigationTexts (separateTemplate members) = members.flatMap navigationTexts := by
  induction members using separateTemplate.induct with
  | case1 => rfl
  | case2 m => simp [separateTemplate]
  | case3 m rest hrest ih =>
    rw [separateTemplate, navigationTexts_append, List.flatMap_cons, ← ih]
    · rfl
    · exact hrest

/-- A type is filled member by member. -/
private theorem typeSteps_fill (m : Metadata) (header : CSharp.TypeHeader)
    (members : List (List TemplateStep)) :
    typeSteps m header (members.map (fillSteps collection isVirtual)) =
      fillSteps collection isVirtual (typeTemplate m header members) := by
  unfold typeSteps typeTemplate
  rw [separate_fill]
  simp [TemplateStep.fill]

/-- A type leaves open what its members leave open. -/
private theorem navigationTexts_typeTemplate (m : Metadata) (header : CSharp.TypeHeader)
    (members : List (List TemplateStep)) :
    navigationTexts (typeTemplate m header members) = members.flatMap navigationTexts := by
  rw [← navigationTexts_separateTemplate]
  simp [typeTemplate, TemplateStep.navigation?]

/-- A navigation property is written by its template. -/
private theorem outcome_navigationSteps_fill (s : Schema) (owner : String)
    (n : NavigationProperty) : (navigationSteps s collection isVirtual owner n).outcome =
      ((resolveNavigation s owner n).map (navigationTemplate n)).map
        (fillSteps collection isVirtual) := by
  rw [outcome_navigationSteps]
  cases resolveNavigation s owner n with
  | error u => rfl
  | ok target =>
    -- comment and attributes are fixed, so only the last step is left to compare
    refine congrArg Except.ok ?_
    simp [navigationTemplate, TemplateStep.fill]

/-- An entity type is written by its template. -/
private theorem outcome_entitySteps_fill (settings : Settings) (s : Schema) (t : EntityType) :
    (entitySteps settings s t).outcome =
      (entityTemplate s t).map (fillSteps settings.collectionType (loadsLazily settings s)) := by
  rw [outcome_entitySteps]
  -- the same lists of members on both sides, which fail for the same reason
  simp only [outcome_navigationSteps_fill, ← map_mapM]
  unfold entityTemplate
  cases resolveBase s t with
  | error u => rfl
  | ok base =>
    cases t.properties.mapM fun p =>
        (propertySteps s t.name (t.keyContains p.name) p).outcome with
    | error u => rfl
    | ok properties =>
      cases t.navigationProperties.mapM fun n =>
          (resolveNavigation s t.name n).map (navigationTemplate n) with
      | error u => rfl
      -- nothing has failed, so all that is left is to fill the members
      | ok navigations =>
        refine congrArg Except.ok ?_
        rw [← typeSteps_fill, List.map_append, List.map_map]
        simp [Function.comp_def]

/-- Bodies are filled from one template. -/
theorem outcome_body_fill (settings : Settings) (s : Schema) (item : Item) :
    (body settings s item).outcome =
      (bodyTemplate settings s item).map
        (fillSteps settings.collectionType (loadsLazily settings s)) := by
  -- the body of any other declaration is fixed as a whole
  have hfixed : ∀ x : Except UnresolvedReference (List Step),
      x = (x.map fixedSteps).map
        (fillSteps settings.collectionType (loadsLazily settings s)) := by
    intro x
    cases x with
    | error u => rfl
    | ok steps => exact congrArg Except.ok (fillSteps_fixedSteps _ _ steps).symm
  cases item with
  | enumType t => exact hfixed _
  | complexType t => exact hfixed _
  | entityContainer c => exact hfixed _
  | entityType t => exact outcome_entitySteps_fill settings s t

/-- The template of a body does not depend on the two settings. -/
private theorem bodyTemplate_settings (settings : Settings) (lazyLoading : Option Bool) (s : Schema)
    (item : Item) :
    bodyTemplate { settings with collectionType := collection, lazyLoading := lazyLoading } s
        item =
      bodyTemplate settings s item := by
  cases item <;> rfl

/-! ### The navigation properties of a body -/

/-- The navigation properties that a declaration has, each with its owner. -/
def Item.navigationProperties : Item → List (EntityType × NavigationProperty)
  | .entityType t => t.navigationProperties.map fun n => (t, n)
  | _ => []

/-- The line is that of the navigation property, once that is resolved. -/
def IsLineOf (s : Schema) (p : EntityType × NavigationProperty) (x : NavigationText) : Prop :=
  ∃ target, resolveNavigation s p.1.name p.2 = .ok target ∧ x = navigationText target p.2

/-- The template of a navigation property leaves its line open. -/
private theorem navigationTexts_navigationTemplate (n : NavigationProperty)
    (target : NavigationTarget) :
    navigationTexts (navigationTemplate n target) = [navigationText target n] := by
  simp [navigationTemplate, TemplateStep.navigation?]

/-- The navigation properties of an entity type are the lines left open, one for one. -/
private theorem forall₂_navigationTexts {s : Schema} {t : EntityType} {ns : List NavigationProperty}
    {navigations : List (List TemplateStep)}
    (h : (ns.mapM fun n => (resolveNavigation s t.name n).map (navigationTemplate n)) =
      .ok navigations) :
    List.Forall₂ (fun n x => IsLineOf s (t, n) x) ns (navigations.flatMap navigationTexts) := by
  -- by the list of navigation properties with what each is resolved to
  have hpairs := mapM_eq_ok_iff.mp h
  clear h
  induction hpairs with
  | nil => exact .nil
  | cons hn _ ih =>
    obtain ⟨target, htarget, rfl⟩ := map_eq_ok_iff.mp hn
    rw [List.flatMap_cons, navigationTexts_navigationTemplate]
    exact .cons ⟨target, htarget, rfl⟩ ih

/-- In the template of an entity type, just the lines of its navigation properties are left
    open. -/
private theorem navigationTexts_entityTemplate {s : Schema} {t : EntityType}
    {steps : List TemplateStep} (h : entityTemplate s t = .ok steps) :
    List.Forall₂ (IsLineOf s) (t.navigationProperties.map fun n => (t, n))
      (navigationTexts steps) := by
  obtain ⟨base, -, h⟩ := bind_eq_ok_iff.mp h
  obtain ⟨properties, -, h⟩ := bind_eq_ok_iff.mp h
  obtain ⟨navigations, hnavigations, h⟩ := bind_eq_ok_iff.mp h
  obtain rfl := Except.ok.inj h
  -- scalar properties leave nothing open
  have hproperties : (properties.map fixedSteps).flatMap navigationTexts = [] := by
    simp [List.flatMap_map]
  rw [navigationTexts_typeTemplate, List.flatMap_append, hproperties, List.nil_append,
    List.forall₂_map_left_iff]
  exact forall₂_navigationTexts hnavigations

/-- In the template of a body, just the lines of its navigation properties are left open. -/
private theorem navigationTexts_bodyTemplate {settings : Settings} {s : Schema} {item : Item}
    {steps : List TemplateStep} (h : bodyTemplate settings s item = .ok steps) :
    List.Forall₂ (IsLineOf s) item.navigationProperties (navigationTexts steps) := by
  have hfixed : ∀ x : Except UnresolvedReference (List Step), x.map fixedSteps = .ok steps →
      navigationTexts steps = [] := by
    intro x hx
    obtain ⟨_, -, rfl⟩ := map_eq_ok_iff.mp hx
    exact navigationTexts_fixedSteps _
  -- only an entity type has a template that is not fixed as a whole
  cases item with
  | enumType t => exact hfixed (body settings s (.enumType t)).outcome h ▸ .nil
  | complexType t => exact hfixed (body settings s (.complexType t)).outcome h ▸ .nil
  | entityContainer c => exact hfixed (body settings s (.entityContainer c)).outcome h ▸ .nil
  | entityType t => exact navigationTexts_entityTemplate h

/-! ### Lines -/

/-- A line that is fixed, or that of a navigation property. -/
inductive LineTemplate where
  | fixed (line : Line)
  | navigation (depth : Nat) (x : NavigationText)
deriving DecidableEq, Repr

namespace LineTemplate

/-- The line under a choice of the two settings. -/
def fill (collection : CollectionType) (isVirtual : Bool) : LineTemplate → Line
  | fixed line => line
  | navigation depth x => ⟨depth, x.fill collection isVirtual⟩

/-- The line of a navigation property. -/
def navigation? : LineTemplate → Option NavigationText
  | fixed _ => none
  | navigation _ x => some x

end LineTemplate

/-- The lines that some steps write from the given depth on. -/
def linesOf (depth : Nat) : List TemplateStep → List LineTemplate
  | [] => []
  | .fixed step :: rest =>
    match step.write depth with
    | none => linesOf depth rest
    | some (ls, after) => ls.map .fixed ++ linesOf after rest
  | .navigation target n :: rest =>
    .navigation depth (navigationText target n) :: linesOf depth rest

/-- Lines are filled where steps are. -/
theorem lines_fill (depth : Nat) (steps : List TemplateStep) :
    (CSharp.writeAll depth (fillSteps collection isVirtual steps)).1 =
      -- by the steps, from the depth that the steps before leave
      (linesOf depth steps).map (LineTemplate.fill collection isVirtual) := by
  induction steps generalizing depth with
  | nil => rfl
  | cons t rest ih =>
    cases t with
    | fixed step =>
      rw [fillSteps_cons, TemplateStep.fill, CSharp.writeAll, linesOf]
      cases step.write depth with
      | none => exact ih depth
      | some p =>
        -- the depth after a fixed step is the same for all choices, so the rest begins there
        rw [List.map_append, ← ih, List.map_map]
        exact congrArg (· ++ _) (List.map_id p.1).symm
    | navigation target n =>
      rw [fillSteps_cons, TemplateStep.fill,
        CSharp.writeAll_cons_inside (s := .property _) rfl (by simp), ih, linesOf, Step.insideLines,
        text_navigationLine]
      rfl

/-- The lines of navigation properties come from the steps for them. -/
private theorem navigationTexts_linesOf (depth : Nat) (steps : List TemplateStep) :
    (linesOf depth steps).filterMap LineTemplate.navigation? = navigationTexts steps := by
  induction steps generalizing depth with
  | nil => rfl
  | cons t rest ih =>
    cases t with
    | fixed step =>
      rw [linesOf]
      -- a step that writes nothing does not change the depth either
      cases step.write depth with
      | none => exact ih depth
      | some p =>
        have hfixed : (p.1.map LineTemplate.fixed).filterMap LineTemplate.navigation? = [] := by
          rw [List.filterMap_map]
          exact List.filterMap_none p.1
        rw [List.filterMap_append, hfixed, ih]
        rfl
    | navigation target n =>
      rw [linesOf, List.filterMap_cons, ih]
      rfl

/-! ### Numbers of lines -/

/-- A text has one line more than it has line feeds. -/
theorem length_textLines (text : String) :
    (CSharp.textLines text).length = text.toList.count '\n' + 1 := by
  unfold CSharp.textLines List.splitOn
  -- by the characters, each of which is a line feed or belongs to a line
  induction text.toList with
  | nil => rfl
  | cons c cs ih =>
    rw [List.splitOnP_cons_eq_if_modifyHead, List.count_cons]
    split <;> simp_all

/-- No choice of the two settings breaks a line. -/
private theorem count_fill (x : NavigationText) :
    (x.fill collection isVirtual).toList.count '\n' =
      x.opening.toList.count '\n' + x.typeName.toList.count '\n' +
        x.closing.toList.count '\n' := by
  -- neither the word nor the collection holds a line feed
  have hvirtual : (if isVirtual then "virtual " else "").toList.count '\n' = 0 := by
    cases isVirtual <;> rfl
  have hwrap : (collection.wrap x.typeName).toList.count '\n' =
      x.typeName.toList.count '\n' := by
    cases collection <;> simp [CollectionType.wrap]
  unfold NavigationText.fill
  simp only [String.toList_append, List.count_append, hvirtual]
  split <;> simp [hwrap]

/-- Every choice of the two settings makes as many line feeds. -/
private theorem count_renderLines_fill (collection' : CollectionType) (isVirtual' : Bool)
    (ls : List LineTemplate) :
    (CSharp.renderLines (ls.map (LineTemplate.fill collection isVirtual))).toList.count '\n' =
      (CSharp.renderLines (ls.map (LineTemplate.fill collection' isVirtual'))).toList.count
        '\n' := by
  -- line by line, where only those of navigation properties differ at all
  induction ls with
  | nil => rfl
  | cons l rest ih =>
    simp only [List.map_cons, CSharp.renderLines_cons, String.toList_append, List.count_append, ih]
    cases l with
    | fixed line => rfl
    | navigation depth x =>
      simp only [LineTemplate.fill, Line.render, String.toList_append, List.count_append,
        count_fill]

/-! ### Files -/

/-- A file whose lines leave open what the two settings decide. -/
structure FileTemplate where
  name : String
  lines : List LineTemplate
deriving DecidableEq, Repr

namespace FileTemplate

/-- The file under a choice of the two settings. -/
def fill (collection : CollectionType) (isVirtual : Bool) (t : FileTemplate) : GeneratedFile :=
  ⟨t.name, CSharp.renderLines (t.lines.map (LineTemplate.fill collection isVirtual))⟩

/-- The lines of navigation properties in a file. -/
def navigationTexts (t : FileTemplate) : List NavigationText :=
  t.lines.filterMap LineTemplate.navigation?

end FileTemplate

/-- A file with the given bodies. -/
def fileTemplate (name namespaceName : String) (imports : List String)
    (bodies : List (List TemplateStep)) : FileTemplate :=
  ⟨name, linesOf 0 (.fixed (.openNamespace namespaceName) ::
    fixedSteps (imports.map .importNamespace) ++ bodies.flatMap (.fixed .blankLine :: ·) ++
      [.fixed .close])⟩

/-- The files that hold the given declarations, each with its body. -/
def fileTemplates (layout : Layout) (namespaceName : String)
    (pieces : List (Item × List TemplateStep)) : List FileTemplate :=
  match layout with
  | .singleFile => [fileTemplate namespaceName namespaceName allImports (pieces.map (·.2))]
  | .filePerDeclaration =>
    pieces.map fun (item, steps) => fileTemplate item.name namespaceName item.imports [steps]

/-- A planned declaration with its body. -/
def pieceTemplate (settings : Settings) (s : Schema) (item : Item) :
    Except UnresolvedReference (Item × List TemplateStep) :=
  (bodyTemplate settings s item).map fun steps => (item, steps)

/-- The template of a planned declaration does not depend on the two settings. -/
private theorem pieceTemplate_settings (settings : Settings) (lazyLoading : Option Bool)
    (s : Schema) :
    pieceTemplate { settings with collectionType := collection, lazyLoading := lazyLoading } s =
      pieceTemplate settings s := by
  funext item
  rw [pieceTemplate, bodyTemplate_settings, pieceTemplate]

/-- A file is filled from its template. -/
theorem fileTemplate_fill (name namespaceName : String) (imports : List String)
    (bodies : List (List TemplateStep)) :
    (fileTemplate name namespaceName imports bodies).fill collection isVirtual =
      ⟨name, fileText namespaceName imports (bodies.map (fillSteps collection isVirtual))⟩ := by
  -- the blank line in front of each body is fixed
  have hbodies : fillSteps collection isVirtual (bodies.flatMap (.fixed .blankLine :: ·)) =
      (bodies.map (fillSteps collection isVirtual)).flatMap (.blankLine :: ·) := by
    rw [fillSteps, List.map_flatMap, List.flatMap_map]
    rfl
  unfold fileTemplate FileTemplate.fill fileText fileSteps CSharp.sourceText
  rw [← lines_fill, fillSteps_append, fillSteps_append, fillSteps_cons, fillSteps_fixedSteps,
    hbodies]
  rfl

/-- A file leaves open what its bodies leave open. -/
private theorem navigationTexts_fileTemplate (name namespaceName : String) (imports : List String)
    (bodies : List (List TemplateStep)) :
    (fileTemplate name namespaceName imports bodies).navigationTexts =
      bodies.flatMap navigationTexts := by
  -- body by body; the blank line in front of each leaves nothing open
  have hbodies : navigationTexts (bodies.flatMap (.fixed .blankLine :: ·)) =
      bodies.flatMap navigationTexts := by
    induction bodies with
    | nil => rfl
    | cons steps rest ih =>
      rw [List.flatMap_cons, navigationTexts_append, ih]
      rfl
  unfold fileTemplate FileTemplate.navigationTexts
  rw [navigationTexts_linesOf]
  simp [hbodies, TemplateStep.navigation?]

/-- The files are filled from their templates. -/
private theorem filesOf_fill (layout : Layout) (namespaceName : String)
    (pieces : List (Item × List TemplateStep)) :
    filesOf layout namespaceName
        (pieces.map fun p => (p.1, fillSteps collection isVirtual p.2)) =
      (fileTemplates layout namespaceName pieces).map
        (FileTemplate.fill collection isVirtual) := by
  -- both layouts put bodies into files, all of them into one or each into its own
  cases layout with
  | singleFile => simp [filesOf, fileTemplates, fileTemplate_fill, Function.comp_def]
  | filePerDeclaration => simp [filesOf, fileTemplates, fileTemplate_fill, Function.comp_def]

/-- Files hold the navigation properties of their declarations. -/
private theorem navigationTexts_fileTemplates (layout : Layout) (namespaceName : String)
    (pieces : List (Item × List TemplateStep)) :
    (fileTemplates layout namespaceName pieces).flatMap FileTemplate.navigationTexts =
      pieces.flatMap fun p => navigationTexts p.2 := by
  cases layout with
  | singleFile => simp [fileTemplates, navigationTexts_fileTemplate, List.flatMap_map]
  | filePerDeclaration => simp [fileTemplates, navigationTexts_fileTemplate, List.flatMap_map]

/-- The files of a schema are filled from the templates of its declarations. -/
private theorem outcome_generate_fill (settings : Settings) (s : Schema) :
    (generate settings s).outcome =
      ((plan s).mapM (pieceTemplate settings s)).map fun pieces =>
        (fileTemplates settings.layout s.name pieces).map
          (FileTemplate.fill settings.collectionType (loadsLazily settings s)) := by
  -- piece by piece the body is filled from its template
  have hpiece : ∀ item, (piece settings s item).outcome =
      (pieceTemplate settings s item).map fun p =>
        (p.1, fillSteps settings.collectionType (loadsLazily settings s) p.2) := by
    intro item
    rw [outcome_piece, outcome_body_fill, pieceTemplate]
    cases bodyTemplate settings s item <;> rfl
  rw [outcome_generate]
  simp only [hpiece, ← map_mapM]
  cases (plan s).mapM (pieceTemplate settings s) with
  | error u => rfl
  | ok pieces => exact congrArg Except.ok (filesOf_fill _ _ _ _ pieces)

/-- The navigation properties of all planned declarations are those of the entity types. -/
private theorem flatMap_plan_navigationProperties (s : Schema) :
    (plan s).flatMap Item.navigationProperties =
      s.entityTypes.flatMap fun t => t.navigationProperties.map fun n => (t, n) := by
  -- declarations of other kinds have none
  have hnone {α : Type} (as : List α) :
      (as.flatMap fun _ => ([] : List (EntityType × NavigationProperty))) = [] :=
    List.flatMap_eq_nil_iff.mpr fun _ _ => rfl
  simp [plan, List.flatMap_append, List.flatMap_map, Item.navigationProperties, hnone]

end

/-- Collection type and lazy loading decide nothing but two parts of the lines of navigation
    properties.  Either generation fails with the same reference for all choices of the two, or
    there is one list of templates from which the files of each choice are filled: with `virtual`
    in the line of every navigation property exactly where loading is lazy, as set or as the first
    container says that says anything, and with the collection around the types of those that lead
    to many.  The lines left open are those of the navigation properties of the entity types, in
    order, and files have as many lines under one choice as under another. -/
theorem settings_fill_navigation_lines (settings : Settings) (s : Schema) :
    (∃ u, ∀ collection lazyLoading,
      (generate { settings with collectionType := collection, lazyLoading := lazyLoading }
        s).outcome = .error u) ∨
    ∃ templates : List FileTemplate,
      (∀ collection lazyLoading,
        (generate { settings with collectionType := collection, lazyLoading := lazyLoading }
          s).outcome =
          .ok (templates.map (FileTemplate.fill collection
            (lazyLoading.getD ((s.entityContainers.findSome? (·.lazyLoading)).getD false))))) ∧
      List.Forall₂ (IsLineOf s)
        (s.entityTypes.flatMap fun t => t.navigationProperties.map fun n => (t, n))
        (templates.flatMap FileTemplate.navigationTexts) ∧
      ∀ template ∈ templates, ∀ collection isVirtual collection' isVirtual',
        (CSharp.textLines (template.fill collection isVirtual).contents).length =
          (CSharp.textLines (template.fill collection' isVirtual').contents).length := by
  -- generation in terms of templates, for any choice of the two
  have hgenerate : ∀ collection lazyLoading,
      (generate { settings with collectionType := collection, lazyLoading := lazyLoading }
        s).outcome =
      ((plan s).mapM (pieceTemplate settings s)).map fun pieces =>
        (fileTemplates settings.layout s.name pieces).map (FileTemplate.fill collection
          (lazyLoading.getD ((s.entityContainers.findSome? (·.lazyLoading)).getD false))) := by
    intro collection lazyLoading
    rw [outcome_generate_fill, pieceTemplate_settings]
    rfl
  -- the templates are made without the two settings, so they fail for all choices or for none
  cases hpieces : (plan s).mapM (pieceTemplate settings s) with
  | error u => exact .inl ⟨u, fun collection lazyLoading => by rw [hgenerate, hpieces]; rfl⟩
  | ok pieces =>
    refine .inr ⟨fileTemplates settings.layout s.name pieces, fun collection lazyLoading => ?_, ?_,
      fun template _ collection isVirtual collection' isVirtual' => ?_⟩
    -- the files are filled from the templates
    · rw [hgenerate, hpieces]
      rfl
    -- the lines left open, gathered from the templates of all declarations
    · rw [navigationTexts_fileTemplates, ← flatMap_plan_navigationProperties]
      refine List.rel_flatMap (mapM_eq_ok_iff.mp hpieces) fun item p hp => ?_
      obtain ⟨steps, hsteps, rfl⟩ := map_eq_ok_iff.mp hp
      exact navigationTexts_bodyTemplate hsteps
    -- the numbers of line feeds are the same
    · rw [length_textLines, length_textLines]
      exact congrArg (· + 1)
        (count_renderLines_fill collection isVirtual collection' isVirtual' template.lines)

end EntityModel.Generation
