import EntityModel.Generation.File
import EntityModel.Proofs.Blocks
import EntityModel.Proofs.FirstFailure
import EntityModel.Proofs.SideBySide

/-!
# Both layouts hold the same declarations

The body of a declaration does not depend on the layout, and its steps are balanced, so its text is
the same in whichever file it stands.  The two layouts therefore fail on the same references, and
where they do not they only spread the same texts over files in different ways.

* `balanced_body`      bodies are balanced
* `fileText_eq`        the text of a file in terms of the texts of its bodies
* `layouts_agree`      one file with all bodies, or one file for each
-/

namespace EntityModel.Generation

open CSharp (Step Balanced)

/-! ### Bodies are balanced -/

/-- The step neither opens nor closes a block. -/
def Inside (s : Step) : Prop := s.opens = false ∧ s ≠ .close

/-- A comment neither opens nor closes a block. -/
theorem inside_documentationSteps (m : Metadata) : ∀ s ∈ documentationSteps m, Inside s := by
  unfold documentationSteps
  cases m.documentation with
  | none => exact fun _ h => nomatch h
  | some d => simp [Inside, Step.opens]

/-- The step is an attribute. -/
def IsAttribute (step : Step) : Prop := ∃ name arguments, step = .attributed name arguments

/-- Attributes neither open nor close a block. -/
theorem inside_of_isAttribute {steps : List Step} (h : ∀ s ∈ steps, IsAttribute s) :
    ∀ s ∈ steps, Inside s := by
  intro s hs
  obtain ⟨name, arguments, rfl⟩ := h s hs
  exact ⟨rfl, nofun⟩

/-- An attribute under a condition is an attribute. -/
theorem isAttribute_stepIf {condition : Bool} {name : String} {arguments : List String} :
    ∀ s ∈ stepIf condition (.attributed name arguments), IsAttribute s := by
  unfold stepIf
  split
  · exact List.forall_mem_singleton.mpr ⟨name, arguments, rfl⟩
  · exact fun _ h => nomatch h

/-- What a scalar property bears are attributes. -/
theorem isAttribute_propertyAttributes (mapped : CSharp.MappedType) (p : Property) (isKey : Bool) :
    ∀ s ∈ propertyAttributes mapped p isKey, IsAttribute s := by
  unfold propertyAttributes
  simp only [List.forall_mem_append]
  -- one case for each attribute that a scalar property can bear
  refine ⟨⟨⟨⟨isAttribute_stepIf, isAttribute_stepIf⟩, ?_⟩, ?_⟩, isAttribute_stepIf⟩
  · unfold maxLengthSteps
    split
    · exact isAttribute_stepIf
    · exact fun _ h => nomatch h
  · unfold storeGenerationSteps
    split
    · exact fun _ h => nomatch h
    · exact List.forall_mem_singleton.mpr ⟨_, _, rfl⟩
    · exact List.forall_mem_singleton.mpr ⟨_, _, rfl⟩

/-- What a navigation property bears are attributes. -/
theorem isAttribute_navigationAttributes (target : NavigationTarget) (n : NavigationProperty) :
    ∀ s ∈ navigationAttributes target n, IsAttribute s := by
  unfold navigationAttributes
  simp only [List.forall_mem_append]
  refine ⟨⟨?_, ?_⟩, isAttribute_stepIf⟩
  · unfold foreignKeySteps
    split
    · exact fun _ h => nomatch h
    · split
      · exact List.forall_mem_singleton.mpr ⟨_, _, rfl⟩
      · exact fun _ h => nomatch h
  · unfold inverseSteps
    split
    · exact List.forall_mem_singleton.mpr ⟨_, _, rfl⟩
    · exact fun _ h => nomatch h

/-- The steps of a scalar property neither open nor close a block. -/
theorem inside_propertySteps {s : Schema} {owner : String} {isKey : Bool} {p : Property}
    {steps : List Step} (h : (propertySteps s owner isKey p).outcome = .ok steps) :
    ∀ t ∈ steps, Inside t := by
  rw [outcome_propertySteps] at h
  -- the steps are those of the type that the property is mapped to, if there is one
  cases hmap : CSharp.mapType s p.typeName owner with
  | error u => rw [hmap] at h; exact nomatch h
  | ok mapped =>
    rw [hmap] at h
    obtain rfl := Except.ok.inj h
    simp only [List.forall_mem_append, List.forall_mem_singleton]
    have hattributes := inside_of_isAttribute (isAttribute_propertyAttributes mapped p isKey)
    exact ⟨⟨inside_documentationSteps _, hattributes⟩, rfl, nofun⟩

/-- The steps of a navigation property neither open nor close a block. -/
theorem inside_navigationSteps {s : Schema} {collection : CollectionType} {lazyLoading : Bool}
    {owner : String} {n : NavigationProperty} {steps : List Step}
    (h : (navigationSteps s collection lazyLoading owner n).outcome = .ok steps) :
    ∀ t ∈ steps, Inside t := by
  rw [outcome_navigationSteps] at h
  cases hresolve : resolveNavigation s owner n with
  | error u => rw [hresolve] at h; exact nomatch h
  | ok target =>
    rw [hresolve] at h
    obtain rfl := Except.ok.inj h
    simp only [List.forall_mem_append, List.forall_mem_singleton]
    have hattributes := inside_of_isAttribute (isAttribute_navigationAttributes target n)
    exact ⟨⟨inside_documentationSteps _, hattributes⟩, rfl, nofun⟩

/-- The steps of an entity set neither open nor close a block. -/
theorem inside_entitySetSteps (set : EntitySet) (entityName : String) :
    ∀ t ∈ entitySetSteps set entityName, Inside t := by
  unfold entitySetSteps
  simp only [List.forall_mem_append, List.forall_mem_singleton]
  exact ⟨inside_documentationSteps _, rfl, nofun⟩

/-- Members with a blank line between each two are as much inside as each of them is. -/
theorem inside_separate {members : List (List Step)} (h : ∀ m ∈ members, ∀ s ∈ m, Inside s) :
    ∀ s ∈ separate members, Inside s := by
  -- member by member, with the blank line in front of the later ones
  induction members with
  | nil => exact fun _ hs => nomatch hs
  | cons m rest ih =>
    obtain ⟨hm, hrest⟩ := List.forall_mem_cons.mp h
    cases rest with
    | nil => exact hm
    | cons m' rest' =>
      have hblank : Inside .blankLine := ⟨rfl, nofun⟩
      simp only [separate, List.forall_mem_append, List.forall_mem_cons]
      exact ⟨hm, hblank, ih hrest⟩

/-- A type with members that neither open nor close a block is balanced. -/
theorem balanced_typeSteps (m : Metadata) (header : CSharp.TypeHeader)
    {members : List (List Step)} (h : ∀ m ∈ members, ∀ s ∈ m, Inside s) :
    Balanced (typeSteps m header members) := by
  have hinner : Balanced (separate members) := CSharp.balanced_of_inside (inside_separate h)
  -- the header opens the one block that there is, behind the comment
  have hblock : Balanced (.openType header :: separate members ++ [.close]) :=
    .block rfl hinner .nil
  have hdocumentation := CSharp.balanced_of_inside (inside_documentationSteps m)
  unfold typeSteps
  rw [List.append_assoc]
  exact hdocumentation.append hblock

/-- The body of an enum type is balanced. -/
private theorem balanced_enumSteps {t : EnumType} {steps : List Step}
    (h : (enumSteps t).outcome = .ok steps) : Balanced steps := by
  rw [outcome_enumSteps] at h
  obtain rfl := Except.ok.inj h
  refine CSharp.balanced_of_inside ?_
  simp only [List.forall_mem_append, List.forall_mem_singleton]
  exact ⟨⟨inside_documentationSteps _, inside_of_isAttribute isAttribute_stepIf⟩, rfl, nofun⟩

/-- The body of a complex type is balanced. -/
private theorem balanced_complexSteps {settings : Settings} {s : Schema} {t : ComplexType}
    {steps : List Step} (h : (complexSteps settings s t).outcome = .ok steps) :
    Balanced steps := by
  rw [outcome_complexSteps] at h
  obtain ⟨members, hmembers, rfl⟩ := map_eq_ok_iff.mp h
  refine balanced_typeSteps _ _ fun m hm => ?_
  obtain ⟨p, -, hp⟩ := exists_of_mem_mapM hmembers hm
  exact inside_propertySteps hp

/-- The body of an entity container is balanced. -/
private theorem balanced_containerSteps {settings : Settings} {s : Schema} {c : EntityContainer}
    {steps : List Step} (h : (containerSteps settings s c).outcome = .ok steps) :
    Balanced steps := by
  rw [outcome_containerSteps] at h
  obtain ⟨members, hmembers, rfl⟩ := map_eq_ok_iff.mp h
  refine balanced_typeSteps _ _ fun m hm => ?_
  obtain ⟨set, -, hset⟩ := exists_of_mem_mapM hmembers hm
  obtain ⟨t, -, rfl⟩ := map_eq_ok_iff.mp hset
  exact inside_entitySetSteps set t.name

/-- The class of an entity type has its base type and holds the steps of its properties and of its
    navigation properties. -/
theorem exists_entityMembers {settings : Settings} {s : Schema} {t : EntityType}
    {steps : List Step} (h : (entitySteps settings s t).outcome = .ok steps) :
    ∃ base properties navigations, resolveBase s t = .ok base ∧
      steps = typeSteps t.toMetadata (entityHeader t base) (properties ++ navigations) ∧
      (t.properties.mapM fun p => (propertySteps s t.name (t.keyContains p.name) p).outcome) =
        .ok properties ∧
      (t.navigationProperties.mapM fun n =>
        (navigationSteps s settings.collectionType (loadsLazily settings s) t.name n).outcome) =
        .ok navigations := by
  rw [outcome_entitySteps] at h
  -- base, properties and navigation properties, in the order in which they are made
  obtain ⟨base, hbase, h⟩ := bind_eq_ok_iff.mp h
  obtain ⟨properties, hproperties, h⟩ := bind_eq_ok_iff.mp h
  obtain ⟨navigations, hnavigations, h⟩ := bind_eq_ok_iff.mp h
  exact ⟨base, properties, navigations, hbase, (Except.ok.inj h).symm, hproperties, hnavigations⟩

/-- The body of an entity type is balanced. -/
private theorem balanced_entitySteps {settings : Settings} {s : Schema} {t : EntityType}
    {steps : List Step} (h : (entitySteps settings s t).outcome = .ok steps) :
    Balanced steps := by
  obtain ⟨base, properties, navigations, -, rfl, hproperties, hnavigations⟩ :=
    exists_entityMembers h
  refine balanced_typeSteps _ _ (List.forall_mem_append.mpr ⟨fun m hm => ?_, fun m hm => ?_⟩)
  · obtain ⟨p, -, hp⟩ := exists_of_mem_mapM hproperties hm
    exact inside_propertySteps hp
  · obtain ⟨n, -, hn⟩ := exists_of_mem_mapM hnavigations hm
    exact inside_navigationSteps hn

/-- The body of a declaration closes the blocks that it opens, and no other. -/
theorem balanced_body {settings : Settings} {s : Schema} {item : Item} {steps : List Step}
    (h : (body settings s item).outcome = .ok steps) : Balanced steps := by
  cases item with
  | enumType t => exact balanced_enumSteps h
  | complexType t => exact balanced_complexSteps h
  | entityContainer c => exact balanced_containerSteps h
  | entityType t => exact balanced_entitySteps h

/-! ### The text of a file -/

/-- The text that opens the namespace of a file. -/
def namespaceOpening (name : String) : String := "namespace " ++ name ++ "\n\x7b\n"

/-- The text that closes the namespace of a file. -/
def namespaceClosing : String := "\x7d\n"

/-- The line that imports a namespace. -/
def importLine (name : String) : String := "\tusing " ++ name ++ ";\n"

/-- The text of a body within the namespace of a file. -/
def bodyText (steps : List Step) : String :=
  CSharp.renderLines (CSharp.writeAll 1 steps).1

/-- A file with the given imports and the given texts in its namespace, a blank line before each. -/
def namespaceText (name : String) (imports texts : List String) : String :=
  namespaceOpening name ++ String.join (imports.map importLine) ++
    String.join (texts.map fun text => "\n" ++ text) ++ namespaceClosing

/-- The two lines that open a namespace. -/
private theorem render_namespace (name : String) :
    (CSharp.Line.mk 0 ("namespace " ++ name)).render ++
      (CSharp.Line.mk 0 CSharp.openingBrace).render = namespaceOpening name := by
  apply String.ext
  simp [CSharp.Line.render, CSharp.openingBrace, namespaceOpening]

/-- The line that imports a namespace, one level down. -/
private theorem render_import (name : String) :
    (CSharp.Line.mk 1 ("using " ++ name ++ ";")).render = importLine name := by
  apply String.ext
  simp [CSharp.Line.render, importLine]

/-- An empty line is a line feed. -/
private theorem render_empty : CSharp.Line.empty.render = "\n" := rfl

/-- The imports of a file, each on its line. -/
private theorem renderLines_imports (imports : List String) :
    CSharp.renderLines (CSharp.writeAll 1 (imports.map .importNamespace)).1 =
      String.join (imports.map importLine) := by
  induction imports with
  | nil => rfl
  | cons name rest ih =>
    -- an import stays at its depth, so the others go on there
    rw [List.map_cons, CSharp.writeAll_cons_inside (s := .importNamespace name) rfl nofun]
    show CSharp.renderLines (_ :: _) = _
    rw [CSharp.renderLines_cons, List.map_cons, String.join_cons, ← ih, ← render_import]
    rfl

/-- The bodies of a file, a blank line before each. -/
private theorem renderLines_bodies {bodies : List (List Step)}
    (h : ∀ steps ∈ bodies, Balanced steps) :
    CSharp.renderLines (CSharp.writeAll 1 (bodies.flatMap (.blankLine :: ·))).1 =
      String.join ((bodies.map bodyText).map fun text => "\n" ++ text) := by
  have hbalanced : ∀ steps ∈ bodies, Balanced (.blankLine :: steps) :=
    fun steps hs => .inside rfl nofun (h steps hs)
  -- each body is balanced, so the next one begins at the same depth
  rw [CSharp.writeAll_flatMap _ _ hbalanced, CSharp.renderLines_flatMap, List.map_map]
  congr 1
  refine List.map_congr_left fun steps _ => ?_
  rw [CSharp.writeAll_cons_inside (s := .blankLine) rfl nofun]
  show CSharp.renderLines (.empty :: _) = _
  rw [CSharp.renderLines_cons, render_empty]
  rfl

/-- The text of a file is made of the texts of its bodies. -/
theorem fileText_eq (name : String) (imports : List String) {bodies : List (List Step)}
    (h : ∀ steps ∈ bodies, Balanced steps) :
    fileText name imports bodies = namespaceText name imports (bodies.map bodyText) := by
  have himports : Balanced (imports.map Step.importNamespace) := by
    refine CSharp.balanced_of_inside (List.forall_mem_map.mpr fun _ _ => ⟨rfl, nofun⟩)
  have hbodies : Balanced (bodies.flatMap (.blankLine :: ·)) :=
    CSharp.balanced_flatMap fun steps hs => .inside rfl nofun (h steps hs)
  have hclose : CSharp.renderLines (CSharp.writeAll 1 [.close]).1 = namespaceClosing := rfl
  unfold fileText fileSteps CSharp.sourceText namespaceText
  rw [List.cons_append, List.cons_append, List.append_assoc]
  -- all but the two lines of the namespace and the closing one is written one level down
  show CSharp.renderLines (_ :: _ :: (CSharp.writeAll 1 _).1) = _
  rw [himports.writeAll_append, hbodies.writeAll_append, CSharp.renderLines_cons,
    CSharp.renderLines_cons, CSharp.renderLines_append, CSharp.renderLines_append,
    renderLines_imports, renderLines_bodies h, hclose, ← String.append_assoc,
    render_namespace, ← String.append_assoc, ← String.append_assoc]

/-! ### Both layouts -/

/-- The body of a declaration does not depend on the layout. -/
private theorem body_layout (settings : Settings) (layout : Layout) (s : Schema) (item : Item) :
    body { settings with layout := layout } s item = body settings s item := by
  cases item <;> rfl

/-- A file with a single declaration. -/
def declarationFile (s : Schema) (name : String) (imports : List String) (text : String) :
    GeneratedFile :=
  ⟨name, namespaceText s.name imports [text]⟩

/-- Texts for the declarations of a schema, kind by kind. -/
structure DeclarationTexts where
  enumTypes : List String
  complexTypes : List String
  entityContainers : List String
  entityTypes : List String

namespace DeclarationTexts

/-- All texts, those of enum types first, then those of complex types, of entity containers and of
    entity types. -/
def all (texts : DeclarationTexts) : List String :=
  texts.enumTypes ++ texts.complexTypes ++ texts.entityContainers ++ texts.entityTypes

/-- Every declaration of the schema has a text that is so related to it, and there are no other
    texts: one for each enum type, complex type, entity container and entity type, in order. -/
structure Each (R : Item → String → Prop) (s : Schema) (texts : DeclarationTexts) : Prop where
  enumTypes : List.Forall₂ (fun t text => R (.enumType t) text) s.enumTypes texts.enumTypes
  complexTypes :
    List.Forall₂ (fun t text => R (.complexType t) text) s.complexTypes texts.complexTypes
  entityContainers :
    List.Forall₂ (fun c text => R (.entityContainer c) text) s.entityContainers
      texts.entityContainers
  entityTypes : List.Forall₂ (fun t text => R (.entityType t) text) s.entityTypes texts.entityTypes

/-- The files with the texts of all declarations: one that imports every namespace and is named
    after that of the schema, or one for each declaration that is named after it and imports what
    its kind needs. -/
def files (layout : Layout) (s : Schema) (texts : DeclarationTexts) : List GeneratedFile :=
  match layout with
  | .singleFile =>
    [⟨s.name, namespaceText s.name [systemNamespace, collectionsNamespace, annotationsNamespace,
      mappingNamespace, entityFrameworkNamespace] texts.all⟩]
  | .filePerDeclaration =>
    List.zipWith (fun t => declarationFile s t.name [systemNamespace])
        s.enumTypes texts.enumTypes ++
      List.zipWith (fun t => declarationFile s t.name
          [systemNamespace, annotationsNamespace, mappingNamespace])
        s.complexTypes texts.complexTypes ++
      List.zipWith (fun c => declarationFile s c.name [systemNamespace, collectionsNamespace,
          annotationsNamespace, mappingNamespace, entityFrameworkNamespace])
        s.entityContainers texts.entityContainers ++
      List.zipWith (fun t => declarationFile s t.name
          [systemNamespace, collectionsNamespace, annotationsNamespace, mappingNamespace])
        s.entityTypes texts.entityTypes

variable {R S : Item → String → Prop} {s : Schema} {texts : DeclarationTexts}

/-- What follows from the relation to a text holds of every declaration and its text. -/
theorem Each.imp (h : Each R s texts) (hRS : ∀ item text, R item text → S item text) :
    Each S s texts where
  enumTypes := h.enumTypes.imp fun _ _ => hRS _ _
  complexTypes := h.complexTypes.imp fun _ _ => hRS _ _
  entityContainers := h.entityContainers.imp fun _ _ => hRS _ _
  entityTypes := h.entityTypes.imp fun _ _ => hRS _ _

/-- What follows from the relation to a text for the declarations of the schema holds of every one of
    them and its text. -/
theorem Each.impOfMem (h : Each R s texts)
    (hRS : ∀ item ∈ plan s, ∀ text, R item text → S item text) : Each S s texts := by
  -- a relation along a list holds together with what is known of its elements
  have along {α : Type} {item : α → Item} {as : List α} {bs : List String}
      (hmem : ∀ a ∈ as, item a ∈ plan s) (hR : List.Forall₂ (fun a text => R (item a) text) as bs) :
      List.Forall₂ (fun a text => S (item a) text) as bs :=
    ((List.forall₂_and_left _ _).mpr ⟨hmem, hR⟩).imp fun _ _ hab => hRS _ hab.1 _ hab.2
  exact ⟨along (fun t ht => mem_plan_iff (i := .enumType t).mpr ht) h.enumTypes,
    along (fun t ht => mem_plan_iff (i := .complexType t).mpr ht) h.complexTypes,
    along (fun c hc => mem_plan_iff (i := .entityContainer c).mpr hc) h.entityContainers,
    along (fun t ht => mem_plan_iff (i := .entityType t).mpr ht) h.entityTypes⟩

end DeclarationTexts

/-- A kind of declaration imports some of what a file of all imports, in the same order. -/
private theorem imports_sublist (item : Item) : item.imports.Sublist allImports := by
  cases item <;> exact of_decide_eq_true rfl

/-- What was planned and what was made of it, piece by piece. -/
private theorem forall₂_pieces {settings : Settings} {s : Schema} {items : List Item}
    {pieces : List (Item × List Step)}
    (h : (items.mapM fun item => (piece settings s item).outcome) = .ok pieces) :
    List.Forall₂ (fun item p => p.1 = item ∧ (body settings s item).outcome = .ok p.2)
      items pieces := by
  refine (mapM_eq_ok_iff.mp h).imp fun item p hp => ?_
  rw [outcome_piece] at hp
  obtain ⟨steps, hsteps, rfl⟩ := map_eq_ok_iff.mp hp
  exact ⟨rfl, hsteps⟩

/-- The pieces of a schema that is generated are its declarations with their bodies. -/
theorem mem_pieces_iff {settings : Settings} {s : Schema} {item : Item} {steps : List Step}
    {pieces : List (Item × List Step)}
    (h : ((plan s).mapM fun item => (piece settings s item).outcome) = .ok pieces) :
    (item, steps) ∈ pieces ↔ item ∈ plan s ∧ (body settings s item).outcome = .ok steps := by
  have hpiece : ∀ (i : Item) (p : Item × List Step), (piece settings s i).outcome = .ok p →
      (p = (item, steps) ↔ i = item ∧ (body settings s item).outcome = .ok steps) := by
    intro i p hp
    rw [outcome_piece] at hp
    obtain ⟨steps', hsteps', rfl⟩ := map_eq_ok_iff.mp hp
    rw [Prod.mk.injEq]
    refine and_congr_right ?_
    rintro rfl
    -- the body is a function of the declaration, so the steps of a piece are its steps
    rw [hsteps', Except.ok.injEq]
  simpa using exists_mem_mapM_iff h hpiece

/-- The file of all pieces, in terms of their texts. -/
private theorem filesOf_singleFile {name : String} {pieces : List (Item × List Step)}
    (h : ∀ p ∈ pieces, Balanced p.2) :
    filesOf .singleFile name pieces =
      [⟨name, namespaceText name allImports (pieces.map fun p => bodyText p.2)⟩] := by
  show [GeneratedFile.mk name (fileText name allImports (pieces.map (·.2)))] = _
  -- the bodies are written one behind the other, which their texts are as well
  rw [fileText_eq name allImports (List.forall_mem_map.mpr h), List.map_map]
  rfl

/-- The files of single pieces, in terms of their texts. -/
private theorem filesOf_filePerDeclaration {s : Schema} {pieces : List (Item × List Step)}
    (h : ∀ p ∈ pieces, Balanced p.2) :
    filesOf .filePerDeclaration s.name pieces =
      pieces.map fun p => declarationFile s p.1.name p.1.imports (bodyText p.2) := by
  refine List.map_congr_left fun p hp => ?_
  show GeneratedFile.mk p.1.name (fileText s.name p.1.imports [p.2]) = _
  -- a file of its own has a single body
  rw [fileText_eq s.name p.1.imports (List.forall_mem_singleton.mpr (h p hp))]
  rfl

section Pieces

variable {settings : Settings} {s : Schema} {α : Type} {item : α → Item} {as : List α}
  {pieces : List (Item × List Step)}

/-- The pieces of the declarations of one kind. -/
def PiecesOf (settings : Settings) (s : Schema) (item : α → Item) (as : List α)
    (pieces : List (Item × List Step)) : Prop :=
  List.Forall₂ (fun a p => p.1 = item a ∧ (body settings s (item a)).outcome = .ok p.2) as pieces

/-- Pieces have the texts of bodies. -/
theorem PiecesOf.texts (h : PiecesOf settings s item as pieces) :
    List.Forall₂ (fun a text => ∃ steps, (body settings s (item a)).outcome = .ok steps ∧
      text = bodyText steps) as (pieces.map fun p => bodyText p.2) :=
  List.forall₂_map_right_iff.mpr (h.imp fun _ p hp => ⟨p.2, hp.2, rfl⟩)

/-- The files of the pieces of one kind are those of the declarations with their texts. -/
theorem PiecesOf.files (h : PiecesOf settings s item as pieces) :
    (pieces.map fun p => declarationFile s p.1.name p.1.imports (bodyText p.2)) =
      List.zipWith (fun a => declarationFile s (item a).name (item a).imports) as
        (pieces.map fun p => bodyText p.2) := by
  induction h with
  | nil => rfl
  | cons hp _ ih =>
    -- the piece knows the declaration that it is made of
    rw [List.map_cons, List.map_cons, List.zipWith_cons_cons, ih, hp.1]

/-- The pieces of a whole plan are those of its four kinds in a row. -/
private theorem exists_pieces
    (h : ((plan s).mapM fun item => (piece settings s item).outcome) = .ok pieces) :
    ∃ enums complexes containers entities,
      pieces = enums ++ complexes ++ containers ++ entities ∧
      PiecesOf settings s .enumType s.enumTypes enums ∧
      PiecesOf settings s .complexType s.complexTypes complexes ∧
      PiecesOf settings s .entityContainer s.entityContainers containers ∧
      PiecesOf settings s .entityType s.entityTypes entities := by
  -- the plan is four lists in a row, so what is made of it falls into four as well
  obtain ⟨_, entities, rfl, h, hentities⟩ := exists_of_forall₂_append (forall₂_pieces h)
  obtain ⟨_, containers, rfl, h, hcontainers⟩ := exists_of_forall₂_append h
  obtain ⟨enums, complexes, rfl, henums, hcomplexes⟩ := exists_of_forall₂_append h
  exact ⟨enums, complexes, containers, entities, rfl, List.forall₂_map_left_iff.mp henums,
    List.forall₂_map_left_iff.mp hcomplexes, List.forall₂_map_left_iff.mp hcontainers,
    List.forall₂_map_left_iff.mp hentities⟩

/-- The files of a whole plan hold the texts of its bodies, for every layout. -/
theorem exists_texts_of_pieces
    (h : ((plan s).mapM fun item => (piece settings s item).outcome) = .ok pieces) :
    ∃ texts : DeclarationTexts,
      texts.Each (fun item text => ∃ steps, (body settings s item).outcome = .ok steps ∧
        text = bodyText steps) s ∧
      ∀ layout, filesOf layout s.name pieces = texts.files layout s := by
  have hbalanced : ∀ p ∈ pieces, Balanced p.2 := fun p hp =>
    balanced_body ((mem_pieces_iff h).mp hp).2
  obtain ⟨enums, complexes, containers, entities, rfl, henums, hcomplexes, hcontainers, hentities⟩ :=
    exists_pieces h
  -- the texts of the pieces, kind by kind, are those that both layouts hold
  let textsOf : List (Item × List Step) → List String := List.map fun p => bodyText p.2
  refine ⟨⟨textsOf enums, textsOf complexes, textsOf containers, textsOf entities⟩,
    ⟨henums.texts, hcomplexes.texts, hcontainers.texts, hentities.texts⟩, fun layout => ?_⟩
  cases layout with
  | singleFile =>
    rw [filesOf_singleFile hbalanced, List.map_append, List.map_append, List.map_append]
    rfl
  | filePerDeclaration =>
    rw [filesOf_filePerDeclaration hbalanced, List.map_append, List.map_append, List.map_append,
      henums.files, hcomplexes.files, hcontainers.files, hentities.files]
    rfl

/-- The files of a schema hold the texts of its bodies. -/
theorem exists_texts_of_generate {files : List GeneratedFile}
    (h : (generate settings s).outcome = .ok files) :
    ∃ texts : DeclarationTexts, files = texts.files settings.layout s ∧
      texts.Each (fun item text => ∃ steps, (body settings s item).outcome = .ok steps ∧
        text = bodyText steps) s := by
  rw [outcome_generate] at h
  obtain ⟨pieces, hpieces, rfl⟩ := map_eq_ok_iff.mp h
  obtain ⟨texts, htexts, hfiles⟩ := exists_texts_of_pieces hpieces
  exact ⟨texts, hfiles settings.layout, htexts⟩

end Pieces

/-- The two layouts agree: they fail on the same reference, or there is one text for each enum type,
    complex type, entity container and entity type of the schema, in this order, that both hold.  One
    file has all of them behind every import; each of the other files has one of them behind the
    imports of its kind, which are some of those of the one file. -/
theorem layouts_agree (settings : Settings) (s : Schema) :
    (∃ u, (generate { settings with layout := .singleFile } s).outcome = .error u ∧
      (generate { settings with layout := .filePerDeclaration } s).outcome = .error u) ∨
    ∃ texts : DeclarationTexts,
      texts.Each (fun item text => ∃ steps, (body settings s item).outcome = .ok steps ∧
        text = bodyText steps) s ∧
      (generate { settings with layout := .singleFile } s).outcome =
        .ok [⟨s.name, namespaceText s.name [systemNamespace, collectionsNamespace,
            annotationsNamespace, mappingNamespace, entityFrameworkNamespace]
          (texts.enumTypes ++ texts.complexTypes ++ texts.entityContainers ++
            texts.entityTypes)⟩] ∧
      (generate { settings with layout := .filePerDeclaration } s).outcome =
        .ok (texts.files .filePerDeclaration s) ∧
      ∀ item : Item, item.imports.Sublist [systemNamespace, collectionsNamespace,
        annotationsNamespace, mappingNamespace, entityFrameworkNamespace] := by
  -- the pieces are made before the layout is looked at, and are the same for both
  have hsingle := outcome_generate { settings with layout := .singleFile } s
  have hper := outcome_generate { settings with layout := .filePerDeclaration } s
  have hpiece : ∀ layout,
      (fun item => (piece { settings with layout := layout } s item).outcome) =
        fun item => (piece settings s item).outcome := by
    intro layout
    funext item
    rw [outcome_piece, outcome_piece, body_layout]
  rw [hpiece] at hsingle hper
  cases hpieces : (plan s).mapM fun item => (piece settings s item).outcome with
  | error u =>
    rw [hpieces] at hsingle hper
    exact .inl ⟨u, hsingle, hper⟩
  | ok pieces =>
    rw [hpieces] at hsingle hper
    obtain ⟨texts, htexts, hfiles⟩ := exists_texts_of_pieces hpieces
    -- the pieces have their texts, which the files of either layout hold
    exact .inr ⟨texts, htexts, hsingle.trans (congrArg _ (hfiles .singleFile)),
      hper.trans (congrArg _ (hfiles .filePerDeclaration)), imports_sublist⟩

end EntityModel.Generation
