import EntityModel.Proofs.ScalarProperties
import EntityModel.Proofs.SideBySide

/-!
# Names of members

Every declaration that is generated has its members on lines of their own, in order and by their
names.  In an accepted document the members of an enum, the properties of a complex type and all
properties of an entity type have distinct names.  Nothing is said of the names of the sets of an
entity container, so its class has distinct members only if they happen to be distinct.

* `membersWritten_body`                  the members in the text of a declaration
* `nodup_memberNames_iff`                when they have distinct names
* `distinct_members_iff_distinct_sets`   both of all declarations in the files of a schema
* `two_sets_may_have_one_name`           a document with two sets of one name
-/

namespace EntityModel.Generation

open CSharp (Step IsCommentText IsPropertyText MemberLines)

/-! ### Members -/

/-- The names of the members of a declaration, in order. -/
def Item.memberNames : Item → List String
  | .enumType t => t.members.map (·.name)
  | .complexType t => t.properties.map (·.name)
  | .entityContainer c => c.entitySets.map (·.name)
  | .entityType t => t.properties.map (·.name) ++ t.navigationProperties.map (·.name)

/-- The lines are those of a property of the given name: comments, attributes and the line of the
    property itself. -/
structure IsMember (s : Schema) (name : String) (m : MemberLines) : Prop where
  comments : ∀ text ∈ m.comments, IsCommentText text
  attributes : ∀ text ∈ m.attributes, IsAttributeText s text
  property : ∃ modifier typeName initial, IsPropertyText modifier typeName name initial m.property

/-- The text is that of a declaration of the given name, the members of which have the given names
    in this order, and it holds nothing else. -/
inductive MembersWritten (s : Schema) (name : String) (members : List String) (text : String) : Prop
  | ofClass {opening keyword bases : String} {lines : List MemberLines}
      (hkeyword : keyword ∈ ["class ", "struct "])
      (hclass : IsClassText (opening ++ keyword ++ name ++ bases) lines text)
      (hmembers : List.Forall₂ (IsMember s) members lines)
  | ofEnum {comments : List String} {underlying : String} {t : EnumType} (hname : t.name = name)
      (hmembers : t.members.map (·.name) = members)
      (hcomments : ∀ comment ∈ comments, IsCommentText comment)
      (htext : text = CSharp.renderLines (enumLines comments underlying t))

variable {settings : Settings} {s : Schema}

/-! ### Members of one declaration -/

/-- The lines of a scalar property are those of a property of its name. -/
private theorem ScalarWritten.isMember {isKey : Prop} {p : Property} {m : MemberLines}
    (h : ScalarWritten s isKey p m) : IsMember s p.name m where
  comments := h.comments
  attributes := h.attributes
  property := by
    obtain ⟨_, _, -, hline, -⟩ := h.property
    exact ⟨_, _, _, hline⟩

/-- The lines of a navigation property are those of a property of its name. -/
private theorem NavigationWritten.isMember {n : NavigationProperty} {m : MemberLines}
    (h : NavigationWritten s n m) : IsMember s n.name m where
  comments := h.comments
  attributes := h.attributes
  property := by
    obtain ⟨_, -, _, -, _, -, hline⟩ := h.property
    exact ⟨_, _, _, hline⟩

/-- The lines of an entity set are those of a property of its name. -/
private theorem SetWritten.isMember {set : EntitySet} {m : MemberLines} (h : SetWritten s set m) :
    IsMember s set.name m where
  comments := h.comments
  attributes := h.attributes ▸ fun _ hmem => absurd hmem List.not_mem_nil
  property := by
    obtain ⟨_, -, hline⟩ := h.property
    exact ⟨_, _, _, hline⟩

/-- The text of a declaration has its members, by their names and in order. -/
theorem membersWritten_body {item : Item} {steps : List Step}
    (h : (body settings s item).outcome = .ok steps) :
    MembersWritten s item.name item.memberNames (bodyText steps) := by
  -- the lines that a declaration calls for have its members in order
  have hwritten := declarationWritten_body h
  cases item with
  | enumType t =>
    obtain ⟨comments, hcomments, underlying, -, htext⟩ := hwritten
    exact .ofEnum rfl rfl hcomments htext
  | entityContainer c =>
    obtain ⟨sets, hclass, hsets⟩ := hwritten
    have hheader : "public partial class " ++ c.name ++ " : " ++ settings.containerBaseType =
        "public partial " ++ "class " ++ c.name ++ (" : " ++ settings.containerBaseType) := by
      apply String.ext
      simp
    rw [hheader] at hclass
    exact .ofClass List.mem_cons_self hclass
      (List.forall₂_map_left_iff.mpr (hsets.imp fun _ _ => SetWritten.isMember))
  | complexType t =>
    obtain ⟨scalars, hclass, hscalars⟩ := hwritten
    have hbases : ∀ header : String, header = header ++ "" := fun _ => String.append_empty.symm
    rw [hbases (_ ++ t.name)] at hclass
    refine .ofClass ?_ hclass
      (List.forall₂_map_left_iff.mpr (hscalars.imp fun _ _ => ScalarWritten.isMember))
    cases settings.complexTypeKind <;> decide
  | entityType t =>
    obtain ⟨base, scalars, navigations, -, hclass, hscalars, hnavigations⟩ := hwritten
    have hkeyword : ∀ opening : String,
        opening ++ "partial class " = opening ++ "partial " ++ "class " := by
      intro opening
      apply String.ext
      simp
    rw [hkeyword] at hclass
    refine .ofClass List.mem_cons_self hclass (List.rel_append ?_ ?_)
    · exact List.forall₂_map_left_iff.mpr (hscalars.imp fun _ _ => ScalarWritten.isMember)
    · exact List.forall₂_map_left_iff.mpr (hnavigations.imp fun _ _ => NavigationWritten.isMember)

/-! ### Distinct names -/

/-- The members of a declaration of a well-formed schema have distinct names exactly if the sets of
    an entity container do: the names of other members are checked. -/
theorem nodup_memberNames_iff (hs : s.WellFormed) {item : Item} (hitem : item ∈ plan s) :
    item.memberNames.Nodup ↔
      ∀ c, item = .entityContainer c → (c.entitySets.map (·.name)).Nodup := by
  -- what is planned is declared, and each kind has its own rule
  have hmem := mem_plan_iff.mp hitem
  cases item with
  | enumType t => exact iff_of_true (hs.enumMembers t hmem) nofun
  | complexType t => exact iff_of_true (hs.complexMembers t hmem) nofun
  | entityType t => exact iff_of_true (hs.entityMembers t hmem) nofun
  | entityContainer c =>
    constructor
    · rintro hnodup _ ⟨⟩
      exact hnodup
    · exact fun h => h c rfl

/-- In the files of an accepted document every declaration has its members, by their names and in
    order.  The names are distinct but for an entity container with sets that share a name: in the
    text of its class two properties have that name. -/
theorem distinct_members_iff_distinct_sets {source : String} {files : List GeneratedFile}
    (hparse : Model.parse source = .ok s) (h : (generate settings s).outcome = .ok files) :
    ∃ texts : DeclarationTexts, files = texts.files settings.layout s ∧
      texts.Each (fun item text => MembersWritten s item.name item.memberNames text ∧
        (item.memberNames.Nodup ↔
          ∀ c, item = .entityContainer c → (c.entitySets.map (·.name)).Nodup)) s := by
  obtain ⟨texts, hfiles, htexts⟩ := exists_texts_of_generate h
  refine ⟨texts, hfiles, htexts.impOfMem fun item hitem text htext => ?_⟩
  obtain ⟨steps, hsteps, rfl⟩ := htext
  exact ⟨membersWritten_body hsteps, nodup_memberNames_iff (wellFormed_of_parse hparse) hitem⟩

/-- A container with two sets of one name. -/
def twoSetsDocument : String :=
  String.ofList ("<Schema Namespace='N'><EntityType Name='A'/><EntityContainer Name='C'>".toList ++
    "<EntitySet Name='As' EntityType='A'/><EntitySet Name='As' EntityType='A'/>".toList ++
    "</EntityContainer></Schema>".toList)

/-- The container of the document. -/
def twoSetsContainer : EntityContainer :=
  { name := "C"
    entitySets := [{ name := "As", entityType := "A" }, { name := "As", entityType := "A" }] }

/-- The schema of the document. -/
def twoSetsSchema : Schema :=
  { name := "N", entityTypes := [{ name := "A" }], entityContainers := [twoSetsContainer] }

set_option maxRecDepth 4000 in
private theorem parse_twoSetsDocument : Model.parse twoSetsDocument = .ok twoSetsSchema :=
  Model.parse_eq_ok_of_chars String.toList_ofList (by decide +kernel)

/-- The class of the container has two properties of one name. -/
theorem container_has_two_properties_of_one_name :
    Model.parse twoSetsDocument = .ok twoSetsSchema ∧
    ∃ files, ∃ texts : DeclarationTexts, (generate {} twoSetsSchema).outcome = .ok files ∧
      files = texts.files .singleFile twoSetsSchema ∧
      (∃ text ∈ texts.entityContainers, MembersWritten twoSetsSchema "C" ["As", "As"] text) ∧
      ¬ (Item.entityContainer twoSetsContainer).memberNames.Nodup := by
  obtain ⟨files, hgenerate⟩ : ∃ files, (generate {} twoSetsSchema).outcome = .ok files :=
    failure?_eq_none_iff.mp (by decide +kernel)
  obtain ⟨texts, hfiles, hmembers⟩ :=
    distinct_members_iff_distinct_sets parse_twoSetsDocument hgenerate
  obtain ⟨text, htext, hwritten, hnodup⟩ :=
    exists_of_mem_forall₂ hmembers.entityContainers (List.mem_cons_self : twoSetsContainer ∈ _)
  refine ⟨parse_twoSetsDocument, files, texts, hgenerate, hfiles, ⟨text, htext, hwritten⟩,
    fun hsets => ?_⟩
  exact absurd (hnodup.mp hsets _ rfl) (by decide)

/-- An accepted document can declare two sets of one name in a container, and in the text that is
    generated for the container two members have that name. -/
theorem two_sets_may_have_one_name :
    ¬ ∀ source s settings files (texts : DeclarationTexts), Model.parse source = .ok s →
      (generate settings s).outcome = .ok files → files = texts.files settings.layout s →
      ∀ text ∈ texts.all, ∀ name members, MembersWritten s name members text →
        members.Nodup := by
  intro h
  obtain ⟨files, hgenerate⟩ : ∃ files, (generate {} twoSetsSchema).outcome = .ok files :=
    failure?_eq_none_iff.mp (by decide +kernel)
  obtain ⟨texts, hfiles, htexts⟩ := exists_texts_of_generate hgenerate
  obtain ⟨text, htext, steps, hsteps, rfl⟩ :=
    exists_of_mem_forall₂ htexts.entityContainers (List.mem_cons_self : twoSetsContainer ∈ _)
  have hall : bodyText steps ∈ texts.all :=
    List.mem_append_left _ (List.mem_append_right _ htext)
  exact absurd (h _ _ _ _ _ parse_twoSetsDocument hgenerate hfiles _ hall _ _
    (membersWritten_body hsteps)) (by decide)

end EntityModel.Generation
