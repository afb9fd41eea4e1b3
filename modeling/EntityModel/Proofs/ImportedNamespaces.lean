import EntityModel.Proofs.Spellings
import EntityModel.Proofs.WrittenProperties

/-!
# Imported namespaces

The namespaces that a file imports are chosen by the kind of its declaration, before the body of the
declaration is written.  They are enough: every attribute of the framework that the body bears and
every type of the framework that it names is of a namespace among them.

Types are texts, so what one of them names is read off the text.  `UsesType` reads it from outside
in, and takes the name of a type of the schema as a whole; `CoversType` builds the texts that can be
written where some namespaces are imported.

* `CoversType.mem_imports`     a text so built uses nothing but these namespaces
* `coversType_of_mapType`      the types of scalar properties
* `imports_cover_body`         the bodies of all declarations
-/

namespace EntityModel

/-- The schema has a type of the given name. -/
def Schema.HasType (s : Schema) (name : String) : Prop := ∃ t ∈ s.types, t.name = name

/-- What the schema finds under a name is a type that it has. -/
private theorem Schema.hasType_of_findType? {s : Schema} {name : String} {t : ResolvedType}
    (h : s.findType? name = some t) : s.HasType t.name := by
  rw [findType?_eq_find?] at h
  exact ⟨t, List.mem_of_find?_eq_some h, rfl⟩

namespace Generation

open CSharp (Step AutoProperty)

/-! ### Names of the framework -/

/-- The attributes of the framework, each with its namespace. -/
def attributeNamespaces : List (String × String) :=
  -- the namespaces are those of the class library, not of the file that is written
  [("Flags", systemNamespace), ("Key", annotationsNamespace),
    ("ConcurrencyCheck", annotationsNamespace), ("MaxLength", annotationsNamespace),
    ("Required", annotationsNamespace), ("DatabaseGenerated", mappingNamespace),
    ("ForeignKey", mappingNamespace), ("InverseProperty", mappingNamespace)]

/-- The types of the framework that take no argument, each with its namespace. -/
def plainTypeNamespaces : List (String × String) :=
  [("DateTime", systemNamespace), ("DateTimeOffset", systemNamespace), ("Guid", systemNamespace)]

/-- The types of the framework that take an argument, each with its namespace. -/
def genericTypeNamespaces : List (String × String) :=
  [("List", collectionsNamespace), ("HashSet", collectionsNamespace),
    ("DbSet", entityFrameworkNamespace)]

/-- The types that the language has words for. -/
def typeKeywords : List String :=
  ["bool", "byte", "decimal", "double", "float", "short", "int", "long", "sbyte", "string"]

/-- A type with its argument. -/
def genericText (outer argument : String) : String := outer ++ "<" ++ argument ++ ">"

/-- The text of a type uses a type of the namespace.  What has the form of a type made from others
    but is the name of a type of the schema is made from none. -/
inductive UsesType (s : Schema) : (text : String) → (namespaceName : String) → Prop
  | plain {text n : String} (h : (text, n) ∈ plainTypeNamespaces) : UsesType s text n
  | generic {outer argument n : String} (hwhole : ¬ s.HasType (genericText outer argument))
      (h : (outer, n) ∈ genericTypeNamespaces) : UsesType s (genericText outer argument) n
  | argument {outer argument n : String} (hwhole : ¬ s.HasType (genericText outer argument))
      (houter : '<' ∉ outer.toList) (h : UsesType s argument n) :
      UsesType s (genericText outer argument) n
  | optional {text n : String} (hwhole : ¬ s.HasType (text ++ "?")) (h : UsesType s text n) :
      UsesType s (text ++ "?") n
  | array {text n : String} (hwhole : ¬ s.HasType (text ++ "[]")) (h : UsesType s text n) :
      UsesType s (text ++ "[]") n

/-- The types that a step names. -/
def typeTexts : Step → List String
  | .property line => [line.typeName]
  | .openType header => header.bases
  | .enumeration _ _ underlying _ => [underlying]
  | _ => []

/-- The step uses an attribute or a type of the namespace. -/
inductive UsesNamespace (s : Schema) : Step → (namespaceName : String) → Prop
  | ofAttribute {name n : String} {arguments : List String}
      (h : (name, n) ∈ attributeNamespaces) : UsesNamespace s (.attributed name arguments) n
  | ofType {step : Step} {text n : String} (htext : text ∈ typeTexts step)
      (h : UsesType s text n) : UsesNamespace s step n

/-! ### Texts of types -/

/-- The text is that of a type which can be written where the given namespaces are imported. -/
inductive CoversType (s : Schema) (imports : List String) : String → Prop
  | keyword {text : String} (h : text ∈ typeKeywords) : CoversType s imports text
  | declared {text : String} (h : s.HasType text) : CoversType s imports text
  | plain {text n : String} (h : (text, n) ∈ plainTypeNamespaces) (hn : n ∈ imports) :
      CoversType s imports text
  | generic {outer argument n : String} (h : (outer, n) ∈ genericTypeNamespaces)
      (hn : n ∈ imports) (hargument : CoversType s imports argument) :
      CoversType s imports (genericText outer argument)
  | optional {text : String} (h : CoversType s imports text) : CoversType s imports (text ++ "?")
  | array {text : String} (h : CoversType s imports text) : CoversType s imports (text ++ "[]")

variable {s : Schema} {imports : List String} {text n : String}

/-- The last character of a text, which tells how the type is made. -/
def lastChar? (text : String) : Option Char := text.toList.getLast?

/-- A type with an argument ends in a bracket. -/
@[simp] theorem lastChar?_genericText (outer argument : String) :
    lastChar? (genericText outer argument) = some '>' := by
  rw [lastChar?, genericText, String.toList_append, List.getLast?_append]
  rfl

/-- A type whose value may be absent ends in a question mark. -/
@[simp] theorem lastChar?_optional (text : String) : lastChar? (text ++ "?") = some '?' := by
  simp [lastChar?]

/-- An array ends in square brackets. -/
@[simp] theorem lastChar?_array (text : String) : lastChar? (text ++ "[]") = some ']' := by
  simp [lastChar?]

/-- The text does not have the form of a type made from another. -/
def IsWord (text : String) : Prop := lastChar? text ∉ [some '>', some '?', some ']']

instance (text : String) : Decidable (IsWord text) :=
  inferInstanceAs (Decidable (_ ∉ _))

/-- A type of the framework that takes no argument is a word. -/
private theorem isWord_of_plain (h : (text, n) ∈ plainTypeNamespaces) : IsWord text := by
  have hall : ∀ e ∈ plainTypeNamespaces, IsWord e.1 := by decide
  exact hall _ h

/-- A type that the language has a word for is a word. -/
private theorem isWord_of_keyword (h : text ∈ typeKeywords) : IsWord text := by
  have hall : ∀ word ∈ typeKeywords, IsWord word := by decide
  exact hall _ h

/-- The types that take no argument are all of the base namespace. -/
private theorem eq_systemNamespace_of_mem (h : (text, n) ∈ plainTypeNamespaces) :
    n = systemNamespace := by
  have hall : ∀ e ∈ plainTypeNamespaces, e.2 = systemNamespace := by decide
  exact hall _ h

/-- The name of a type that takes an argument holds no bracket itself. -/
private theorem notMem_of_mem_genericTypeNamespaces (h : (text, n) ∈ genericTypeNamespaces) :
    '<' ∉ text.toList := by
  have hall : ∀ e ∈ genericTypeNamespaces, '<' ∉ e.1.toList := by decide
  exact hall _ h

/-- A name of the framework is of one namespace. -/
private theorem genericTypeNamespaces_unique {n' : String} (h : (text, n) ∈ genericTypeNamespaces)
    (h' : (text, n') ∈ genericTypeNamespaces) : n = n' := by
  have hall : ∀ e ∈ genericTypeNamespaces, ∀ e' ∈ genericTypeNamespaces, e.1 = e'.1 →
      e.2 = e'.2 := by decide
  exact hall _ h _ h' rfl

/-- An attribute of the framework is of one namespace. -/
private theorem attributeNamespaces_unique {n' : String} (h : (text, n) ∈ attributeNamespaces)
    (h' : (text, n') ∈ attributeNamespaces) : n = n' := by
  have hall : ∀ e ∈ attributeNamespaces, ∀ e' ∈ attributeNamespaces, e.1 = e'.1 →
      e.2 = e'.2 := by decide
  exact hall _ h _ h' rfl

/-- A type with an argument tells both, as the first bracket is not in its name. -/
theorem genericText_inj {outer outer' argument argument' : String} (h : '<' ∉ outer.toList)
    (h' : '<' ∉ outer'.toList) (heq : genericText outer argument = genericText outer' argument') :
    outer = outer' ∧ argument = argument' := by
  -- the name is what stands in front of the first bracket
  have houter : ∀ {outer argument : String}, '<' ∉ outer.toList →
      (genericText outer argument).toList.takeWhile (· != '<') = outer.toList := by
    intro outer argument hno
    have hall : ∀ c ∈ outer.toList, (c != '<') = true := by
      intro c hc
      rw [bne_iff_ne]
      rintro rfl
      exact hno hc
    simp [genericText, List.takeWhile_append_of_pos hall]
  obtain rfl : outer = outer' := String.ext (by rw [← houter h, heq, houter h'])
  refine ⟨rfl, ?_⟩
  unfold genericText at heq
  exact (String.append_right_inj _).mp ((String.append_left_inj _).mp heq)

namespace UsesType

/-- A word uses what it names. -/
theorem of_word (h : UsesType s text n) (hword : IsWord text) :
    (text, n) ∈ plainTypeNamespaces := by
  -- only the first way of using a namespace is left, as the others end in a mark of their own
  unfold IsWord at hword
  cases h with
  | plain h => exact h
  | generic => simp at hword
  | argument => simp at hword
  | optional => simp at hword
  | array => simp at hword

/-- A type with an argument uses what either of the two uses. -/
private theorem of_generic {outer argument : String} (h : UsesType s (genericText outer argument) n)
    (houter : '<' ∉ outer.toList) :
    (outer, n) ∈ genericTypeNamespaces ∨ UsesType s argument n := by
  -- the text is named first, so that the cases can tell what it was made from
  generalize hwhole : genericText outer argument = whole at h
  have hlast : lastChar? whole = some '>' := by rw [← hwhole, lastChar?_genericText]
  cases h with
  | plain h => exact absurd (isWord_of_plain h) (by simp [IsWord, hlast])
  | generic _ h =>
    obtain ⟨rfl, rfl⟩ := genericText_inj houter (notMem_of_mem_genericTypeNamespaces h) hwhole
    exact .inl h
  | argument _ houter' h =>
    obtain ⟨rfl, rfl⟩ := genericText_inj houter houter' hwhole
    exact .inr h
  | optional => simp at hlast
  | array => simp at hlast

/-- A type whose value may be absent uses what the type itself uses. -/
private theorem of_optional (h : UsesType s (text ++ "?") n) : UsesType s text n := by
  -- as for a type with an argument, by the last character
  generalize hwhole : text ++ "?" = whole at h
  have hlast : lastChar? whole = some '?' := by rw [← hwhole, lastChar?_optional]
  cases h with
  | plain h => exact absurd (isWord_of_plain h) (by simp [IsWord, hlast])
  | generic => simp at hlast
  | argument => simp at hlast
  | optional _ h => rwa [(String.append_left_inj _).mp hwhole]
  | array => simp at hlast

/-- An array uses what its elements use. -/
private theorem of_array (h : UsesType s (text ++ "[]") n) : UsesType s text n := by
  generalize hwhole : text ++ "[]" = whole at h
  have hlast : lastChar? whole = some ']' := by rw [← hwhole, lastChar?_array]
  cases h with
  | plain h => exact absurd (isWord_of_plain h) (by simp [IsWord, hlast])
  | generic => simp at hlast
  | argument => simp at hlast
  | optional => simp at hlast
  | array _ h => rwa [(String.append_left_inj _).mp hwhole]

/-- The name of a type of the schema uses nothing, unless it is that of a type of the framework
    as well. -/
private theorem of_hasType (h : UsesType s text n) (hs : s.HasType text) :
    (text, n) ∈ plainTypeNamespaces := by
  -- the schema's own name stands against every reading but that of a word
  cases h with
  | plain h => exact h
  | generic hwhole => exact absurd hs hwhole
  | argument hwhole => exact absurd hs hwhole
  | optional hwhole => exact absurd hs hwhole
  | array hwhole => exact absurd hs hwhole

/-- There are no other namespaces than a file of all declarations imports. -/
private theorem mem_allImports (h : UsesType s text n) : n ∈ allImports := by
  -- both tables are finite, so they are searched
  have hplain : ∀ e ∈ plainTypeNamespaces, e.2 ∈ allImports := by decide
  have hgeneric : ∀ e ∈ genericTypeNamespaces, e.2 ∈ allImports := by decide
  induction h with
  | plain h => exact hplain _ h
  | generic _ h => exact hgeneric _ h
  | argument _ _ _ ih => exact ih
  | optional _ _ ih => exact ih
  | array _ _ ih => exact ih

end UsesType

/-- A text of a type uses nothing but the imported namespaces it was built from, where the base
    namespace is one of them. -/
theorem CoversType.mem_imports (h : CoversType s imports text) (hsystem : systemNamespace ∈ imports)
    (hu : UsesType s text n) : n ∈ imports := by
  have hplain : ∀ {text}, (text, n) ∈ plainTypeNamespaces → n ∈ imports := by
    intro text h
    obtain rfl := eq_systemNamespace_of_mem h
    exact hsystem
  -- by the way the text was built; its last character rules out that it is read in another way
  induction h with
  | keyword h => exact hplain (hu.of_word (isWord_of_keyword h))
  | declared h => exact hplain (hu.of_hasType h)
  | plain h => exact hplain (hu.of_word (isWord_of_plain h))
  -- the name outside is of one namespace only, and the argument is covered in its turn
  | generic h hn _ ih =>
    rcases hu.of_generic (notMem_of_mem_genericTypeNamespaces h) with hu | hu
    · exact genericTypeNamespaces_unique h hu ▸ hn
    · exact ih hu
  | optional _ ih => exact ih hu.of_optional
  | array _ ih => exact ih hu.of_array

/-! ### Types of members -/

/-- A primitive type is a word of the language, a type of the base namespace or an array of bytes.
    -/
private theorem coversType_primitiveName (hsystem : systemNamespace ∈ imports) (b : Primitive) :
    CoversType s imports (CSharp.primitiveName b) := by
  -- the binary type is the only one that is made from another
  cases b with
  | binary => exact .array (show CoversType s imports "byte" from .keyword (by decide))
  | dateTime => exact .plain (n := systemNamespace) (by decide) hsystem
  | dateTimeOffset => exact .plain (n := systemNamespace) (by decide) hsystem
  | guid => exact .plain (n := systemNamespace) (by decide) hsystem
  | time => exact .plain (n := systemNamespace) (by decide) hsystem
  | _ => exact .keyword (by decide)

/-- A type of a scalar property can be written where the base namespace is imported. -/
theorem coversType_of_mapType {reference owner : String} {mapped : CSharp.MappedType}
    (hsystem : systemNamespace ∈ imports) (h : CSharp.mapType s reference owner = .ok mapped)
    (p : Property) : CoversType s imports (propertyTypeName mapped p) := by
  have hname : CoversType s imports mapped.name := by
    -- the reference is primitive, or names a type of the schema
    unfold CSharp.mapType at h
    split at h
    · obtain rfl := Except.ok.inj h
      exact coversType_primitiveName hsystem _
    · obtain ⟨t, ht, rfl⟩ := map_eq_ok_iff.mp h
      exact .declared (Schema.hasType_of_findType? (Schema.resolveType_eq_ok_iff.mp ht))
  -- an absent value adds the mark to whatever the type is
  unfold propertyTypeName
  split
  · exact .optional hname
  · exact hname

/-- An entity type that a reference leads to is a type of the schema. -/
private theorem hasType_of_resolveEntityType {reference owner : String} {t : EntityType}
    (h : s.resolveEntityType reference owner = .ok t) : s.HasType t.name :=
  Schema.hasType_of_findType? (Schema.resolveEntityType_eq_ok_iff.mp h)

/-- A type of a navigation property can be written where the collections are imported. -/
private theorem coversType_of_resolveNavigation {owner : String} {navigation : NavigationProperty}
    {target : NavigationTarget} (hcollections : collectionsNamespace ∈ imports)
    (h : resolveNavigation s owner navigation = .ok target) (collection : CollectionType) :
    CoversType s imports (navigationTypeName collection target) := by
  have htarget : CoversType s imports target.typeName := by
    -- of the five look-ups only that of the far type matters here
    obtain ⟨a, far, near, t, inverse, -, -, -, ht, -, rfl⟩ := exists_of_resolveNavigation h
    exact .declared (hasType_of_resolveEntityType ht)
  -- lists and sets differ in the name alone
  have hcollection : ∀ name, (name, collectionsNamespace) ∈ genericTypeNamespaces →
      CoversType s imports (genericText name target.typeName) :=
    fun _ h => .generic h hcollections htarget
  unfold navigationTypeName
  split
  · cases collection with
    | array => exact .array htarget
    | list => exact hcollection "List" (by decide)
    | set => exact hcollection "HashSet" (by decide)
  · exact htarget

/-! ### Steps of a body -/

/-- The attribute, if the step is one, and the types of the members that the step writes can be
    written where the given namespaces are imported, and the bases of a header use no other. -/
def StepCovered (s : Schema) (imports : List String) : Step → Prop
  | .attributed name _ => ∃ n ∈ imports, (name, n) ∈ attributeNamespaces
  | .property line => CoversType s imports line.typeName
  | .enumeration _ _ underlying _ => CoversType s imports underlying
  | .openType header => ∀ base ∈ header.bases, ∀ n, UsesType s base n → n ∈ imports
  | _ => True

/-- A covered step uses nothing but the imported namespaces. -/
theorem StepCovered.mem_imports {step : Step} (h : StepCovered s imports step)
    (hsystem : systemNamespace ∈ imports) (hu : UsesNamespace s step n) : n ∈ imports := by
  cases hu with
  | ofAttribute hn =>
    -- the attribute found in the table is the one that is used, as names do not repeat in it
    obtain ⟨n', hmem, hn'⟩ := h
    rwa [attributeNamespaces_unique hn hn']
  | ofType htext hu =>
    -- a step of any other kind names no type
    cases step with
    | property line =>
      obtain rfl := List.mem_singleton.mp htext
      exact CoversType.mem_imports h hsystem hu
    | enumeration name members underlying access =>
      obtain rfl := List.mem_singleton.mp htext
      exact CoversType.mem_imports h hsystem hu
    | openType header => exact h _ htext n hu
    | _ => exact absurd htext List.not_mem_nil

/-- The comment of a declaration names no type. -/
private theorem stepCovered_documentationSteps (m : Metadata) :
    ∀ step ∈ documentationSteps m, StepCovered s imports step := by
  unfold documentationSteps
  split
  · exact List.forall_mem_nil _
  · simp [StepCovered]

/-- Members with an empty line between any two are covered if each of them is. -/
private theorem stepCovered_separate {members : List (List Step)}
    (h : ∀ m ∈ members, ∀ step ∈ m, StepCovered s imports step) :
    -- the empty line itself is always covered
    ∀ step ∈ separate members, StepCovered s imports step := by
  induction members using separate.induct with
  | case1 => exact List.forall_mem_nil _
  | case2 m => exact h m List.mem_cons_self
  | case3 m rest hrest ih =>
    obtain ⟨hm, hms⟩ := List.forall_mem_cons.mp h
    rw [separate, List.forall_mem_append, List.forall_mem_cons]
    · exact ⟨hm, True.intro, ih hms⟩
    · exact hrest

/-- A type is covered if its header and all of its members are. -/
theorem stepCovered_typeSteps {members : List (List Step)} {m : Metadata}
    {header : CSharp.TypeHeader} (hheader : StepCovered s imports (.openType header))
    (h : ∀ m ∈ members, ∀ step ∈ m, StepCovered s imports step) :
    -- the header and the closing brace around the members
    ∀ step ∈ typeSteps m header members, StepCovered s imports step := by
  unfold typeSteps
  rw [List.forall_mem_append, List.forall_mem_append, List.forall_mem_cons,
    List.forall_mem_singleton]
  exact ⟨⟨stepCovered_documentationSteps m, hheader, stepCovered_separate h⟩, True.intro⟩

/-- A member is covered if its attributes and its line are. -/
theorem stepCovered_member {attributes : List Step} {m : Metadata} {line : AutoProperty}
    (hattributes : ∀ step ∈ attributes, StepCovered s imports step)
    (hline : CoversType s imports line.typeName) :
    ∀ step ∈ documentationSteps m ++ attributes ++ [.property line],
      StepCovered s imports step := by
  simp only [List.forall_mem_append, List.forall_mem_singleton]
  exact ⟨⟨stepCovered_documentationSteps m, hattributes⟩, hline⟩

/-- An attribute that is written under a condition is covered if it is where it holds. -/
private theorem stepCovered_stepIf {condition : Bool} {name : String} {arguments : List String}
    (h : StepCovered s imports (.attributed name arguments)) :
    ∀ step ∈ stepIf condition (.attributed name arguments), StepCovered s imports step := by
  unfold stepIf
  split
  · exact List.forall_mem_singleton.mpr h
  · exact List.forall_mem_nil _

section

variable (hannotations : annotationsNamespace ∈ imports) (hmapping : mappingNamespace ∈ imports)

include hannotations hmapping

/-- The attributes of a scalar property are annotations. -/
private theorem stepCovered_propertyAttributes (mapped : CSharp.MappedType) (p : Property)
    (isKey : Bool) : ∀ step ∈ propertyAttributes mapped p isKey, StepCovered s imports step := by
  intro step hstep
  -- one case for each attribute that a scalar property can bear
  obtain ⟨name, arguments, rfl⟩ := isAttribute_propertyAttributes _ _ _ step hstep
  obtain ⟨-, rfl, -⟩ | ⟨-, rfl, -⟩ | ⟨_, -, -, rfl, -⟩ | hstore | ⟨-, rfl, -⟩ :=
    mem_propertyAttributes_iff.mp hstep
  · exact ⟨_, hannotations, by decide⟩
  · exact ⟨_, hannotations, by decide⟩
  · exact ⟨_, hannotations, by decide⟩
  · obtain ⟨rfl, -⟩ := eq_of_mem_storeGenerationSteps hstore
    exact ⟨_, hmapping, by decide⟩
  · exact ⟨_, hannotations, by decide⟩

/-- The attributes of a navigation property are annotations. -/
private theorem stepCovered_navigationAttributes (target : NavigationTarget)
    (navigation : NavigationProperty) :
    ∀ step ∈ navigationAttributes target navigation, StepCovered s imports step := by
  intro step hstep
  -- one case for each attribute that a navigation property can bear
  obtain ⟨name, arguments, rfl⟩ := isAttribute_navigationAttributes _ _ step hstep
  obtain ⟨-, _, -, rfl, -⟩ | ⟨_, -, rfl, -⟩ | ⟨-, rfl, -⟩ := mem_navigationAttributes_iff.mp hstep
  · exact ⟨_, hmapping, by decide⟩
  · exact ⟨_, hmapping, by decide⟩
  · exact ⟨_, hannotations, by decide⟩

/-- The steps of a scalar property are covered. -/
private theorem stepCovered_propertySteps {owner : String} {isKey : Bool} {p : Property}
    {steps : List Step} (hsystem : systemNamespace ∈ imports)
    (h : (propertySteps s owner isKey p).outcome = .ok steps) :
    ∀ step ∈ steps, StepCovered s imports step := by
  rw [outcome_propertySteps] at h
  obtain ⟨mapped, hmapped, rfl⟩ := map_eq_ok_iff.mp h
  exact stepCovered_member (stepCovered_propertyAttributes hannotations hmapping mapped p isKey)
    (coversType_of_mapType hsystem hmapped p)

/-- The steps of a navigation property are covered. -/
private theorem stepCovered_navigationSteps {collection : CollectionType} {lazyLoading : Bool}
    {owner : String} {navigation : NavigationProperty} {steps : List Step}
    (hcollections : collectionsNamespace ∈ imports)
    (h : (navigationSteps s collection lazyLoading owner navigation).outcome = .ok steps) :
    ∀ step ∈ steps, StepCovered s imports step := by
  rw [outcome_navigationSteps] at h
  obtain ⟨target, htarget, rfl⟩ := map_eq_ok_iff.mp h
  exact stepCovered_member
    (stepCovered_navigationAttributes hannotations hmapping target navigation)
    (coversType_of_resolveNavigation hcollections htarget collection)

end

/-! ### Bodies of declarations -/

variable {settings : Settings} {item : Item} {steps : List Step}

/-- The body of an enum names its underlying type and at most one attribute. -/
private theorem stepCovered_enumSteps {t : EnumType} (h : (enumSteps t).outcome = .ok steps) :
    ∀ step ∈ steps, StepCovered s (Item.enumType t).imports step := by
  rw [outcome_enumSteps] at h
  obtain rfl := Except.ok.inj h
  rw [List.forall_mem_append, List.forall_mem_append, List.forall_mem_singleton]
  -- the attribute of flags is of the base namespace, and underlying types are words
  refine ⟨⟨stepCovered_documentationSteps _, stepCovered_stepIf ?_⟩, .keyword ?_⟩
  · exact ⟨systemNamespace, List.mem_cons_self, by decide⟩
  · cases t.underlyingType <;> decide

/-- The body of a complex type is covered. -/
private theorem stepCovered_complexSteps {t : ComplexType}
    (h : (complexSteps settings s t).outcome = .ok steps) :
    ∀ step ∈ steps, StepCovered s (Item.complexType t).imports step := by
  rw [outcome_complexSteps] at h
  obtain ⟨members, hmembers, rfl⟩ := map_eq_ok_iff.mp h
  -- a complex type has no base
  refine stepCovered_typeSteps (List.forall_mem_nil _) fun m hm => ?_
  obtain ⟨p, -, hp⟩ := exists_of_mem_mapM hmembers hm
  exact stepCovered_propertySteps (by simp [Item.imports]) (by simp [Item.imports])
    (by simp [Item.imports]) hp

/-- The base type of a container is any text, but its file imports all that there is. -/
private theorem stepCovered_containerSteps {c : EntityContainer}
    (h : (containerSteps settings s c).outcome = .ok steps) :
    ∀ step ∈ steps, StepCovered s (Item.entityContainer c).imports step := by
  rw [outcome_containerSteps] at h
  obtain ⟨members, hmembers, rfl⟩ := map_eq_ok_iff.mp h
  -- whatever the base type uses is imported, as no namespace of the framework is left out
  refine stepCovered_typeSteps (fun _ _ _ hu => hu.mem_allImports) fun m hm => ?_
  obtain ⟨set, -, hset⟩ := exists_of_mem_mapM hmembers hm
  obtain ⟨t, ht, rfl⟩ := map_eq_ok_iff.mp hset
  have hsets : CoversType s (Item.entityContainer c).imports (genericText "DbSet" t.name) :=
    .generic (n := entityFrameworkNamespace) (by decide) (by simp [Item.imports, allImports])
      (.declared (hasType_of_resolveEntityType ht))
  rw [entitySetSteps, List.forall_mem_append, List.forall_mem_singleton]
  exact ⟨stepCovered_documentationSteps _, hsets⟩

/-- The base that a header names is a type of the schema. -/
private theorem hasType_of_resolveBase {t : EntityType} {base : Option String}
    (h : resolveBase s t = .ok base) : ∀ name ∈ base, s.HasType name := by
  unfold resolveBase at h
  -- no base, or one that the schema resolves
  split at h
  · obtain rfl := Except.ok.inj h
    simp
  · obtain ⟨b, hb, rfl⟩ := map_eq_ok_iff.mp h
    rintro _ ⟨⟩
    exact hasType_of_resolveEntityType hb

/-- The body of an entity type is covered. -/
private theorem stepCovered_entitySteps {t : EntityType}
    (h : (entitySteps settings s t).outcome = .ok steps) :
    ∀ step ∈ steps, StepCovered s (Item.entityType t).imports step := by
  rw [outcome_entitySteps] at h
  obtain ⟨base, hbase, h⟩ := bind_eq_ok_iff.mp h
  obtain ⟨properties, hproperties, h⟩ := bind_eq_ok_iff.mp h
  obtain ⟨navigations, hnavigations, h⟩ := bind_eq_ok_iff.mp h
  obtain rfl := Except.ok.inj h
  -- an entity type imports the four namespaces that its members may need
  have hsystem : systemNamespace ∈ (Item.entityType t).imports := List.mem_cons_self
  have hannotations : annotationsNamespace ∈ (Item.entityType t).imports := by
    simp [Item.imports]
  have hmapping : mappingNamespace ∈ (Item.entityType t).imports := by simp [Item.imports]
  refine stepCovered_typeSteps (fun name hname n hu => ?_)
    (List.forall_mem_append.mpr ⟨fun m hm => ?_, fun m hm => ?_⟩)
  -- the base type is declared, so it uses at most the base namespace
  · have hdeclared := hasType_of_resolveBase hbase name (Option.mem_toList.mp hname)
    exact (CoversType.declared hdeclared).mem_imports hsystem hu
  · obtain ⟨p, -, hp⟩ := exists_of_mem_mapM hproperties hm
    exact stepCovered_propertySteps hannotations hmapping hsystem hp
  · obtain ⟨n, -, hn⟩ := exists_of_mem_mapM hnavigations hm
    exact stepCovered_navigationSteps hannotations hmapping (by simp [Item.imports]) hn

/-- The imports of a declaration cover its body: every attribute in it is one of the framework and
    of an imported namespace, every type that its members are of can be written with the imported
    namespaces, and no step uses another namespace of the framework. -/
theorem imports_cover_body (h : (body settings s item).outcome = .ok steps) :
    ∀ step ∈ steps, StepCovered s item.imports step ∧
      ∀ n, UsesNamespace s step n → n ∈ item.imports := by
  -- one lemma for each kind of declaration, with the imports of its kind
  have hcovered : ∀ step ∈ steps, StepCovered s item.imports step := by
    cases item with
    | enumType t => exact stepCovered_enumSteps h
    | complexType t => exact stepCovered_complexSteps h
    | entityContainer c => exact stepCovered_containerSteps h
    | entityType t => exact stepCovered_entitySteps h
  have hsystem : systemNamespace ∈ item.imports := by cases item <;> exact List.mem_cons_self
  exact fun step hstep =>
    ⟨hcovered step hstep, fun n hu => (hcovered step hstep).mem_imports hsystem hu⟩

/-- An entity type with a navigation property to many. -/
def authorType : EntityType :=
  { name := "Author"
    navigationProperties :=
      [{ name := "Books", relationship := "Writes", fromRole := "author", toRole := "book" }] }

/-- Its schema. -/
def librarySchema : Schema :=
  { name := "Library"
    entityTypes := [authorType, { name := "Book" }]
    associations :=
      [{ name := "Writes", first := ⟨"author", "Author", .one⟩, second := ⟨"book", "Book", .many⟩ }] }

/-- The line of its property. -/
def booksLine : AutoProperty := { name := "Books", typeName := "List<Book>" }

/-- The class of the entity type uses a collection, and imports the namespace of the collections. -/
theorem collections_are_imported :
    ∃ steps, (body {} librarySchema (.entityType authorType)).outcome = .ok steps ∧
      .property booksLine ∈ steps ∧
      UsesNamespace librarySchema (.property booksLine) collectionsNamespace ∧
      collectionsNamespace ∈ (Item.entityType authorType).imports := by
  obtain ⟨steps, hsteps, hline⟩ : ∃ steps,
      (body {} librarySchema (.entityType authorType)).outcome = .ok steps ∧
        .property booksLine ∈ steps := ⟨_, rfl, by decide +kernel⟩
  have huses : UsesNamespace librarySchema (.property booksLine) collectionsNamespace := by
    -- the list is not itself the name of a type of the schema
    refine .ofType List.mem_cons_self
      (show UsesType librarySchema (genericText "List" "Book") _ from .generic ?_ (by decide))
    rintro ⟨t, ht, hname⟩
    revert t
    decide +kernel
  exact ⟨steps, hsteps, hline, huses, (imports_cover_body hsteps _ hline).2 _ huses⟩

end Generation

end EntityModel
