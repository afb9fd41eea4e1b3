import EntityModel.Proofs.ClassLines
import EntityModel.Proofs.KeyProperties

/-!
# Lines of scalar properties

Every line in the text of a declaration is accounted for: a class has its header and the lines of
its members, an enum those of its values.  What stands in the lines of a scalar property is told by
its declaration and by the type that it names.  A type held by value is marked where the value may be
absent; a type held by reference makes the property required where it may not.

* `mapsTo_of_mapType`                                      the C# types of properties
* `required_mem_iff`, `key_mem_iff`, `maxLength_mem_iff`   attributes by their texts
* `DeclarationWritten`                                     the lines of any declaration
* `scalar_properties_have_one_line`                        the classes in the files of a schema
-/

namespace EntityModel.Generation

open CSharp (Step Line AutoProperty IsCommentText IsPropertyText MemberLines)

/-! ### C# types of properties -/

/-- The C# type that a type reference stands for, and whether it is held by value: built-in types
    but for strings and byte arrays are, and so are declared complex types and enums. -/
inductive MapsTo (s : Schema) (reference : String) : (name : String) → (isValue : Bool) → Prop
  | heldByValue {b : Primitive} (h : Primitive.read? reference = some b) (hstring : b ≠ .string)
      (hbinary : b ≠ .binary) : MapsTo s reference (CSharp.primitiveName b) true
  | string (h : Primitive.read? reference = some .string) : MapsTo s reference "string" false
  | binary (h : Primitive.read? reference = some .binary) : MapsTo s reference "byte[]" false
  | entity {t : EntityType} (hnone : Primitive.read? reference = none)
      (h : s.findType? (s.localName reference) = some (.entity t)) : MapsTo s reference t.name false
  | complex {t : ComplexType} (hnone : Primitive.read? reference = none)
      (h : s.findType? (s.localName reference) = some (.complex t)) : MapsTo s reference t.name true
  | enum {t : EnumType} (hnone : Primitive.read? reference = none)
      (h : s.findType? (s.localName reference) = some (.enum t)) : MapsTo s reference t.name true

/-- A type that is mapped is the one that its reference stands for. -/
theorem mapsTo_of_mapType {s : Schema} {reference owner : String} {mapped : CSharp.MappedType}
    (h : CSharp.mapType s reference owner = .ok mapped) :
    MapsTo s reference mapped.name mapped.isValueType := by
  unfold CSharp.mapType at h
  -- a built-in type is looked at first, and no other way leads to its C# name
  split at h
  · rename_i b hb
    obtain rfl := Except.ok.inj h
    cases b with
    | string => exact .string hb
    | binary => exact .binary hb
    | _ => exact .heldByValue hb (by decide) (by decide)
  -- what is no built-in type has to be declared, and the declaration tells how it is held
  · rename_i hnone
    obtain ⟨t, ht, rfl⟩ := map_eq_ok_iff.mp h
    have hfind := Schema.resolveType_eq_ok_iff.mp ht
    cases t with
    | entity t => exact .entity hnone hfind
    | complex t => exact .complex hnone hfind
    | enum t => exact .enum hnone hfind

/-! ### Attributes of a scalar property -/

/-- The text tells the length. -/
private theorem maxLengthText_inj {m n : Nat} (h : maxLengthText m = maxLengthText n) : m = n := by
  -- the digits between the brackets are read back
  have hdigits : m.repr = n.repr := (String.append_right_inj _).mp ((String.append_left_inj _).mp h)
  calc m = Nat.ofDigitChars 10 (Nat.toDigits 10 m) 0 := Nat.ofDigitChars_ten_toDigits.symm
    _ = Nat.ofDigitChars 10 (Nat.toDigits 10 n) 0 := by
      rw [← Nat.toList_repr, ← Nat.toList_repr, hdigits]
    _ = n := Nat.ofDigitChars_ten_toDigits

/-- A text that does not begin as the attribute for a largest length does is none. -/
theorem maxLengthText_ne {text : String} (h : ¬ "[MaxLength(".toList <+: text.toList) (n : Nat) :
    text ≠ maxLengthText n := by
  rintro rfl
  refine h ⟨(toString n ++ ")]").toList, ?_⟩
  simp [maxLengthText]

variable {s : Schema} {mapped : CSharp.MappedType} {p : Property} {isKey : Bool}

/-- The texts of the attributes of a scalar property. -/
theorem mem_attributeTexts_propertyAttributes_iff {text : String} :
    text ∈ attributeTexts (propertyAttributes mapped p isKey) ↔
      (isKey = true ∧ text = "[Key]") ∨
      (p.concurrencyMode = .fixed ∧ text = "[ConcurrencyCheck]") ∨
      (∃ n, p.maxLength = some n ∧ 0 < n ∧ text = maxLengthText n) ∨
      (text ∈ attributeTexts (storeGenerationSteps p.storeGeneration)) ∨
      (isRequired mapped p = true ∧ text = "[Required]") := by
  have hlength : ∀ n : Nat, CSharp.attributeText "MaxLength" [toString n] = maxLengthText n := by
    intro n
    simp [CSharp.attributeText, maxLengthText]
  rw [mem_attributeTexts_iff, mem_attributeTexts_iff]
  simp only [mem_propertyAttributes_iff]
  -- the parts stand in the order in which they are written, and each adds one attribute at most
  constructor
  · rintro ⟨_, _, ⟨h, rfl, rfl⟩ | ⟨h, rfl, rfl⟩ | ⟨n, h, hn, rfl, rfl⟩ | h | ⟨h, rfl, rfl⟩, rfl⟩
    · exact .inl ⟨h, rfl⟩
    · exact .inr (.inl ⟨h, rfl⟩)
    · exact .inr (.inr (.inl ⟨n, h, hn, hlength n⟩))
    · exact .inr (.inr (.inr (.inl ⟨_, _, h, rfl⟩)))
    · exact .inr (.inr (.inr (.inr ⟨h, rfl⟩)))
  · rintro (⟨h, rfl⟩ | ⟨h, rfl⟩ | ⟨n, h, hn, rfl⟩ | ⟨_, _, h, rfl⟩ | ⟨h, rfl⟩)
    · exact ⟨_, _, .inl ⟨h, rfl, rfl⟩, rfl⟩
    · exact ⟨_, _, .inr (.inl ⟨h, rfl, rfl⟩), rfl⟩
    · exact ⟨_, _, .inr (.inr (.inl ⟨n, h, hn, rfl, rfl⟩)), hlength n⟩
    · exact ⟨_, _, .inr (.inr (.inr (.inl h))), rfl⟩
    · exact ⟨_, _, .inr (.inr (.inr (.inr ⟨h, rfl, rfl⟩))), rfl⟩

/-- The text of the attribute for a value that the store computes. -/
theorem eq_of_mem_storeGenerationTexts {g : StoreGeneration} {text : String}
    (h : text ∈ attributeTexts (storeGenerationSteps g)) :
    text = "[DatabaseGenerated(DatabaseGeneratedOption.Identity)]" ∨
      text = "[DatabaseGenerated(DatabaseGeneratedOption.Computed)]" := by
  cases g with
  | never => exact absurd h List.not_mem_nil
  | identity => exact .inl (List.mem_singleton.mp h)
  | computed => exact .inr (List.mem_singleton.mp h)

/-- A property is marked as required exactly if its type is held by reference and its value may not
    be absent. -/
theorem required_mem_iff :
    "[Required]" ∈ attributeTexts (propertyAttributes mapped p isKey) ↔
      mapped.isValueType = false ∧ p.nullable = false := by
  have hrequired : isRequired mapped p = true ↔ mapped.isValueType = false ∧ p.nullable = false := by
    simp [isRequired]
  rw [mem_attributeTexts_propertyAttributes_iff, ← hrequired]
  constructor
  -- no other attribute has this text, so only the last part can have written it
  · rintro (⟨-, h⟩ | ⟨-, h⟩ | ⟨n, -, -, h⟩ | h | ⟨h, -⟩)
    · exact absurd h (by decide)
    · exact absurd h (by decide)
    · exact absurd h (maxLengthText_ne (by decide) n)
    · exact absurd (eq_of_mem_storeGenerationTexts h) (by decide)
    · exact h
  · exact fun h => .inr (.inr (.inr (.inr ⟨h, rfl⟩)))

/-- A property is marked as a key exactly if it is part of the key. -/
theorem key_mem_iff :
    "[Key]" ∈ attributeTexts (propertyAttributes mapped p isKey) ↔ isKey = true := by
  rw [mem_attributeTexts_propertyAttributes_iff]
  constructor
  · rintro (⟨h, -⟩ | ⟨-, h⟩ | ⟨n, -, -, h⟩ | h | ⟨-, h⟩)
    · exact h
    · exact absurd h (by decide)
    · exact absurd h (maxLengthText_ne (by decide) n)
    · exact absurd (eq_of_mem_storeGenerationTexts h) (by decide)
    · exact absurd h (by decide)
  · exact fun h => .inl ⟨h, rfl⟩

/-- A property has the attribute for a largest length exactly if it declares one that is not zero.
    -/
theorem maxLength_mem_iff {n : Nat} :
    maxLengthText n ∈ attributeTexts (propertyAttributes mapped p isKey) ↔
      p.maxLength = some n ∧ 0 < n := by
  rw [mem_attributeTexts_propertyAttributes_iff]
  constructor
  · rintro (⟨-, h⟩ | ⟨-, h⟩ | ⟨m, hm, hpos, h⟩ | h | ⟨-, h⟩)
    · exact absurd h.symm (maxLengthText_ne (by decide) n)
    · exact absurd h.symm (maxLengthText_ne (by decide) n)
    -- two lengths with one text are one length
    · obtain rfl := maxLengthText_inj h
      exact ⟨hm, hpos⟩
    · rcases eq_of_mem_storeGenerationTexts h with h | h
      · exact absurd h.symm (maxLengthText_ne (by decide) n)
      · exact absurd h.symm (maxLengthText_ne (by decide) n)
    · exact absurd h.symm (maxLengthText_ne (by decide) n)
  · exact fun h => .inr (.inr (.inl ⟨n, h.1, h.2, rfl⟩))

/-- Every attribute of a scalar property reads like one. -/
private theorem isAttributeText_propertyAttributes {text : String}
    (h : text ∈ attributeTexts (propertyAttributes mapped p isKey)) : IsAttributeText s text := by
  rcases mem_attributeTexts_propertyAttributes_iff.mp h with
    ⟨-, rfl⟩ | ⟨-, rfl⟩ | ⟨n, -, -, rfl⟩ | hstore | ⟨-, rfl⟩
  · exact .key
  · exact .concurrencyCheck
  · exact .maxLength n
  · rcases eq_of_mem_storeGenerationTexts hstore with rfl | rfl
    · exact .identity
    · exact .computed
  · exact .required

/-! ### Members of a class -/

/-- What the property is set to: its default value, where that has a literal of the built-in type
    that the property names. -/
def defaultText (p : Property) : String :=
  CSharp.initialText (p.defaultValue.bind fun value =>
    (Primitive.read? p.typeName).bind (CSharp.defaultLiteral? value))

/-- The lines of a scalar property: its comments and its attributes, then one line with its type and
    its name.  The type in that line is marked exactly if it is held by value and the value may be
    absent; the property is required exactly if its type is held by reference and the value may not
    be absent, so a required property has no mark. -/
structure ScalarWritten (s : Schema) (isKey : Prop) (p : Property) (m : MemberLines) : Prop where
  comments : ∀ text ∈ m.comments, IsCommentText text
  attributes : ∀ text ∈ m.attributes, IsAttributeText s text
  property : ∃ name isValue, MapsTo s p.typeName name isValue ∧
    IsPropertyText "" (if isValue ∧ p.nullable then name ++ "?" else name) p.name (defaultText p)
      m.property ∧
    ("[Required]" ∈ m.attributes ↔ isValue = false ∧ p.nullable = false) ∧
    ("[Required]" ∈ m.attributes → IsPropertyText "" name p.name (defaultText p) m.property)
  key : "[Key]" ∈ m.attributes ↔ isKey
  maxLength : ∀ n, maxLengthText n ∈ m.attributes ↔ p.maxLength = some n ∧ 0 < n

/-- The lines of a navigation property: its comments and its attributes, then one line with an
    entity type or a collection of it, and its name. -/
structure NavigationWritten (s : Schema) (n : NavigationProperty) (m : MemberLines) : Prop where
  comments : ∀ text ∈ m.comments, IsCommentText text
  attributes : ∀ text ∈ m.attributes, IsAttributeText s text
  property : ∃ t ∈ s.entityTypes, ∃ modifier ∈ ["", "virtual "],
    ∃ typeName ∈ [t.name, t.name ++ "[]", "List<" ++ t.name ++ ">", "HashSet<" ++ t.name ++ ">"],
      IsPropertyText modifier typeName n.name "" m.property

/-- The lines of an entity set: its comments and one line. -/
structure SetWritten (s : Schema) (set : EntitySet) (m : MemberLines) : Prop where
  comments : ∀ text ∈ m.comments, IsCommentText text
  attributes : m.attributes = []
  property : ∃ t ∈ s.entityTypes,
    IsPropertyText "" ("DbSet<" ++ t.name ++ ">") set.name "" m.property

/-- A literal is that of the built-in type that the property names, if it names one. -/
private theorem initializer?_eq {owner : String}
    (h : CSharp.mapType s p.typeName owner = .ok mapped) :
    initializer? mapped p =
      p.defaultValue.bind fun value =>
        (Primitive.read? p.typeName).bind (CSharp.defaultLiteral? value) := by
  unfold CSharp.mapType at h
  unfold initializer?
  -- only a built-in type has literals, so a declared type sets the property to nothing
  split at h
  · rename_i b hb
    obtain rfl := Except.ok.inj h
    rw [hb]
    rfl
  · rename_i hnone
    obtain ⟨t, -, rfl⟩ := map_eq_ok_iff.mp h
    rw [hnone]
    rfl

/-- A scalar property of a mapped type has the lines that its declaration calls for. -/
private theorem scalarWritten_of_mapType {owner : String}
    (h : CSharp.mapType s p.typeName owner = .ok mapped) :
    ScalarWritten s (isKey = true) p
      ⟨commentTexts p.toMetadata, attributeTexts (propertyAttributes mapped p isKey),
        (propertyLine mapped p).text⟩ where
  comments := fun _ => isCommentText_of_mem_commentTexts
  attributes := fun _ => isAttributeText_propertyAttributes
  property := by
    have hline := CSharp.isPropertyText_text (propertyLine mapped p)
    have htype : propertyTypeName mapped p =
        if mapped.isValueType ∧ p.nullable then mapped.name ++ "?" else mapped.name := by
      simp [propertyTypeName]
    have hdefault : CSharp.initialText (propertyLine mapped p).initializer = defaultText p :=
      congrArg _ (initializer?_eq h)
    rw [hdefault] at hline
    refine ⟨_, _, mapsTo_of_mapType h, htype ▸ hline, required_mem_iff, fun hrequired => ?_⟩
    -- a required property is held by reference, and only values are marked
    obtain ⟨hreference, -⟩ := required_mem_iff.mp hrequired
    rw [if_neg (by simp [hreference])] at htype
    exact htype ▸ hline
  key := key_mem_iff
  maxLength := fun _ => maxLength_mem_iff

/-- The lines of the scalar properties of a type. -/
theorem exists_scalarLines {owner : String} (isKey : Property → Bool)
    {properties : List Property} {members : List (List Step)}
    (h : (properties.mapM fun p => (propertySteps s owner (isKey p) p).outcome) = .ok members) :
    ∃ lines : List MemberLines,
      (∀ depth, (members.map fun m => m.flatMap (Step.insideLines depth)) =
        lines.map (MemberLines.lines depth)) ∧
      List.Forall₂ (fun p m => ScalarWritten s (isKey p = true) p m) properties lines := by
  -- property by property: what is known of each is put together for the list
  refine exists_memberLines ((mapM_eq_ok_iff.mp h).imp fun p m hm => ?_)
  rw [outcome_propertySteps] at hm
  obtain ⟨mapped, hmapped, rfl⟩ := map_eq_ok_iff.mp hm
  exact ⟨_, insideLines_member (isAttribute_propertyAttributes _ _ _) _ _,
    scalarWritten_of_mapType hmapped⟩

section Navigation

variable {owner : String} {n : NavigationProperty} {target : NavigationTarget}

/-- The type at the far end of a navigation property that resolves is an entity type. -/
private theorem exists_targetType (h : resolveNavigation s owner n = .ok target) :
    ∃ t ∈ s.entityTypes, target.typeName = t.name := by
  obtain ⟨a, far, near, t, inverse, -, -, -, ht, -, rfl⟩ := exists_of_resolveNavigation h
  exact ⟨t, Schema.mem_of_findType? (Schema.resolveEntityType_eq_ok_iff.mp ht), rfl⟩

/-- What leads back is a navigation property of an entity type. -/
private theorem exists_inverse {a : Association} {toRole : String} {i : NavigationReference}
    (h : s.inverseNavigation a toRole = .ok (some i)) :
    ∃ t ∈ s.entityTypes, ∃ n ∈ t.navigationProperties, i = ⟨t.name, n.name⟩ := by
  unfold Schema.inverseNavigation at h
  obtain ⟨x, -, h⟩ := bind_eq_ok_iff.mp h
  obtain ⟨y, -, h⟩ := bind_eq_ok_iff.mp h
  obtain ⟨t, ht, h⟩ := bind_eq_ok_iff.mp h
  obtain ⟨n, hn, rfl⟩ := Option.map_eq_some_iff.mp (Except.ok.inj h)
  exact ⟨t, Schema.mem_of_findType? (Schema.resolveEntityType_eq_ok_iff.mp ht), n,
    List.mem_of_find?_eq_some hn, rfl⟩

/-- A foreign key is a property of a half of the referential constraint. -/
private theorem exists_half {a : Association} {role name : String}
    (h : a.foreignKey? role = some name) :
    ∃ c half, a.constraint = some c ∧ half ∈ c.halves ∧ name ∈ half.properties := by
  obtain ⟨half, hhalf, hname⟩ := Option.bind_eq_some_iff.mp h
  obtain ⟨c, hc, hfind⟩ := Option.bind_eq_some_iff.mp hhalf
  exact ⟨c, half, hc, List.mem_of_find?_eq_some hfind, List.mem_of_head? hname⟩

/-- Every attribute of a navigation property that resolves reads like one. -/
private theorem isAttributeText_navigationAttributes (h : resolveNavigation s owner n = .ok target)
    {text : String} (htext : text ∈ attributeTexts (navigationAttributes target n)) :
    IsAttributeText s text := by
  obtain ⟨hassociation, -, hinverse⟩ := resolveNavigation_eq_ok h
  obtain ⟨name, arguments, hmem, rfl⟩ := mem_attributeTexts_iff.mp htext
  rcases mem_navigationAttributes_iff.mp hmem with
    ⟨-, property, hkey, rfl, rfl⟩ | ⟨i, hi, rfl, rfl⟩ | ⟨-, rfl, rfl⟩
  -- a foreign key is named by a property that some half of the constraint lists
  · obtain ⟨c, half, hc, hhalf, hproperty⟩ := exists_half hkey
    have hkeyText : CSharp.attributeText "ForeignKey" [CSharp.nameOf property] =
        "[ForeignKey(nameof(" ++ property ++ "))]" := by
      apply String.ext
      simp [CSharp.attributeText, CSharp.nameOf]
    rw [hkeyText]
    exact .foreignKey (List.mem_of_find?_eq_some hassociation) hc hhalf hproperty
  -- the inverse is named by its type and its own name, both of which are declared
  · rw [hi] at hinverse
    obtain ⟨t, ht, m, hm, rfl⟩ := exists_inverse hinverse
    have hinverseText : CSharp.attributeText "InverseProperty"
        [CSharp.nameOf (t.name ++ "." ++ m.name)] =
        "[InverseProperty(nameof(" ++ t.name ++ "." ++ m.name ++ "))]" := by
      apply String.ext
      simp [CSharp.attributeText, CSharp.nameOf]
    rw [hinverseText]
    exact .inverse ht hm
  · exact .required

/-- A navigation property that resolves has the lines that its declaration calls for. -/
private theorem navigationWritten_of_resolve (h : resolveNavigation s owner n = .ok target)
    (collection : CollectionType) (lazyLoading : Bool) :
    NavigationWritten s n
      ⟨commentTexts n.toMetadata, attributeTexts (navigationAttributes target n),
        (navigationLine collection lazyLoading target n).text⟩ where
  comments := fun _ => isCommentText_of_mem_commentTexts
  attributes := fun _ => isAttributeText_navigationAttributes h
  property := by
    have hline := CSharp.isPropertyText_text (navigationLine collection lazyLoading target n)
    obtain ⟨t, ht, htype⟩ := exists_targetType h
    -- the type of the line is one that a navigation property can have for this far end
    refine ⟨t, ht, _, ?_, _, ?_, hline⟩
    · show CSharp.Definition.text (if lazyLoading then .virtual else .sealed) ∈ _
      cases lazyLoading <;> decide
    · show navigationTypeName collection target ∈ _
      unfold navigationTypeName
      rw [htype]
      split
      · cases collection <;> simp [CollectionType.wrap]
      · exact List.mem_cons_self

end Navigation

/-- The lines of the navigation properties of a type. -/
private theorem exists_navigationLines {collection : CollectionType} {lazyLoading : Bool}
    {owner : String} {navigations : List NavigationProperty} {members : List (List Step)}
    (h : (navigations.mapM fun n => (navigationSteps s collection lazyLoading owner n).outcome) =
      .ok members) :
    ∃ lines : List MemberLines,
      (∀ depth, (members.map fun m => m.flatMap (Step.insideLines depth)) =
        lines.map (MemberLines.lines depth)) ∧
      List.Forall₂ (NavigationWritten s) navigations lines := by
  refine exists_memberLines ((mapM_eq_ok_iff.mp h).imp fun n m hm => ?_)
  rw [outcome_navigationSteps] at hm
  obtain ⟨target, htarget, rfl⟩ := map_eq_ok_iff.mp hm
  exact ⟨_, insideLines_member (isAttribute_navigationAttributes _ _) _ _,
    navigationWritten_of_resolve htarget _ _⟩

/-- The lines of an entity set, which has no attributes. -/
private theorem exists_setLines {set : EntitySet} {t : EntityType} (ht : t ∈ s.entityTypes) :
    ∃ line, (∀ depth, (entitySetSteps set t.name).flatMap (Step.insideLines depth) =
      MemberLines.lines depth line) ∧ SetWritten s set line := by
  -- a set has comments and its line, so its attributes are those of an empty list
  have hnone : ∀ step ∈ ([] : List Step), IsAttribute step := fun _ h => nomatch h
  let property : AutoProperty := { name := set.name, typeName := "DbSet<" ++ t.name ++ ">" }
  refine ⟨⟨commentTexts set.toMetadata, attributeTexts [], property.text⟩, fun depth => ?_,
    fun _ => isCommentText_of_mem_commentTexts, rfl, t, ht, CSharp.isPropertyText_text property⟩
  rw [← insideLines_member hnone, List.append_nil]
  rfl

/-! ### Declarations in generated files -/

/-- The lines of an enum: its comments, a mark if its values are flags, its header and one line for
    each value between braces. -/
def enumLines (comments : List String) (underlying : String) (t : EnumType) : List Line :=
  (comments ++ if t.isFlags then ["[Flags]"] else []).map (fun text => ⟨1, text⟩) ++
    ⟨1, "public enum " ++ t.name ++ " : " ++ underlying⟩ :: ⟨1, "\x7b"⟩ ::
    t.members.map (fun m => ⟨2, match m.value with
      | some value => m.name ++ " = " ++ toString value ++ ","
      | none => m.name ++ ","⟩) ++ [⟨1, "\x7d"⟩]

/-- The text of a declaration, line by line.  A class has its header, its scalar properties first
    and then its navigation properties, or its entity sets, each in order. -/
def DeclarationWritten (settings : Settings) (s : Schema) (text : String) : Item → Prop
  | .enumType t => ∃ comments, (∀ comment ∈ comments, IsCommentText comment) ∧
      ∃ underlying ∈ ["byte", "sbyte", "short", "int", "long"],
        text = CSharp.renderLines (enumLines comments underlying t)
  | .complexType t => ∃ scalars,
      IsClassText ("public partial " ++
        (match settings.complexTypeKind with | .classKind => "class " | .structKind => "struct ") ++
        t.name) scalars text ∧
      List.Forall₂ (ScalarWritten s False) t.properties scalars
  | .entityContainer c => ∃ sets,
      IsClassText ("public partial class " ++ c.name ++ " : " ++ settings.containerBaseType) sets
        text ∧
      List.Forall₂ (SetWritten s) c.entitySets sets
  | .entityType t => ∃ base scalars navigations,
      (match t.baseType with
        | none => base = ""
        | some _ => ∃ b ∈ s.entityTypes, base = " : " ++ b.name) ∧
      IsClassText (CSharp.accessKeyword t.access ++ " " ++ (if t.isAbstract then "abstract " else "") ++
        "partial class " ++ t.name ++ base) (scalars ++ navigations) text ∧
      List.Forall₂ (fun p m => ScalarWritten s (p.name ∈ t.key.getD []) p m) t.properties scalars ∧
      List.Forall₂ (NavigationWritten s) t.navigationProperties navigations

variable {settings : Settings}

/-- An enumeration writes its header and its values between braces. -/
private theorem insideLines_enumeration (t : EnumType) (underlying : String) :
    Step.insideLines 1 (.enumeration t.name (t.members.map fun m => (m.name, m.value)) underlying
        .publicAccess) =
      ⟨1, "public enum " ++ t.name ++ " : " ++ underlying⟩ :: ⟨1, "\x7b"⟩ ::
        t.members.map (fun m => ⟨2, match m.value with
          | some value => m.name ++ " = " ++ toString value ++ ","
          | none => m.name ++ ","⟩) ++ [⟨1, "\x7d"⟩] := by
  have hheader : "public" ++ " enum " = "public enum " := rfl
  dsimp only [Step.insideLines, CSharp.accessKeyword]
  rw [List.map_map, hheader]
  rfl

/-- The text of an enum. -/
private theorem declarationWritten_enum {t : EnumType} {steps : List Step}
    (h : (enumSteps t).outcome = .ok steps) :
    DeclarationWritten settings s (bodyText steps) (.enumType t) := by
  rw [outcome_enumSteps] at h
  obtain rfl := Except.ok.inj h
  have hattributes : ∀ step ∈ stepIf t.isFlags (.attributed "Flags" []), IsAttribute step :=
    isAttribute_stepIf
  have hflags : attributeTexts (stepIf t.isFlags (.attributed "Flags" [])) =
      if t.isFlags then ["[Flags]"] else [] := by
    cases t.isFlags <;> rfl
  have hunderlying :
      underlyingKeyword t.underlyingType ∈ ["byte", "sbyte", "short", "int", "long"] := by
    cases t.underlyingType <;> decide
  refine ⟨commentTexts t.toMetadata, fun _ => isCommentText_of_mem_commentTexts, _, hunderlying, ?_⟩
  -- the header, the values and the braces are one step, behind the comments and the mark
  rw [bodyText, CSharp.writeAll_of_inside]
  · rw [List.flatMap_append, List.flatMap_append, insideLines_documentationSteps,
      insideLines_attributes hattributes, hflags, List.flatMap_singleton, ← List.map_append,
      insideLines_enumeration]
    unfold enumLines
    rw [List.append_assoc]
  · simp only [List.forall_mem_append, List.forall_mem_singleton]
    exact ⟨⟨inside_documentationSteps _, inside_of_isAttribute hattributes⟩, rfl, nofun⟩

/-- The text of a complex type. -/
private theorem declarationWritten_complex {t : ComplexType} {steps : List Step}
    (h : (complexSteps settings s t).outcome = .ok steps) :
    DeclarationWritten settings s (bodyText steps) (.complexType t) := by
  rw [outcome_complexSteps] at h
  obtain ⟨members, hmembers, rfl⟩ := map_eq_ok_iff.mp h
  -- no property of a complex type is part of a key
  obtain ⟨scalars, hlines, hscalars⟩ := exists_scalarLines (fun _ => false) hmembers
  have hinside : ∀ m ∈ members, ∀ s ∈ m, Inside s := by
    intro m hm
    obtain ⟨p, -, hp⟩ := exists_of_mem_mapM hmembers hm
    exact inside_propertySteps hp
  -- whether a class or a struct is written is a matter of the settings
  have hheader : (complexHeader settings t).text = "public partial " ++
      (match settings.complexTypeKind with | .classKind => "class " | .structKind => "struct ") ++
      t.name := by
    apply String.ext
    cases hkind : settings.complexTypeKind <;>
      simp [complexHeader, complexKind, hkind, CSharp.TypeHeader.text, CSharp.accessKeyword,
        CSharp.Modifiers.text, CSharp.TypeKind.text]
  refine ⟨scalars, hheader ▸ isClassText_typeSteps hinside hlines _ _, ?_⟩
  simpa using hscalars

/-- The text of an entity container. -/
private theorem declarationWritten_container {c : EntityContainer} {steps : List Step}
    (h : (containerSteps settings s c).outcome = .ok steps) :
    DeclarationWritten settings s (bodyText steps) (.entityContainer c) := by
  rw [outcome_containerSteps] at h
  obtain ⟨members, hmembers, rfl⟩ := map_eq_ok_iff.mp h
  have hinside : ∀ m ∈ members, ∀ s ∈ m, Inside s := by
    intro m hm
    obtain ⟨set, -, hset⟩ := exists_of_mem_mapM hmembers hm
    obtain ⟨t, -, rfl⟩ := map_eq_ok_iff.mp hset
    exact inside_entitySetSteps set t.name
  obtain ⟨lines, hlines, hsets⟩ := exists_memberLines (R := SetWritten s) <|
    (mapM_eq_ok_iff.mp hmembers).imp fun set m hm => by
      obtain ⟨t, ht, rfl⟩ := map_eq_ok_iff.mp hm
      exact exists_setLines (Schema.mem_of_findType? (Schema.resolveEntityType_eq_ok_iff.mp ht))
  have hheader : (containerHeader settings c).text =
      "public partial class " ++ c.name ++ " : " ++ settings.containerBaseType := by
    apply String.ext
    simp [containerHeader, CSharp.TypeHeader.text, CSharp.accessKeyword, CSharp.Modifiers.text,
      CSharp.TypeKind.text]
  exact ⟨lines, hheader ▸ isClassText_typeSteps hinside hlines _ _, hsets⟩

/-- The text of an entity type. -/
private theorem declarationWritten_entity {t : EntityType} {steps : List Step}
    (h : (entitySteps settings s t).outcome = .ok steps) :
    DeclarationWritten settings s (bodyText steps) (.entityType t) := by
  obtain ⟨base, properties, navigations, hbase, rfl, hproperties, hnavigations⟩ :=
    exists_entityMembers h
  obtain ⟨scalars, hscalarLines, hscalars⟩ :=
    exists_scalarLines (fun p => t.keyContains p.name) hproperties
  obtain ⟨others, hotherLines, hothers⟩ := exists_navigationLines hnavigations
  -- scalar properties come first, and then navigation properties
  have hinside : ∀ m ∈ properties ++ navigations, ∀ s ∈ m, Inside s := by
    refine List.forall_mem_append.mpr ⟨fun m hm => ?_, fun m hm => ?_⟩
    · obtain ⟨p, -, hp⟩ := exists_of_mem_mapM hproperties hm
      exact inside_propertySteps hp
    · obtain ⟨n, -, hn⟩ := exists_of_mem_mapM hnavigations hm
      exact inside_navigationSteps hn
  have hlines : ∀ depth, ((properties ++ navigations).map fun m =>
      m.flatMap (Step.insideLines depth)) = (scalars ++ others).map (MemberLines.lines depth) := by
    intro depth
    rw [List.map_append, List.map_append, hscalarLines, hotherLines]
  -- an entity type is a class with its own access, and abstract if it is declared so
  have hheader : (entityHeader t base).text = CSharp.accessKeyword t.access ++ " " ++
      (if t.isAbstract then "abstract " else "") ++ "partial class " ++ t.name ++
      (match base with | some b => " : " ++ b | none => "") := by
    apply String.ext
    cases base <;> cases hab : t.isAbstract <;>
      simp [entityHeader, hab, CSharp.TypeHeader.text, CSharp.Modifiers.text, CSharp.TypeKind.text]
  refine ⟨_, scalars, others, ?_, hheader ▸ isClassText_typeSteps hinside hlines _ _, ?_, hothers⟩
  -- a base type that is named was found, or there would be no text
  · unfold resolveBase at hbase
    cases hreference : t.baseType with
    | none =>
      rw [hreference] at hbase
      obtain rfl := Except.ok.inj hbase
      rfl
    | some reference =>
      rw [hreference] at hbase
      obtain ⟨b, hb, rfl⟩ := map_eq_ok_iff.mp hbase
      exact ⟨b, Schema.mem_of_findType? (Schema.resolveEntityType_eq_ok_iff.mp hb), rfl⟩
  · simpa only [EntityType.keyContains_iff] using hscalars

/-- The body of a declaration has the lines that the declaration calls for. -/
theorem declarationWritten_body {item : Item} {steps : List Step}
    (h : (body settings s item).outcome = .ok steps) :
    DeclarationWritten settings s (bodyText steps) item := by
  cases item with
  | enumType t => exact declarationWritten_enum h
  | complexType t => exact declarationWritten_complex h
  | entityContainer c => exact declarationWritten_container h
  | entityType t => exact declarationWritten_entity h

/-- There is one text for each enum type, complex type, entity container and entity type of the
    schema, and these texts make up the files.  The text of every complex type and of every entity
    type is that of a class with one line for each of its scalar properties, which has the type, the
    attributes and the mark that the declaration of the property calls for, and no other line is
    that of a scalar property. -/
theorem scalar_properties_have_one_line {files : List GeneratedFile}
    (h : (generate settings s).outcome = .ok files) :
    ∃ texts : DeclarationTexts, files = texts.files settings.layout s ∧
      texts.Each (fun item text => DeclarationWritten settings s text item) s := by
  obtain ⟨texts, hfiles, htexts⟩ := exists_texts_of_generate h
  refine ⟨texts, hfiles, htexts.imp fun item text htext => ?_⟩
  obtain ⟨steps, hsteps, rfl⟩ := htext
  exact declarationWritten_body hsteps

/-- A schema in which an entity type has a property of a complex type, one by each kind of built-in
    type and a key. -/
def parcelSchema : Schema :=
  { name := "Shop"
    complexTypes :=
      [{ name := "Size", properties := [{ name := "Height", typeName := "Double" }] }]
    entityTypes :=
      [{ name := "Parcel"
         key := some ["Id"]
         properties :=
          [{ name := "Id", typeName := "Edm.Guid", nullable := false },
            { name := "Label", typeName := "String", nullable := false, maxLength := some 40 },
            { name := "Size", typeName := "Shop.Size" }] }] }

/-- Its classes have one line for each scalar property. -/
theorem parcel_properties_have_one_line :
    ∃ files, ∃ texts : DeclarationTexts, (generate {} parcelSchema).outcome = .ok files ∧
      files = texts.files .singleFile parcelSchema ∧
      texts.Each (fun item text => DeclarationWritten {} parcelSchema text item) parcelSchema := by
  obtain ⟨files, hfiles⟩ : ∃ files, (generate {} parcelSchema).outcome = .ok files :=
    failure?_eq_none_iff.mp (by decide +kernel)
  obtain ⟨texts, htexts, hclasses⟩ := scalar_properties_have_one_line hfiles
  exact ⟨files, texts, hfiles, htexts, hclasses⟩

end EntityModel.Generation
