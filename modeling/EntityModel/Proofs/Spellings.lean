import EntityModel.Proofs.WellFormed
import EntityModel.Schema.Resolution

/-!
# Spellings of a name

A declaration is referred to by its name, by its name behind the namespace of the schema or by its
name behind the alias.  The qualifier that is taken off a reference is the namespace wherever the
reference begins with it, so an alias that begins with the namespace and a dot is never taken off
as a whole: the namespace hides it, and what it qualifies leads nowhere.

* `stripQualifier?_eq_some_iff`        what taking a qualifier off means
* `localName_of_spelling`              all spellings of a name that are not hidden have it
* `localName_of_hides`                 what is left of a name behind a hidden alias
* `resolveType_of_spelling`            a spelling of the name of a type leads to it
* `resolveType_of_hides`               a type behind a hidden alias is not found
-/

namespace EntityModel

/-! ### Taking off a qualifier -/

/-- A text of two parts at a dot that ends in a part without a dot was cut at its last dot or at one
    before it. -/
private theorem append_dot_eq_iff {q r a name : List Char} (hname : '.' ∉ name) :
    q ++ '.' :: r = a ++ '.' :: name ↔
      q = a ∧ r = name ∨ ∃ rest, a = q ++ '.' :: rest ∧ r = rest ++ '.' :: name := by
  rw [List.append_eq_append_iff]
  constructor
  · rintro (⟨as, rfl, h⟩ | ⟨bs, rfl, h⟩)
    · cases as with
      | nil => exact .inl ⟨by simp, by simpa using h⟩
      | cons c rest =>
        obtain ⟨rfl, hr⟩ := List.cons.inj h
        exact .inr ⟨rest, rfl, hr⟩
    · cases bs with
      | nil => exact .inl ⟨by simp, by simpa using h.symm⟩
      | cons c rest =>
        obtain ⟨rfl, hr⟩ := List.cons.inj h
        exact absurd (hr ▸ List.mem_append_right rest List.mem_cons_self) hname
  · rintro (⟨rfl, rfl⟩ | ⟨rest, rfl, rfl⟩)
    · exact .inl ⟨[], by simp, rfl⟩
    · exact .inl ⟨'.' :: rest, rfl, rfl⟩

/-- Exactly the names that begin with a qualifier and a dot can be stripped of it. -/
theorem stripQualifier?_eq_some_iff {name qualifier rest : String} :
    stripQualifier? name qualifier = some rest ↔ name = qualifier ++ "." ++ rest := by
  unfold stripQualifier?
  rw [Option.map_eq_some_iff]
  constructor
  · rintro ⟨cs, hcs, rfl⟩
    refine String.ext ?_
    rw [Text.stripStart?_eq_some_iff.mp hcs]
    simp
  · rintro rfl
    exact ⟨rest.toList, Text.stripStart?_eq_some_iff.mpr (by simp), String.ofList_toList⟩

/-- A name without a dot cannot be stripped of a qualifier. -/
private theorem stripQualifier?_eq_none {name : String} (hname : '.' ∉ name.toList)
    (qualifier : String) : stripQualifier? name qualifier = none := by
  cases h : stripQualifier? name qualifier with
  | none => rfl
  | some rest =>
    rw [stripQualifier?_eq_some_iff.mp h] at hname
    simp at hname

namespace Schema

/-- Names behind the alias begin with the namespace and a dot, as if they were behind the
    namespace. -/
def Hides (s : Schema) (aliasName : String) : Prop := ∃ rest, aliasName = s.name ++ "." ++ rest

/-- The spellings of a name: by itself, behind the namespace, and behind the alias unless that is
    hidden. -/
inductive Spelling (s : Schema) (name : String) : String → Prop
  | bare : Spelling s name name
  | namespaced : Spelling s name (s.name ++ "." ++ name)
  | aliased {aliasName : String} (h : s.aliasName = some aliasName)
      (hvisible : ¬ s.Hides aliasName) : Spelling s name (aliasName ++ "." ++ name)

variable {s : Schema} {name spelling aliasName : String}

/-! ### Local names -/

private theorem localName_eq_self (hname : '.' ∉ name.toList) : s.localName name = name := by
  have hnone : s.qualifiers.findSome? (stripQualifier? name) = none :=
    List.findSome?_eq_none_iff.mpr fun q _ => stripQualifier?_eq_none hname q
  unfold localName
  rw [hnone]
  rfl

/-- What is left when the namespace is taken off a name behind the alias. -/
theorem stripQualifier?_aliased (hname : '.' ∉ name.toList) {rest : String} :
    stripQualifier? (aliasName ++ "." ++ name) s.name = some rest ↔
      aliasName = s.name ∧ rest = name ∨
        ∃ inner, aliasName = s.name ++ "." ++ inner ∧ rest = inner ++ "." ++ name := by
  have hchars : ∀ p q r t : String, p ++ "." ++ q = r ++ "." ++ t ↔
      p.toList ++ '.' :: q.toList = r.toList ++ '.' :: t.toList := by
    intro p q r t
    rw [← String.toList_inj]
    simp
  rw [stripQualifier?_eq_some_iff, eq_comm, hchars, append_dot_eq_iff hname, String.toList_inj,
    String.toList_inj, eq_comm (a := s.name)]
  refine or_congr_right ⟨?_, ?_⟩
  · rintro ⟨cs, hfront, hrest⟩
    refine ⟨String.ofList cs, ?_, ?_⟩
    · refine String.ext ?_
      rw [hfront]
      simp
    · refine String.ext ?_
      rw [hrest]
      simp
  · rintro ⟨inner, rfl, rfl⟩
    exact ⟨inner.toList, by simp, by simp⟩

/-- Behind a hidden alias a name keeps what follows the namespace in the alias. -/
theorem localName_of_hides (hname : '.' ∉ name.toList) {inner : String}
    (h : aliasName = s.name ++ "." ++ inner) :
    s.localName (aliasName ++ "." ++ name) = inner ++ "." ++ name := by
  unfold localName qualifiers
  rw [List.findSome?_cons, (stripQualifier?_aliased hname).mpr (.inr ⟨inner, h, rfl⟩)]
  rfl

/-- Every spelling of a name without a dot has that name. -/
theorem localName_of_spelling (hname : '.' ∉ name.toList) (h : s.Spelling name spelling) :
    s.localName spelling = name := by
  cases h with
  | bare => exact localName_eq_self hname
  | namespaced => exact localName_of_namespace s name
  | @aliased aliasName h hvisible =>
    unfold localName qualifiers
    rw [List.findSome?_cons]
    cases hstrip : stripQualifier? (aliasName ++ "." ++ name) s.name with
    | some rest =>
      -- only an alias that is the namespace itself is taken off as the namespace
      rcases (stripQualifier?_aliased hname).mp hstrip with ⟨-, rfl⟩ | ⟨inner, halias, -⟩
      · rfl
      · exact absurd ⟨inner, halias⟩ hvisible
    | none =>
      rw [h, Option.toList_some, List.findSome?_cons,
        stripQualifier?_eq_some_iff.mpr (rfl : aliasName ++ "." ++ name = _)]
      rfl

/-! ### Declarations by name -/

/-- All types of the schema, in the order in which they are looked up. -/
def types (s : Schema) : List ResolvedType :=
  s.entityTypes.map .entity ++ s.complexTypes.map .complex ++ s.enumTypes.map .enum

private theorem map_name_types (s : Schema) :
    s.types.map ResolvedType.name =
      s.entityNames ++ s.complexTypes.map (·.name) ++ s.enumTypes.map (·.name) := by
  unfold types entityNames
  rw [List.map_append, List.map_append, List.map_map, List.map_map, List.map_map]
  rfl

/-- A type is looked up among all types at once. -/
theorem findType?_eq_find? (s : Schema) (name : String) :
    s.findType? name = s.types.find? fun t => t.name == name := by
  unfold findType? types
  rw [List.find?_append, List.find?_append, List.find?_map, List.find?_map, List.find?_map,
    Option.or_assoc]
  rfl

/-- Where names are distinct, a type is found exactly under its name. -/
theorem findType?_eq_some_iff (hs : s.WellFormed) {t : ResolvedType} :
    s.findType? name = some t ↔ t ∈ s.types ∧ t.name = name := by
  have hn : (s.types.map ResolvedType.name).Nodup := by
    rw [map_name_types]
    exact hs.typeNames
  rw [findType?_eq_find?]
  exact find?_key_eq_some_iff hn

/-- The names of types are identifiers. -/
theorem WellFormed.isIdentifier_type (hs : s.WellFormed) {t : ResolvedType} (ht : t ∈ s.types) :
    Text.isIdentifier t.name = true := by
  refine hs.identifiers _ ?_
  unfold types at ht
  unfold declaredNames
  simp only [List.mem_append, List.mem_flatMap]
  rcases List.mem_append.mp ht with ht | ht
  · rcases List.mem_append.mp ht with ht | ht
    · obtain ⟨u, hu, rfl⟩ := List.mem_map.mp ht
      exact .inl (.inl (.inr ⟨u, hu, List.mem_cons_self⟩))
    · obtain ⟨u, hu, rfl⟩ := List.mem_map.mp ht
      exact .inl (.inl (.inl (.inr ⟨u, hu, List.mem_cons_self⟩)))
  · obtain ⟨u, hu, rfl⟩ := List.mem_map.mp ht
    exact .inl (.inl (.inl (.inl ⟨u, hu, List.mem_cons_self⟩)))

/-- The names of associations are identifiers. -/
theorem WellFormed.isIdentifier_association (hs : s.WellFormed) {a : Association}
    (ha : a ∈ s.associations) : Text.isIdentifier a.name = true := by
  refine hs.identifiers _ ?_
  unfold declaredNames
  simp only [List.mem_append, List.mem_flatMap]
  exact .inl (.inr ⟨a, ha, List.mem_cons_self⟩)

theorem not_mem_dot_of_isIdentifier (h : Text.isIdentifier name = true) : '.' ∉ name.toList :=
  Text.not_mem_of_isIdentifier h (Text.continuesName_of_separator (by simp))

/-! ### Resolving a spelling -/

/-- A spelling of the name of a type leads to the type. -/
theorem resolveType_of_spelling (hs : s.WellFormed) {t : ResolvedType} (ht : t ∈ s.types)
    (h : s.Spelling t.name spelling) (referencedBy : String) :
    s.resolveType spelling referencedBy = .ok t := by
  have hname := not_mem_dot_of_isIdentifier (hs.isIdentifier_type ht)
  rw [resolveType_eq_ok_iff, localName_of_spelling hname h, findType?_eq_some_iff hs]
  exact ⟨ht, rfl⟩

/-- A spelling of the name of an association leads to the association. -/
theorem resolveAssociation_of_spelling (hs : s.WellFormed) {a : Association}
    (ha : a ∈ s.associations) (h : s.Spelling a.name spelling) (referencedBy : String) :
    s.resolveAssociation spelling referencedBy = .ok a := by
  have hname := not_mem_dot_of_isIdentifier (hs.isIdentifier_association ha)
  rw [resolveAssociation_eq_ok_iff, localName_of_spelling hname h, findAssociation?,
    find?_key_eq_some_iff hs.associationNames]
  exact ⟨ha, rfl⟩

/-- Behind a hidden alias no type is found. -/
theorem resolveType_of_hides (hs : s.WellFormed) (hname : '.' ∉ name.toList)
    (h : s.Hides aliasName) (referencedBy : String) :
    s.resolveType (aliasName ++ "." ++ name) referencedBy =
      .error ⟨.type, aliasName ++ "." ++ name, referencedBy⟩ := by
  obtain ⟨inner, halias⟩ := h
  unfold resolveType
  rw [localName_of_hides hname halias]
  cases hfind : s.findType? (inner ++ "." ++ name) with
  | none => rfl
  | some t =>
    -- what is left has a dot in it, which no name of a type has
    obtain ⟨ht, htname⟩ := (findType?_eq_some_iff hs).mp hfind
    have hdot := not_mem_dot_of_isIdentifier (hs.isIdentifier_type ht)
    rw [htname] at hdot
    simp at hdot

/-- Behind a hidden alias no association is found. -/
theorem resolveAssociation_of_hides (hs : s.WellFormed) (hname : '.' ∉ name.toList)
    (h : s.Hides aliasName) (referencedBy : String) :
    s.resolveAssociation (aliasName ++ "." ++ name) referencedBy =
      .error ⟨.association, aliasName ++ "." ++ name, referencedBy⟩ := by
  obtain ⟨inner, halias⟩ := h
  unfold resolveAssociation
  rw [localName_of_hides hname halias]
  cases hfind : s.findAssociation? (inner ++ "." ++ name) with
  | none => rfl
  | some a =>
    obtain ⟨ha, haname⟩ := (find?_key_eq_some_iff hs.associationNames).mp hfind
    have hdot := not_mem_dot_of_isIdentifier (hs.isIdentifier_association ha)
    rw [haname] at hdot
    simp at hdot

end Schema

end EntityModel
