import EntityModel.Proofs.ReadingCodes
import EntityModel.Proofs.SideBySide
import Mathlib

/-!
# Readings that are the same

Two readings are compared by what is made of their values and by the codes of their faults, and two
schemas but for the texts of their annotations, which nothing else depends on.  Readers in sequence
and over lists that are alike element by element are the same if their parts are.

* `Schema.withoutTexts`      a schema less the texts of its annotations
* `Reading.SameBy`           the same values, as the function has them, and the same codes
* `Reading.SameBy.bind`      readers in sequence
* `Reading.SameBy.collect`   readers over lists
-/

namespace EntityModel

open Markup (Element)
open Diagnostic (Code)

/-! ### Texts of annotations -/

/-- The annotation less its text. -/
def Annotation.withoutText (a : Annotation) : Annotation := { a with value := "" }

/-- The metadata less the texts of the annotations. -/
def Metadata.withoutTexts (m : Metadata) : Metadata :=
  { m with annotations := m.annotations.map Annotation.withoutText }

/-- The enum type less the texts of its annotations. -/
def EnumType.withoutTexts (t : EnumType) : EnumType :=
  { t with toMetadata := t.toMetadata.withoutTexts }

/-- The property less the texts of its annotations. -/
def Property.withoutTexts (p : Property) : Property :=
  { p with toMetadata := p.toMetadata.withoutTexts }

/-- The navigation property less the texts of its annotations. -/
def NavigationProperty.withoutTexts (n : NavigationProperty) : NavigationProperty :=
  { n with toMetadata := n.toMetadata.withoutTexts }

/-- The complex type less the texts of the annotations in it. -/
def ComplexType.withoutTexts (t : ComplexType) : ComplexType :=
  { t with
    toMetadata := t.toMetadata.withoutTexts
    properties := t.properties.map Property.withoutTexts }

/-- The entity type less the texts of the annotations in it. -/
def EntityType.withoutTexts (t : EntityType) : EntityType :=
  { t with
    toMetadata := t.toMetadata.withoutTexts
    properties := t.properties.map Property.withoutTexts
    navigationProperties := t.navigationProperties.map NavigationProperty.withoutTexts }

/-- The association less the texts of its annotations. -/
def Association.withoutTexts (a : Association) : Association :=
  { a with toMetadata := a.toMetadata.withoutTexts }

/-- The entity set less the texts of its annotations. -/
def EntitySet.withoutTexts (s : EntitySet) : EntitySet :=
  { s with toMetadata := s.toMetadata.withoutTexts }

/-- The entity container less the texts of the annotations in it. -/
def EntityContainer.withoutTexts (c : EntityContainer) : EntityContainer :=
  { c with
    toMetadata := c.toMetadata.withoutTexts
    entitySets := c.entitySets.map EntitySet.withoutTexts }

/-- The schema less the texts of all annotations in it. -/
def Schema.withoutTexts (s : Schema) : Schema :=
  { s with
    enumTypes := s.enumTypes.map EnumType.withoutTexts
    complexTypes := s.complexTypes.map ComplexType.withoutTexts
    entityTypes := s.entityTypes.map EntityType.withoutTexts
    associations := s.associations.map Association.withoutTexts
    entityContainers := s.entityContainers.map EntityContainer.withoutTexts }

/-- The member less the texts of its annotations, wherever it stands. -/
def EntityMember.withoutTexts : EntityMember → EntityMember
  | property p _ => property p.withoutTexts default
  | navigation n _ => navigation n.withoutTexts default

/-- The declaration less the texts of the annotations in it, wherever it stands. -/
def Declaration.withoutTexts : Declaration → Declaration
  | enumType t _ => enumType t.withoutTexts ⟨default, []⟩
  | complexType t _ => complexType t.withoutTexts ⟨default, none, [], []⟩
  | entityType t _ => entityType t.withoutTexts ⟨default, none, [], []⟩
  | association a _ => association a.withoutTexts ⟨default, [], none, none⟩
  | entityContainer c _ => entityContainer c.withoutTexts default

/-- What is picked from lists is the same if the lists are, where the function tells enough for
    it. -/
theorem filterMap_eq_of_map_eq {α β γ : Type} {f : α → β} {pick : α → Option γ} (pick' : β → Option γ)
    (hpick : ∀ a, pick a = pick' (f a)) {as bs : List α} (h : as.map f = bs.map f) :
    as.filterMap pick = bs.filterMap pick := by
  -- what is picked can be picked from the images
  have hboth (as : List α) : as.filterMap pick = (as.map f).filterMap pick' := by
    rw [List.filterMap_map]
    exact List.filterMap_congr fun a _ => hpick a
  rw [hboth, hboth, h]

/-- The members of a type are told by its members less their texts. -/
theorem properties_eq_of_map_eq {ms ns : List EntityMember}
    (h : ms.map EntityMember.withoutTexts = ns.map EntityMember.withoutTexts) :
    ((ms.filterMap EntityMember.property?).map (·.1)).map Property.withoutTexts =
        ((ns.filterMap EntityMember.property?).map (·.1)).map Property.withoutTexts ∧
      ((ms.filterMap EntityMember.navigation?).map (·.1)).map NavigationProperty.withoutTexts =
        ((ns.filterMap EntityMember.navigation?).map (·.1)).map NavigationProperty.withoutTexts := by
  simp only [List.map_filterMap]
  -- what a member is picked as can be told from it less its text
  constructor
  · exact filterMap_eq_of_map_eq (fun m => m.property?.map (·.1)) (fun m => by cases m <;> rfl) h
  · exact filterMap_eq_of_map_eq (fun m => m.navigation?.map (·.1)) (fun m => by cases m <;> rfl) h

/-- A schema is told by its declarations less their texts. -/
theorem withoutTexts_ofDeclarations {name : String} {aliasName : Option String}
    {ds es : List Declaration}
    (h : ds.map Declaration.withoutTexts = es.map Declaration.withoutTexts) :
    (Schema.ofDeclarations name aliasName ds).withoutTexts =
      (Schema.ofDeclarations name aliasName es).withoutTexts := by
  simp only [Schema.withoutTexts, Schema.ofDeclarations, List.map_filterMap, Schema.mk.injEq, true_and]
  -- each kind of declaration is picked by itself
  refine ⟨?_, ?_, ?_, ?_, ?_⟩
  · exact filterMap_eq_of_map_eq (fun d => d.enumType?.map (·.1)) (fun d => by cases d <;> rfl) h
  · exact filterMap_eq_of_map_eq (fun d => d.complexType?.map (·.1)) (fun d => by cases d <;> rfl) h
  · exact filterMap_eq_of_map_eq (fun d => d.entityType?.map (·.1)) (fun d => by cases d <;> rfl) h
  · exact filterMap_eq_of_map_eq (fun d => d.association?.map (·.1)) (fun d => by cases d <;> rfl) h
  · exact filterMap_eq_of_map_eq (fun d => d.entityContainer?.map (·.1)) (fun d => by cases d <;> rfl)
      h

/-! ### The same values and the same codes -/

namespace Reading

variable {α β γ δ : Type}

/-- The codes of the faults, in order. -/
def codes (r : Reading α) : List Code := r.faults.map Fault.code

/-- The codes of two readings in a row are those of both. -/
@[simp] theorem codes_bind (x : Reading α) (f : α → Reading β) :
    (x >>= f).codes = x.codes ++ (f x.value).codes := List.map_append

/-- The codes of a list of readings are those of each in order. -/
theorem codes_collect (read : Element → Reading (Option α)) (es : List Element) :
    (collect read es).codes = es.flatMap fun e => (read e).codes := by
  rw [codes, faults_collect, List.map_flatMap]
  rfl

/-- The readings have values that the function takes to the same, and faults of the same codes. -/
structure SameBy (f : α → β) (x y : Reading α) : Prop where
  value_eq : f x.value = f y.value
  codes_eq : x.codes = y.codes

variable {f : α → β} {g : γ → δ} {x y : Reading α}

/-- Values that need no reading are the same if the function takes them to the same. -/
theorem sameBy_pure {a b : α} (h : f a = f b) : SameBy f (pure a) (pure b) := ⟨h, rfl⟩

/-- Rejections are the same if their codes are. -/
theorem sameBy_reject {f : Option α → β} {u v : Fault} (h : u.code = v.code) :
    SameBy f (reject u) (reject v) := ⟨rfl, congrArg (fun code => [code]) h⟩

/-- Readings that are the same by one function are the same by every one that tells less. -/
theorem SameBy.imp {f' : α → γ} (h : SameBy f x y) (hf : ∀ a b, f a = f b → f' a = f' b) :
    SameBy f' x y := ⟨hf _ _ h.value_eq, h.codes_eq⟩

/-- Readers in sequence are the same if each of them is. -/
theorem SameBy.bind {k l : α → Reading γ} (h : SameBy f x y)
    (hkl : ∀ a b, f a = f b → SameBy g (k a) (l b)) : SameBy g (x >>= k) (y >>= l) := by
  have hnext := hkl _ _ h.value_eq
  refine ⟨hnext.value_eq, ?_⟩
  rw [codes_bind, codes_bind, h.codes_eq, hnext.codes_eq]

/-- After readings of the same value, what follows may depend on it. -/
theorem SameBy.bindEq {k l : α → Reading γ} (h : SameBy id x y)
    (hkl : ∀ a, SameBy g (k a) (l a)) : SameBy g (x >>= k) (y >>= l) :=
  h.bind fun a b hab => by
    obtain rfl : a = b := hab
    exact hkl a

/-- After readings that may have no value, both go on or both go without. -/
theorem SameBy.bindOption {x y : Reading (Option α)} {k l : Option α → Reading γ}
    (h : SameBy (Option.map f) x y) (hnone : SameBy g (k none) (l none))
    (hsome : ∀ a b, f a = f b → SameBy g (k (some a)) (l (some b))) :
    SameBy g (x >>= k) (y >>= l) := by
  refine h.bind fun a b hab => ?_
  -- either both have a value or neither has one
  cases a with
  | none =>
    cases b with
    | none => exact hnone
    | some b => exact nomatch hab
  | some a =>
    cases b with
    | none => exact nomatch hab
    | some b => exact hsome a b (Option.some.inj hab)

/-- Readers over lists are the same if they are on elements that are alike. -/
theorem SameBy.collect {P : Element → Element → Prop} {read : Element → Reading (Option α)}
    {es es' : List Element} (h : List.Forall₂ P es es')
    (hread : ∀ e e', P e e' → SameBy (Option.map f) (read e) (read e')) :
    SameBy (List.map f) (Reading.collect read es) (Reading.collect read es') := by
  induction h with
  | nil => exact sameBy_pure rfl
  | cons hee' _ ih =>
    -- the first elements are read alike, and so are the others
    refine (hread _ _ hee').bind fun a b hab => ih.bind fun as bs habs => sameBy_pure ?_
    rw [List.map_append, List.map_append, habs]
    cases a with
    | none =>
      cases b with
      | none => rfl
      | some b => exact nomatch hab
    | some a =>
      cases b with
      | none => exact nomatch hab
      | some b => simpa using hab

end Reading

end EntityModel
