import EntityModel.Proofs.Nesting
import EntityModel.Model
import Mathlib

/-!
# The conceptual schema of a document

A document that is no schema itself has its conceptual schema in an element that holds models.  The
search goes to the first such element and to no other one, so a schema is missed when the first of
these elements has none and a later one does.

* `IsConceptual`                      the conceptual schema of a document, by document order
* `Hides`                             when the search misses it
* `conceptual_schema_unless_hidden`   what is found, and when no schema is reported
-/

namespace EntityModel

open Markup (Element)

/-! ### Document order -/

namespace Markup.Element

/-- The elements of a list come up in the order of the list. -/
private theorem preorderAll_eq_flatMap (es : List Element) :
    preorderAll es = es.flatMap preorder := by
  induction es with
  | nil => rfl
  | cons e es ih => rw [preorderAll, ih, List.flatMap_cons]

/-- What stands in an element comes up in the order of the document, and nothing else does. -/
theorem mem_preorder_iff {x e : Element} : x ∈ e.preorder ↔ e.Contains x := by
  -- what is listed stands in the element, and the way down to an element lists it
  constructor
  · exact contains_of_mem_preorder e
  · intro h
    induction h using Relation.ReflTransGen.head_induction_on with
    | refl =>
      rw [preorder_eq]
      exact List.mem_cons_self
    | head hchild _ ih =>
      rw [preorder_eq, preorderAll_eq_flatMap]
      exact List.mem_cons_of_mem _ (List.mem_flatMap.mpr ⟨_, hchild, ih⟩)

end Markup.Element

/-! ### Schemas in a document -/

/-- The element holds models, a schema among them. -/
def HoldsSchema (e : Element) : Prop :=
  holdsModels e = true ∧ ∃ s ∈ e.children, s.localName = "Schema"

/-- The element is the conceptual schema of the document: the root, or the first schema in the first
    element that holds models and a schema among them. -/
inductive IsConceptual (root : Element) : Element → Prop
  | root (h : root.localName = "Schema") : IsConceptual root root
  | held {before after : List Element} {models s : Element} (hroot : root.localName ≠ "Schema")
      (horder : root.preorder = before ++ models :: after)
      (hbefore : ∀ x ∈ before, ¬ HoldsSchema x) (hmodels : holdsModels models = true)
      (hschema : models.child? "Schema" = some s) : IsConceptual root s

/-- The first element that holds models holds no schema, and a later one does. -/
structure Hides (root : Element) : Prop where
  not_schema : root.localName ≠ "Schema"
  first : ∃ before models after, root.preorder = before ++ models :: after ∧
    (∀ x ∈ before, holdsModels x = false) ∧ holdsModels models = true ∧ ¬ HoldsSchema models ∧
    ∃ x ∈ after, HoldsSchema x

/-- An element has a first schema if it has one at all. -/
theorem exists_child?_iff {e : Element} {name : String} :
    (∃ s, e.child? name = some s) ↔ ∃ s ∈ e.children, s.localName = name := by
  rw [← Option.isSome_iff_exists, Element.child?, List.find?_isSome]
  simp

/-- In a list in which something is found there is a first place where it is. -/
theorem exists_first {α : Type} {p : α → Prop} {xs : List α} (h : ∃ x ∈ xs, p x) :
    ∃ before x after, xs = before ++ x :: after ∧ (∀ y ∈ before, ¬ p y) ∧ p x := by
  classical
  -- the first is what a search finds
  have hsome : (xs.find? fun x => decide (p x)).isSome := by
    rw [List.find?_isSome]
    simpa using h
  obtain ⟨x, hx⟩ := Option.isSome_iff_exists.mp hsome
  obtain ⟨hp, before, after, rfl, hbefore⟩ := List.find?_eq_some_iff_append.mp hx
  exact ⟨before, x, after, rfl, by simpa using hbefore, by simpa using hp⟩

variable {root s : Element}

/-- A document has a conceptual schema exactly when it is one or holds one somewhere. -/
theorem exists_isConceptual_iff :
    (∃ s, IsConceptual root s) ↔
      root.localName = "Schema" ∨ ∃ x, root.Contains x ∧ HoldsSchema x := by
  constructor
  -- a schema is one itself or is held by the first element that holds one
  · rintro ⟨s, h⟩
    cases h with
    | root h => exact .inl h
    | @held before after models _ _ horder _ hmodels hschema =>
      refine .inr ⟨models, Element.mem_preorder_iff.mp ?_, hmodels,
        exists_child?_iff.mp ⟨s, hschema⟩⟩
      rw [horder]
      exact List.mem_append_right _ List.mem_cons_self
  · intro h
    -- a root that is a schema settles it, or else the first element that holds one does
    by_cases hroot : root.localName = "Schema"
    · exact ⟨root, .root hroot⟩
    · obtain ⟨x, hx, hholds⟩ := h.resolve_left hroot
      obtain ⟨before, models, after, horder, hbefore, hmodels, hschema⟩ :=
        exists_first ⟨x, Element.mem_preorder_iff.mpr hx, hholds⟩
      obtain ⟨s, hs⟩ := exists_child?_iff.mpr hschema
      exact ⟨s, .held hroot horder hbefore hmodels hs⟩

/-! ### The search -/

/-- A root that is a schema is taken at once. -/
private theorem schemaElement?_of_root (h : root.localName = "Schema") :
    schemaElement? root = some root := by
  rw [schemaElement?, if_pos (beq_iff_eq.mpr h)]

/-- The search takes the first element that holds models. -/
theorem schemaElement?_of_first {before after : List Element} {models : Element}
    (hroot : root.localName ≠ "Schema") (horder : root.preorder = before ++ models :: after)
    (hbefore : ∀ x ∈ before, holdsModels x = false) (hmodels : holdsModels models = true) :
    schemaElement? root = models.child? "Schema" := by
  have hfirst : root.preorder.find? holdsModels = some models := by
    -- nothing in front of it holds models
    refine List.find?_eq_some_iff_append.mpr ⟨hmodels, before, after, horder, fun x hx => ?_⟩
    rw [hbefore x hx]
    rfl
  rw [schemaElement?, if_neg (mt beq_iff_eq.mp hroot), hfirst]
  rfl

/-- A hidden schema is not found. -/
theorem Hides.schemaElement?_eq_none (h : Hides root) : schemaElement? root = none := by
  obtain ⟨before, models, after, horder, hbefore, hmodels, hnone, -⟩ := h.first
  rw [schemaElement?_of_first h.not_schema horder hbefore hmodels, Option.eq_none_iff_forall_ne_some]
  -- that element has no schema to take
  intro s hs
  exact hnone ⟨hmodels, exists_child?_iff.mp ⟨s, hs⟩⟩

/-- A hidden schema is there. -/
theorem Hides.exists_isConceptual (h : Hides root) : ∃ s, IsConceptual root s := by
  obtain ⟨before, models, after, horder, -, -, -, x, hx, hholds⟩ := h.first
  refine exists_isConceptual_iff.mpr (.inr ⟨x, Element.mem_preorder_iff.mp ?_, hholds⟩)
  rw [horder]
  exact List.mem_append_right _ (List.mem_cons_of_mem _ hx)

/-- What is found is the conceptual schema. -/
theorem isConceptual_of_schemaElement? (h : schemaElement? root = some s) :
    IsConceptual root s := by
  -- the search takes the root or goes to the first element that holds models
  unfold schemaElement? at h
  split at h
  · rename_i hroot
    obtain rfl := Option.some.inj h
    exact .root (beq_iff_eq.mp hroot)
  · rename_i hroot
    obtain ⟨models, hmodels, hs⟩ := Option.bind_eq_some_iff.mp h
    obtain ⟨hholds, before, after, horder, hbefore⟩ := List.find?_eq_some_iff_append.mp hmodels
    refine .held (mt beq_iff_eq.mpr hroot) horder (fun x hx hholds => ?_) hholds hs
    have := hbefore x hx
    rw [hholds.1] at this
    exact nomatch this

/-- The conceptual schema is found unless it is hidden. -/
theorem schemaElement?_of_isConceptual (hhides : ¬ Hides root) (h : IsConceptual root s) :
    schemaElement? root = some s := by
  cases h with
  | root h => exact schemaElement?_of_root h
  | @held before after models _ hroot horder hbefore hmodels hs =>
    -- an element before this one that held models would hide the schema
    have hnone : ∀ x ∈ before, holdsModels x = false := by
      intro x hx
      cases hholds : holdsModels x with
      | false => rfl
      | true =>
        obtain ⟨early, first, late, rfl, hearly, hfirst⟩ :=
          exists_first (p := fun y => holdsModels y = true) ⟨x, hx, hholds⟩
        rw [List.append_assoc, List.cons_append] at horder
        refine absurd ⟨hroot, early, first, _, horder, ?_, hfirst, ?_, models, ?_, hmodels, ?_⟩
          hhides
        · exact fun y hy => by simpa using hearly y hy
        · exact hbefore first (by simp)
        · simp
        · exact exists_child?_iff.mp ⟨s, hs⟩
    rw [schemaElement?_of_first hroot horder hnone hmodels, hs]

/-- No fault of a schema is that it is missing. -/
private theorem Fault.code_ne_missingSchema (f : Fault) : f.code ≠ .missingSchema := by
  cases f <;> simp [Fault.code]

/-- A document with an element tree is reported to have no schema when none is found in it. -/
private theorem missingSchema_mem_iff {source : String} (h : Markup.parse source = .ok root) :
    (∃ ds, Model.parse source = .error ds ∧ ∃ d ∈ ds, d.code = some .missingSchema) ↔
      schemaElement? root = none := by
  unfold Model.parse Model.schemaElement
  rw [h]
  dsimp only
  -- where none is found the report is that one; where one is found it is a fault of the schema
  cases hs : schemaElement? root with
  | none => exact iff_of_true ⟨_, rfl, _, List.mem_cons_self, rfl⟩ rfl
  | some e =>
    refine iff_of_false ?_ nofun
    rintro ⟨ds, hds, d, hd, hcode⟩
    simp only [bind, Except.bind] at hds
    split at hds
    · exact nomatch hds
    · obtain rfl := Except.error.inj hds
      obtain ⟨f, -, rfl⟩ := List.mem_map.mp hd
      rw [Fault.code_diagnostic] at hcode
      exact f.code_ne_missingSchema (Option.some.inj hcode)

/-- A document has a conceptual schema exactly when it is one or has a schema in an element that
    holds models.  The schema that is found is that one, and a missing schema is reported only where
    there is none, unless the first element that holds models has no schema and a later one does:
    there no schema is found. -/
theorem conceptual_schema_unless_hidden (root : Element) :
    ((∃ s, IsConceptual root s) ↔
      root.localName = "Schema" ∨ ∃ x, root.Contains x ∧ HoldsSchema x) ∧
    (Hides root → schemaElement? root = none ∧ ∃ s, IsConceptual root s) ∧
    (¬ Hides root → ∀ s, schemaElement? root = some s ↔ IsConceptual root s) ∧
    ∀ source, Markup.parse source = .ok root →
      ((∃ ds, Model.parse source = .error ds ∧ ∃ d ∈ ds, d.code = some .missingSchema) ↔
        (¬ ∃ s, IsConceptual root s) ∨ Hides root) := by
  refine ⟨exists_isConceptual_iff, ?_, ?_, ?_⟩
  · intro h
    exact ⟨h.schemaElement?_eq_none, h.exists_isConceptual⟩
  · intro h s
    exact ⟨isConceptual_of_schemaElement?, schemaElement?_of_isConceptual h⟩
  · intro source hparse
    -- none is found where there is none, or where the one that there is is hidden
    rw [missingSchema_mem_iff hparse, Option.eq_none_iff_forall_ne_some]
    constructor
    · intro hnone
      by_cases hhides : Hides root
      · exact .inr hhides
      · exact .inl fun ⟨s, hs⟩ => hnone s (schemaElement?_of_isConceptual hhides hs)
    · rintro (hnone | hhides) s hs
      · exact hnone ⟨s, isConceptual_of_schemaElement? hs⟩
      · rw [hhides.schemaElement?_eq_none] at hs
        exact nomatch hs

/-- A schema in the models of a document. -/
def heldSchema : Element :=
  ⟨⟨none, "Schema"⟩, [⟨⟨none, "Namespace"⟩, "N"⟩], [], "", ⟨48, 71, by omega⟩⟩

/-- The models of the document. -/
def heldModels : Element :=
  ⟨⟨none, "ConceptualModels"⟩, [], [heldSchema], "", ⟨30, 90, by omega⟩⟩

/-- The part of a document that holds them. -/
def heldRuntime : Element :=
  ⟨⟨none, "Runtime"⟩, [], [heldModels], "", ⟨21, 100, by omega⟩⟩

/-- Services without a schema. -/
def emptyServices : Element :=
  ⟨⟨none, "DataServices"⟩, [], [], "", ⟨6, 21, by omega⟩⟩

/-- A document with empty services before its models. -/
def servicesElement : Element :=
  ⟨⟨none, "Edmx"⟩, [], [emptyServices, heldRuntime], "", ⟨0, 107, by omega⟩⟩

/-- The text of the document. -/
def servicesDocument : String :=
  "<Edmx><DataServices/><Runtime><ConceptualModels><Schema Namespace='N'/></ConceptualModels>" ++
    "</Runtime></Edmx>"

private theorem parse_servicesDocument :
    Markup.parse servicesDocument = .ok servicesElement := by cbv

/-- The empty services hide the schema in the models. -/
theorem hides_servicesElement : Hides servicesElement where
  not_schema := by decide
  first := by
    have horder : servicesElement.preorder =
        [servicesElement] ++ emptyServices :: [heldRuntime, heldModels, heldSchema] := by cbv
    -- the services come first and hold nothing
    refine ⟨_, _, _, horder, by decide, rfl, ?_, heldModels, ?_, rfl, heldSchema, ?_, rfl⟩
    · exact fun h => by simpa [emptyServices] using h.2
    · exact List.mem_cons_of_mem _ List.mem_cons_self
    · exact List.mem_cons_self

/-- A schema is not found behind empty services, and is found in the models by themselves. -/
theorem schema_behind_services_is_hidden :
    schemaElement? servicesElement = none ∧
    (∃ ds, Model.parse servicesDocument = .error ds ∧
      ∃ d ∈ ds, d.code = some .missingSchema) ∧
    IsConceptual heldModels heldSchema := by
  obtain ⟨-, hhidden, -, hreported⟩ := conceptual_schema_unless_hidden servicesElement
  have hfound : schemaElement? heldModels = some heldSchema := by cbv
  have hsingle : ¬ Hides heldModels := by
    intro h
    rw [h.schemaElement?_eq_none] at hfound
    -- nothing hides the schema where the models stand by themselves
    cases hfound
  exact ⟨(hhidden hides_servicesElement).1,
    (hreported _ parse_servicesDocument).mpr (.inr hides_servicesElement),
    ((conceptual_schema_unless_hidden heldModels).2.2.1 hsingle heldSchema).mp hfound⟩

/-- A document may hold a schema in its models without any being found. -/
theorem schema_may_be_missed :
    ¬ (∀ root : Element, (schemaElement? root).isSome = true ↔
      root.localName = "Schema" ∨ ∃ x, root.Contains x ∧ HoldsSchema x) := by
  intro h
  have hnone := hides_servicesElement.schemaElement?_eq_none
  have hsome := (h servicesElement).mpr
    (exists_isConceptual_iff.mp hides_servicesElement.exists_isConceptual)
  rw [hnone] at hsome
  exact nomatch hsome

end EntityModel
