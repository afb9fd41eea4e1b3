import EntityModel.Proofs.FaultPlaces
import EntityModel.Proofs.KeyReferences
import EntityModel.Proofs.Positions
import EntityModel.Report

/-!
# Rejected documents

A document is rejected with a list of diagnostics that is never empty.  Whichever stage it fails in,
each of them is an error with a code, points at a construct at fault and at nothing outside of the
document: a fault of the markup lies in the text that was read so far, and any other fault lies at
elements, whose spans the root covers.

* `located_of_parse_error`          what a document is rejected with
* `parse_ends_in_schema_or_errors`  reading any text ends, and what it ends in
-/

namespace EntityModel

open Markup (Element)

/-- The diagnostic is an error with a code that points at a construct at fault, and none of its
    labels ends behind the offset. -/
structure Diagnostic.Located (limit : Nat) (d : Diagnostic) : Prop where
  severity : d.severity = .error
  code : d.code.isSome = true
  primary : ∃ l ∈ d.labels, l.isPrimary = true
  labels : ∀ l ∈ d.labels, l.span.start ≤ l.span.stop ∧ l.span.stop ≤ limit

section

variable {limit : Nat}

/-! ### Faults of each stage -/

/-- A fault of the markup that lies in the text is reported as an error in the text. -/
private theorem located_documentFault {f : Markup.DocumentFault} (h : f.Within limit) :
    f.diagnostic.Located limit := by
  have hlabels : ∀ l ∈ f.diagnostic.labels, l.span.start ≤ l.span.stop ∧ l.span.stop ≤ limit :=
    fun l hl => ⟨l.span.start_le_stop, h l hl⟩
  cases f with
  | malformed fault position => exact ⟨rfl, rfl, ⟨_, List.mem_cons_self, rfl⟩, hlabels⟩
  | tag fault span =>
    -- a fault in an attribute and one in its value differ in their wording only
    cases fault <;> exact ⟨rfl, rfl, ⟨_, List.mem_cons_self, rfl⟩, hlabels⟩
  | text fault span => exact ⟨rfl, rfl, ⟨_, List.mem_cons_self, rfl⟩, hlabels⟩
  | secondRoot span => exact ⟨rfl, rfl, ⟨_, List.mem_cons_self, rfl⟩, hlabels⟩
  | unclosed name opened => exact ⟨rfl, rfl, ⟨_, List.mem_cons_self, rfl⟩, hlabels⟩
  | noElement length => exact ⟨rfl, rfl, ⟨_, List.mem_cons_self, rfl⟩, hlabels⟩

/-- A document without a schema is reported at its root. -/
private theorem located_missingSchema {root : Element} (h : root.span.stop ≤ limit) :
    (Model.missingSchema root).Located limit := by
  refine ⟨rfl, rfl, ⟨_, List.mem_cons_self, rfl⟩, fun l hl => ?_⟩
  obtain rfl := List.mem_singleton.mp hl
  exact ⟨root.span.start_le_stop, h⟩

/-- A fault that points into the text is reported as an error in the text. -/
private theorem located_fault {f : Fault} (h : f.PointsTo fun span => span.stop ≤ limit) :
    f.diagnostic.Located limit := by
  refine ⟨rfl, rfl, ⟨_, List.mem_cons_self, rfl⟩, fun l hl => ⟨l.span.start_le_stop, ?_⟩⟩
  rcases List.mem_cons.mp hl with rfl | hl
  · exact h.1
  · obtain ⟨c, hc, rfl⟩ := List.mem_map.mp hl
    exact h.2 c hc

end

/-! ### Documents -/

/-- The schema of a document stands in its root. -/
theorem contains_of_schemaElement? {root e : Element} (h : schemaElement? root = some e) :
    root.Contains e := by
  unfold schemaElement? at h
  split at h
  · obtain rfl := Option.some.inj h
    exact root.contains_self
  · obtain ⟨models, hmodels, he⟩ := Option.bind_eq_some_iff.mp h
    have hroot := Markup.Element.contains_of_mem_preorder root (List.mem_of_find?_eq_some hmodels)
    exact hroot.tail (List.mem_of_find?_eq_some he)

/-- The elements of a document end in its text. -/
private theorem stop_le_of_contains {source : String} {root x : Element}
    (h : Markup.parse source = .ok root) (hx : root.Contains x) :
    x.span.stop ≤ source.utf8ByteSize :=
  Nat.le_trans ((Markup.nested_of_parse h).covers hx).2 (Markup.stop_le_of_parse h)

/-- A document is rejected with at least one diagnostic, and only with errors that have a code and
    point into the document. -/
theorem located_of_parse_error {source : String} {ds : List Diagnostic}
    (h : Model.parse source = .error ds) :
    ds ≠ [] ∧ ∀ d ∈ ds, d.Located source.utf8ByteSize := by
  unfold Model.parse Model.schemaElement at h
  -- the stages in turn: the markup, the schema element in it, the schema in that element
  cases hroot : Markup.parse source with
  | error f =>
    rw [hroot] at h
    obtain rfl := Except.error.inj h
    refine ⟨List.cons_ne_nil _ _, fun d hd => ?_⟩
    rw [List.mem_singleton.mp hd]
    exact located_documentFault (Markup.within_of_parse_error hroot)
  | ok root =>
    rw [hroot] at h
    dsimp only at h
    cases he : schemaElement? root with
    | none =>
      rw [he] at h
      obtain rfl := Except.error.inj h
      refine ⟨List.cons_ne_nil _ _, fun d hd => ?_⟩
      rw [List.mem_singleton.mp hd]
      exact located_missingSchema (Markup.stop_le_of_parse hroot)
    | some e =>
      rw [he] at h
      simp only [bind, Except.bind] at h
      split at h
      · exact nomatch h
      · rename_i hfaults
        obtain rfl := Except.error.inj h
        refine ⟨?_, ?_⟩
        · simpa using hfaults
        · intro d hd
          obtain ⟨f, hf, rfl⟩ := List.mem_map.mp hd
          have hspans : e.AllSpans fun span => span.stop ≤ source.utf8ByteSize := fun x hx =>
            stop_le_of_contains hroot ((contains_of_schemaElement? he).trans hx)
          exact located_fault (pointsTo_faultsOf hspans f hf)

/-- Reading any text ends: it has no more tokens than characters, and each search for a key property
    in the schema read from it ends within one round more than there are entity types.  It ends in a
    schema or in diagnostics, at least one, all of them errors with a code and a label on a
    construct at fault; their labels lie in the text, and so do those of the reports made of them,
    to which the text is attached. -/
theorem parse_ends_in_schema_or_errors (source : String) :
    (Markup.scan source.toList).1.length ≤ source.length ∧
    (∀ e, Model.schemaElement source = .ok e → ∀ t ∈ (Schema.read e).value.1.entityTypes,
      ∀ property, ∃ rounds ≤ (Schema.read e).value.1.entityTypes.length + 1,
        (Schema.read e).value.1.Search property rounds [] t
          ((Schema.read e).value.1.ancestorDeclares t property)) ∧
    ((∃ s, Model.parse source = .ok s) ∨
      ∃ ds, Model.parse source = .error ds ∧ ds ≠ [] ∧
        (∀ d ∈ ds, d.Located source.utf8ByteSize) ∧
        ∀ r ∈ Report.ofFailure (.parse ds), r.hasSource = true ∧
          ∀ l ∈ r.labels, l.span.start + l.span.length ≤ source.utf8ByteSize) := by
  refine ⟨?_, ?_, ?_⟩
  · have hlength := Markup.length_scan_le source.toList
    rw [String.length_toList] at hlength
    exact hlength
  · exact fun e _ t ht property => Schema.exists_search ht property
  · cases h : Model.parse source with
    | ok s => exact .inl ⟨s, rfl⟩
    | error ds =>
      obtain ⟨hne, hlocated⟩ := located_of_parse_error h
      refine .inr ⟨ds, rfl, hne, hlocated, fun r hr => ?_⟩
      obtain ⟨d, hd, rfl⟩ := List.mem_map.mp hr
      refine ⟨rfl, fun l hl => ?_⟩
      rw [Span.start_add_length]
      exact ((hlocated d hd).labels l hl).2

end EntityModel
