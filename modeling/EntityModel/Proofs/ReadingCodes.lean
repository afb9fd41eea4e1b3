import EntityModel.Schema.OfElement

/-!
# Codes of reading

Readers report few kinds of fault: attributes that are missing or cannot be read, and the halves of
the constraint of an association.  Only the reader of a whole association reports the number of its
ends, so a fault with that code comes from there.

* `reports_attributeCodes_read`   what the reader of a declaration other than an association reports
* `reports_readHalves`            what the reader of a constraint reports
* `faultsWith_eq_nil`             no fault of a code that is not among them
-/

namespace EntityModel

open Markup (Element)
open Diagnostic (Code)

/-! ### Readings with faults of some codes -/

/-- All faults of the reading have one of the codes. -/
structure Reading.Reports {α : Type} (codes : List Code) (r : Reading α) : Prop where
  code_mem : ∀ f ∈ r.faults, f.code ∈ codes

namespace Reading

variable {α β : Type} {codes more : List Code}

/-- A pure reading reports nothing. -/
theorem reports_pure (a : α) : (pure a : Reading α).Reports codes :=
  ⟨fun _ hf => absurd hf List.not_mem_nil⟩

/-- Going without a value reports the one fault. -/
theorem reports_reject {f : Fault} (h : f.code ∈ codes) :
    (reject f : Reading (Option α)).Reports codes where
  code_mem g hg := by
    obtain rfl := List.mem_singleton.mp hg
    exact h

/-- Readers in sequence report what each of them does. -/
theorem Reports.bind {x : Reading α} {f : α → Reading β} (hx : x.Reports codes)
    (hf : (f x.value).Reports codes) : (x >>= f).Reports codes where
  code_mem g hg := by
    rcases List.mem_append.mp hg with hg | hg
    · exact hx.code_mem g hg
    · exact hf.code_mem g hg

/-- A reading may be said to report more codes than it does. -/
theorem Reports.mono {r : Reading α} (h : r.Reports codes) (hsub : codes ⊆ more) :
    r.Reports more := ⟨fun f hf => hsub (h.code_mem f hf)⟩

/-- A list is reported as its elements are. -/
theorem reports_collect {read : Element → Reading (Option α)} {es : List Element}
    (h : ∀ e ∈ es, (read e).Reports codes) : (collect read es).Reports codes where
  code_mem f hf := by
    rw [faults_collect] at hf
    obtain ⟨e, he, hf⟩ := List.mem_flatMap.mp hf
    exact (h e he).code_mem f hf

end Reading

/-- The faults of some code. -/
def faultsWith (code : Diagnostic.Code) (faults : List Fault) : List Fault :=
  faults.filter fun f => f.code = code

/-- The faults of a code in two lists are those of each. -/
theorem faultsWith_append (code : Diagnostic.Code) (fs gs : List Fault) :
    faultsWith code (fs ++ gs) = faultsWith code fs ++ faultsWith code gs :=
  List.filter_append ..

/-- A reader does not report what it has no code for. -/
theorem faultsWith_eq_nil {α : Type} {r : Reading α} {codes : List Diagnostic.Code}
    {code : Diagnostic.Code} (h : r.Reports codes) (hcode : code ∉ codes) :
    faultsWith code r.faults = [] := by
  refine List.filter_eq_nil_iff.mpr fun f hf => ?_
  rw [decide_eq_true_eq]
  rintro rfl
  exact hcode (h.code_mem f hf)

open Reading (reports_pure reports_reject reports_collect)

/-! ### Attributes -/

/-- The codes of faults in attributes. -/
def attributeCodes : List Code := [.missingAttribute, .invalidValue]

/-- An attribute that is missing has the code for that. -/
theorem reports_requireAttribute (e : Element) (name : String) :
    (requireAttribute e name).Reports attributeCodes := by
  unfold requireAttribute
  split
  · exact reports_pure _
  · exact reports_reject (by simp [Fault.code, attributeCodes])

/-- A value that cannot be read has the code for that. -/
private theorem reports_acceptValue {α : Type} (e : Element) (name text : String)
    (result : Except String α) : (acceptValue e name text result).Reports attributeCodes := by
  cases result with
  | ok a => exact reports_pure _
  | error reason => exact reports_reject (by simp [Fault.code, attributeCodes])

/-- An attribute that may be missing is reported only for its value. -/
private theorem reports_readAttribute {α : Type} (e : Element) (name : String)
    (read : String → Except String α) : (readAttribute e name read).Reports attributeCodes := by
  unfold readAttribute
  split
  · exact reports_pure _
  · exact reports_acceptValue ..

/-- So is the greatest length. -/
private theorem reports_readMaxLength (e : Element) : (readMaxLength e).Reports attributeCodes := by
  unfold readMaxLength
  split
  · exact reports_pure _
  · split
    · exact reports_pure _
    · exact (reports_acceptValue ..).bind (reports_pure _)

/-- Of what every record bears only the name can be at fault. -/
private theorem reports_readMetadata (e : Element) : (readMetadata e).Reports attributeCodes :=
  (reports_requireAttribute ..).bind (reports_pure _)

/-- The accesses of the accessors are attributes. -/
private theorem reports_readAccessors (e : Element) : (readAccessors e).Reports attributeCodes :=
  (reports_readAttribute ..).bind ((reports_readAttribute ..).bind (reports_pure _))

/-- References to properties have only a name. -/
private theorem reports_readPropertyRefs (e : Element) :
    (readPropertyRefs e).Reports attributeCodes :=
  reports_collect fun r _ => reports_requireAttribute r "Name"

/-! ### Members -/

/-- A member of an enum has faults in attributes only. -/
private theorem reports_readEnumMember (e : Element) :
    (readEnumMember e).Reports attributeCodes := by
  refine (reports_requireAttribute ..).bind ?_
  split
  · exact reports_pure _
  · exact (reports_readAttribute ..).bind (reports_pure _)

/-- A property has faults in attributes only. -/
private theorem reports_readProperty (e : Element) : (readProperty e).Reports attributeCodes := by
  refine (reports_readMetadata e).bind ?_
  split
  · exact reports_pure _
  · refine (reports_requireAttribute ..).bind ?_
    split
    · exact reports_pure _
    -- the attributes in the order in which they are read
    · exact (reports_readAttribute ..).bind <| (reports_readMaxLength e).bind <|
        (reports_readAttribute ..).bind <| (reports_readAttribute ..).bind <|
        (reports_readAccessors e).bind (reports_pure _)

/-- A navigation property has faults in attributes only. -/
private theorem reports_readNavigationProperty (e : Element) :
    (readNavigationProperty e).Reports attributeCodes := by
  refine (reports_readMetadata e).bind ?_
  split
  · exact reports_pure _
  · refine (reports_requireAttribute ..).bind <| (reports_requireAttribute ..).bind <|
      (reports_requireAttribute ..).bind <| (reports_readAccessors e).bind ?_
    dsimp only
    split
    -- all three of the required attributes are there
    · exact reports_pure _
    -- or one is missing and no record is made, which is no fault of its own
    · exact reports_pure _

/-- A member of an entity type has faults in attributes only. -/
private theorem reports_readEntityMember (e : Element) :
    (EntityMember.read e).Reports attributeCodes := by
  unfold EntityMember.read
  split
  · exact (reports_readProperty e).bind (reports_pure _)
  · split
    · exact (reports_readNavigationProperty e).bind (reports_pure _)
    -- other children are passed over
    · exact reports_pure _

/-! ### Declarations -/

/-- An enum type has faults in attributes only. -/
private theorem reports_readEnumType (e : Element) : (readEnumType e).Reports attributeCodes := by
  refine (reports_readMetadata e).bind ?_
  split
  · exact reports_pure _
  · exact (reports_readAttribute ..).bind <| (reports_readAttribute ..).bind <|
      (reports_collect fun m _ => reports_readEnumMember m).bind (reports_pure _)

/-- A complex type has faults in attributes only. -/
private theorem reports_readComplexType (e : Element) :
    (readComplexType e).Reports attributeCodes := by
  refine (reports_readMetadata e).bind ?_
  split
  · exact reports_pure _
  · refine (reports_collect fun m _ => ?_).bind (reports_pure _)
    exact (reports_readProperty m).bind (reports_pure _)

/-- A key has faults in the attributes of its references only. -/
private theorem reports_readKey (e : Element) : (readKey e).Reports attributeCodes := by
  unfold readKey
  split
  · exact reports_pure _
  · exact (reports_readPropertyRefs _).bind (reports_pure _)

/-- An entity type has faults in attributes only. -/
private theorem reports_readEntityType (e : Element) :
    (readEntityType e).Reports attributeCodes := by
  refine (reports_readMetadata e).bind ?_
  split
  · exact reports_pure _
  · exact (reports_readAttribute ..).bind <| (reports_readAttribute ..).bind <|
      (reports_readKey e).bind <|
      (reports_collect fun m _ => reports_readEntityMember m).bind (reports_pure _)

/-- An entity container has faults in attributes only. -/
private theorem reports_readEntityContainer (e : Element) :
    (readEntityContainer e).Reports attributeCodes := by
  refine (reports_readMetadata e).bind ?_
  split
  · exact reports_pure _
  · refine (reports_readAttribute ..).bind ((reports_collect fun m _ => ?_).bind (reports_pure _))
    -- its sets have a name and a type
    refine (reports_readMetadata m).bind ?_
    split
    · exact reports_pure _
    · exact (reports_requireAttribute ..).bind (reports_pure _)

/-! ### Associations -/

/-- A multiplicity is an attribute. -/
private theorem reports_readMultiplicity (e : Element) :
    (readMultiplicity e).Reports attributeCodes := by
  refine (reports_requireAttribute ..).bind ?_
  split
  · exact reports_pure _
  · exact reports_acceptValue ..

/-- An end of an association has faults in attributes only. -/
theorem reports_readEnd (e : Element) : (readEnd e).Reports attributeCodes := by
  refine (reports_requireAttribute ..).bind <| (reports_requireAttribute ..).bind <|
    (reports_readMultiplicity e).bind ?_
  split
  · exact reports_pure _
  · exact reports_pure _

/-- The codes of faults in a constraint. -/
def constraintCodes : List Code := .missingElement :: attributeCodes

/-- A half of a constraint may be missing, and has faults in attributes otherwise. -/
private theorem reports_readHalf (constraint : Element) (name : String) :
    (readHalf constraint name).Reports constraintCodes := by
  have hsub : attributeCodes ⊆ constraintCodes := List.subset_cons_self ..
  unfold readHalf
  split
  -- the half is missing
  · exact reports_reject List.mem_cons_self
  · refine ((reports_requireAttribute ..).mono hsub).bind ?_
    split
    · exact reports_pure _
    · exact ((reports_readPropertyRefs _).mono hsub).bind (reports_pure _)

/-- The halves of a constraint have the faults of each. -/
theorem reports_readHalves (e : Element) : (readHalves e).Reports constraintCodes := by
  unfold readHalves
  split
  · exact reports_pure _
  · exact (reports_readHalf ..).bind ((reports_readHalf ..).bind (reports_pure _))

/-! ### The schema -/

/-- A declaration other than an association has faults in attributes only. -/
theorem reports_attributeCodes_read {e : Element} (h : e.localName ≠ "Association") :
    (Declaration.read e).Reports attributeCodes := by
  unfold Declaration.read
  split
  -- the kinds that are not associations, each with its own reader
  · exact (reports_readEnumType e).bind (reports_pure _)
  · split
    · exact (reports_readComplexType e).bind (reports_pure _)
    · split
      · exact (reports_readEntityType e).bind (reports_pure _)
      · split
        · exact (reports_readEntityContainer e).bind (reports_pure _)
        -- an element of another name is no declaration, and neither is the association that is
        -- ruled out
        · exact reports_pure _

end EntityModel
