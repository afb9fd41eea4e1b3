import EntityModel.Proofs.Accounting
import EntityModel.Proofs.ReadingCodes

/-!
# Counts of association ends

An association is read from two readable ends.  The number of its `End` elements is looked at only
where the readable ones are other than two, so it is reported for every wrong number but one case:
elements of which exactly two can be read are taken for a pair, however many stand beside them.

* `isReadableEnd_iff`                 when an end is read
* `faultsWith_endCount_read`          what is reported of the number of ends
* `end_count_reported_unless_surplus` the reports on all associations of a schema
-/

namespace EntityModel

open Markup (Element)
open Reading (reports_pure reports_collect)

/-! ### Readable ends -/

/-- An association end can record the element: it has a type, a role and a multiplicity. -/
def IsReadableEnd (x : Element) : Prop := ∃ r, AssociationEnd.Records x r

/-- Exactly the elements that an end can record are read. -/
theorem isReadableEnd_iff {x : Element} : IsReadableEnd x ↔ (readEnd x).value.isSome = true := by
  rw [Option.isSome_iff_exists]
  constructor
  · rintro ⟨r, hrole, htype, hmultiplicity⟩
    obtain ⟨text, htext, hword⟩ := Option.bind_eq_some_iff.mp hmultiplicity
    have hread : (readMultiplicity x).value = some r.multiplicity := by
      unfold readMultiplicity
      rw [requireAttribute_of_some htext]
      simp [Vocabulary.read, hword, acceptValue]
    refine ⟨r, ?_⟩
    unfold readEnd
    rw [requireAttribute_of_some htype, requireAttribute_of_some hrole]
    simp [hread]
  · rintro ⟨r, hr⟩
    exact ⟨r, (accounts_readEnd x).some_records r hr (fun _ => True) fun _ _ _ => True.intro⟩

instance : DecidablePred IsReadableEnd := fun _ => decidable_of_iff _ isReadableEnd_iff.symm

/-- The `End` elements of an association. -/
def endElements (e : Element) : List Element := e.namedChildren "End"

/-- Those of them that can be read. -/
def readableEnds (e : Element) : List Element := (endElements e).filter fun x => IsReadableEnd x

/-- Two of the `End` elements can be read, and there are others beside them. -/
def HasSurplusEnds (e : Element) : Prop :=
  (readableEnds e).length = 2 ∧ (endElements e).length ≠ 2

instance : DecidablePred HasSurplusEnds := fun _ => inferInstanceAs (Decidable (_ ∧ _))

variable {e : Element} {name : String}

private theorem length_collect_readEnd (e : Element) :
    (Reading.collect readEnd (endElements e)).value.length = (readableEnds e).length := by
  rw [Reading.value_collect, List.length_filterMap_eq_countP, List.countP_eq_length_filter,
    readableEnds]
  simp only [isReadableEnd_iff, Bool.decide_eq_true]

/-- Without surplus ends two ends can be read exactly if there are two and all can be read. -/
theorem length_readableEnds_eq_two_iff (h : ¬ HasSurplusEnds e) :
    (readableEnds e).length = 2 ↔
      (endElements e).length = 2 ∧ ∀ x ∈ endElements e, IsReadableEnd x := by
  constructor
  · intro hpair
    have htwo : (endElements e).length = 2 := by
      by_contra hother
      exact h ⟨hpair, hother⟩
    refine ⟨htwo, fun x hx => ?_⟩
    -- as many ends as there are can be read
    exact of_decide_eq_true (List.length_filter_eq_length_iff.mp (hpair.trans htwo.symm) x hx)
  · rintro ⟨htwo, hall⟩
    rw [← htwo]
    exact List.length_filter_eq_length_iff.mpr fun x hx => decide_eq_true (hall x hx)

/-! ### One association -/

/-- The faults of all ends are reported.  The association is read from two readable ends, and the
    number of its ends is reported where it is wrong and the readable ones are no pair. -/
theorem readAssociation_of_name (hname : e.attribute? "Name" = some name) :
    (∀ x ∈ endElements e, (readEnd x).faults ⊆ (readAssociation e).faults) ∧
    ((readAssociation e).value.isSome = true ↔ (readableEnds e).length = 2) ∧
    faultsWith .endCount (readAssociation e).faults =
      if (readableEnds e).length = 2 ∨ (endElements e).length = 2 then []
      else [.endCount name (endElements e).length e.span] := by
  have hlength := length_collect_readEnd e
  have hends : faultsWith .endCount (Reading.collect readEnd (endElements e)).faults = [] :=
    faultsWith_eq_nil (reports_collect fun x _ => reports_readEnd x) (by decide)
  unfold readAssociation
  rw [readMetadata_of_some hname]
  simp only [Reading.faults_bind, Reading.value_bind, Reading.value_pure, Reading.faults_pure,
    List.nil_append, faultsWith_append]
  unfold endElements at hlength hends ⊢
  refine ⟨fun x hx f hf => List.mem_append_left _ (faults_subset_collect hx hf), ?_⟩
  rw [hends, List.nil_append]
  split
  · -- two readable ends make up an association, and their elements are not counted
    rename_i first second hpair
    rw [hpair] at hlength
    rw [← hlength, if_pos (.inl rfl)]
    refine ⟨iff_of_true rfl rfl, ?_⟩
    exact faultsWith_eq_nil ((reports_readHalves e).bind (reports_pure _)) (by decide)
  · -- only here, where the readable ends are no pair, is the number of elements looked at
    rename_i hother
    have hne : (readableEnds e).length ≠ 2 := by
      rw [← hlength]
      intro h
      obtain ⟨first, second, hpair⟩ := List.length_eq_two.mp h
      exact hother first second hpair
    by_cases htwo : (e.namedChildren "End").length = 2
    · rw [if_pos htwo, if_pos (.inr htwo)]
      exact ⟨iff_of_false nofun hne, rfl⟩
    · rw [if_neg htwo, if_neg (not_or.mpr ⟨hne, htwo⟩)]
      exact ⟨iff_of_false nofun hne, rfl⟩

/-! ### All associations -/

/-- Some reports on the children of a kind are those on all children, if there are none on
    children of other kinds. -/
private theorem flatMap_namedChildren (kind : String) {report : Element → List Fault}
    (h : ∀ x, x.localName ≠ kind → report x = []) :
    e.children.flatMap report = (e.namedChildren kind).flatMap report := by
  unfold Element.namedChildren
  induction e.children with
  | nil => rfl
  | cons x xs ih =>
    rw [List.flatMap_cons, ih]
    by_cases hx : x.localName = kind
    · rw [List.filter_cons_of_pos (by simpa using hx), List.flatMap_cons]
    · rw [List.filter_cons_of_neg (by simpa using hx), h x hx, List.nil_append]

/-- The reports on the numbers of ends in a schema are those on its associations, in their order. -/
theorem faultsWith_endCount_read (e : Element) :
    faultsWith .endCount (Schema.read e).faults =
      (e.namedChildren "Association").flatMap fun x =>
        faultsWith .endCount (readAssociation x).faults := by
  have hread : (Schema.read e).faults =
      (requireAttribute e "Namespace").faults ++
        (Reading.collect Declaration.read e.children).faults := by
    simp [Schema.read]
  rw [hread, faultsWith_append,
    faultsWith_eq_nil (reports_requireAttribute ..) (by decide), List.nil_append,
    Reading.faults_collect, faultsWith, List.filter_flatMap,
    flatMap_namedChildren "Association"]
  · refine List.flatMap_congr fun x hx => ?_
    have hkind : x.localName = "Association" := by simpa using (List.mem_filter.mp hx).2
    rw [Declaration.read, if_neg (by simp [hkind]), if_neg (by simp [hkind]),
      if_neg (by simp [hkind]), if_pos hkind]
    simp [faultsWith]
  · intro x hx
    exact faultsWith_eq_nil (reports_attributeCodes_read hx) (by decide)

/-- Exactly one fault reports a number of ends other than two, none reports two, and an association
    is read from two readable ends and no other ones, unless of more than two `End` elements exactly
    two can be read: those make up an association without a report of their number.  All other
    faults of the ends are reported in any case. -/
theorem end_count_reported_unless_surplus (hname : e.attribute? "Name" = some name) :
    (¬ HasSurplusEnds e →
      faultsWith .endCount (readAssociation e).faults =
        (if (endElements e).length = 2 then []
          else [.endCount name (endElements e).length e.span]) ∧
      ((readAssociation e).value.isSome = true ↔
        (endElements e).length = 2 ∧ ∀ x ∈ endElements e, IsReadableEnd x)) ∧
    (HasSurplusEnds e →
      2 < (endElements e).length ∧ faultsWith .endCount (readAssociation e).faults = [] ∧
        (readAssociation e).value.isSome = true) ∧
    (∀ x ∈ endElements e, (readEnd x).faults ⊆ (readAssociation e).faults) ∧
    ∀ schema : Element, faultsWith .endCount (Schema.read schema).faults =
      (schema.namedChildren "Association").flatMap fun x =>
        faultsWith .endCount (readAssociation x).faults := by
  obtain ⟨hends, hsome, hcount⟩ := readAssociation_of_name hname
  refine ⟨fun hsurplus => ⟨?_, ?_⟩, fun ⟨hpair, hnot⟩ => ⟨?_, ?_, ?_⟩, hends,
    faultsWith_endCount_read⟩
  · have hpair : (readableEnds e).length = 2 ∨ (endElements e).length = 2 ↔
        (endElements e).length = 2 :=
      or_iff_right_of_imp fun hpair => ((length_readableEnds_eq_two_iff hsurplus).mp hpair).1
    simp only [hcount, hpair]
  · rw [hsome]
    exact length_readableEnds_eq_two_iff hsurplus
  · have hle : (readableEnds e).length ≤ (endElements e).length := List.length_filter_le ..
    omega
  · rw [hcount, if_pos (.inl hpair)]
  · exact hsome.mpr hpair

/-- An `End` element with the given role, or without one. -/
def endElement (role : Option String) : Element :=
  ⟨⟨none, "End"⟩,
    [⟨⟨none, "Type"⟩, "T"⟩, ⟨⟨none, "Multiplicity"⟩, "*"⟩] ++
      (role.map fun r => (⟨⟨none, "Role"⟩, r⟩ : Markup.Attribute)).toList,
    [], "", ⟨50, 95, by omega⟩⟩

/-- An association with ends of the given roles. -/
def billingElement (roles : List (Option String)) : Element :=
  ⟨⟨none, "Association"⟩, [⟨⟨none, "Name"⟩, "Billing"⟩], roles.map endElement, "",
    ⟨22, 186, by omega⟩⟩

/-- Three ends are reported if all of them can be read, and not if one of them cannot. -/
theorem three_ends_are_reported_or_not :
    faultsWith .endCount (readAssociation (billingElement [some "a", some "b", some "c"])).faults =
      [.endCount "Billing" 3 ⟨22, 186, by omega⟩] ∧
    faultsWith .endCount (readAssociation (billingElement [some "a", none, some "c"])).faults = [] ∧
    (readAssociation (billingElement [some "a", none, some "c"])).value.isSome = true := by
  have hname (roles) : (billingElement roles).attribute? "Name" = some "Billing" := by rfl
  obtain ⟨hthree, -⟩ := end_count_reported_unless_surplus (hname [some "a", some "b", some "c"])
  obtain ⟨-, htwo, -⟩ := end_count_reported_unless_surplus (hname [some "a", none, some "c"])
  exact ⟨(hthree (by decide +kernel)).1, (htwo (by decide +kernel)).2⟩

/-- An association with a number of ends other than two need not be reported, and may be read. -/
theorem surplus_end_may_be_unreported :
    ¬ (∀ (e : Element) (name : String), e.attribute? "Name" = some name →
      faultsWith .endCount (readAssociation e).faults =
        (if (endElements e).length = 2 then []
          else [.endCount name (endElements e).length e.span])) ∧
    ¬ (∀ (e : Element) (name : String), e.attribute? "Name" = some name →
      (readAssociation e).value.isSome = true → (endElements e).length = 2) := by
  have hcount : (endElements (billingElement [some "a", none, some "c"])).length = 3 := by rfl
  have hname : (billingElement [some "a", none, some "c"]).attribute? "Name" = some "Billing" := by
    rfl
  obtain ⟨-, hsome, hfaults⟩ := readAssociation_of_name hname
  have hpair : (readableEnds (billingElement [some "a", none, some "c"])).length = 2 := by
    decide +kernel
  constructor
  · intro h
    have hreported := h _ _ hname
    rw [hfaults, hcount, if_pos (.inl hpair), if_neg (by decide)] at hreported
    exact nomatch hreported
  · intro h
    have htwo := h _ _ hname (hsome.mpr hpair)
    rw [hcount] at htwo
    exact absurd htwo (by decide)

end EntityModel
