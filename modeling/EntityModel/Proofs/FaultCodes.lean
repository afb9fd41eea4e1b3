import EntityModel.Schema.Validation

/-!
# Faults by code

Each group of rules reports under codes of its own, so the faults of one code in `validate` are the
faults of one group, in the order in which that group reports them.

* `filter_undefinedKey_validate`       the faults of keys
* `filter_cyclicInheritance_validate`  the faults of inheritance
-/

namespace EntityModel

variable {s : Schema} {m : SourceMap} {f : Fault}

/-! ### Codes of the groups -/

/-- Names that are declared twice are reported under one code. -/
theorem code_of_mem_declarationFaults (h : f ∈ declarationFaults s m) :
    f.code = .duplicateDeclaration := by
  have hgroup : ∀ kind names, f ∈ duplicateDeclarations kind names →
      f.code = .duplicateDeclaration := by
    intro kind names hf
    obtain ⟨r, -, rfl⟩ := List.mem_map.mp hf
    rfl
  -- types, associations and containers, each with a list of names
  simp only [declarationFaults, List.mem_append] at h
  rcases h with (h | h) | h
  · exact hgroup _ _ h
  · exact hgroup _ _ h
  · exact hgroup _ _ h

/-- Members that are declared twice are reported under one code. -/
theorem code_of_mem_memberFaults (h : f ∈ memberFaults s m) : f.code = .duplicateMember := by
  have hgroup : ∀ owner names, f ∈ duplicateMembers owner names → f.code = .duplicateMember := by
    intro owner names hf
    obtain ⟨r, -, rfl⟩ := List.mem_map.mp hf
    rfl
  rcases List.mem_append.mp h with h | h
  · obtain ⟨p, -, hf⟩ := List.mem_flatMap.mp h
    exact hgroup _ _ hf
  · obtain ⟨p, -, hf⟩ := List.mem_flatMap.mp h
    exact hgroup _ _ hf

/-- Roles are reported under two codes. -/
theorem code_of_mem_roleFaults (h : f ∈ roleFaults s m) :
    f.code = .duplicateRole ∨ f.code = .unknownRole := by
  obtain ⟨⟨a, p⟩, -, h⟩ := List.mem_flatMap.mp h
  rcases cases_of_mem_associationFaults h with rfl | ⟨role, rfl | rfl⟩
  · exact .inl rfl
  · exact .inr rfl
  · exact .inr rfl

/-- Keys are reported under one code. -/
theorem code_of_mem_keyFaults (h : f ∈ keyFaults s m) : f.code = .undefinedKey := by
  obtain ⟨p, -, h⟩ := List.mem_flatMap.mp h
  obtain ⟨name, -, rfl⟩ := List.mem_map.mp h
  rfl

/-- Members of enum types that are declared twice are reported under one code. -/
theorem code_of_mem_enumMemberFaults (h : f ∈ enumMemberFaults s m) :
    f.code = .duplicateEnumMember := by
  obtain ⟨p, -, h⟩ := List.mem_flatMap.mp h
  obtain ⟨r, -, rfl⟩ := List.mem_map.mp h
  rfl

/-- Cycles of inheritance are reported under one code. -/
theorem code_of_mem_inheritanceFaults (h : f ∈ inheritanceFaults s m) :
    f.code = .cyclicInheritance := by
  obtain ⟨c, -, h⟩ := List.mem_filterMap.mp h
  obtain ⟨first, others, -, rfl⟩ := cycleFault?_eq_some_iff.mp h
  rfl

/-- Names that are no identifiers are reported under one code. -/
theorem code_of_mem_nameFaults (h : f ∈ nameFaults s m) : f.code = .invalidName := by
  obtain ⟨p, -, rfl⟩ := List.mem_map.mp h
  rfl

/-! ### The faults of one code -/

/-- A group that reports under one code has no fault of another. -/
theorem filter_code_eq_nil {faults : List Fault} {c d : Diagnostic.Code}
    (h : ∀ f ∈ faults, f.code = d) (hne : d ≠ c) : (faults.filter fun f => f.code = c) = [] := by
  refine List.filter_eq_nil_iff.mpr fun f hf => ?_
  rw [h f hf, decide_eq_true_eq]
  exact hne

/-- A group that reports under one code has only faults of that code. -/
theorem filter_code_eq_self {faults : List Fault} {c : Diagnostic.Code}
    (h : ∀ f ∈ faults, f.code = c) : (faults.filter fun f => f.code = c) = faults :=
  List.filter_eq_self.mpr fun f hf => decide_eq_true (h f hf)

/-- No role is reported under the code of another group. -/
theorem filter_code_roleFaults {c : Diagnostic.Code} (hsame : c ≠ .duplicateRole)
    (hunknown : c ≠ .unknownRole) : ((roleFaults s m).filter fun f => f.code = c) = [] := by
  refine List.filter_eq_nil_iff.mpr fun f hf => ?_
  rw [decide_eq_true_eq]
  rcases code_of_mem_roleFaults hf with h | h
  · rw [h]
    exact hsame.symm
  · rw [h]
    exact hunknown.symm

/-- The faults of undefined keys are what the check of keys reports. -/
theorem filter_undefinedKey_validate (s : Schema) (m : SourceMap) :
    ((validate s m).filter fun f => f.code = .undefinedKey) = keyFaults s m := by
  -- of the seven groups only that of keys is left
  simp only [validate, List.filter_append]
  rw [filter_code_eq_nil (fun _ => code_of_mem_declarationFaults) (by decide),
    filter_code_eq_nil (fun _ => code_of_mem_memberFaults) (by decide),
    filter_code_roleFaults (by decide) (by decide),
    filter_code_eq_self (fun _ => code_of_mem_keyFaults),
    filter_code_eq_nil (fun _ => code_of_mem_enumMemberFaults) (by decide),
    filter_code_eq_nil (fun _ => code_of_mem_inheritanceFaults) (by decide),
    filter_code_eq_nil (fun _ => code_of_mem_nameFaults) (by decide)]
  simp

/-- The faults of cyclic inheritance are what the check of inheritance reports. -/
theorem filter_cyclicInheritance_validate (s : Schema) (m : SourceMap) :
    ((validate s m).filter fun f => f.code = .cyclicInheritance) = inheritanceFaults s m := by
  -- of the seven groups only that of inheritance is left
  simp only [validate, List.filter_append]
  rw [filter_code_eq_nil (fun _ => code_of_mem_declarationFaults) (by decide),
    filter_code_eq_nil (fun _ => code_of_mem_memberFaults) (by decide),
    filter_code_roleFaults (by decide) (by decide),
    filter_code_eq_nil (fun _ => code_of_mem_keyFaults) (by decide),
    filter_code_eq_nil (fun _ => code_of_mem_enumMemberFaults) (by decide),
    filter_code_eq_self (fun _ => code_of_mem_inheritanceFaults),
    filter_code_eq_nil (fun _ => code_of_mem_nameFaults) (by decide)]
  simp

end EntityModel
