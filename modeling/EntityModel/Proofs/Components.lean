import EntityModel.Proofs.Walk

/-!
# Strongly connected components

Cycles can also be found among the strongly connected components of the graph of next nodes: a
component of several nodes is a cycle, and so is a single node that is next after itself.  Whichever
way the components are found, and in whatever order they and their nodes are listed, the cycles
among them are the cycles that walks find.

* `isCyclic_iff`                a component is a cycle exactly if its nodes lead back to themselves
* `perm_cycles_of_components`   the cycles among the components are the cycles that are found
-/

namespace EntityModel

/-- These lists are the strongly connected components of the graph of next nodes below `count`: each
    node is in one of them, together with the nodes that it leads to and that lead back to it. -/
structure StrongComponents (next : Nat → Option Nat) (count : Nat) (components : List (List Nat)) :
    Prop where
  nodup : components.flatten.Nodup
  mem_iff : ∀ i, i ∈ components.flatten ↔ i < count
  connected : ∀ c ∈ components, ∀ i ∈ c, ∀ j, j ∈ c ↔
    Relation.ReflTransGen (Leads next) i j ∧ Relation.ReflTransGen (Leads next) j i

/-- Whether a component is a cycle: it has several nodes, or its only node is next after itself. -/
def isCyclic (next : Nat → Option Nat) (c : List Nat) : Bool :=
  1 < c.length || c.head?.any fun i => next i == some i

section

variable {next : Nat → Option Nat} {count : Nat} {components : List (List Nat)} {c : List Nat}

private theorem StrongComponents.nodup_of_mem (h : StrongComponents next count components)
    (hc : c ∈ components) : c.Nodup :=
  (List.nodup_flatten.mp h.nodup).1 c hc

/-- A component is a cycle exactly if any node of it leads back to itself. -/
theorem isCyclic_iff (h : StrongComponents next count components) (hc : c ∈ components) {i : Nat}
    (hi : i ∈ c) : isCyclic next c = true ↔ Relation.TransGen (Leads next) i i := by
  unfold isCyclic
  rw [Bool.or_eq_true, decide_eq_true_eq]
  constructor
  · rintro (hlen | hself)
    · -- the component has another node, which the way from the node and back to it comes through
      obtain ⟨j, hj, hne⟩ : ∃ j ∈ c, j ≠ i := by
        by_contra hall
        have hsub : c ⊆ [i] := fun j hj => by
          rw [List.mem_singleton]
          by_contra hne
          exact hall ⟨j, hj, hne⟩
        have hle := ((h.nodup_of_mem hc).subperm hsub).length_le
        rw [List.length_singleton] at hle
        omega
      obtain ⟨hij, hji⟩ := (h.connected c hc i hi j).mp hj
      rcases Relation.reflTransGen_iff_eq_or_transGen.mp hij with heq | hij
      · exact absurd heq hne
      · exact hij.trans_left hji
    · obtain ⟨j, hj, hnext⟩ := (Option.any_eq_true _ _).mp hself
      have hstep : Leads next j j := beq_iff_eq.mp hnext
      have hjj : Relation.TransGen (Leads next) j j := .single hstep
      exact transGen_self_of_cycle hjj ((h.connected c hc j (List.mem_of_head? hj) i).mp hi).1
  · intro hii
    by_cases hlen : 1 < c.length
    · exact .inl hlen
    · -- the next node leads back to the only node of the component, and so is that node
      obtain ⟨x, rfl⟩ : ∃ x, c = [x] := by
        have := List.length_pos_of_mem hi
        exact List.length_eq_one_iff.mp (by omega)
      obtain rfl := List.mem_singleton.mp hi
      obtain ⟨j, hij, hji⟩ := Relation.TransGen.head'_iff.mp hii
      obtain rfl := List.mem_singleton.mp ((h.connected _ hc i hi j).mpr ⟨.single hij, hji⟩)
      exact .inr ((Option.any_eq_true _ _).mpr ⟨j, rfl, beq_iff_eq.mpr hij⟩)

/-- A component that is a cycle has, in increasing order, the nodes visited from any of them. -/
theorem mergeSort_eq_visited (hclosed : Closed next (List.range count))
    (h : StrongComponents next count components) (hc : c ∈ components) {i : Nat} (hi : i ∈ c)
    (hii : Relation.TransGen (Leads next) i i) : c.mergeSort = visited next count i := by
  have hsorted : c.mergeSort.Pairwise (· ≤ ·) := by
    have hle : c.mergeSort.Pairwise fun a b => decide (a ≤ b) = true :=
      List.pairwise_mergeSort (by simp only [decide_eq_true_eq]; omega)
        (by simp only [Bool.or_eq_true, decide_eq_true_eq]; omega) c
    simpa only [decide_eq_true_eq] using hle
  have hrange : (visited next count i).Pairwise (· ≤ ·) :=
    (List.pairwise_lt_range.imp Nat.le_of_lt).filter _
  have hnodup : (visited next count i).Nodup := List.nodup_range.filter _
  have hmem : ∀ j, j ∈ c ↔ j ∈ visited next count i := by
    intro j
    rw [h.connected c hc i hi j, mem_visited_iff hclosed]
    constructor
    · exact fun hij => hii.trans_left hij.1
    · intro hij
      have hback := transGen_back hii hij.to_reflTransGen
      exact ⟨hij.to_reflTransGen, hback.to_reflTransGen⟩
  have hperm : c.mergeSort.Perm (visited next count i) :=
    (List.mergeSort_perm c _).trans
      ((List.perm_ext_iff_of_nodup (h.nodup_of_mem hc) hnodup).mpr hmem)
  exact hperm.eq_of_pairwise (fun _ _ _ _ => Nat.le_antisymm) hsorted hrange

/-- The cycles among the components, with their nodes in increasing order. -/
def cyclicComponents (next : Nat → Option Nat) (components : List (List Nat)) :
    List (List Nat) :=
  (components.filter (isCyclic next)).map fun c => c.mergeSort

/-- A component that is a cycle has a node. -/
theorem ne_nil_of_isCyclic (h : isCyclic next c = true) : c ≠ [] := by
  rintro rfl
  simp [isCyclic] at h

private theorem nodup_cyclicComponents (h : StrongComponents next count components) :
    (cyclicComponents next components).Nodup := by
  have hdisjoint := (List.nodup_flatten.mp h.nodup).2.filter (isCyclic next)
  refine List.Pairwise.map _ (fun c d hne => hne) (hdisjoint.imp_of_mem ?_)
  intro c d hc _ hcd heq
  -- a node of one of two equal components would be a node of both
  obtain ⟨i, hi⟩ := List.exists_mem_of_ne_nil c (ne_nil_of_isCyclic (List.mem_filter.mp hc).2)
  have hid : i ∈ d.mergeSort := heq ▸ List.mem_mergeSort.mpr hi
  exact hcd hi (List.mem_mergeSort.mp hid)

/-- The cycles among the strongly connected components are the cycles that are found. -/
theorem perm_cycles_of_components (hclosed : Closed next (List.range count))
    (h : StrongComponents next count components) :
    (cyclicComponents next components).Perm (cycles next count) := by
  refine (List.perm_ext_iff_of_nodup (nodup_cyclicComponents h) (nodup_cycles hclosed)).mpr ?_
  intro d
  rw [mem_cycles_iff hclosed]
  constructor
  · intro hd
    obtain ⟨c, hc, rfl⟩ := List.mem_map.mp hd
    obtain ⟨hmem, hcyclic⟩ := List.mem_filter.mp hc
    obtain ⟨i, hi⟩ := List.exists_mem_of_ne_nil c (ne_nil_of_isCyclic hcyclic)
    have hii := (isCyclic_iff h hmem hi).mp hcyclic
    have hlt := (h.mem_iff i).mp (List.mem_flatten.mpr ⟨c, hmem, hi⟩)
    exact ⟨i, hlt, hii, mergeSort_eq_visited hclosed h hmem hi hii⟩
  · rintro ⟨i, hi, hii, rfl⟩
    obtain ⟨c, hmem, hic⟩ := List.mem_flatten.mp ((h.mem_iff i).mpr hi)
    rw [← mergeSort_eq_visited hclosed h hmem hic hii]
    exact List.mem_map_of_mem (List.mem_filter.mpr ⟨hmem, (isCyclic_iff h hmem hic).mpr hii⟩)

end

end EntityModel
