import EntityModel.Schema.Inheritance
import Mathlib.Data.List.Nodup
import Mathlib.Data.List.Perm.Subperm
import Mathlib.Data.Nat.Find
import Mathlib.Logic.Relation

/-!
# Walks along a partial successor function

Every node has at most one next node, so a walk is a function of its start: `walk? next n a` is
where it is after `n` steps.  Reachability along `next` is the existence of such a walk, and on a
finite set of nodes a walk that is long enough comes back to a node that it has left.

* `exists_shortest_walk?`   what can be reached can be reached without meeting a node twice
* `landing?_eq_none_iff`    a walk over all nodes stops unless it leads into a cycle
* `cycles_eq_nil_iff`       no cycle is found exactly when no node leads back to itself
* `mem_cycles_iff`          the cycles found are the sets of nodes that some node leads to and back
-/

namespace EntityModel

variable {α : Type}

/-- Where the walk from a node is after some steps, if it is still going. -/
def walk? (next : α → Option α) : Nat → α → Option α
  | 0, a => some a
  | n + 1, a => (next a).bind (walk? next n)

/-- The second node is the next one after the first. -/
def Leads (next : α → Option α) (a b : α) : Prop := next a = some b

/-- Nodes that no step leaves. -/
def Closed (next : α → Option α) (nodes : List α) : Prop :=
  ∀ a b, next a = some b → b ∈ nodes

/-! ### Steps of a walk -/

/-- A walk of `m + n` steps goes on for `n` steps from where it is after `m`. -/
theorem walk?_add (next : α → Option α) (m n : Nat) (a : α) :
    walk? next (m + n) a = (walk? next m a).bind (walk? next n) := by
  induction m generalizing a with
  | zero => simp [walk?]
  | succ m ih =>
    -- one step first, then the rest by the induction
    rw [show m + 1 + n = (m + n) + 1 from by omega]
    simp only [walk?]
    cases next a with
    | none => rfl
    | some b => simp only [Option.bind_some, ih b]

/-- The last step of a walk. -/
theorem walk?_succ (next : α → Option α) (n : Nat) (a : α) :
    walk? next (n + 1) a = (walk? next n a).bind next := by
  rw [walk?_add]
  congr 1
  funext b
  simp only [walk?]
  cases next b <;> rfl

/-- A walk that is still going after `n` steps was going after fewer. -/
theorem walk?_ne_none_of_le {next : α → Option α} {m n : Nat} {a : α} (hmn : m ≤ n)
    (h : walk? next n a ≠ none) : walk? next m a ≠ none := by
  intro hm
  rw [show n = m + (n - m) from by omega, walk?_add, hm] at h
  exact h rfl

/-- A walk stays among nodes that no step leaves. -/
theorem walk?_mem {next : α → Option α} {nodes : List α} (hc : Closed next nodes) {n : Nat}
    {a b : α} (ha : a ∈ nodes) (h : walk? next n a = some b) : b ∈ nodes := by
  induction n generalizing a with
  -- the induction is on the steps, from the node that the first of them leads to
  | zero =>
    obtain rfl := Option.some.inj h
    exact ha
  | succ n ih =>
    obtain ⟨c, hac, hcb⟩ := Option.bind_eq_some_iff.mp h
    exact ih (hc a c hac) hcb

/-- What can be reached is what some walk reaches. -/
theorem reflTransGen_iff_walk? {next : α → Option α} {a b : α} :
    Relation.ReflTransGen (Leads next) a b ↔ ∃ n, walk? next n a = some b := by
  constructor
  · intro h
    -- the walk to the last node is one step longer
    induction h with
    | refl => exact ⟨0, rfl⟩
    | tail _ hstep ih =>
      obtain ⟨n, hn⟩ := ih
      exact ⟨n + 1, by rw [walk?_succ, hn]; exact hstep⟩
  · rintro ⟨n, hn⟩
    induction n generalizing a with
    | zero =>
      obtain rfl := Option.some.inj hn
      exact .refl
    | succ n ih =>
      obtain ⟨c, hac, hcb⟩ := Option.bind_eq_some_iff.mp hn
      exact .head hac (ih hcb)

/-- What can be reached by at least one step is what some walk of a step or more reaches. -/
theorem transGen_iff_walk? {next : α → Option α} {a b : α} :
    Relation.TransGen (Leads next) a b ↔ ∃ n, walk? next (n + 1) a = some b := by
  simp only [Relation.TransGen.head'_iff, reflTransGen_iff_walk?]
  constructor
  · rintro ⟨c, hac, n, hcb⟩
    exact ⟨n, by rw [walk?, hac]; exact hcb⟩
  · rintro ⟨n, hn⟩
    obtain ⟨c, hac, hcb⟩ := Option.bind_eq_some_iff.mp hn
    exact ⟨c, hac, n, hcb⟩

/-! ### Walks among finitely many nodes -/

/-- A walk of as many steps as there are nodes has been somewhere twice. -/
theorem exists_walk?_eq {next : α → Option α} {nodes : List α} (hc : Closed next nodes) {n : Nat}
    {a : α} (ha : a ∈ nodes) (hn : nodes.length ≤ n) (h : walk? next n a ≠ none) :
    ∃ i j, i < j ∧ j ≤ n ∧ walk? next i a = walk? next j a := by
  by_contra hne
  -- otherwise the places after 0, 1, … and `n` steps are all different
  have hinj : ((List.range (n + 1)).map fun k => walk? next k a).Nodup := by
    refine List.Nodup.map_on (fun i hi j hj hij => ?_) List.nodup_range
    rw [List.mem_range] at hi hj
    rcases Nat.lt_trichotomy i j with hlt | heq | hgt
    · exact absurd ⟨i, j, hlt, by omega, hij⟩ hne
    · exact heq
    · exact absurd ⟨j, i, hgt, by omega, hij.symm⟩ hne
  -- but they are all nodes, of which there are only as many as `n` at most
  have hsub : ((List.range (n + 1)).map fun k => walk? next k a) ⊆ nodes.map some := by
    intro o ho
    obtain ⟨k, hk, rfl⟩ := List.mem_map.mp ho
    rw [List.mem_range] at hk
    obtain ⟨b, hb⟩ := Option.ne_none_iff_exists'.mp
      (walk?_ne_none_of_le (show k ≤ n by omega) h)
    exact List.mem_map.mpr ⟨b, walk?_mem hc ha hb, hb.symm⟩
  have hle := (hinj.subperm hsub).length_le
  simp only [List.length_map, List.length_range] at hle
  omega

/-- What can be reached can be reached by a walk that is nowhere twice, which has fewer steps than
    there are nodes. -/
theorem exists_shortest_walk? {next : α → Option α} {nodes : List α} (hc : Closed next nodes)
    {a b : α} (ha : a ∈ nodes) (h : Relation.ReflTransGen (Leads next) a b) :
    ∃ n, n < nodes.length ∧ walk? next n a = some b ∧
      ∀ i j, i < j → j ≤ n → walk? next i a ≠ walk? next j a := by
  classical
  have hex := reflTransGen_iff_walk?.mp h
  have hfind := Nat.find_spec hex
  have hdistinct : ∀ i j, i < j → j ≤ Nat.find hex → walk? next i a ≠ walk? next j a := by
    intro i j hij hj heq
    -- cutting out the steps between the two visits gives a shorter walk
    have hcut : walk? next (i + (Nat.find hex - j)) a = some b := by
      rw [walk?_add, heq, ← walk?_add, show j + (Nat.find hex - j) = Nat.find hex from by omega]
      exact hfind
    exact Nat.find_min hex (by omega) hcut
  refine ⟨Nat.find hex, ?_, hfind, hdistinct⟩
  -- a walk with as many steps as nodes would come to some place twice
  by_contra hlen
  obtain ⟨i, j, hij, hj, heq⟩ :=
    exists_walk?_eq hc ha (Nat.not_lt.mp hlen) (by rw [hfind]; exact Option.some_ne_none b)
  exact hdistinct i j hij hj heq

/-- From a node that leads back to itself a walk never stops. -/
theorem walk?_ne_none_of_cycle {next : α → Option α} {a : α}
    (h : Relation.TransGen (Leads next) a a) (n : Nat) : walk? next n a ≠ none := by
  obtain ⟨k, hk⟩ := transGen_iff_walk?.mp h
  -- going round `n` times takes at least `n` steps
  have hround : ∀ m, walk? next (m * (k + 1)) a = some a := by
    intro m
    induction m with
    | zero => rw [Nat.zero_mul]; rfl
    | succ m ih => rw [Nat.succ_mul, walk?_add, ih, Option.bind_some, hk]
  refine walk?_ne_none_of_le (Nat.le_mul_of_pos_right n (Nat.succ_pos k)) ?_
  rw [hround n]
  exact Option.some_ne_none a

/-- A walk of as many steps as there are nodes that is still going has, on its way, come to a node
    that leads back to itself. -/
theorem exists_walk?_cycle {next : α → Option α} {nodes : List α} (hc : Closed next nodes) {a : α}
    (ha : a ∈ nodes) (h : walk? next nodes.length a ≠ none) :
    ∃ n b, n ≤ nodes.length ∧ walk? next n a = some b ∧ Relation.TransGen (Leads next) b b := by
  -- the walk comes to one place after `i` and again after `j` steps
  obtain ⟨i, j, hij, hj, heq⟩ := exists_walk?_eq hc ha (Nat.le_refl _) h
  obtain ⟨b, hb⟩ := Option.ne_none_iff_exists'.mp
    (walk?_ne_none_of_le (show i ≤ nodes.length by omega) h)
  refine ⟨i, b, by omega, hb, transGen_iff_walk?.mpr ⟨j - i - 1, ?_⟩⟩
  -- from there it comes back after the difference
  have hback : walk? next (i + (j - i)) a = some b := by
    rw [show i + (j - i) = j from by omega, ← heq, hb]
  rw [walk?_add, hb, Option.bind_some] at hback
  rw [show j - i - 1 + 1 = j - i from by omega]
  exact hback

/-- A walk of as many steps as there are nodes that is still going leads to a node that leads back
    to itself. -/
private theorem exists_cycle_of_walk?_length {next : α → Option α} {nodes : List α}
    (hc : Closed next nodes) {a : α} (ha : a ∈ nodes) (h : walk? next nodes.length a ≠ none) :
    ∃ b, Relation.ReflTransGen (Leads next) a b ∧ Relation.TransGen (Leads next) b b := by
  obtain ⟨n, b, -, hb, hbb⟩ := exists_walk?_cycle hc ha h
  exact ⟨b, reflTransGen_iff_walk?.mpr ⟨n, hb⟩, hbb⟩

/-- A walk that stops has a last node. -/
theorem exists_end_of_walk? {next : α → Option α} {n : Nat} {a : α} (h : walk? next n a = none) :
    ∃ k < n, ∃ b, walk? next k a = some b ∧ next b = none := by
  induction n with
  | zero => exact nomatch h
  | succ n ih =>
    -- either it stopped before the last step, or the last step is where it stops
    cases hn : walk? next n a with
    | none =>
      obtain ⟨k, hk, hend⟩ := ih hn
      exact ⟨k, by omega, hend⟩
    | some b =>
      rw [walk?_succ, hn, Option.bind_some] at h
      exact ⟨n, by omega, b, hn, h⟩

/-- What a node on a cycle leads to leads back to it. -/
theorem transGen_back {next : α → Option α} {a b : α}
    (haa : Relation.TransGen (Leads next) a a) (hab : Relation.ReflTransGen (Leads next) a b) :
    Relation.TransGen (Leads next) b a := by
  induction hab with
  | refl => exact haa
  | tail _ hstep ih =>
    -- the way back from the node before goes on with the same step
    obtain ⟨d, hd, hda⟩ := Relation.TransGen.head'_iff.mp ih
    obtain rfl := Option.some.inj (hstep.symm.trans hd)
    exact haa.trans_right hda

/-- What a node on a cycle leads to is on a cycle. -/
theorem transGen_self_of_cycle {next : α → Option α} {a b : α}
    (haa : Relation.TransGen (Leads next) a a) (hab : Relation.ReflTransGen (Leads next) a b) :
    Relation.TransGen (Leads next) b b :=
  (transGen_back haa hab).trans_left hab

/-- A walk that leads into a cycle never stops. -/
private theorem walk?_ne_none_of_leads_to_cycle {next : α → Option α} {a b : α}
    (hab : Relation.ReflTransGen (Leads next) a b) (hbb : Relation.TransGen (Leads next) b b)
    (n : Nat) : walk? next n a ≠ none := by
  obtain ⟨m, hm⟩ := reflTransGen_iff_walk?.mp hab
  refine walk?_ne_none_of_le (Nat.le_add_left n m) ?_
  rw [walk?_add, hm, Option.bind_some]
  exact walk?_ne_none_of_cycle hbb n

/-! ### The cycles that are found -/

/-- The stations of a walk are where it is after each of its steps. -/
theorem trail_getElem? (next : Nat → Option Nat) (steps i k : Nat) (hk : k < steps) :
    (trail next steps i)[k]? = walk? next (k + 1) i := by
  induction steps generalizing i k with
  | zero => omega
  | succ steps ih =>
    rw [trail, walk?]
    cases next i with
    | none => rfl
    | some j =>
      cases k with
      | zero => rfl
      | succ k => exact ih j k (by omega)

/-- After as many steps as there are nodes a walk is where its last station says. -/
theorem landing?_eq_walk? (next : Nat → Option Nat) {count : Nat} (hcount : 0 < count) (i : Nat) :
    landing? next count i = walk? next count i := by
  -- the last station is the one after all steps, if the walk got that far
  have hlast := trail_getElem? next count i (count - 1) (by omega)
  rw [show count - 1 + 1 = count from by omega] at hlast
  simp only [landing?]
  by_cases hlen : (trail next count i).length = count
  · rw [if_pos hlen, List.getLast?_eq_getElem?, hlen, hlast]
  · have hle := trail_length_le next count i
    rw [if_neg hlen, ← hlast, List.getElem?_eq_none (by omega)]

/-- A walk over all nodes stops unless it leads into a cycle. -/
theorem landing?_eq_none_iff {next : Nat → Option Nat} {count : Nat}
    (hc : Closed next (List.range count)) {i : Nat} (hi : i < count) :
    landing? next count i = none ↔
      ¬ ∃ j, Relation.ReflTransGen (Leads next) i j ∧ Relation.TransGen (Leads next) j j := by
  have hmem := List.mem_range.mpr hi
  have hlen := List.length_range (n := count)
  rw [landing?_eq_walk? next (by omega) i]
  constructor
  · rintro hnone ⟨j, hij, hjj⟩
    exact walk?_ne_none_of_leads_to_cycle hij hjj count hnone
  · intro hno
    -- a walk that is still going after all nodes has come to a cycle
    by_contra hgo
    rw [← hlen] at hgo
    exact hno (exists_cycle_of_walk?_length hc hmem hgo)

/-- A cycle is added where a walk lands in one that is not among those found before. -/
private theorem foldl_addCycle_eq_nil_iff {next : Nat → Option Nat} {count : Nat}
    {starts : List Nat} {found : List (List Nat)} :
    starts.foldl (addCycle next count) found = [] ↔
      found = [] ∧ ∀ i ∈ starts, landing? next count i = none := by
  induction starts generalizing found with
  | nil => simp
  | cons i starts ih =>
    -- the first start adds nothing and the others add nothing
    rw [List.foldl_cons, ih, List.forall_mem_cons, ← and_assoc]
    refine and_congr_left fun _ => ?_
    unfold addCycle
    cases landing? next count i with
    | none => simp
    | some j =>
      simp only [reduceCtorEq, and_false, iff_false]
      intro hnil
      -- a walk that lands adds its cycle or finds one that is there already
      split at hnil
      · subst hnil
        contradiction
      · simp at hnil

/-- No cycle is found exactly when no node leads back to itself. -/
theorem cycles_eq_nil_iff {next : Nat → Option Nat} {count : Nat}
    (hc : Closed next (List.range count)) :
    cycles next count = [] ↔ ∀ i < count, ¬ Relation.TransGen (Leads next) i i := by
  simp only [cycles, foldl_addCycle_eq_nil_iff, true_and, List.mem_range]
  constructor
  · intro h i hi hii
    exact (landing?_eq_none_iff hc hi).mp (h i hi) ⟨i, .refl, hii⟩
  · intro h i hi
    refine (landing?_eq_none_iff hc hi).mpr ?_
    rintro ⟨j, hij, hjj⟩
    obtain ⟨n, hn⟩ := reflTransGen_iff_walk?.mp hij
    exact h j (List.mem_range.mp (walk?_mem hc (List.mem_range.mpr hi) hn)) hjj

/-- Every cycle that is found consists of the nodes visited from where some walk lands. -/
private theorem mem_foldl_addCycle {next : Nat → Option Nat} {count : Nat} {starts : List Nat}
    {found : List (List Nat)} {c : List Nat} (h : c ∈ starts.foldl (addCycle next count) found) :
    c ∈ found ∨ ∃ i ∈ starts, ∃ j, landing? next count i = some j ∧ c = visited next count j := by
  induction starts generalizing found with
  | nil => exact Or.inl h
  | cons i starts ih =>
    rw [List.foldl_cons] at h
    -- the cycle was there before, or came from this start, or from a later one
    rcases ih h with hfound | ⟨i', hi', hland⟩
    · unfold addCycle at hfound
      split at hfound
      · exact Or.inl hfound
      · rename_i j hj
        split at hfound
        · exact Or.inl hfound
        · rcases List.mem_append.mp hfound with hold | hnew
          · exact Or.inl hold
          · exact Or.inr ⟨i, List.mem_cons_self, j, hj, List.mem_singleton.mp hnew⟩
    · exact Or.inr ⟨i', List.mem_cons_of_mem _ hi', hland⟩

/-! ### Cycles as sets of nodes -/

/-- The stations of a walk are the nodes that it comes to within its steps. -/
private theorem mem_trail_iff {next : Nat → Option Nat} {steps i k : Nat} :
    k ∈ trail next steps i ↔ ∃ n < steps, walk? next (n + 1) i = some k := by
  rw [List.mem_iff_getElem?]
  constructor
  · rintro ⟨n, hn⟩
    have hlt := (List.getElem?_eq_some_iff.mp hn).1
    have hle := trail_length_le next steps i
    exact ⟨n, by omega, by rw [← trail_getElem? next steps i n (by omega), hn]⟩
  · rintro ⟨n, hn, hwalk⟩
    exact ⟨n, by rw [trail_getElem? next steps i n hn, hwalk]⟩

/-- The nodes visited from a start are those that it leads to by a step or more. -/
theorem mem_visited_iff {next : Nat → Option Nat} {count : Nat}
    (hc : Closed next (List.range count)) {i k : Nat} :
    k ∈ visited next count i ↔ Relation.TransGen (Leads next) i k := by
  simp only [visited, List.mem_filter, List.mem_range, List.contains_iff_mem, mem_trail_iff]
  constructor
  · rintro ⟨-, n, -, hn⟩
    exact transGen_iff_walk?.mpr ⟨n, hn⟩
  · intro h
    obtain ⟨j, hij, hjk⟩ := Relation.TransGen.head'_iff.mp h
    -- after the first step the shortest way to the node has fewer steps than there are nodes
    obtain ⟨n, hn, hwalk, -⟩ := exists_shortest_walk? hc (hc i j hij) hjk
    rw [List.length_range] at hn
    refine ⟨List.mem_range.mp (walk?_mem hc (hc i j hij) hwalk), n, hn, ?_⟩
    rw [walk?, show next i = some j from hij, Option.bind_some]
    exact hwalk

/-- From all nodes of a cycle the same nodes are visited. -/
theorem visited_eq_of_transGen {next : Nat → Option Nat} {count : Nat}
    (hc : Closed next (List.range count)) {i j : Nat}
    (hii : Relation.TransGen (Leads next) i i) (hij : Relation.TransGen (Leads next) i j) :
    visited next count i = visited next count j := by
  have hmem : ∀ k, k ∈ visited next count i ↔ k ∈ visited next count j := by
    intro k
    -- two nodes of a cycle lead to the same nodes
    rw [mem_visited_iff hc, mem_visited_iff hc]
    exact ⟨fun hik => (transGen_back hii hij.to_reflTransGen).trans hik, hij.trans⟩
  -- both lists filter the same nodes, so the same members make them equal
  refine List.filter_congr fun k hk => ?_
  have := hmem k
  simp only [visited, List.mem_filter, hk, true_and] at this
  exact Bool.eq_iff_iff.mpr this

/-- Where a walk lands after as many steps as there are nodes is on a cycle. -/
theorem transGen_of_landing? {next : Nat → Option Nat} {count : Nat}
    (hc : Closed next (List.range count)) {i j : Nat} (hi : i < count)
    (h : landing? next count i = some j) : Relation.TransGen (Leads next) j j := by
  rw [landing?_eq_walk? next (by omega)] at h
  have hgo : walk? next (List.range count).length i ≠ none := by
    rw [List.length_range, h]
    exact Option.some_ne_none j
  -- the walk was on a cycle before it landed, and goes on along it
  obtain ⟨n, b, hn, hb, hbb⟩ := exists_walk?_cycle hc (List.mem_range.mpr hi) hgo
  rw [List.length_range] at hn
  rw [show count = n + (count - n) from by omega, walk?_add, hb, Option.bind_some] at h
  exact transGen_self_of_cycle hbb (reflTransGen_iff_walk?.mpr ⟨_, h⟩)

/-- A cycle that was found stays among those found. -/
private theorem mem_foldl_addCycle_of_mem {next : Nat → Option Nat} {count : Nat}
    {starts : List Nat} {found : List (List Nat)} {c : List Nat} (h : c ∈ found) :
    c ∈ starts.foldl (addCycle next count) found := by
  induction starts generalizing found with
  | nil => exact h
  | cons i starts ih =>
    rw [List.foldl_cons]
    refine ih ?_
    unfold addCycle
    split
    · exact h
    · split
      · exact h
      · exact List.mem_append_left _ h

/-- After a start has been looked at, the node where its walk lands is on a cycle found. -/
private theorem exists_mem_foldl_addCycle {next : Nat → Option Nat} {count : Nat}
    (hc : Closed next (List.range count)) {starts : List Nat} (hstarts : ∀ i ∈ starts, i < count)
    {found : List (List Nat)} {i j : Nat} (hi : i ∈ starts)
    (hland : landing? next count i = some j) :
    ∃ c ∈ starts.foldl (addCycle next count) found, j ∈ c := by
  induction starts generalizing found with
  | nil => exact absurd hi List.not_mem_nil
  | cons k starts ih =>
    obtain ⟨hk, hrest⟩ := List.forall_mem_cons.mp hstarts
    rw [List.foldl_cons]
    rcases List.mem_cons.mp hi with rfl | hi
    -- where this start lands is on a cycle found before, or its cycle is added now
    · have hjj := transGen_of_landing? hc hk hland
      by_cases hold : found.any (·.contains j) = true
      · obtain ⟨c, hcf, hjc⟩ := List.any_eq_true.mp hold
        have hadd : c ∈ addCycle next count found i := by
          simp only [addCycle, hland, hold, if_true, hcf]
        exact ⟨c, mem_foldl_addCycle_of_mem hadd, List.contains_iff_mem.mp hjc⟩
      · have hadd : visited next count j ∈ addCycle next count found i := by
          simp only [addCycle, hland, hold, Bool.false_eq_true, if_false, List.mem_append,
            List.mem_singleton, or_true]
        exact ⟨_, mem_foldl_addCycle_of_mem hadd, (mem_visited_iff hc).mpr hjj⟩
    · exact ih hrest hi

/-- The cycles found are the sets of nodes visited from the nodes that lead back to themselves. -/
theorem mem_cycles_iff {next : Nat → Option Nat} {count : Nat}
    (hc : Closed next (List.range count)) {c : List Nat} :
    c ∈ cycles next count ↔
      ∃ i < count, Relation.TransGen (Leads next) i i ∧ c = visited next count i := by
  constructor
  · intro h
    rcases mem_foldl_addCycle h with hnil | ⟨i, hi, j, hj, rfl⟩
    · exact absurd hnil List.not_mem_nil
    -- where a walk lands is on a cycle, and the step that led there makes it a node
    · have hjj := transGen_of_landing? hc (List.mem_range.mp hi) hj
      obtain ⟨k, hkj, hstep⟩ := Relation.TransGen.tail'_iff.mp hjj
      exact ⟨j, List.mem_range.mp (hc k j hstep), hjj, rfl⟩
  · rintro ⟨i, hi, hii, rfl⟩
    -- the walk from the node lands on its own cycle, which some cycle found holds
    obtain ⟨j, hj⟩ := Option.ne_none_iff_exists'.mp (walk?_ne_none_of_cycle hii count)
    have hij : Relation.TransGen (Leads next) i j :=
      hii.trans_left (reflTransGen_iff_walk?.mpr ⟨_, hj⟩)
    rw [← landing?_eq_walk? next (by omega)] at hj
    obtain ⟨c, hcycle, hjc⟩ := exists_mem_foldl_addCycle hc (fun _ => List.mem_range.mp)
      (List.mem_range.mpr hi) hj
    -- all cycles found were visited from somewhere, and this one from a node of the same cycle
    rcases mem_foldl_addCycle hcycle with hnil | ⟨i', hi', j', hj', rfl⟩
    · exact absurd hnil List.not_mem_nil
    · have hj'j' := transGen_of_landing? hc (List.mem_range.mp hi') hj'
      rw [visited_eq_of_transGen hc hii hij,
        ← visited_eq_of_transGen hc hj'j' ((mem_visited_iff hc).mp hjc)]
      exact hcycle

/-- A cycle that is found has a member that is a node. -/
theorem exists_mem_of_mem_cycles {next : Nat → Option Nat} {count : Nat}
    (hc : Closed next (List.range count)) {c : List Nat} (h : c ∈ cycles next count) :
    ∃ k ∈ c, k < count := by
  obtain ⟨i, hi, hii, rfl⟩ := (mem_cycles_iff hc).mp h
  exact ⟨i, (mem_visited_iff hc).mpr hii, hi⟩

/-- A cycle is added only if none of those found holds one of its nodes. -/
private theorem nodup_addCycle {next : Nat → Option Nat} {count : Nat}
    (hc : Closed next (List.range count)) {found : List (List Nat)} {i : Nat} (hi : i < count)
    (h : found.Nodup) : (addCycle next count found i).Nodup := by
  unfold addCycle
  split
  · exact h
  · rename_i j hj
    split
    · exact h
    · rename_i hnew
      -- a cycle added is new, since it holds the node that no cycle found before holds
      have hjj := transGen_of_landing? hc hi hj
      have hfresh : visited next count j ∉ found := by
        intro hold
        have hmem := List.contains_iff_mem.mpr ((mem_visited_iff hc).mpr hjj)
        exact hnew (List.any_eq_true.mpr ⟨_, hold, hmem⟩)
      refine List.nodup_append.mpr ⟨h, List.nodup_singleton _, ?_⟩
      rintro c hcf d hd rfl
      exact hfresh (List.mem_singleton.mp hd ▸ hcf)

/-- No cycle is found twice. -/
theorem nodup_cycles {next : Nat → Option Nat} {count : Nat}
    (hc : Closed next (List.range count)) : (cycles next count).Nodup := by
  have hrun : ∀ (starts : List Nat) (found : List (List Nat)), (∀ i ∈ starts, i < count) →
      found.Nodup → (starts.foldl (addCycle next count) found).Nodup := by
    intro starts
    induction starts with
    | nil => exact fun _ _ h => h
    | cons i starts ih =>
      intro found hstarts hfound
      obtain ⟨hi, hrest⟩ := List.forall_mem_cons.mp hstarts
      rw [List.foldl_cons]
      exact ih _ hrest (nodup_addCycle hc hi hfound)
  exact hrun _ _ (fun _ => List.mem_range.mp) List.nodup_nil

end EntityModel
