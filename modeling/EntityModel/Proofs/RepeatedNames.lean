import EntityModel.Markup.Element
import EntityModel.Schema.Uniqueness
import Mathlib.Data.List.Nodup
import Mathlib.Data.List.Perm.Basic

/-!
# Repeated names of elements

In a list of elements those are repetitions that are not the first of their name.  Checking a list
of names reports exactly these, each with the first one.  Whether the same is reported of the
elements in another order depends only on which of them are first.

* `repeated_entries`    the repetitions that are found are those of the elements
* `perm_faults_iff`     when two orders lead to the same reports
-/

namespace EntityModel

open Markup (Element)

/-- The name of an element. -/
def nameOf (x : Element) : String := (x.attribute? "Name").getD ""

/-- The name of an element, with its place. -/
def entry (x : Element) : String × Span := (nameOf x, x.span)

/-- The first element with the name of this one. -/
def firstNamed (xs : List Element) (x : Element) : Option Element :=
  xs.find? fun y => nameOf y == nameOf x

/-- The elements that are not the first of their name, each with the first one. -/
def repetitions (xs : List Element) : List (Element × Element) :=
  xs.filterMap fun x =>
    (firstNamed xs x).bind fun first => if first.span = x.span then none else some (x, first)

/-- No two elements are at one place. -/
def DistinctSpans (xs : List Element) : Prop := (xs.map (·.span)).Nodup

variable {xs ys : List Element} {x y : Element}

/-! ### First elements -/

/-- The first element of a name is in the first list that has one. -/
private theorem firstNamed_append (xs ys : List Element) (x : Element) :
    firstNamed (xs ++ ys) x = (firstNamed xs x).or (firstNamed ys x) := List.find?_append

/-- An element of the list has a first one of its name. -/
theorem exists_firstNamed (hx : x ∈ xs) : ∃ first, firstNamed xs x = some first := by
  rw [← Option.isSome_iff_exists, firstNamed, List.find?_isSome]
  exact ⟨x, hx, beq_self_eq_true _⟩

/-- Elements at one place are one element. -/
private theorem DistinctSpans.eq_of_span_eq (h : DistinctSpans xs) (hx : x ∈ xs) (hy : y ∈ xs)
    (hspan : x.span = y.span) : x = y :=
  List.inj_on_of_nodup_map h hx hy hspan

/-- Elements of a part of a list are at different places if those of the list are. -/
theorem DistinctSpans.of_sublist (h : DistinctSpans ys) (hsub : xs.Sublist ys) :
    DistinctSpans xs := List.Nodup.sublist (hsub.map _) h

/-- The order does not matter for whether places are different. -/
theorem DistinctSpans.perm (h : DistinctSpans xs) (hperm : xs.Perm ys) : DistinctSpans ys :=
  (hperm.map _).nodup_iff.mp h

/-! ### Repetitions -/

/-- A repetition is an element with another one of its name in front of it. -/
private theorem mem_repetitions_iff {first : Element} :
    (x, first) ∈ repetitions xs ↔
      x ∈ xs ∧ firstNamed xs x = some first ∧ first.span ≠ x.span := by
  simp only [repetitions, List.mem_filterMap, Option.bind_eq_some_iff]
  constructor
  · rintro ⟨z, hz, f, hf, hif⟩
    split at hif
    · exact nomatch hif
    · rename_i hne
      obtain ⟨rfl, rfl⟩ := Prod.mk.inj (Option.some.inj hif)
      exact ⟨hz, hf, hne⟩
  · rintro ⟨hx, hf, hne⟩
    exact ⟨x, hx, first, hf, if_neg hne⟩

/-- What has been seen of the elements in front: the first place of each name. -/
def SeenOf (seen : List (String × Span)) (front : List Element) : Prop :=
  ∀ x : Element, seen.lookup (nameOf x) = (firstNamed front x).map (·.span)

/-- A name that has been seen already need not be seen again. -/
private theorem SeenOf.repeat {seen : List (String × Span)} {front : List Element} {first : Span}
    (h : SeenOf seen front) (hx : seen.lookup (nameOf x) = some first) :
    SeenOf seen (front ++ [x]) := by
  intro z
  -- an element of another name that has not been seen is still not there
  rw [h z, firstNamed_append]
  cases hz : firstNamed front z with
  | some f => rfl
  | none =>
    have hother : nameOf x ≠ nameOf z := by
      intro hname
      rw [hname, h z, hz] at hx
      exact nomatch hx
    simp [firstNamed, hother]

/-- What is added to what has been seen counts for names that have not been. -/
theorem SeenOf.next {seen : List (String × Span)} {front : List Element} (h : SeenOf seen front)
    (x : Element) : SeenOf (seen ++ [entry x]) (front ++ [x]) := by
  intro z
  -- what has been seen comes first, and the new element counts where it has not been
  rw [List.lookup_append, h z, firstNamed_append]
  cases hz : firstNamed front z with
  | some f => rfl
  | none =>
    by_cases hname : nameOf z = nameOf x
    · simp [firstNamed, entry, hname]
    · simp [firstNamed, entry, hname, Ne.symm hname]

/-- The repetitions found behind some elements are those of all of them. -/
private theorem repeatedAfter_entries {seen : List (String × Span)} {front rest : List Element}
    (hseen : SeenOf seen front) (hdistinct : DistinctSpans (front ++ rest)) :
    repeatedAfter seen (rest.map entry) =
      (rest.filterMap fun x => (firstNamed (front ++ rest) x).bind fun first =>
        if first.span = x.span then none else some (x, first)).map
        fun p => ⟨nameOf p.1, p.1.span, p.2.span⟩ := by
  -- each element moves from the rest to the front, and what has been seen follows the front
  induction rest generalizing seen front with
  | nil => rfl
  | cons x rest ih =>
    have hstep : front ++ x :: rest = front ++ [x] ++ rest := by simp
    have hmem : x ∈ front ++ x :: rest := List.mem_append_right _ List.mem_cons_self
    rw [List.map_cons, entry, repeatedAfter, List.filterMap_cons]
    cases hlookup : seen.lookup (nameOf x) with
    | some place =>
      -- the first of the name stands in front, at another place
      obtain ⟨first, hfirst, rfl⟩ := Option.map_eq_some_iff.mp ((hseen x).symm.trans hlookup)
      have hall : firstNamed (front ++ x :: rest) x = some first := by
        rw [firstNamed_append, hfirst]
        rfl
      have hne : first.span ≠ x.span := by
        have hfront : first ∈ front := List.mem_of_find?_eq_some hfirst
        have hnodup := hdistinct
        rw [DistinctSpans, List.map_append, List.nodup_append] at hnodup
        exact hnodup.2.2 _ (List.mem_map_of_mem hfront) _
          (List.mem_map_of_mem List.mem_cons_self)
      rw [hall, Option.bind_some, if_neg hne]
      dsimp only
      rw [hstep, ih (hseen.repeat hlookup) (hstep ▸ hdistinct)]
      rfl
    | none =>
      -- the element is the first of its name itself
      have hfront : firstNamed front x = none :=
        Option.map_eq_none_iff.mp ((hseen x).symm.trans hlookup)
      have hall : firstNamed (front ++ x :: rest) x = some x := by
        rw [firstNamed_append, hfront]
        simp [firstNamed]
      rw [hall, Option.bind_some, if_pos rfl]
      dsimp only
      rw [hstep]
      exact ih (hseen.next x) (hstep ▸ hdistinct)

/-- The repetitions that are found in the names of elements are those of the elements. -/
theorem repeated_entries (h : DistinctSpans xs) :
    repeated (xs.map entry) =
      (repetitions xs).map fun p => ⟨nameOf p.1, p.1.span, p.2.span⟩ :=
  @repeatedAfter_entries [] [] xs (fun _ => rfl) h

/-! ### How often a name is repeated -/

/-- A name is repeated as often as it occurs, less once if it has not been seen before. -/
theorem count_repeatedAfter (seen names : List (String × Span)) (n : String) :
    ((repeatedAfter seen names).map (·.name)).count n +
        (if n ∈ names.map (·.1) ∧ n ∉ seen.map (·.1) then 1 else 0) =
      (names.map (·.1)).count n := by
  -- each entry is counted for its own name, once unless it is the first
  induction names generalizing seen with
  | nil => simp [repeatedAfter]
  | cons p rest ih =>
    obtain ⟨name, span⟩ := p
    -- this entry counts for its own name only
    have hother : name ≠ n → (n ∈ ((name, span) :: rest).map (·.1) ↔ n ∈ rest.map (·.1)) := by
      intro hn
      simp [Ne.symm hn]
    rw [repeatedAfter]
    split
    · rename_i first hfirst
      have hseen : name ∈ seen.map (·.1) := by
        by_contra hnot
        rw [lookup_eq_none_iff_not_mem.mpr hnot] at hfirst
        cases hfirst
      have hrest := ih seen
      by_cases hn : name = n
      · subst hn
        simp only [hseen, not_true_eq_false, and_false, if_false, Nat.add_zero] at hrest ⊢
        simp [hrest]
      · simp only [hother hn]
        rw [List.map_cons, List.map_cons, List.count_cons_of_ne hn, List.count_cons_of_ne hn]
        exact hrest
    · rename_i hnone
      have hseen := lookup_eq_none_iff_not_mem.mp hnone
      have hrest := ih (seen ++ [(name, span)])
      by_cases hn : name = n
      · subst hn
        simp at hrest
        simp [hrest, hseen]
      · have hadded : n ∉ (seen ++ [(name, span)]).map (·.1) ↔ n ∉ seen.map (·.1) := by
          simp [Ne.symm hn]
        simp only [hadded] at hrest
        simp only [hother hn]
        rw [List.map_cons, List.count_cons_of_ne hn]
        exact hrest

/-- In any two orders of the elements each name is repeated equally often. -/
theorem perm_names_repetitions (hdistinct : DistinctSpans ys) (hperm : xs.Perm ys) :
    ((repetitions xs).map fun p => nameOf p.1).Perm ((repetitions ys).map fun p => nameOf p.1) := by
  have hnames : ∀ zs, DistinctSpans zs →
      ((repetitions zs).map fun p => nameOf p.1) = (repeated (zs.map entry)).map (·.name) := by
    intro zs hzs
    rw [repeated_entries hzs, List.map_map]
    rfl
  rw [hnames xs (hdistinct.perm hperm.symm), hnames ys hdistinct, List.perm_iff_count]
  -- both counts differ from the count of the name by the same
  intro n
  have hentries := (hperm.map entry).map (·.1)
  have hxs := count_repeatedAfter [] (xs.map entry) n
  have hys := count_repeatedAfter [] (ys.map entry) n
  rw [hentries.count_eq n] at hxs
  simp only [hentries.mem_iff] at hxs
  exact Nat.add_right_cancel (hxs.trans hys.symm)

/-! ### Other orders -/

/-- A fault tells the places of both elements that it is about. -/
def TellsPlaces (fault : Element → Element → Fault) : Prop :=
  ∀ x first y second, fault x first = fault y second → x.span = y.span ∧ first.span = second.span

/-- The faults of the elements that are not the first of their name. -/
def repetitionFaults (fault : Element → Element → Fault) (xs : List Element) : List Fault :=
  (repetitions xs).map fun p => fault p.1 p.2

/-- What is reported of elements in one order and not in another. -/
private theorem firstNamed_eq_of_perm {fault : Element → Element → Fault}
    (hfault : TellsPlaces fault) (hdistinct : DistinctSpans ys) (hperm : xs.Perm ys)
    (h : (repetitionFaults fault xs).Perm (repetitionFaults fault ys)) (hx : x ∈ ys) :
    firstNamed xs x = firstNamed ys x := by
  have hxs : x ∈ xs := hperm.mem_iff.mpr hx
  obtain ⟨f, hf⟩ := exists_firstNamed hxs
  obtain ⟨g, hg⟩ := exists_firstNamed hx
  have hfmem : f ∈ ys := hperm.mem_iff.mp (List.mem_of_find?_eq_some hf)
  have hgmem : g ∈ ys := List.mem_of_find?_eq_some hg
  rw [hf, hg]
  by_cases hself : f.span = x.span
  · obtain rfl := hdistinct.eq_of_span_eq hfmem hx hself
    by_cases hother : g.span = f.span
    · rw [hdistinct.eq_of_span_eq hgmem hx hother]
    · -- the report on this element in the second order is none of the first one
      have hreport : fault f g ∈ repetitionFaults fault xs :=
        h.mem_iff.mpr (List.mem_map_of_mem (mem_repetitions_iff.mpr ⟨hx, hg, hother⟩))
      obtain ⟨⟨z, first⟩, hz, heq⟩ := List.mem_map.mp hreport
      obtain ⟨hzxs, hfirst, hne⟩ := mem_repetitions_iff.mp hz
      obtain rfl := hdistinct.eq_of_span_eq (hperm.mem_iff.mp hzxs) hx (hfault _ _ _ _ heq).1
      rw [hf] at hfirst
      exact absurd (congrArg Element.span (Option.some.inj hfirst)).symm hne
  · -- the report on this element in the first order is one of the second, with the same places
    have hreport : fault x f ∈ repetitionFaults fault ys :=
      h.mem_iff.mp (List.mem_map_of_mem (mem_repetitions_iff.mpr ⟨hxs, hf, hself⟩))
    obtain ⟨⟨z, second⟩, hz, heq⟩ := List.mem_map.mp hreport
    obtain ⟨hzys, hsecond, -⟩ := mem_repetitions_iff.mp hz
    obtain ⟨hzspan, hspan⟩ := hfault _ _ _ _ heq
    obtain rfl := hdistinct.eq_of_span_eq hzys hx hzspan
    obtain rfl := Option.some.inj (hg.symm.trans hsecond)
    rw [hdistinct.eq_of_span_eq hgmem hfmem hspan]

/-- The elements in two orders lead to the same reports exactly if in both of them the same elements
    are the first of their names. -/
theorem perm_faults_iff {fault : Element → Element → Fault} (hfault : TellsPlaces fault)
    (hdistinct : DistinctSpans ys) (hperm : xs.Perm ys) :
    (repetitionFaults fault xs).Perm (repetitionFaults fault ys) ↔
      ∀ x ∈ ys, firstNamed xs x = firstNamed ys x := by
  -- the same elements are first, or there is a report in one order that the other does not have
  constructor
  · intro h x hx
    exact firstNamed_eq_of_perm hfault hdistinct hperm h hx
  · intro h
    have hsame : repetitions xs = xs.filterMap fun x =>
        (firstNamed ys x).bind fun first =>
          if first.span = x.span then none else some (x, first) := by
      refine List.filterMap_congr fun x hx => ?_
      rw [h x (hperm.mem_iff.mp hx)]
    unfold repetitionFaults
    rw [hsame]
    exact (hperm.filterMap _).map _

end EntityModel
