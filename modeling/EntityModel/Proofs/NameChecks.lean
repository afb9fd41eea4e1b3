import EntityModel.Proofs.FailedRuns
import EntityModel.Proofs.FilledPatterns
import Mathlib.Data.List.Pairwise

/-!
# Names of the files of a commit

Before a commit writes anything it looks at the names of its files in order.  A name is refused if it
is no plain file name or if its path is that of a name before it.  Since a path with a place for the
name tells the name, paths clash for two reasons only: the names are the same, or the pattern is one
path for all files.

* `components_pathOf_eq_iff`            when two names have one path
* `destinationsAfter_eq_error_iff`      the first name that is refused ends the scan
* `destinations_eq_ok_iff`              the names of which none is refused
* `commit_refuses_first_clash`          what a commit fails with before it writes anything
-/

namespace EntityModel.Output

open FilePath (components Components IsNormal isFileName isNormal_of_isFileName)
open Generation (GeneratedFile)

variable {pattern : String} {layout : Layout}

/-! ### Two names -/

/-- Files of the two names would go to one path: the names are the same, or the pattern is the path
    of every file. -/
def Clashes (pattern : String) (layout : Layout) (first second : String) : Prop :=
  first = second ∨ (layout = .singleFile ∧ hasPlaceholder pattern = false)

instance (pattern : String) (layout : Layout) (first second : String) :
    Decidable (Clashes pattern layout first second) :=
  inferInstanceAs (Decidable (_ ∨ _))

/-- Clashing goes both ways. -/
theorem Clashes.symm {a b : String} (h : Clashes pattern layout a b) :
    Clashes pattern layout b a :=
  h.imp_left Eq.symm

/-- Clashing goes on from name to name. -/
theorem Clashes.trans {a b c : String} (h : Clashes pattern layout a b)
    (h' : Clashes pattern layout b c) : Clashes pattern layout a c := by
  rcases h with rfl | h
  · exact h'
  · exact .inr h

/-- A path with a place for the name, or in a directory of files, tells the name. -/
theorem pathOf_inj {a b : String} (ha : IsNormal a) (hb : IsNormal b)
    (hpattern : ¬ (layout = .singleFile ∧ hasPlaceholder pattern = false))
    (h : components (pathOf pattern a layout) = components (pathOf pattern b layout)) : a = b := by
  rw [components_pathOf ha, components_pathOf hb, Components.mk.injEq] at h
  -- the parts from the pattern are equal one for one, and so are the added ones
  obtain ⟨hfilled, hadded⟩ := List.append_inj h.2 (by simp)
  -- a component with a place for the name tells it, or else the added file does
  by_cases hplace : hasPlaceholder pattern = true
  · obtain ⟨c, hc, hplace⟩ := exists_component_of_hasPlaceholder hplace
    have hsame := List.map_inj_left.mp hfilled c hc
    rw [fill, fill, String.ofList_inj] at hsame
    exact String.toList_inj.mp (Text.replaceAll_inj placeholder_ne_nil hplace hsame)
  · cases layout with
    | singleFile => exact absurd ⟨rfl, Bool.eq_false_iff.mpr hplace⟩ hpattern
    | filePerDeclaration =>
      unfold addedNames at hadded
      rw [if_neg hplace, if_neg hplace] at hadded
      have hnames := congrArg String.toList (List.singleton_inj.mp hadded)
      rw [String.toList_append, String.toList_append] at hnames
      exact String.toList_inj.mp (List.append_cancel_right hnames)

/-- Plain names have one path exactly if they clash. -/
theorem components_pathOf_eq_iff {a b : String} (ha : isFileName a = true)
    (hb : isFileName b = true) :
    components (pathOf pattern a layout) = components (pathOf pattern b layout) ↔
      Clashes pattern layout a b := by
  constructor
  · intro h
    -- where the pattern is the path of every file all names clash
    by_cases hpattern : layout = .singleFile ∧ hasPlaceholder pattern = false
    · exact .inr hpattern
    · exact .inl (pathOf_inj (isNormal_of_isFileName ha) (isNormal_of_isFileName hb) hpattern h)
  · rintro (rfl | ⟨rfl, hplace⟩)
    · rfl
    · simp [pathOf, hplace]

/-! ### The scan -/

/-- Names that go through: plain file names of which no two clash. -/
structure Accepted (pattern : String) (layout : Layout) (names : List String) : Prop where
  plain : ∀ name ∈ names, isFileName name = true
  apart : names.Pairwise fun first second => ¬ Clashes pattern layout first second

/-- What is wrong with a name that comes after the given ones. -/
inductive Refused (pattern : String) (layout : Layout) (before : List String) (name : String) :
    OutputFault → Prop
  | invalidName (h : isFileName name = false) : Refused pattern layout before name (.invalidName name)
  | duplicatePath {first : String} (hname : isFileName name = true) (hfirst : first ∈ before)
      (hclash : Clashes pattern layout first name) :
      Refused pattern layout before name
        (.duplicatePath (pathOf pattern name layout) first name)

variable {earlier names : List String} {name : String} {fault : OutputFault}

/-- Without names nothing is refused. -/
theorem accepted_nil : Accepted pattern layout [] := ⟨by simp, .nil⟩

/-- One more name goes through if it is plain and clashes with none before it. -/
private theorem accepted_append_singleton_iff :
    Accepted pattern layout (earlier ++ [name]) ↔ Accepted pattern layout earlier ∧
      isFileName name = true ∧ ∀ first ∈ earlier, ¬ Clashes pattern layout first name := by
  constructor
  · rintro ⟨hplain, hapart⟩
    obtain ⟨hplain, hname⟩ := List.forall_mem_append.mp hplain
    obtain ⟨hapart, -, hclash⟩ := List.pairwise_append.mp hapart
    exact ⟨⟨hplain, hapart⟩, hname name List.mem_cons_self,
      fun first hfirst => hclash first hfirst name List.mem_cons_self⟩
  · rintro ⟨⟨hplain, hapart⟩, hname, hclash⟩
    refine ⟨List.forall_mem_append.mpr ⟨hplain, List.forall_mem_singleton.mpr hname⟩,
      List.pairwise_append.mpr ⟨hapart, List.pairwise_singleton _ _, fun first hfirst => ?_⟩⟩
    exact List.forall_mem_singleton.mpr (hclash first hfirst)

/-- The names before others have gone through if all have. -/
private theorem Accepted.of_append {more : List String}
    (h : Accepted pattern layout (earlier ++ more)) : Accepted pattern layout earlier :=
  ⟨(List.forall_mem_append.mp h.plain).1, (List.pairwise_append.mp h.apart).1⟩

/-- At most one of the names that went through can clash with another name. -/
theorem Accepted.eq_of_clashes (h : Accepted pattern layout earlier) {a b : String}
    (ha : a ∈ earlier) (hb : b ∈ earlier) (haname : Clashes pattern layout a name)
    (hbname : Clashes pattern layout b name) : a = b := by
  -- two of them would clash with each other by way of the name
  by_contra hne
  have hsymm : Std.Symm fun first second => ¬ Clashes pattern layout first second :=
    ⟨fun _ _ hno hclash => hno hclash.symm⟩
  exact h.apart.forall ha hb hne (haname.trans hbname.symm)

/-- What is known of the paths of names that went through, the last one first. -/
def takenPaths (pattern : String) (layout : Layout) (names : List String) :
    List (Components × String) :=
  (names.map fun name => (components (pathOf pattern name layout), name)).reverse

/-- With one more name its path is the last one taken. -/
private theorem takenPaths_append_singleton :
    takenPaths pattern layout (earlier ++ [name]) =
      (components (pathOf pattern name layout), name) :: takenPaths pattern layout earlier := by
  simp [takenPaths]

/-- The path of a name is a new one exactly if no name before it clashes. -/
theorem lookup_takenPaths_eq_none_iff (h : Accepted pattern layout earlier)
    (hname : isFileName name = true) :
    (takenPaths pattern layout earlier).lookup (components (pathOf pattern name layout)) = none ↔
      ∀ first ∈ earlier, ¬ Clashes pattern layout first name := by
  simp only [takenPaths, List.lookup_eq_none_iff, List.mem_reverse, List.forall_mem_map,
    bne_iff_ne, ne_eq]
  -- the paths of names that went through are compared one by one
  refine forall₂_congr fun first hfirst => not_congr ?_
  rw [eq_comm, components_pathOf_eq_iff (h.plain first hfirst) hname]

/-- The name that is known to have a path is the one that clashes. -/
private theorem lookup_takenPaths_eq_some_iff (h : Accepted pattern layout earlier)
    (hname : isFileName name = true) {first : String} :
    (takenPaths pattern layout earlier).lookup (components (pathOf pattern name layout)) =
      some first ↔ first ∈ earlier ∧ Clashes pattern layout first name := by
  -- what is looked up is one of the names, and it clashes
  have hnone := lookup_takenPaths_eq_none_iff h hname
  have hfound : ∀ other, (takenPaths pattern layout earlier).lookup
      (components (pathOf pattern name layout)) = some other →
        other ∈ earlier ∧ Clashes pattern layout other name := by
    intro other hother
    obtain ⟨_, _, hsplit, -⟩ := List.lookup_eq_some_iff.mp hother
    have hmem : (components (pathOf pattern name layout), other) ∈
        takenPaths pattern layout earlier := by simp [hsplit]
    obtain ⟨other', hother', heq⟩ := List.mem_map.mp (List.mem_reverse.mp hmem)
    obtain ⟨hpath, rfl⟩ := Prod.mk.inj heq
    exact ⟨hother', (components_pathOf_eq_iff (h.plain _ hother') hname).mp hpath⟩
  constructor
  · exact hfound first
  · rintro ⟨hfirst, hclash⟩
    cases hlookup : (takenPaths pattern layout earlier).lookup
        (components (pathOf pattern name layout)) with
    | none => exact absurd hclash (hnone.mp hlookup first hfirst)
    | some other =>
      obtain ⟨hother, hclash'⟩ := hfound other hlookup
      rw [h.eq_of_clashes hfirst hother hclash hclash']

/-- One name of the scan is refused, or it goes through and the scan goes on. -/
theorem destinationsAfter_cons (h : Accepted pattern layout earlier) (name : String)
    (rest : List String) :
    (∃ fault, Refused pattern layout earlier name fault ∧
      destinationsAfter pattern layout (takenPaths pattern layout earlier) (name :: rest) =
        .error fault) ∨
    (Accepted pattern layout (earlier ++ [name]) ∧
      destinationsAfter pattern layout (takenPaths pattern layout earlier) (name :: rest) =
        (destinationsAfter pattern layout (takenPaths pattern layout (earlier ++ [name])) rest).map
          (pathOf pattern name layout :: ·)) := by
  rw [destinationsAfter]
  -- first the name by itself, then its path against those that are taken
  split
  · rename_i hname
    split
    · rename_i first hfirst
      obtain ⟨hmem, hclash⟩ := (lookup_takenPaths_eq_some_iff h hname).mp hfirst
      exact .inl ⟨_, .duplicatePath hname hmem hclash, rfl⟩
    · rename_i hnone
      refine .inr ⟨accepted_append_singleton_iff.mpr ⟨h, hname, ?_⟩, ?_⟩
      · exact (lookup_takenPaths_eq_none_iff h hname).mp hnone
      · rw [takenPaths_append_singleton]
  · rename_i hname
    exact .inl ⟨_, .invalidName (Bool.eq_false_iff.mpr hname), rfl⟩

/-- A name behind names that went through is refused for one reason, or goes through itself. -/
theorem Refused.unique (h : Accepted pattern layout earlier) {fault' : OutputFault}
    (hfault : Refused pattern layout earlier name fault)
    (hfault' : Refused pattern layout earlier name fault') : fault = fault' := by
  -- a name is either not plain, or it is plain and clashes
  cases hfault with
  | invalidName hno =>
    cases hfault' with
    | invalidName => rfl
    | duplicatePath hname => cases hno.symm.trans hname
  | duplicatePath hname hfirst hclash =>
    cases hfault' with
    | invalidName hno => cases hno.symm.trans hname
    | duplicatePath _ hfirst' hclash' => rw [h.eq_of_clashes hfirst hfirst' hclash hclash']

/-- A name that is refused has not gone through. -/
private theorem Refused.not_accepted (h : Refused pattern layout earlier name fault) :
    ¬ Accepted pattern layout (earlier ++ [name]) := by
  intro haccepted
  obtain ⟨-, hname, hapart⟩ := accepted_append_singleton_iff.mp haccepted
  cases h with
  | invalidName hno => cases hno.symm.trans hname
  | duplicatePath _ hfirst hclash => exact hapart _ hfirst hclash

/-- The fault of the first refused name, if the names before it went through. -/
def FirstRefused (pattern : String) (layout : Layout) (earlier names : List String)
    (fault : OutputFault) : Prop :=
  ∃ before name after, names = before ++ name :: after ∧
    Accepted pattern layout (earlier ++ before) ∧
    Refused pattern layout (earlier ++ before) name fault

/-- The first refused name is the one in front, or the first refused one behind it. -/
theorem firstRefused_cons_iff (h : Accepted pattern layout earlier) {rest : List String} :
    FirstRefused pattern layout earlier (name :: rest) fault ↔
      Refused pattern layout earlier name fault ∨
        FirstRefused pattern layout (earlier ++ [name]) rest fault := by
  constructor
  -- nothing stands before the refused name, or the first name does
  · rintro ⟨before, name', after, hsplit, haccepted, hrefused⟩
    cases before with
    | nil =>
      obtain ⟨rfl, rfl⟩ := List.cons.inj hsplit
      exact .inl (by simpa using hrefused)
    | cons first before =>
      obtain ⟨rfl, rfl⟩ := List.cons.inj hsplit
      exact .inr ⟨before, name', after, rfl, by simpa using haccepted, by simpa using hrefused⟩
  · rintro (hrefused | ⟨before, name', after, rfl, haccepted, hrefused⟩)
    · exact ⟨[], name, rest, rfl, by simpa using h, by simpa using hrefused⟩
    · exact ⟨name :: before, name', after, rfl, by simpa using haccepted, by simpa using hrefused⟩

/-- The first name that is refused ends the scan, with what is wrong with it. -/
theorem destinationsAfter_eq_error_iff (h : Accepted pattern layout earlier) :
    destinationsAfter pattern layout (takenPaths pattern layout earlier) names = .error fault ↔
      FirstRefused pattern layout earlier names fault := by
  -- by the names, with those that went through so far
  induction names generalizing earlier with
  | nil => simp [destinationsAfter, FirstRefused]
  | cons name rest ih =>
    rw [firstRefused_cons_iff h]
    obtain ⟨fault', hrefused, hscan⟩ | ⟨haccepted, hscan⟩ := destinationsAfter_cons h name rest
    -- the first name is refused, so no other is the first refused one
    · rw [hscan, Except.error.injEq]
      constructor
      · rintro rfl
        exact .inl hrefused
      · rintro (hrefused' | ⟨before, _, _, -, haccepted, -⟩)
        · exact hrefused.unique h hrefused'
        · exact absurd haccepted.of_append hrefused.not_accepted
    -- it goes through, so the fault is that of a later name
    · rw [hscan, ← failure?_eq_some_iff, failure?_map, failure?_eq_some_iff, ih haccepted]
      exact (or_iff_right fun hrefused => hrefused.not_accepted haccepted).symm

/-- The scan comes to its end exactly if no name is refused. -/
private theorem destinationsAfter_eq_ok_iff (h : Accepted pattern layout earlier)
    {paths : List String} :
    destinationsAfter pattern layout (takenPaths pattern layout earlier) names = .ok paths ↔
      Accepted pattern layout (earlier ++ names) ∧
        paths = names.map fun name => pathOf pattern name layout := by
  induction names generalizing earlier paths with
  | nil => simp [destinationsAfter, h, eq_comm]
  | cons name rest ih =>
    obtain ⟨fault', hrefused, hscan⟩ | ⟨haccepted, hscan⟩ := destinationsAfter_cons h name rest
    -- the first name is refused, so not all of them go through
    · rw [hscan]
      refine iff_of_false (by simp) ?_
      rintro ⟨haccepted, -⟩
      rw [List.append_cons] at haccepted
      exact hrefused.not_accepted haccepted.of_append
    · rw [hscan, map_eq_ok_iff]
      simp only [ih haccepted, List.append_assoc, List.singleton_append, List.map_cons]
      constructor
      · rintro ⟨paths, ⟨hall, rfl⟩, rfl⟩
        exact ⟨hall, rfl⟩
      · rintro ⟨hall, rfl⟩
        exact ⟨_, ⟨hall, rfl⟩, rfl⟩

/-- The scan of all names ends with the fault of the first one that is refused. -/
theorem destinations_eq_error_iff :
    destinations pattern layout names = .error fault ↔ FirstRefused pattern layout [] names fault :=
  destinationsAfter_eq_error_iff accepted_nil

/-- The scan of all names gives each its path if none of them is refused. -/
theorem destinations_eq_ok_iff {paths : List String} :
    destinations pattern layout names = .ok paths ↔
      Accepted pattern layout names ∧ paths = names.map fun name => pathOf pattern name layout :=
  destinationsAfter_eq_ok_iff accepted_nil

/-- Of names that went through one at most clashes with another name. -/
private theorem Accepted.countP_clashes_le_one (h : Accepted pattern layout earlier)
    (name : String) : earlier.countP (fun first => Clashes pattern layout first name) ≤ 1 := by
  rw [List.countP_eq_length_filter]
  have hapart := h.apart.filter fun first => decide (Clashes pattern layout first name)
  have hclash : ∀ first ∈ earlier.filter fun first => decide (Clashes pattern layout first name),
      Clashes pattern layout first name := fun first hfirst => by
    simpa using (List.mem_filter.mp hfirst).2
  revert hapart hclash
  -- if there were two, they would clash with each other
  cases earlier.filter fun first => decide (Clashes pattern layout first name) with
  | nil => simp
  | cons a rest =>
    cases rest with
    | nil => simp
    | cons b rest =>
      intro hapart hclash
      obtain ⟨ha, hrest⟩ := List.forall_mem_cons.mp hclash
      have hb := hrest b List.mem_cons_self
      exact absurd (ha.trans hb.symm) ((List.pairwise_cons.mp hapart).1 b List.mem_cons_self)

/-! ### Commits -/

/-- A fault that is not one of writing comes from the names, and leaves everything as it is. -/
theorem result_commit_eq_error_iff {files : List GeneratedFile} {t u : FileTree} :
    ((commit files pattern layout).result t = (.error fault, u) ∧
        ∀ path reason, fault ≠ .write path reason) ↔
      u = t ∧ destinations pattern layout (files.map (·.name)) = .error fault := by
  constructor
  -- the fault of the names, of staging or of publishing
  · rintro ⟨h, hwrite⟩
    obtain ⟨hnames, rfl⟩ | ⟨paths, -, ⟨-, path, reason, rfl⟩ | ⟨i, rfl, -⟩⟩ := result_commit_error h
    · exact ⟨rfl, hnames⟩
    -- once there are paths a commit can only fail in writing
    · exact absurd rfl (hwrite path reason)
    · exact absurd rfl (hwrite _ _)
  · rintro ⟨rfl, h⟩
    refine ⟨?_, ?_⟩
    · unfold commit
      rw [Activity.result_bind_eq_error_iff]
      exact .inl (by rw [h]; rfl)
    -- what is wrong with a name is never a fault of writing
    · obtain ⟨before, name, after, -, -, hrefused⟩ := destinations_eq_error_iff.mp h
      cases hrefused <;> simp

/-- A commit fails before it writes anything exactly with the fault of its first file that is
    refused, behind files that went through.  A file with a plain name is refused exactly if it
    clashes with a file before it, and that is one file only.  Files of which none is refused are
    given their paths.  Paths with a place for the name, or within a directory of files, are one
    only if the names are. -/
theorem commit_refuses_first_clash (pattern : String) (layout : Layout) :
    (∀ (files : List GeneratedFile) (t u : FileTree) (fault : OutputFault),
      ((commit files pattern layout).result t = (.error fault, u) ∧
          ∀ path reason, fault ≠ .write path reason) ↔
        u = t ∧ ∃ before file after, files = before ++ file :: after ∧
          Accepted pattern layout (before.map (·.name)) ∧
          Refused pattern layout (before.map (·.name)) file.name fault) ∧
    (∀ before name, Accepted pattern layout before → isFileName name = true →
      ((∃ fault, Refused pattern layout before name fault) ↔
        ∃ first ∈ before, Clashes pattern layout first name) ∧
      before.countP (fun first => Clashes pattern layout first name) ≤ 1) ∧
    (∀ names paths, destinations pattern layout names = .ok paths ↔
      Accepted pattern layout names ∧ paths = names.map fun name => pathOf pattern name layout) ∧
    ∀ a b, isFileName a = true → isFileName b = true →
      hasPlaceholder pattern = true ∨ layout = .filePerDeclaration →
      components (pathOf pattern a layout) = components (pathOf pattern b layout) → a = b := by
  refine ⟨fun files t u fault => ?_, fun before name hbefore hname => ⟨?_, ?_⟩,
    fun names paths => destinations_eq_ok_iff, fun a b ha hb hpattern h => ?_⟩
  -- the names of the files before and behind the refused one
  · rw [result_commit_eq_error_iff, destinations_eq_error_iff]
    refine and_congr_right fun _ => ?_
    constructor
    · rintro ⟨before, name, after, hsplit, haccepted, hrefused⟩
      obtain ⟨before, rest, rfl, rfl, hrest⟩ := List.map_eq_append_iff.mp hsplit
      obtain ⟨file, after, rfl, rfl, rfl⟩ := List.map_eq_cons_iff.mp hrest
      exact ⟨before, file, after, rfl, haccepted, hrefused⟩
    · rintro ⟨before, file, after, rfl, haccepted, hrefused⟩
      exact ⟨_, file.name, after.map (·.name), by simp, haccepted, hrefused⟩
  · constructor
    · rintro ⟨fault, hrefused⟩
      cases hrefused with
      | invalidName hno => cases hno.symm.trans hname
      | duplicatePath _ hfirst hclash => exact ⟨_, hfirst, hclash⟩
    · rintro ⟨first, hfirst, hclash⟩
      exact ⟨_, .duplicatePath hname hfirst hclash⟩
  · exact hbefore.countP_clashes_le_one name
  · refine pathOf_inj (isNormal_of_isFileName ha) (isNormal_of_isFileName hb) ?_ h
    rintro ⟨rfl, hplace⟩
    rcases hpattern with hpattern | hpattern
    · cases hplace.symm.trans hpattern
    · cases hpattern

/-- The second of two files of one name is refused, before a name behind it that is not plain. -/
theorem second_file_of_a_name_is_refused :
    (commit [⟨"Customer", "a"⟩, ⟨"Order", "b"⟩, ⟨"Customer", "c"⟩, ⟨"..", "d"⟩]
        "gen/\x7bname\x7d.cs" .filePerDeclaration).result {} =
      (.error (.duplicatePath "gen/Customer.cs" "Customer" "Customer"), {}) ∧
    (∃ fault, Refused "gen/\x7bname\x7d.cs" .filePerDeclaration ["Customer", "Order"] "Customer"
      fault) ∧
    components (pathOf "gen/\x7bname\x7d.cs" "Customer" .filePerDeclaration) ≠
      components (pathOf "gen/\x7bname\x7d.cs" "Order" .filePerDeclaration) := by
  obtain ⟨hfault, hexact, -, hinj⟩ :=
    commit_refuses_first_clash "gen/\x7bname\x7d.cs" .filePerDeclaration
  -- the facts that the theorem asks for, then what it says of this commit
  have haccepted : Accepted "gen/\x7bname\x7d.cs" .filePerDeclaration ["Customer", "Order"] :=
    ⟨by decide, by decide⟩
  have hclash : Clashes "gen/\x7bname\x7d.cs" .filePerDeclaration "Customer" "Customer" := .inl rfl
  have hpath : pathOf "gen/\x7bname\x7d.cs" "Customer" .filePerDeclaration = "gen/Customer.cs" := by
    decide +kernel
  have hrefused : Refused "gen/\x7bname\x7d.cs" .filePerDeclaration ["Customer", "Order"]
      "Customer" (.duplicatePath "gen/Customer.cs" "Customer" "Customer") := by
    rw [← hpath]
    exact .duplicatePath (by decide) List.mem_cons_self hclash
  refine ⟨((hfault _ _ _ _).mpr ⟨rfl, [⟨"Customer", "a"⟩, ⟨"Order", "b"⟩], ⟨"Customer", "c"⟩,
    [⟨"..", "d"⟩], rfl, haccepted, hrefused⟩).1, ?_, fun hsame => ?_⟩
  · exact (hexact _ _ haccepted (by decide)).1.mpr ⟨_, List.mem_cons_self, hclash⟩
  · exact absurd (hinj _ _ (by decide) (by decide) (.inr rfl) hsame) (by decide)

end EntityModel.Output
