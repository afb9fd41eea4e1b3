import EntityModel.Proofs.PaddedElements

/-!
# Padded values

A schema with white space around its typed values is read as the same schema, with faults of the
same codes.  The one exception is the multiplicity of an association end, which is taken as it
stands: behind white space it is no longer a word of its vocabulary, and as padding never makes a
text readable, the faults tell in number whether some multiplicity was lost.

* `readsPadded`                    how a multiplicity that may be padded is read
* `sameBy_read`                    what is read of a padded schema that keeps its multiplicities
* `invalidCount_readDeclaration`   values that padding makes unreadable
* `same_iff_keepsMultiplicities`   when a padded schema is read as the same schema
-/

namespace EntityModel

open Diagnostic (Code)
open Markup (Element Pads PadsValue typedNames)
open Reading (SameBy sameBy_pure sameBy_reject reports_pure reports_reject reports_collect)

section

variable {e e' : Element}

/-! ### Associations -/

/-- The word of a multiplicity is told by the multiplicity. -/
theorem eq_text_of_read? {word : String} {m : Multiplicity}
    (h : Multiplicity.vocabulary.read? word = some m) : word = m.text := by
  have hmem : (word, m) ∈ Multiplicity.vocabulary.words :=
    (lookup_eq_some_iff_mem (by decide)).mp h
  simp only [Multiplicity.vocabulary, List.mem_cons, List.not_mem_nil, or_false, Prod.mk.injEq] at hmem
  -- three words, each of one multiplicity
  rcases hmem with ⟨rfl, rfl⟩ | ⟨rfl, rfl⟩ | ⟨rfl, rfl⟩ <;> rfl

/-- What is padded to the word of a multiplicity is that word. -/
private theorem eq_of_pads_text {s : String} {m : Multiplicity} (h : Pads s m.text) :
    s = m.text := by
  obtain ⟨front, back, hfront, hback, heq⟩ := h
  -- no word of a multiplicity holds white space
  have hplain : ∀ c ∈ m.text.toList, Markup.isSpace c = false := by
    cases m <;> simp [Multiplicity.text, Markup.isSpace]
  rw [heq] at hplain
  -- so there is no room for any around it
  have hnone {ws : List Char} (hws : Markup.Blank ws)
      (hmem : ∀ c ∈ ws, c ∈ front ++ s.toList ++ back) : ws = [] := by
    refine List.eq_nil_iff_forall_not_mem.mpr fun c hc => ?_
    exact Bool.false_ne_true ((hplain c (hmem c hc)).symm.trans (hws c hc))
  obtain rfl := hnone hfront fun c hc => by simp [hc]
  obtain rfl := hnone hback fun c hc => by simp [hc]
  rw [List.nil_append, List.append_nil] at heq
  exact (String.toList_inj.mp heq).symm

/-- A multiplicity of the first element that can be read stands in the second one as it is. -/
def KeepsMultiplicity (x x' : Element) : Prop :=
  ∀ m : Multiplicity, x.attribute? "Multiplicity" = some m.text →
    x'.attribute? "Multiplicity" = some m.text

/-- How a multiplicity that may be padded is read. -/
inductive ReadsPadded (x x' : Element) : Prop
  | missing (h : x.attribute? "Multiplicity" = none) (h' : x'.attribute? "Multiplicity" = none)
  | unreadable {t t' : String} (h : x.attribute? "Multiplicity" = some t)
      (h' : x'.attribute? "Multiplicity" = some t')
      (hread : Multiplicity.vocabulary.read? t = none)
      (hread' : Multiplicity.vocabulary.read? t' = none)
  | kept {m : Multiplicity} (h : x.attribute? "Multiplicity" = some m.text)
      (h' : x'.attribute? "Multiplicity" = some m.text)
  | lost {m : Multiplicity} {t' : String} (h : x.attribute? "Multiplicity" = some m.text)
      (h' : x'.attribute? "Multiplicity" = some t')
      (hread' : Multiplicity.vocabulary.read? t' = none)

/-- No padded text is the word of a multiplicity, so padding can only make a word unreadable. -/
theorem readsPadded (h : e.Padded e') : ReadsPadded e e' := by
  have hvalue := h.attribute? "Multiplicity"
  generalize hv : e.attribute? "Multiplicity" = value, hv' : e'.attribute? "Multiplicity" = value'
    at hvalue
  cases hvalue with
  | none => exact .missing hv hv'
  | @some t t' hpads =>
    -- whether the padded text is a word of a multiplicity
    cases hread' : Multiplicity.vocabulary.read? t' with
    | some m =>
      obtain rfl := eq_text_of_read? hread'
      obtain rfl := eq_of_pads_text hpads.pads
      exact .kept hv hv'
    | none =>
      -- it is not, and then the question is whether the text without padding is one
      cases hread : Multiplicity.vocabulary.read? t with
      | none => exact .unreadable hv hv' hread hread'
      | some m =>
        obtain rfl := eq_text_of_read? hread
        exact .lost hv hv' hread'

/-- A multiplicity is read from its own word. -/
private theorem readMultiplicity_of_text {x : Element} {m : Multiplicity}
    (h : x.attribute? "Multiplicity" = some m.text) : readMultiplicity x = pure (some m) := by
  unfold readMultiplicity
  rw [requireAttribute_of_some h]
  show acceptValue x "Multiplicity" m.text (Multiplicity.vocabulary.read m.text) = _
  rw [Vocabulary.read, Multiplicity.read?_text]
  rfl

/-- Any other text is reported with what was expected. -/
private theorem readMultiplicity_of_unreadable {x : Element} {t : String}
    (h : x.attribute? "Multiplicity" = some t) (hread : Multiplicity.vocabulary.read? t = none) :
    readMultiplicity x = Reading.reject
      (.invalidValue t "Multiplicity" Multiplicity.vocabulary.expected x.span) := by
  unfold readMultiplicity
  rw [requireAttribute_of_some h]
  show acceptValue x "Multiplicity" t (Multiplicity.vocabulary.read t) = _
  rw [Vocabulary.read, hread]
  rfl

/-- A multiplicity that is missing is reported as missing. -/
private theorem readMultiplicity_of_missing {x : Element} (h : x.attribute? "Multiplicity" = none) :
    readMultiplicity x =
      Reading.reject (.missingAttribute x.localName "Multiplicity" x.span) := by
  unfold readMultiplicity
  rw [requireAttribute_of_none h]
  rfl

/-- A multiplicity that is kept is read alike. -/
private theorem sameBy_readMultiplicity (h : e.Padded e') (hkeeps : KeepsMultiplicity e e') :
    SameBy id (readMultiplicity e) (readMultiplicity e') := by
  cases readsPadded h with
  | missing hv hv' =>
    rw [readMultiplicity_of_missing hv, readMultiplicity_of_missing hv']
    exact sameBy_reject rfl
  | unreadable hv hv' hread hread' =>
    rw [readMultiplicity_of_unreadable hv hread, readMultiplicity_of_unreadable hv' hread']
    exact sameBy_reject rfl
  | kept hv hv' =>
    rw [readMultiplicity_of_text hv, readMultiplicity_of_text hv']
    exact sameBy_pure rfl
  | lost hv hv' hread' =>
    -- a multiplicity that could be read is kept, so the padded text would be its word
    have hkept := hkeeps _ hv
    obtain rfl := Option.some.inj (hv'.symm.trans hkept)
    rw [Multiplicity.read?_text] at hread'
    exact nomatch hread'

/-- An end is read alike if its multiplicity is kept. -/
private theorem sameBy_readEnd (h : e.Padded e') (hkeeps : KeepsMultiplicity e e') :
    SameBy id (readEnd e) (readEnd e') := by
  refine (sameBy_requireAttribute h (by decide)).bindEq fun typeName => ?_
  refine (sameBy_requireAttribute h (by decide)).bindEq fun role => ?_
  refine (sameBy_readMultiplicity h hkeeps).bindEq fun multiplicity => ?_
  -- the end is read if all three of its parts are
  split
  · exact sameBy_pure rfl
  · exact sameBy_pure rfl

/-- A half of a constraint is read alike. -/
private theorem sameBy_readHalf (h : e.Padded e') (name : String) :
    SameBy (Option.map Prod.fst) (readHalf e name) (readHalf e' name) := by
  have hhalf := h.child? name
  unfold readHalf
  generalize e.child? name = half, e'.child? name = half' at hhalf ⊢
  cases hhalf with
  -- the half is missing in both
  | none => exact sameBy_reject rfl
  | some hx =>
    refine (sameBy_requireAttribute hx (by decide)).bindEq fun role => ?_
    cases role with
    | none => exact sameBy_pure rfl
    | some role => exact (sameBy_readPropertyRefs hx).bindEq fun _ => sameBy_pure rfl

/-- The halves are told by their roles and properties, wherever they stand. -/
private theorem sameBy_readHalves (h : e.Padded e') :
    SameBy (fun halves => joinHalves halves.1 halves.2) (readHalves e) (readHalves e') := by
  -- what is joined does not depend on where the halves stand
  have hjoin {p p' d d' : Option (ConstraintHalf × Span)}
      (hp : p.map Prod.fst = p'.map Prod.fst) (hd : d.map Prod.fst = d'.map Prod.fst) :
      joinHalves p d = joinHalves p' d' := by
    cases p <;> cases p' <;> cases d <;> cases d' <;> simp_all [joinHalves]
  have hconstraint := h.child? "ReferentialConstraint"
  unfold readHalves
  generalize e.child? "ReferentialConstraint" = c, e'.child? "ReferentialConstraint" = c'
    at hconstraint ⊢
  cases hconstraint with
  -- there is no constraint in either
  | none => exact sameBy_pure rfl
  | some hc =>
    exact (sameBy_readHalf hc _).bind fun _ _ hp => (sameBy_readHalf hc _).bind fun _ _ hd =>
      sameBy_pure (hjoin hp hd)

/-- Two relations that both hold side by side hold together. -/
private theorem forall₂_and {α β : Type} {R S : α → β → Prop} {as : List α} {bs : List β}
    (h : List.Forall₂ R as bs) (h' : List.Forall₂ S as bs) :
    List.Forall₂ (fun a b => R a b ∧ S a b) as bs := by
  induction h with
  | nil => exact .nil
  | cons hab _ ih =>
    cases h' with
    | cons hab' h' => exact .cons ⟨hab, hab'⟩ (ih h')

/-- The association is read alike if the multiplicities of its ends are kept. -/
private theorem sameBy_readAssociation (h : e.Padded e')
    (hkeeps : List.Forall₂ KeepsMultiplicity (e.namedChildren "End") (e'.namedChildren "End")) :
    SameBy (Option.map fun a => a.1.withoutTexts) (readAssociation e) (readAssociation e') := by
  have hends := h.namedChildren "End"
  refine (sameBy_readMetadata h).bindOption (sameBy_pure rfl) fun m m' hm => ?_
  -- the ends are read alike, one by one
  have hread := SameBy.collect (f := id) (forall₂_and hends hkeeps) fun x x' hx =>
    (sameBy_readEnd hx.1 hx.2).imp fun _ _ => congrArg _
  refine (hread.imp fun as bs => by simp : SameBy id _ _).bindEq fun ends => ?_
  dsimp only
  split
  -- two ends can be read, and then the constraint matters
  · refine (sameBy_readHalves h).bind fun halves halves' hhalves => sameBy_pure ?_
    simp only [Option.map_some, Association.withoutTexts]
    rw [hm, hhalves]
  -- the number of the elements is the same, so it is reported in both or in none
  · rw [← hends.length_eq]
    split
    · exact sameBy_pure rfl
    · exact sameBy_reject rfl

/-- An association without a name is left out, whatever else is in it. -/
private theorem readAssociation_of_unnamed {x : Element} (h : x.attribute? "Name" = none) :
    readAssociation x = Reading.reject (.missingAttribute x.localName "Name" x.span) := by
  unfold readAssociation
  rw [readMetadata_of_none h]
  rfl

/-! ### The schema -/

/-- If the element is an association that is read, the multiplicities of its ends are kept. -/
def KeepsEnds (x x' : Element) : Prop :=
  x.localName = "Association" → (x.attribute? "Name").isSome = true →
    List.Forall₂ KeepsMultiplicity (x.namedChildren "End") (x'.namedChildren "End")

/-- A declaration is read alike, and for an association it matters whether the multiplicities are
    kept. -/
private theorem sameBy_readDeclaration (h : e.Padded e') (hkeeps : KeepsEnds e e') :
    SameBy (Option.map Declaration.withoutTexts) (Declaration.read e) (Declaration.read e') := by
  unfold Declaration.read
  rw [h.localName_eq]
  split
  · refine (sameBy_readEnumType h).bindOption (sameBy_pure rfl) fun t t' ht => sameBy_pure ?_
    simp only [Option.map_some, Declaration.withoutTexts, ht]
  · split
    · refine (sameBy_readComplexType h).bindOption (sameBy_pure rfl) fun t t' ht => sameBy_pure ?_
      simp only [Option.map_some, Declaration.withoutTexts, ht]
    · split
      · refine (sameBy_readEntityType h).bindOption (sameBy_pure rfl) fun t t' ht => sameBy_pure ?_
        simp only [Option.map_some, Declaration.withoutTexts, ht]
      · split
        · rename_i hassociation
          cases hname : e.attribute? "Name" with
          -- without a name the ends are not looked at
          | none =>
            have hname' := (attribute?_of_padded h (by decide : "Name" ∉ typedNames)).trans hname
            rw [readAssociation_of_unnamed hname, readAssociation_of_unnamed hname']
            exact ⟨rfl, rfl⟩
          -- with one they are, and their multiplicities are kept
          | some name =>
            refine (sameBy_readAssociation h (hkeeps hassociation (by simp [hname]))).bindOption
              (sameBy_pure rfl) fun a a' ha => sameBy_pure ?_
            simp only [Option.map_some, Declaration.withoutTexts, ha]
        · split
          · refine (sameBy_readEntityContainer h).bindOption (sameBy_pure rfl)
              fun c c' hc => sameBy_pure ?_
            simp only [Option.map_some, Declaration.withoutTexts, hc]
          · exact sameBy_pure rfl

/-- The schema is read alike if the multiplicities of all ends are kept. -/
theorem sameBy_read (h : e.Padded e') (hkeeps : List.Forall₂ KeepsEnds e.children e'.children) :
    SameBy (fun s => s.1.withoutTexts) (Schema.read e) (Schema.read e') := by
  refine (sameBy_requireAttribute h (by decide)).bindEq fun name => ?_
  refine (SameBy.collect (forall₂_and h.children hkeeps) fun x x' hx =>
    sameBy_readDeclaration hx.1 hx.2).bind fun ds ds' hds => sameBy_pure ?_
  -- neither the namespace nor the alias can be padded
  rw [attribute?_of_padded h (by decide)]
  exact withoutTexts_ofDeclarations hds

/-! ### Counts of unreadable values -/

/-- How many values are reported as unreadable. -/
def Reading.invalidCount {α : Type} (r : Reading α) : Nat := r.codes.count .invalidValue

/-- The values of two readings in sequence that are unreadable are counted together. -/
@[simp] theorem Reading.invalidCount_bind {α β : Type} (x : Reading α) (f : α → Reading β) :
    (x >>= f).invalidCount = x.invalidCount + (f x.value).invalidCount := by
  rw [invalidCount, codes_bind, List.count_append]
  rfl

/-- A pure reading has no unreadable value. -/
@[simp] theorem Reading.invalidCount_pure {α : Type} (a : α) :
    (pure a : Reading α).invalidCount = 0 := rfl

/-- The unreadable values of a list are those of its elements. -/
private theorem Reading.invalidCount_collect {α : Type} (read : Element → Reading (Option α))
    (es : List Element) :
    (Reading.collect read es).invalidCount = (es.map fun x => (read x).invalidCount).sum := by
  rw [invalidCount, codes_collect, List.count_flatMap]
  rfl

/-- A reading that does not report unreadable values has none. -/
private theorem Reading.Reports.invalidCount_eq_zero {α : Type} {r : Reading α} {codes : List Code}
    (h : r.Reports codes) (hcode : .invalidValue ∉ codes) : r.invalidCount = 0 := by
  refine List.count_eq_zero.mpr fun hmem => ?_
  obtain ⟨f, hf, hvalue⟩ := List.mem_map.mp hmem
  exact hcode (hvalue ▸ h.code_mem f hf)

/-- The codes of faults in parts that are not there. -/
def absenceCodes : List Code := [.missingAttribute, .missingElement]

/-- An attribute that is required can only be missing. -/
private theorem reports_absence_requireAttribute (x : Element) (name : String) :
    (requireAttribute x name).Reports absenceCodes := by
  unfold requireAttribute
  split
  · exact reports_pure _
  · exact reports_reject List.mem_cons_self

/-- A half of a constraint can only lack something. -/
private theorem reports_absence_readHalf (x : Element) (name : String) :
    (readHalf x name).Reports absenceCodes := by
  unfold readHalf
  split
  -- the half itself is missing
  · exact reports_reject (List.mem_cons_of_mem _ List.mem_cons_self)
  · refine (reports_absence_requireAttribute ..).bind ?_
    split
    · exact reports_pure _
    -- or one of its references lacks a name
    · exact (reports_collect fun r _ => reports_absence_requireAttribute r "Name").bind
        (reports_pure _)

/-- So can both halves. -/
private theorem reports_absence_readHalves (x : Element) : (readHalves x).Reports absenceCodes := by
  unfold readHalves
  split
  · exact reports_pure _
  · exact (reports_absence_readHalf ..).bind ((reports_absence_readHalf ..).bind (reports_pure _))

/-- An attribute that is required is not unreadable. -/
private theorem invalidCount_requireAttribute (x : Element) (name : String) :
    (requireAttribute x name).invalidCount = 0 :=
  (reports_absence_requireAttribute x name).invalidCount_eq_zero (by decide)

/-- The only value of an end that can be unreadable is its multiplicity. -/
private theorem invalidCount_readEnd (x : Element) :
    (readEnd x).invalidCount = (readMultiplicity x).invalidCount := by
  unfold readEnd
  -- type and role are texts of their own
  rw [Reading.invalidCount_bind, Reading.invalidCount_bind, Reading.invalidCount_bind,
    invalidCount_requireAttribute, invalidCount_requireAttribute, Nat.zero_add, Nat.zero_add]
  split <;> rw [Reading.invalidCount_pure, Nat.add_zero]

/-- The only values of an association that can be unreadable are the multiplicities of its ends. -/
private theorem invalidCount_readAssociation {x : Element} {name : String}
    (h : x.attribute? "Name" = some name) :
    (readAssociation x).invalidCount =
      ((x.namedChildren "End").map fun y => (readEnd y).invalidCount).sum := by
  unfold readAssociation
  rw [readMetadata_of_some h]
  simp only [Reading.invalidCount_bind, Reading.invalidCount_pure, Reading.value_pure,
    Reading.invalidCount_collect, Nat.zero_add]
  -- whether the ends make an association does not matter to this count
  split
  · rw [Reading.invalidCount_bind, Reading.invalidCount_pure,
      (reports_absence_readHalves x).invalidCount_eq_zero (by decide)]
    rfl
  · split <;> rfl

/-- Padding can make a multiplicity unreadable, and never readable. -/
theorem invalidCount_readMultiplicity (h : e.Padded e') :
    (readMultiplicity e).invalidCount ≤ (readMultiplicity e').invalidCount ∧
      ((readMultiplicity e).invalidCount = (readMultiplicity e').invalidCount →
        KeepsMultiplicity e e') := by
  cases readsPadded h with
  | missing hv hv' =>
    rw [readMultiplicity_of_missing hv, readMultiplicity_of_missing hv']
    -- nothing was there to be lost
    refine ⟨Nat.le_refl _, fun _ m hm => ?_⟩
    rw [hv] at hm
    exact nomatch hm
  | unreadable hv hv' hread hread' =>
    rw [readMultiplicity_of_unreadable hv hread, readMultiplicity_of_unreadable hv' hread']
    -- what could not be read stays so
    refine ⟨Nat.le_refl _, fun _ m hm => ?_⟩
    obtain rfl := Option.some.inj (hv.symm.trans hm)
    rw [Multiplicity.read?_text] at hread
    exact nomatch hread
  | kept hv hv' =>
    rw [readMultiplicity_of_text hv, readMultiplicity_of_text hv']
    -- the text is the same in both
    refine ⟨Nat.le_refl _, fun _ m hm => ?_⟩
    rw [hv', ← hv, hm]
  | lost hv hv' hread' =>
    -- one more value is unreadable
    rw [readMultiplicity_of_text hv, readMultiplicity_of_unreadable hv' hread']
    exact ⟨Nat.zero_le _, fun hsame => nomatch hsame⟩

/-- Numbers that are not above their partners in another list have no greater sum. -/
private theorem sum_le_of_forall₂ {α β : Type} {R : α → β → Prop} {f : α → Nat} {g : β → Nat}
    {as : List α} {bs : List β} (h : List.Forall₂ R as bs) (hle : ∀ a b, R a b → f a ≤ g b) :
    (as.map f).sum ≤ (bs.map g).sum := by
  refine List.Forall₂.sum_le_sum ?_
  rw [List.forall₂_map_left_iff, List.forall₂_map_right_iff]
  exact h.imp hle

/-- Numbers that are not above their partners in another list are the same if their sums are. -/
theorem forall₂_eq_of_sum_eq {α β : Type} {R : α → β → Prop} {f : α → Nat} {g : β → Nat}
    {as : List α} {bs : List β} (h : List.Forall₂ R as bs) (hle : ∀ a b, R a b → f a ≤ g b)
    (hsum : (as.map f).sum = (bs.map g).sum) : List.Forall₂ (fun a b => f a = g b) as bs := by
  induction h with
  | nil => exact .nil
  | @cons a b as bs hab hrest ih =>
    -- neither the first number nor the sum of the others can be above its partner
    have hfirst := hle a b hab
    have hothers := sum_le_of_forall₂ hrest hle
    rw [List.map_cons, List.map_cons, List.sum_cons, List.sum_cons] at hsum
    exact .cons (by omega) (ih (by omega))

/-- Padding can make values of a declaration unreadable, and if it does not, the ends of
    associations keep their multiplicities. -/
theorem invalidCount_readDeclaration (h : e.Padded e') :
    (Declaration.read e).invalidCount ≤ (Declaration.read e').invalidCount ∧
      ((Declaration.read e).invalidCount = (Declaration.read e').invalidCount →
        KeepsEnds e e') := by
  by_cases hread : e.localName = "Association" ∧ (e.attribute? "Name").isSome = true
  · obtain ⟨hassociation, hname⟩ := hread
    obtain ⟨name, hname⟩ := Option.isSome_iff_exists.mp hname
    have hname' := (attribute?_of_padded h (by decide : "Name" ∉ typedNames)).trans hname
    -- the count of an association is that of its multiplicities
    have hcount {x : Element} (hx : x.localName = "Association") (hn : x.attribute? "Name" = some name) :
        (Declaration.read x).invalidCount =
          ((x.namedChildren "End").map fun y => (readMultiplicity y).invalidCount).sum := by
      rw [Declaration.read, if_neg (by simp [hx]), if_neg (by simp [hx]), if_neg (by simp [hx]),
        if_pos hx, Reading.invalidCount_bind, Reading.invalidCount_pure, Nat.add_zero,
        invalidCount_readAssociation hn]
      simp only [invalidCount_readEnd]
    rw [hcount hassociation hname, hcount (h.localName_eq.trans hassociation) hname']
    have hends := h.namedChildren "End"
    have hle : ∀ x x' : Element, x.Padded x' →
        (readMultiplicity x).invalidCount ≤ (readMultiplicity x').invalidCount :=
      fun x x' hx => (invalidCount_readMultiplicity hx).1
    refine ⟨sum_le_of_forall₂ hends hle, fun hsum _ _ => ?_⟩
    -- no count grows by itself and their sum is the same, so each of them is
    have hsame := forall₂_eq_of_sum_eq hends hle hsum
    exact (forall₂_and hends hsame).imp fun _ _ hx => (invalidCount_readMultiplicity hx.1).2 hx.2
  · -- nothing else depends on multiplicities
    have hkeeps : KeepsEnds e e' := fun hassociation hname => absurd ⟨hassociation, hname⟩ hread
    have hsame := (sameBy_readDeclaration h hkeeps).codes_eq
    unfold Reading.invalidCount
    rw [hsame]
    exact ⟨Nat.le_refl _, fun _ => hkeeps⟩

/-- Each association end whose association is read and whose multiplicity can be read has the same
    multiplicity in the second element. -/
def KeepsMultiplicities (e e' : Element) : Prop := List.Forall₂ KeepsEnds e.children e'.children

/-- White space around typed values changes neither the schema, but for the texts of annotations,
    nor the codes of the faults exactly if it stands around no multiplicity that could be read. -/
theorem same_iff_keepsMultiplicities (h : e.Padded e') :
    ((Schema.read e).value.1.withoutTexts = (Schema.read e').value.1.withoutTexts ∧
      (Schema.read e).faults.map Fault.code = (Schema.read e').faults.map Fault.code) ↔
    KeepsMultiplicities e e' := by
  constructor
  -- the codes of the faults tell how many values are unreadable
  · rintro ⟨-, hcodes⟩
    have hcount := congrArg (List.count Code.invalidValue) hcodes
    change (Schema.read e).invalidCount = (Schema.read e').invalidCount at hcount
    unfold Schema.read at hcount
    simp only [Reading.invalidCount_bind, Reading.invalidCount_pure, Reading.invalidCount_collect,
      invalidCount_requireAttribute, Nat.zero_add, Nat.add_zero] at hcount
    -- the count of every declaration is the same, since none of them can go down
    have hsame := forall₂_eq_of_sum_eq h.children
      (fun _ _ hx => (invalidCount_readDeclaration hx).1) hcount
    exact (forall₂_and h.children hsame).imp fun _ _ hx =>
      (invalidCount_readDeclaration hx.1).2 hx.2
  · intro hkeeps
    have hsame := sameBy_read h hkeeps
    exact ⟨hsame.value_eq, hsame.codes_eq⟩

end

/-- An end of an association with the role, and with the multiplicity as it is written. -/
def roleElement (role multiplicity : String) : Element :=
  ⟨⟨none, "End"⟩, [⟨⟨none, "Role"⟩, role⟩, ⟨⟨none, "Type"⟩, "Order"⟩,
    ⟨⟨none, "Multiplicity"⟩, multiplicity⟩], [], "", default⟩

/-- An association whose first end has the multiplicity as it is written. -/
def followsElement (multiplicity : String) : Element :=
  ⟨⟨none, "Association"⟩, [⟨⟨none, "Name"⟩, "Follows"⟩],
    [roleElement "earlier" multiplicity, roleElement "later" "*"], "", default⟩

/-- An entity type that is abstract or not, as it is written. -/
def orderTypeElement (truth : String) : Element :=
  ⟨⟨none, "EntityType"⟩, [⟨⟨none, "Name"⟩, "Order"⟩, ⟨⟨none, "Abstract"⟩, truth⟩], [], "", default⟩

/-- A schema with the entity type and the association. -/
def ordersElement (truth multiplicity : String) : Element :=
  ⟨⟨none, "Schema"⟩, [⟨⟨none, "Namespace"⟩, "N"⟩],
    [orderTypeElement truth, followsElement multiplicity], "", default⟩

/-- A text is padded with nothing. -/
private theorem pads_refl (s : String) : Pads s s :=
  ⟨[], [], Markup.blank_nil, Markup.blank_nil, by simp⟩

/-- An attribute is padded with nothing. -/
private theorem padded_attribute_refl (a : Markup.Attribute) : a.Padded a :=
  ⟨rfl, pads_refl _, fun _ => rfl⟩

/-- The schema is padded where its truth value and its multiplicity are. -/
private theorem padded_ordersElement {truth truth' multiplicity multiplicity' : String}
    (htruth : Pads truth truth') (hmultiplicity : Pads multiplicity multiplicity') :
    (ordersElement truth multiplicity).Padded (ordersElement truth' multiplicity') := by
  have htyped {name s t : String} (h : Pads s t) (hname : name ∈ typedNames) :
      Markup.Attribute.Padded ⟨⟨none, name⟩, s⟩ ⟨⟨none, name⟩, t⟩ :=
    ⟨rfl, h, fun hother => absurd hname hother⟩
  -- ends, the type and the association, from the inside out
  have hrole {s t : String} (role : String) (h : Pads s t) :
      (roleElement role s).Padded (roleElement role t) :=
    .mk rfl (.cons (padded_attribute_refl _) (.cons (padded_attribute_refl _)
      (.cons (htyped h (by decide)) .nil))) .nil rfl
  have htype : (orderTypeElement truth).Padded (orderTypeElement truth') :=
    .mk rfl (.cons (padded_attribute_refl _) (.cons (htyped htruth (by decide)) .nil)) .nil rfl
  have hfollows : (followsElement multiplicity).Padded (followsElement multiplicity') :=
    .mk rfl (.cons (padded_attribute_refl _) .nil)
      (.cons (hrole "earlier" hmultiplicity) (.cons (hrole "later" (pads_refl _)) .nil)) rfl
  exact .mk rfl (.cons (padded_attribute_refl _) .nil) (.cons htype (.cons hfollows .nil)) rfl

/-- A blank character is blank as a text. -/
private theorem blank_singleton {c : Char} (h : Markup.isSpace c = true) : Markup.Blank [c] := by
  intro d hd
  rwa [List.mem_singleton.mp hd]

/-- A space before a word and a line break behind it. -/
theorem pads_false : Pads "false" " false\n" :=
  ⟨[' '], ['\n'], blank_singleton (by decide), blank_singleton (by decide), by decide⟩

/-- A space before a multiplicity. -/
private theorem pads_one : Pads "1" " 1" :=
  ⟨[' '], [], blank_singleton (by decide), Markup.blank_nil, by decide⟩

/-- White space around a truth value changes nothing, and before a multiplicity it does. -/
theorem truth_value_is_trimmed_and_multiplicity_is_not :
    ((Schema.read (ordersElement "false" "1")).value.1.withoutTexts =
        (Schema.read (ordersElement " false\n" "1")).value.1.withoutTexts ∧
      (Schema.read (ordersElement "false" "1")).faults.map Fault.code =
        (Schema.read (ordersElement " false\n" "1")).faults.map Fault.code) ∧
    ¬ ((Schema.read (ordersElement "false" "1")).value.1.withoutTexts =
        (Schema.read (ordersElement " false\n" " 1")).value.1.withoutTexts ∧
      (Schema.read (ordersElement "false" "1")).faults.map Fault.code =
        (Schema.read (ordersElement " false\n" " 1")).faults.map Fault.code) := by
  constructor
  -- the multiplicities are kept, since only the truth value is padded
  · refine (same_iff_keepsMultiplicities (padded_ordersElement pads_false (pads_refl "1"))).mpr ?_
    refine .cons (fun hname => absurd hname (by decide)) (.cons (fun _ _ => ?_) .nil)
    exact .cons (fun _ h => h) (.cons (fun _ h => h) .nil)
  -- the multiplicity of the first end is not
  · refine mt (same_iff_keepsMultiplicities (padded_ordersElement pads_false pads_one)).mp ?_
    rintro (_ | ⟨-, _ | ⟨hends, -⟩⟩)
    -- the multiplicity of the first end is read from the text without the space only
    rcases hends rfl rfl with _ | ⟨hearlier, -⟩
    exact absurd (hearlier .one rfl) (by decide)

/-- White space around typed values is not always without effect: a space before the multiplicity of
    an end is reported. -/
theorem padded_multiplicity_is_reported :
    ¬ (∀ e e' : Element, e.Padded e' →
      (Schema.read e).value.1.withoutTexts = (Schema.read e').value.1.withoutTexts ∧
      (Schema.read e).faults.map Fault.code = (Schema.read e').faults.map Fault.code) := by
  intro h
  -- if the texts with and without the space were read alike, so would the codes be
  have hcodes := (h _ _ (padded_ordersElement (pads_refl "false") pads_one)).2
  have hnone : (Schema.read (ordersElement "false" "1")).faults.map Fault.code = [] := by cbv
  have hreported : (Schema.read (ordersElement "false" " 1")).faults.map Fault.code =
      [.invalidValue] := by cbv
  rw [hnone, hreported] at hcodes
  simp at hcodes

end EntityModel
