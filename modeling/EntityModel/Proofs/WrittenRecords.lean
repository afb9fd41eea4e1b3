import EntityModel.Proofs.DecimalText
import EntityModel.Proofs.WrittenElements
import EntityModel.Schema.OfElement

/-!
# Written records

Each record is written as an element of its kind: what it always has and what it has at all as
attributes of their own, its documentation and its members as children, in order.  An element like
that, wherever it stands, is read as the record without a fault.

* `…element`              the element that a record is written as
* `…Writable`             records whose texts and numbers survive being written
* `read…_written`         what is read from an element like that of a record
-/

namespace EntityModel

open Markup (Element LegalAttributes Trimmed isMark)
open Markup.Element (unplaced Alike)

/-! ### Elements by their fields -/

namespace Markup

/-- Whether elements and attributes can be written by the name without a qualifier. -/
def isPlainName (name : String) : Bool :=
  name != "" && name != "xmlns" && name.toList.all fun c => c != ':' && !isMark c

/-- A plain name is legal as it stands, since it has no colon to be split at. -/
private theorem legal_of_isPlainName {name : String} (h : isPlainName name = true) :
    Name.Legal ⟨none, name⟩ := by
  simp only [isPlainName, Bool.and_eq_true, bne_iff_ne, List.all_eq_true, Bool.not_eq_true'] at h
  obtain ⟨⟨hempty, -⟩, hchars⟩ := h
  refine ⟨fun hnil => hempty (String.toList_eq_nil_iff.mp hnil), fun c hc => (hchars c hc).2, ?_⟩
  -- without a colon in it the name is not split
  have hcolon : Text.breakOn [':'] name.toList = none := by
    have hall : ∀ cs : List Char, (∀ c ∈ cs, c ≠ ':') → Text.breakOn [':'] cs = none := by
      intro cs hcs
      induction cs with
      | nil => rfl
      | cons c cs ih =>
        obtain ⟨hc, hcs⟩ := List.forall_mem_cons.mp hcs
        rw [Text.breakOn, if_neg (by simpa using Ne.symm hc), ih hcs]
        rfl
    exact hall _ fun c hc => (hchars c hc).1
  show Name.ofChars name.toList = _
  rw [Name.ofChars, hcolon, String.ofList_toList]

/-- Whether fields can be written by these names: each of them can, and they are distinct. -/
def arePlainNames (names : List String) : Bool := names.all isPlainName && decide names.Nodup

/-- The attributes that fields are written as; a field without a value is left out. -/
def ofFields (fields : List (String × Option String)) : List Attribute :=
  fields.filterMap fun f => f.2.map fun value => ⟨⟨none, f.1⟩, value⟩

/-- The attributes of fields bear the names of the fields, without a qualifier. -/
private theorem mem_ofFields {fields : List (String × Option String)} {a : Attribute}
    (h : a ∈ ofFields fields) : a.name.qualifier = none ∧ a.name.localPart ∈ fields.map (·.1) := by
  obtain ⟨f, hf, ha⟩ := List.mem_filterMap.mp h
  obtain ⟨value, -, rfl⟩ := Option.map_eq_some_iff.mp ha
  exact ⟨rfl, List.mem_map_of_mem hf⟩

/-- Fields with plain names that are distinct are written as legal attributes. -/
private theorem legalAttributes_ofFields {fields : List (String × Option String)}
    (h : arePlainNames (fields.map (·.1)) = true) : LegalAttributes (ofFields fields) where
  names := by
    rintro ⟨⟨qualifier, localPart⟩, value⟩ ha
    obtain ⟨rfl, hmem⟩ := mem_ofFields ha
    exact legal_of_isPlainName (List.all_eq_true.mp (Bool.and_eq_true_iff.mp h).1 _ hmem)
  nodup := by
    -- the induction needs the distinct names only
    have hnodup := of_decide_eq_true (Bool.and_eq_true_iff.mp h).2
    clear h
    induction fields with
    | nil => exact List.nodup_nil
    | cons f fields ih =>
      obtain ⟨hnew, hnodup⟩ := List.nodup_cons.mp hnodup
      unfold ofFields
      cases hf : f.2 with
      | none =>
        rw [List.filterMap_cons_none (by rw [hf]; rfl)]
        exact ih hnodup
      | some value =>
        rw [List.filterMap_cons_some (by rw [hf]; rfl), List.map_cons, List.nodup_cons]
        -- a later attribute of the same name would come from a later field of that name
        refine ⟨fun hmem => ?_, ih hnodup⟩
        obtain ⟨a, ha, hname⟩ := List.mem_map.mp hmem
        have hlocal := (mem_ofFields ha).2
        rw [show a.name.localPart = f.1 from congrArg Name.localPart hname] at hlocal
        exact hnew hlocal

/-- Among the attributes of fields with distinct names a field is found by its name. -/
private theorem find?_ofFields {fields : List (String × Option String)}
    (hnodup : (fields.map (·.1)).Nodup) (name : String) :
    ((ofFields fields).find? fun a => a.name.localPart == name).map (·.value) =
      (fields.lookup name).join := by
  induction fields with
  | nil => rfl
  | cons f fields ih =>
    obtain ⟨key, value?⟩ := f
    obtain ⟨hnew, hnodup⟩ := List.nodup_cons.mp hnodup
    have hrest := ih hnodup
    rw [List.lookup_cons]
    unfold ofFields at hrest ⊢
    by_cases hkey : name = key
    -- the field looked for is in front
    · subst hkey
      rw [beq_self_eq_true]
      cases value? with
      | some value => simp
      | none =>
        -- no field behind it has the same name
        rw [List.filterMap_cons_none rfl, Option.map_eq_none_iff.mpr]
        · rfl
        · rw [List.find?_eq_none]
          intro a ha heq
          exact hnew (eq_of_beq heq ▸ (mem_ofFields ha).2)
    -- the field in front has another name and is passed over on both sides
    · rw [beq_eq_false_iff_ne.mpr hkey]
      cases value? with
      | some value => simpa [Ne.symm hkey] using hrest
      | none => simpa using hrest

namespace Element

/-- The element of a kind with the given fields. -/
def ofKind (kind : String) (fields : List (String × Option String)) (children : List Element)
    (text : String) : Element :=
  ⟨⟨none, kind⟩, ofFields fields, children, text, default⟩

/-- An element of plain names, a text without white space at its ends and legal children is legal.
    -/
theorem legal_ofKind {kind : String} (fields : List (String × Option String))
    {children : List Element} {text : String} (hkind : isPlainName kind = true)
    (hfields : arePlainNames (fields.map (·.1)) = true) (htext : Trimmed text.toList)
    (hchildren : ∀ c ∈ children, c.Legal) : (ofKind kind fields children text).Legal :=
  ⟨legal_of_isPlainName hkind, legalAttributes_ofFields hfields, htext, hchildren⟩

/-- A field is found by its name. -/
private theorem attribute?_ofKind {kind : String} (fields : List (String × Option String))
    {children : List Element} {text : String} (hfields : arePlainNames (fields.map (·.1)) = true)
    (name : String) :
    (ofKind kind fields children text).attribute? name = (fields.lookup name).join := by
  obtain ⟨hplain, hnodup⟩ := Bool.and_eq_true_iff.mp hfields
  -- no attribute of a field declares a namespace, so every attribute of the name is a candidate
  have hcandidates : (ofKind kind fields children text).candidates name =
      (ofFields fields).filter fun a => a.name.localPart == name := by
    refine List.filter_congr fun a ha => ?_
    obtain ⟨hqualifier, hmem⟩ := mem_ofFields ha
    have hname := List.all_eq_true.mp hplain _ hmem
    simp only [isPlainName, Bool.and_eq_true, bne_iff_ne] at hname
    simp [Attribute.declaresNamespace, hqualifier, hname.1.2]
  -- and none has a qualifier, so the first candidate is taken
  have hfirst : ((ofFields fields).filter fun a => a.name.localPart == name).find?
      (fun a => a.name.qualifier.isNone) =
        (ofFields fields).find? fun a => a.name.localPart == name := by
    rw [← List.head?_filter, ← List.head?_filter, List.filter_eq_self.mpr]
    intro a ha
    rw [(mem_ofFields (List.mem_filter.mp ha).1).1]
    rfl
  rw [← find?_ofFields (of_decide_eq_true hnodup) name]
  unfold Element.attribute?
  rw [hcandidates]
  dsimp only
  rw [hfirst]
  cases h : (ofFields fields).find? fun a => a.name.localPart == name with
  | some a => rfl
  | none => rw [List.head?_filter, h]

/-- Fields have no qualifiers. -/
theorem qualifiedAttributes_ofKind (kind : String) (fields : List (String × Option String))
    (children : List Element) (text : String) :
    (ofKind kind fields children text).qualifiedAttributes = [] := by
  refine List.filter_eq_nil_iff.mpr fun a ha => ?_
  rw [(mem_ofFields ha).1]
  simp

/-! ### Elements that are alike -/

namespace Alike

variable {e f : Element}

/-- Elements that are alike have one local name. -/
theorem localName (h : e.Alike f) : e.localName = f.localName :=
  congrArg Name.localPart (alike_iff.mp h).1

/-- Elements that are alike have the same attributes. -/
theorem attribute? (h : e.Alike f) (name : String) : e.attribute? name = f.attribute? name := by
  unfold Element.attribute? candidates
  rw [(alike_iff.mp h).2.1]

/-- Elements that are alike have the same qualified attributes. -/
theorem qualifiedAttributes (h : e.Alike f) : e.qualifiedAttributes = f.qualifiedAttributes := by
  unfold Element.qualifiedAttributes
  rw [(alike_iff.mp h).2.1]

/-- The children of elements that are alike are the same but for their places. -/
theorem children (h : e.Alike f) : e.children.map unplaced = f.children.map unplaced :=
  (alike_iff.mp h).2.2.1

/-- Elements that are alike hold the same text. -/
theorem text (h : e.Alike f) : e.text = f.text := (alike_iff.mp h).2.2.2

/-- A field is found by its name in an element like the one with the fields. -/
theorem field {kind : String} {fields : List (String × Option String)} {children : List Element}
    {text : String} (h : e.Alike (ofKind kind fields children text))
    (hfields : arePlainNames (fields.map (·.1)) = true) (name : String) :
    e.attribute? name = (fields.lookup name).join :=
  (h.attribute? name).trans (attribute?_ofKind fields hfields name)

end Alike

/-- Taking the place off an element leaves its name. -/
@[simp] theorem localName_unplaced (e : Element) : e.unplaced.localName = e.localName := by
  obtain ⟨name, attributes, children, text, span⟩ := e
  rw [unplaced_mk]
  rfl

/-- Elements of one name are alike where all children are. -/
theorem Alike.namedChildren {e f : Element} (h : e.Alike f) (name : String) :
    (e.namedChildren name).map unplaced = (f.namedChildren name).map unplaced := by
  -- children are chosen by name, which does not depend on their places
  have hfilter : ∀ es : List Element, (es.filter fun c => c.localName == name).map unplaced =
      (es.map unplaced).filter fun c => c.localName == name := by
    intro es
    rw [List.filter_map]
    simp only [Function.comp_def, localName_unplaced]
  unfold Element.namedChildren
  rw [hfilter, hfilter, h.children]

/-- The first children of one name are alike. -/
theorem Alike.child? {e f : Element} (h : e.Alike f) (name : String) :
    (e.child? name).map unplaced = (f.child? name).map unplaced := by
  rw [child?_eq_head?, child?_eq_head?, ← List.head?_map, ← List.head?_map, h.namedChildren]

/-- A child that one element lacks is missing in an element like it. -/
theorem Alike.child?_eq_none {e f : Element} (h : e.Alike f) {name : String}
    (hchild : f.child? name = none) : e.child? name = none := by
  have halike := h.child? name
  rw [hchild] at halike
  exact Option.map_eq_none_iff.mp halike

/-- A child that one element has is found in an element like it. -/
theorem Alike.exists_child? {e f g : Element} (h : e.Alike f) {name : String}
    (hchild : f.child? name = some g) : ∃ c, e.child? name = some c ∧ c.Alike g := by
  have halike := h.child? name
  rw [hchild] at halike
  exact Option.map_eq_some_iff.mp halike

end Element

end Markup

/-! ### Readings without faults -/

namespace Reading

variable {α β σ : Type}

/-- Nothing happens before what follows a pure reading. -/
@[simp] theorem pure_bind (a : α) (f : α → Reading β) : (pure a >>= f) = f a := rfl

/-- A reading is pure if it has that value and no faults. -/
private theorem eq_pure_iff {r : Reading α} {a : α} : r = pure a ↔ r.value = a ∧ r.faults = [] := by
  obtain ⟨value, faults⟩ := r
  exact iff_of_eq (Reading.mk.injEq ..)

/-- Wherever elements like the given ones stand, they are read without a fault, and what is read is
    as described. -/
def Collects (read : Element → Reading (Option β)) (fs : List Element) (P : List β → Prop) : Prop :=
  ∀ es : List Element, es.map unplaced = fs.map unplaced →
    ∃ bs, collect read es = pure bs ∧ P bs

/-- What can be read in two lists of elements can be read in one behind the other. -/
theorem Collects.append {read : Element → Reading (Option β)} {fs gs : List Element}
    {P Q : List β → Prop} (hf : Collects read fs P) (hg : Collects read gs Q) :
    Collects read (fs ++ gs) fun bs => ∃ as cs, bs = as ++ cs ∧ P as ∧ Q cs := by
  intro es hes
  -- cut the elements where the two lists meet
  rw [List.map_append, List.map_eq_append_iff] at hes
  obtain ⟨es, ds, rfl, hes, hds⟩ := hes
  obtain ⟨as, has, hP⟩ := hf es hes
  obtain ⟨cs, hcs, hQ⟩ := hg ds hds
  refine ⟨as ++ cs, ?_, as, cs, rfl, hP, hQ⟩
  rw [eq_pure_iff] at has hcs ⊢
  rw [value_collect, faults_collect] at has hcs ⊢
  rw [List.filterMap_append, List.flatMap_append, has.1, has.2, hcs.1, hcs.2]
  exact ⟨rfl, rfl⟩

/-- Elements that are no records of the kind asked for leave nothing behind. -/
-- the two readings follow each other, and neither reports anything
theorem collects_nil {read : Element → Reading (Option β)} {fs : List Element}
    (h : ∀ f ∈ fs, ∀ e : Element, e.Alike f → read e = pure none) :
    Collects read fs (· = []) := by
  intro es hes
  refine ⟨[], eq_pure_iff.mpr ?_, rfl⟩
  -- every element is like one of the given ones
  have hnone : ∀ e ∈ es, read e = pure none := by
    intro e he
    obtain ⟨f, hf, hfe⟩ := List.mem_map.mp (hes ▸ List.mem_map_of_mem he)
    exact h f hf e hfe.symm
  rw [value_collect, faults_collect, List.filterMap_eq_nil_iff, List.flatMap_eq_nil_iff]
  exact ⟨fun e he => congrArg value (hnone e he), fun e he => congrArg faults (hnone e he)⟩

/-- Records that are each read from the element they are written as, with something about its
    place, are read in order. -/
theorem collects_map {read : Element → Reading (Option β)} {make : α → σ → β}
    {write : α → Element} {as : List α}
    (h : ∀ a ∈ as, ∀ e : Element, e.Alike (write a) →
      ∃ place, read e = pure (some (make a place))) :
    Collects read (as.map write) fun bs => ∃ ps : List (α × σ), ps.map (·.1) = as ∧
      bs = ps.map fun p => make p.1 p.2 := by
  -- the records and the elements like theirs are taken off together
  induction as with
  | nil =>
    intro es hes
    obtain rfl : es = [] := by simpa using hes
    exact ⟨[], rfl, [], rfl, rfl⟩
  | cons a as ih =>
    obtain ⟨ha, has⟩ := List.forall_mem_cons.mp h
    intro es hes
    cases es with
    | nil => exact nomatch hes
    | cons e es =>
      obtain ⟨he, hes⟩ := List.cons.inj hes
      obtain ⟨place, hread⟩ := ha e he
      obtain ⟨bs, hbs, ps, hps, rfl⟩ := ih has es hes
      refine ⟨make a place :: ps.map fun p => make p.1 p.2, ?_, (a, place) :: ps, ?_, rfl⟩
      · rw [collect, hread, hbs]
        rfl
      · rw [List.map_cons, hps]

end Reading

/-! ### Attributes -/

/-- An attribute that is written as text is read from it, and none where there is none. -/
theorem readAttribute_written {α : Type} {e : Element} {name : String} {write : α → String}
    {read : String → Except String α} (a? : Option α) (h : e.attribute? name = a?.map write)
    (hread : ∀ a ∈ a?, read (Text.trim (write a)) = .ok a) :
    readAttribute e name read = pure a? := by
  unfold readAttribute
  rw [h]
  cases a? with
  | none => rfl
  | some a =>
    dsimp only [Option.map_some]
    rw [hread a rfl]
    rfl

/-- A truth value is read from its own word. -/
theorem readTruth_toString (b : Bool) : readTruth (Text.trim (toString b)) = .ok b := by
  cases b <;> rfl

/-- An access is read from its own word. -/
theorem read_access (a : Access) : Access.vocabulary.read (Text.trim a.text) = .ok a := by
  cases a <;> rfl

/-- A concurrency mode is read from its own word. -/
private theorem read_concurrencyMode (m : ConcurrencyMode) :
    ConcurrencyMode.vocabulary.read (Text.trim m.text) = .ok m := by
  cases m <;> rfl

/-- A store generation pattern is read from its own word. -/
private theorem read_storeGeneration (g : StoreGeneration) :
    StoreGeneration.vocabulary.read (Text.trim g.text) = .ok g := by
  cases g <;> rfl

/-- An underlying type is read from its own word. -/
theorem read_underlyingType (t : UnderlyingType) :
    UnderlyingType.read (Text.trim t.text) = .ok t := by
  cases t <;> rfl

/-- An integer of the range is read from its decimal form. -/
private theorem readIntegerValue_toString {range : Text.IntegerRange} {i : Int}
    (h : range.contains i = true) : readIntegerValue range (Text.trim (toString i)) = .ok i := by
  unfold readIntegerValue
  rw [Text.trim_toString, Text.parseInteger_toString h]
  rfl

/-- The largest length is read from its number. -/
private theorem readMaxLength_written {e : Element} {length? : Option Nat}
    (h : e.attribute? "MaxLength" = length?.map fun n => toString n)
    (hrange : ∀ n ∈ length?, (Text.IntegerRange.unsigned 32).contains n = true) :
    readMaxLength e = pure length? := by
  unfold readMaxLength
  rw [h]
  cases length? with
  | none => rfl
  | some n =>
    -- the number is written as a natural number and read as an integer
    have hread : readIntegerValue (.unsigned 32) (toString (n : Int)) = .ok (n : Int) := by
      have := readIntegerValue_toString (hrange n rfl)
      rwa [Text.trim_toString] at this
    have htrim : Text.trim (toString n) = toString n := Text.trim_toString (n : Int)
    -- digits are not the word for the greatest length
    dsimp only [Option.map_some]
    rw [htrim, if_neg (Text.map_toLower_toString_ne (by decide) _)]
    show (acceptValue e "MaxLength" _
      (readIntegerValue (.unsigned 32) (toString (n : Int))) >>= _) = _
    rw [hread]
    rfl

/-! ### Documentation -/

/-- The texts of a documentation. -/
def Documentation.texts (d : Documentation) : List String :=
  d.summary.toList ++ d.longDescription.toList

/-- What a record bears survives being written: there are no annotations, and no text of its
    documentation is empty or has white space at its ends. -/
structure Metadata.Writable (m : Metadata) : Prop where
  texts : ∀ d ∈ m.documentation, ∀ text ∈ d.texts, text ≠ "" ∧ Text.trim text = text
  annotations : m.annotations = []

instance (m : Metadata) : Decidable m.Writable :=
  decidable_of_iff ((∀ d ∈ m.documentation, ∀ text ∈ d.texts, text ≠ "" ∧ Text.trim text = text) ∧
    m.annotations = []) ⟨fun h => ⟨h.1, h.2⟩, fun h => ⟨h.texts, h.annotations⟩⟩

/-- An element that holds nothing but a text. -/
def textElement (kind text : String) : Element := .ofKind kind [] [] text

/-- The element that a documentation is written as. -/
def Documentation.element (d : Documentation) : Element :=
  .ofKind "Documentation" []
    (d.summary.toList.map (textElement "Summary") ++
      d.longDescription.toList.map (textElement "LongDescription")) ""

/-- The element of a documentation is named after it. -/
@[simp] theorem Documentation.localName_element (d : Documentation) :
    d.element.localName = "Documentation" := rfl

/-- The documentation of a record as the first of the children of its element. -/
def Metadata.elements (m : Metadata) : List Element :=
  m.documentation.toList.map Documentation.element

/-- What is white space in markup is blank. -/
theorem isBlank_of_isSpace {c : Char} (h : Markup.isSpace c = true) : Text.isBlank c = true := by
  simp only [Markup.isSpace, Bool.or_eq_true, beq_iff_eq] at h
  rcases h with ((rfl | rfl) | rfl) | rfl <;> decide

/-- Text from which nothing is trimmed has no white space at its ends. -/
theorem trimmed_of_trim {text : String} (h : Text.trim text = text) : Trimmed text.toList := by
  have hchars : Text.trimChars text.toList = text.toList := by rw [← Text.toList_trim, h]
  generalize text.toList = cs at hchars
  unfold Text.trimChars Text.trimBoth Text.dropEndWhile at hchars
  -- what is not blank is no white space
  have hnot : ∀ c, Text.isBlank c = false → Markup.isSpace c = false := by
    intro c hc
    rw [← Bool.not_eq_true]
    exact fun hspace => Bool.false_ne_true (hc.symm.trans (isBlank_of_isSpace hspace))
  -- nothing was dropped at the beginning, since the end is dropped from what is left
  have hstart : cs.dropWhile Text.isBlank = cs := by
    refine (List.dropWhile_suffix _).eq_of_length_le ?_
    have hle := Text.length_dropWhile_le Text.isBlank (cs.dropWhile Text.isBlank).reverse
    have hlength := congrArg List.length hchars
    rw [List.length_reverse] at hle hlength
    omega
  -- a character at either end is one that trimming stops at
  constructor
  · intro c hc
    obtain ⟨rest, hrest⟩ := List.head?_eq_some_iff.mp hc
    exact hnot c (Text.head_dropWhile (hstart.trans hrest))
  · intro c hc
    rw [← hchars, List.getLast?_reverse] at hc
    obtain ⟨rest, hrest⟩ := List.head?_eq_some_iff.mp hc
    exact hnot c (Text.head_dropWhile hrest)

/-- Text that is not empty and from which nothing is trimmed is kept as it is. -/
private theorem nonBlank?_of_trim {text : String} (hne : text ≠ "") (h : Text.trim text = text) :
    Text.nonBlank? text = some text := by
  have hchars : Text.trimChars text.toList = text.toList := by rw [← Text.toList_trim, h]
  unfold Text.nonBlank? Text.isAllBlank
  rw [hchars, if_neg (by simpa using hne), h]

/-- An element that holds only such a text is legal. -/
private theorem legal_textElement {kind text : String} (hkind : Markup.isPlainName kind = true)
    (h : Text.trim text = text) : (textElement kind text).Legal :=
  Element.legal_ofKind [] hkind rfl (trimmed_of_trim h) (by simp)

/-- An empty text has nothing at its ends. -/
theorem trimmed_empty : Trimmed "".toList := trimmed_of_trim rfl

/-- The element of the documentation is legal. -/
private theorem Metadata.Writable.legal_elements {m : Metadata} (h : m.Writable) :
    ∀ e ∈ m.elements, e.Legal := by
  intro e he
  obtain ⟨d, hd, rfl⟩ := List.mem_map.mp he
  have htexts := h.texts d (by simpa using hd)
  refine Element.legal_ofKind [] rfl rfl trimmed_empty fun c hc => ?_
  rcases List.mem_append.mp hc with hc | hc
  -- the summary
  · obtain ⟨text, htext, rfl⟩ := List.mem_map.mp hc
    exact legal_textElement rfl (htexts text (List.mem_append_left _ htext)).2
  -- the long description
  · obtain ⟨text, htext, rfl⟩ := List.mem_map.mp hc
    exact legal_textElement rfl (htexts text (List.mem_append_right _ htext)).2

/-- A text is read from the element that holds it, and none where there is none. -/
theorem documentationText_written {e f : Element} (h : e.Alike f) {kind : String}
    {text? : Option String} (hchild : f.child? kind = text?.map (textElement kind))
    (htext : ∀ text ∈ text?, text ≠ "" ∧ Text.trim text = text) :
    documentationText e kind = text? := by
  unfold documentationText
  cases text? with
  | none =>
    -- an element that is missing has no text
    rw [h.child?_eq_none hchild]
    rfl
  | some text =>
    -- the element is there, and its text is not blank
    obtain ⟨c, hc, hcalike⟩ := h.exists_child? hchild
    rw [hc]
    show Text.nonBlank? c.text = _
    rw [hcalike.text]
    exact nonBlank?_of_trim (htext text rfl).1 (htext text rfl).2

/-- The summary is in the child of its name. -/
private theorem Documentation.child?_summary (d : Documentation) :
    d.element.child? "Summary" = d.summary.map (textElement "Summary") := by
  obtain ⟨summary, longDescription⟩ := d
  cases summary <;> cases longDescription <;> rfl

/-- The long description is in the child of its name. -/
private theorem Documentation.child?_longDescription (d : Documentation) :
    d.element.child? "LongDescription" = d.longDescription.map (textElement "LongDescription") := by
  obtain ⟨summary, longDescription⟩ := d
  cases summary <;> cases longDescription <;> rfl

/-- The documentation of a record is read from an element like that of the record. -/
private theorem readDocumentation_written {m : Metadata} (hm : m.Writable) {e f : Element}
    (h : e.Alike f)
    (hchild : f.child? "Documentation" = m.documentation.map Documentation.element) :
    readDocumentation e = m.documentation := by
  have htexts := hm.texts
  unfold readDocumentation
  cases hd : m.documentation with
  | none =>
    -- no documentation is written, and none is found
    rw [hd] at hchild
    rw [h.child?_eq_none hchild]
    rfl
  | some d =>
    rw [hd] at hchild htexts
    obtain ⟨c, hc, hcalike⟩ := h.exists_child? hchild
    have hdtexts := htexts d rfl
    rw [hc]
    show some (Documentation.mk _ _) = _
    -- both texts come back, each from its own child
    rw [documentationText_written hcalike d.child?_summary fun text htext =>
        hdtexts text (List.mem_append_left _ (Option.mem_toList.mpr htext)),
      documentationText_written hcalike d.child?_longDescription fun text htext =>
        hdtexts text (List.mem_append_right _ (Option.mem_toList.mpr htext))]

/-- The element that a record is written as: its name is a field, and its documentation stands
    before the elements of its parts. -/
def Metadata.elementOf (m : Metadata) (kind : String) (fields : List (String × Option String))
    (parts : List Element) : Element :=
  .ofKind kind (("Name", some m.name) :: fields) (m.elements ++ parts) ""

section

variable {m : Metadata} {kind : String} {fields : List (String × Option String)}
  {parts : List Element}

/-- The element of a record is legal if its parts are. -/
theorem Metadata.Writable.legal_elementOf (hm : m.Writable)
    (hkind : Markup.isPlainName kind = true)
    (hnames : Markup.arePlainNames ("Name" :: fields.map (·.1)) = true)
    (hparts : ∀ p ∈ parts, p.Legal) : (m.elementOf kind fields parts).Legal :=
  Element.legal_ofKind (("Name", some m.name) :: fields) hkind hnames trimmed_empty fun c hc =>
    (List.mem_append.mp hc).elim (hm.legal_elements c) (hparts c)

/-- The children of a record other than its documentation are its parts. -/
theorem namedChildren_elementOf {name : String} (hname : name ≠ "Documentation") :
    (m.elementOf kind fields parts).namedChildren name =
      parts.filter fun p => p.localName == name := by
  -- the documentation has a name of its own
  have hnone : m.elements.filter (fun c => c.localName == name) = [] := by
    refine List.filter_eq_nil_iff.mpr fun c hc => ?_
    obtain ⟨d, -, rfl⟩ := List.mem_map.mp hc
    exact fun heq => hname (eq_of_beq heq).symm
  show (m.elements ++ parts).filter (fun c => c.localName == name) = _
  rw [List.filter_append, hnone, List.nil_append]

/-- The first part of some name is the first child of that name. -/
theorem child?_elementOf {name : String} (hname : name ≠ "Documentation") :
    (m.elementOf kind fields parts).child? name = parts.find? fun p => p.localName == name := by
  rw [Element.child?_eq_head?, namedChildren_elementOf hname, List.head?_filter]

/-- The documentation is found if no part bears its name. -/
private theorem child?_documentation (hparts : ∀ p ∈ parts, p.localName ≠ "Documentation") :
    (m.elementOf kind fields parts).child? "Documentation" =
      m.documentation.map Documentation.element := by
  -- no part is taken for the documentation
  have hnone : parts.find? (fun p => p.localName == "Documentation") = none := by
    simpa [List.find?_eq_none] using hparts
  show (m.elements ++ parts).find? (fun p => p.localName == "Documentation") = _
  rw [List.find?_append, hnone, Option.or_none, Metadata.elements]
  cases m.documentation <;> rfl

/-- The fields of a record are found in an element like that of the record. -/
theorem attribute?_elementOf {e : Element} (h : e.Alike (m.elementOf kind fields parts))
    (hnames : Markup.arePlainNames ("Name" :: fields.map (·.1)) = true) (name : String) :
    e.attribute? name = ((("Name", some m.name) :: fields).lookup name).join :=
  Alike.field h hnames name

/-- What a record bears is read from an element like that of the record. -/
theorem readMetadata_written {e : Element} (h : e.Alike (m.elementOf kind fields parts))
    (hm : m.Writable) (hnames : Markup.arePlainNames ("Name" :: fields.map (·.1)) = true)
    (hparts : ∀ p ∈ parts, p.localName ≠ "Documentation") : readMetadata e = pure (some m) := by
  have hname : e.attribute? "Name" = some m.name := attribute?_elementOf h hnames "Name"
  -- the name is there, and neither documentation nor annotations depend on the place
  rw [readMetadata_of_some hname, readDocumentation_written hm h (child?_documentation hparts),
    readAnnotations, h.qualifiedAttributes, Metadata.elementOf, Element.qualifiedAttributes_ofKind,
    List.map_nil, ← hm.annotations]

end

/-! ### Members -/

/-- A reference to a property by its name. -/
def propertyRef (name : String) : Element := .ofKind "PropertyRef" [("Name", some name)] [] ""

/-- The element of a reference is named after it. -/
@[simp] theorem localName_propertyRef (name : String) :
    (propertyRef name).localName = "PropertyRef" := rfl

/-- The element that a member of an enum is written as. -/
def EnumMember.element (m : EnumMember) : Element :=
  .ofKind "Member" [("Name", some m.name), ("Value", m.value.map fun i => toString i)] [] ""

/-- The value of the member is a signed integer of 64 bits. -/
def EnumMember.Writable (m : EnumMember) : Prop :=
  ∀ i ∈ m.value, (Text.IntegerRange.signed 64).contains i = true

instance (m : EnumMember) : Decidable m.Writable :=
  inferInstanceAs (Decidable (∀ i ∈ m.value, (Text.IntegerRange.signed 64).contains i = true))

/-- The element of a member of an enum is a member. -/
@[simp] theorem EnumMember.localName_element (m : EnumMember) : m.element.localName = "Member" :=
  rfl

/-- The fields of a property; everything that has a default is written out. -/
def Property.fields (p : Property) : List (String × Option String) :=
  [("Type", some p.typeName), ("Nullable", some (toString p.nullable)),
    ("MaxLength", p.maxLength.map fun n => toString n),
    ("ConcurrencyMode", some p.concurrencyMode.text),
    ("StoreGeneratedPattern", some p.storeGeneration.text), ("DefaultValue", p.defaultValue),
    ("GetterAccess", some p.getter.text), ("SetterAccess", some p.setter.text)]

/-- The element that a property is written as. -/
def Property.element (p : Property) : Element := p.toMetadata.elementOf "Property" p.fields []

/-- The element of a property is named after it. -/
@[simp] theorem Property.localName_element (p : Property) : p.element.localName = "Property" := rfl

/-- The largest length of the property is an unsigned integer of 32 bits. -/
structure Property.Writable (p : Property) : Prop where
  metadata : p.toMetadata.Writable
  maxLength : ∀ n ∈ p.maxLength, (Text.IntegerRange.unsigned 32).contains n = true

instance (p : Property) : Decidable p.Writable :=
  decidable_of_iff (p.toMetadata.Writable ∧
      ∀ n ∈ p.maxLength, (Text.IntegerRange.unsigned 32).contains n = true)
    ⟨fun h => ⟨h.1, h.2⟩, fun h => ⟨h.metadata, h.maxLength⟩⟩

/-- The fields of a navigation property. -/
def NavigationProperty.fields (n : NavigationProperty) : List (String × Option String) :=
  [("Relationship", some n.relationship), ("FromRole", some n.fromRole), ("ToRole", some n.toRole),
    ("GetterAccess", some n.getter.text), ("SetterAccess", some n.setter.text)]

/-- The element that a navigation property is written as. -/
def NavigationProperty.element (n : NavigationProperty) : Element :=
  n.toMetadata.elementOf "NavigationProperty" n.fields []

/-- The element of a navigation property is named after it. -/
@[simp] theorem NavigationProperty.localName_element (n : NavigationProperty) :
    n.element.localName = "NavigationProperty" := rfl

/-- The name alone is a plain name. -/
theorem arePlainNames_name : Markup.arePlainNames ["Name"] = true := by decide

/-- The fields of a member of an enum have plain names. -/
private theorem arePlainNames_enumMember : Markup.arePlainNames ["Name", "Value"] = true := by
  decide

/-- The fields of a property have plain names. -/
private theorem arePlainNames_property (p : Property) :
    Markup.arePlainNames ("Name" :: p.fields.map (·.1)) = true := by
  simp only [Property.fields, List.map_cons, List.map_nil]
  decide

/-- The fields of a navigation property have plain names. -/
private theorem arePlainNames_navigation (n : NavigationProperty) :
    Markup.arePlainNames ("Name" :: n.fields.map (·.1)) = true := by
  simp only [NavigationProperty.fields, List.map_cons, List.map_nil]
  decide

/-- The element of a reference is legal. -/
theorem legal_propertyRef (name : String) : (propertyRef name).Legal :=
  Element.legal_ofKind [("Name", some name)] rfl arePlainNames_name trimmed_empty (by simp)

/-- The element of a member of an enum is legal. -/
theorem EnumMember.legal_element (m : EnumMember) : m.element.Legal :=
  Element.legal_ofKind [("Name", some m.name), ("Value", m.value.map fun i => toString i)] rfl
    arePlainNames_enumMember trimmed_empty (by simp)

/-- The element of a property is legal. -/
theorem Property.Writable.legal_element {p : Property} (h : p.Writable) : p.element.Legal :=
  h.metadata.legal_elementOf rfl (arePlainNames_property p) (by simp)

/-- The element of a navigation property is legal. -/
theorem NavigationProperty.legal_element {n : NavigationProperty} (h : n.toMetadata.Writable) :
    n.element.Legal :=
  h.legal_elementOf rfl (arePlainNames_navigation n) (by simp)

/-- A reference is read from an element like its own. -/
theorem readPropertyRef_written (name : String) {e : Element} (h : e.Alike (propertyRef name)) :
    requireAttribute e "Name" = pure (some name) :=
  requireAttribute_of_some (Alike.field h arePlainNames_name "Name")

/-- A member of an enum is read from an element like its own. -/
theorem readEnumMember_written {m : EnumMember} (hm : m.Writable) {e : Element}
    (h : e.Alike m.element) : ∃ span, readEnumMember e = pure (some (m, span)) := by
  have hattribute := Alike.field h arePlainNames_enumMember
  refine ⟨e.span, ?_⟩
  unfold readEnumMember
  -- the name is required, the value is not
  rw [requireAttribute_of_some (hattribute "Name"), Reading.pure_bind]
  dsimp only
  rw [readAttribute_written m.value (hattribute "Value") fun i hi =>
    readIntegerValue_toString (hm i hi)]
  rfl

/-- The accesses of the accessors are read where they are written. -/
theorem readAccessors_written {e : Element} {getter setter : Access}
    (hgetter : e.attribute? "GetterAccess" = some getter.text)
    (hsetter : e.attribute? "SetterAccess" = some setter.text) :
    readAccessors e = pure (getter, setter) := by
  unfold readAccessors
  rw [readAttribute_written (some getter) hgetter fun a _ => read_access a,
    readAttribute_written (some setter) hsetter fun a _ => read_access a]
  rfl

/-- A property is read from an element like its own. -/
theorem readProperty_written {p : Property} (hp : p.Writable) {e : Element}
    (h : e.Alike p.element) : readProperty e = pure (some p) := by
  have hattribute := attribute?_elementOf h (arePlainNames_property p)
  unfold readProperty
  -- what is required comes first: the name and the type
  rw [readMetadata_written h hp.metadata (arePlainNames_property p) (by simp), Reading.pure_bind]
  dsimp only
  rw [requireAttribute_of_some (hattribute "Type"), Reading.pure_bind]
  dsimp only
  -- then the rest, attribute by attribute
  rw [readAttribute_written (some p.nullable) (hattribute "Nullable") fun b _ =>
      readTruth_toString b,
    readMaxLength_written (hattribute "MaxLength") hp.maxLength,
    readAttribute_written (some p.concurrencyMode) (hattribute "ConcurrencyMode") fun m _ =>
      read_concurrencyMode m,
    readAttribute_written (some p.storeGeneration) (hattribute "StoreGeneratedPattern")
      fun g _ => read_storeGeneration g,
    readAccessors_written (hattribute "GetterAccess") (hattribute "SetterAccess"),
    show e.attribute? "DefaultValue" = p.defaultValue from hattribute "DefaultValue"]
  rfl

/-- A navigation property is read from an element like its own. -/
theorem readNavigationProperty_written {n : NavigationProperty} (hn : n.toMetadata.Writable)
    {e : Element} (h : e.Alike n.element) : readNavigationProperty e = pure (some n) := by
  have hattribute := attribute?_elementOf h (arePlainNames_navigation n)
  unfold readNavigationProperty
  rw [readMetadata_written h hn (arePlainNames_navigation n) (by simp), Reading.pure_bind]
  dsimp only
  -- every field is found, so nothing is reported on the way
  rw [requireAttribute_of_some (hattribute "Relationship"),
    requireAttribute_of_some (hattribute "FromRole"),
    requireAttribute_of_some (hattribute "ToRole"),
    readAccessors_written (hattribute "GetterAccess") (hattribute "SetterAccess")]
  rfl

end EntityModel
