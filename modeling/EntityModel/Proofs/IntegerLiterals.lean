import EntityModel.Model
import EntityModel.Proofs.DecimalText
import EntityModel.Proofs.WrittenProperties

/-!
# Integer literals

Integers reach the generated source in two ways.  A default value is read within the range of the
type of its property and written in canonical form.  The value of an enum member is read as an
integer of 64 bits, whatever the underlying type of the enum is, and written as it was read.

`IntegerText` describes the texts of integers, and `ValueStep` the steps of a body that hold values;
`IntegersFit` says of a step that what it writes fits the declared types.

* `readInteger_eq_ok_iff`               the texts that are read as integers of a range
* `valuesWithin_of_parse`               what is known of the values of enum members
* `mem_body_iff`                        the values in the body of a declaration
* `integers_fit_iff_enum_values_do`     when all integers of a document fit their types
-/

namespace EntityModel.Text

/-! ### Decimal texts of integers -/

/-- An integer: a sign that may be missing and digits. -/
structure IntegerText where
  sign : List Char
  digits : DigitRun
  isSign : sign = [] ∨ sign = ['+'] ∨ sign = ['-']

namespace IntegerText

/-- The integer as it is written. -/
def chars (d : IntegerText) : List Char := d.sign ++ d.digits.chars

/-- The integer that is meant. -/
def value (d : IntegerText) : Int :=
  if d.sign = ['-'] then -(d.digits.number : Int) else d.digits.number

end IntegerText

/-! ### Reading integers -/

/-- Nothing but a decimal digit has a value below ten. -/
private theorem isDigit_of_digitValue? {c : Char} {d : Nat} (h : digitValue? 10 c = some d) :
    c.isDigit = true := by
  by_contra hc
  unfold digitValue? at h
  rw [if_neg hc] at h
  -- letters stand for ten at least, and whatever else for ten
  have hten : ∀ condition : Bool, ∀ v w : Nat, 10 ≤ w →
      10 ≤ if condition then v + 10 else w := by
    intro condition v w hw
    split <;> omega
  dsimp only at h
  rw [if_neg (Nat.not_lt.mpr (hten _ _ _ (hten _ _ _ (Nat.le_refl 10))))] at h
  cases h

/-- Digits are read exactly if they are digits and their number keeps to the limit. -/
private theorem readDigits_eq_ok_iff {limit acc n : Nat} {overflow : IntegerError} {cs : List Char}
    (hacc : acc ≤ limit) :
    readDigits 10 limit overflow acc cs = .ok n ↔
      (∀ c ∈ cs, c.isDigit = true) ∧ n = Nat.ofDigitChars 10 cs acc ∧ n ≤ limit := by
  constructor
  · induction cs generalizing acc with
    | nil =>
      intro h
      obtain rfl := Except.ok.inj h
      exact ⟨by simp, rfl, hacc⟩
    | cons c cs ih =>
      intro h
      -- either the character has no value, or it is a digit and the number grows by it
      cases hc : digitValue? 10 c with
      | none =>
        simp only [readDigits, hc] at h
        cases h
      | some d =>
        have hdigit := isDigit_of_digitValue? hc
        rw [readDigits_cons hc] at h
        split at h
        · rename_i hle
          obtain ⟨hcs, rfl, hlimit⟩ := ih hle h
          obtain rfl := Option.some.inj ((digitValue?_of_isDigit hdigit).symm.trans hc)
          refine ⟨List.forall_mem_cons.mpr ⟨hdigit, hcs⟩, ?_, hlimit⟩
          -- the number read so far is multiplied before the digit is added
          rw [Nat.ofDigitChars_cons, Nat.mul_comm]
        · cases h
  · rintro ⟨hcs, rfl, hlimit⟩
    exact readDigits_of_isDigit hcs hlimit overflow

/-- A number without a sign is read exactly from a run of digits that keeps to the limit. -/
theorem readNatural_eq_ok_iff {limit n : Nat} {overflow : IntegerError} {cs : List Char} :
    readNatural 10 limit overflow cs = .ok n ↔
      ∃ d : DigitRun, cs = d.chars ∧ n = d.number ∧ n ≤ limit := by
  cases cs with
  | nil =>
    -- no digits are no number, on either side
    constructor
    · intro h
      cases h
    · rintro ⟨d, hd, -⟩
      exact absurd hd.symm d.ne_nil
  | cons c cs =>
    show readDigits 10 limit overflow 0 (c :: cs) = .ok n ↔ _
    rw [readDigits_eq_ok_iff (Nat.zero_le limit)]
    constructor
    · rintro ⟨hdigits, rfl, hlimit⟩
      exact ⟨⟨c :: cs, List.cons_ne_nil c cs, hdigits⟩, rfl, rfl, hlimit⟩
    · rintro ⟨d, hd, rfl, hlimit⟩
      rw [hd]
      exact ⟨d.isDigit, rfl, hlimit⟩

/-- A number without a sign, as it is read and changed by a function after that. -/
private theorem map_readNatural_eq_ok_iff {limit : Nat} {overflow : IntegerError} {cs : List Char}
    {f : Int → Int} {i : Int} :
    Except.map f (do let n ← readNatural 10 limit overflow cs; pure (n : Int)) = .ok i ↔
      ∃ d : DigitRun, cs = d.chars ∧ d.number ≤ limit ∧ f d.number = i := by
  rw [map_eq_ok_iff]
  constructor
  · rintro ⟨j, hj, rfl⟩
    obtain ⟨n, hn, hpure⟩ := bind_eq_ok_iff.mp hj
    obtain ⟨d, rfl, rfl, hlimit⟩ := readNatural_eq_ok_iff.mp hn
    obtain rfl := Except.ok.inj hpure
    exact ⟨d, rfl, hlimit, rfl⟩
  · rintro ⟨d, rfl, hlimit, rfl⟩
    exact ⟨d.number, bind_eq_ok_iff.mpr
      ⟨d.number, readNatural_eq_ok_iff.mpr ⟨d, rfl, rfl, hlimit⟩, rfl⟩, rfl⟩

/-- An integer that fits is read, unless it has a minus sign and the range no negative integers. -/
private theorem readInteger_chars {r : IntegerRange} {d : IntegerText}
    (h : r.contains d.value = true)
    (hsign : d.sign = ['-'] → 0 < r.below) : readInteger r d.chars = .ok d.value := by
  obtain ⟨hbelow, habove⟩ := IntegerRange.contains_iff.mp h
  unfold IntegerText.value at hbelow habove ⊢
  unfold IntegerText.chars
  -- one case for each sign that an integer can have
  obtain hplain | hplus | hminus := d.isSign
  · rw [hplain, if_neg (by decide)] at habove ⊢
    rw [List.nil_append, readInteger_of_isDigit d.digits.ne_nil d.digits.isDigit]
    exact map_readNatural_eq_ok_iff.mpr ⟨d.digits, rfl, Int.ofNat_le.mp habove, rfl⟩
  · rw [hplus, if_neg (by decide)] at habove ⊢
    exact map_readNatural_eq_ok_iff.mpr ⟨d.digits, rfl, Int.ofNat_le.mp habove, rfl⟩
  · rw [hminus, if_pos rfl] at hbelow ⊢
    show (if r.below = 0 then _ else Except.map _ _) = _
    -- only a minus sign asks whether the range has negative integers at all
    rw [if_neg (Nat.ne_of_gt (hsign hminus))]
    exact map_readNatural_eq_ok_iff.mpr
      ⟨d.digits, rfl, Int.ofNat_le.mp (Int.neg_le_neg_iff.mp hbelow), rfl⟩

/-- A number up to the upper bound is in the range. -/
private theorem contains_natCast {r : IntegerRange} {n : Nat} (h : n ≤ r.above) :
    r.contains n = true :=
  IntegerRange.contains_iff.mpr ⟨by omega, by omega⟩

/-- The negative of a number up to the lower bound is in the range. -/
private theorem contains_neg_natCast {r : IntegerRange} {n : Nat} (h : n ≤ r.below) :
    r.contains (-n) = true :=
  IntegerRange.contains_iff.mpr ⟨by omega, by omega⟩

/-- A text is read as an integer of the range exactly if it is one as it is written. -/
theorem readInteger_eq_ok_iff {r : IntegerRange} {cs : List Char} {i : Int} :
    readInteger r cs = .ok i ↔
      ∃ d : IntegerText, cs = d.chars ∧ i = d.value ∧ r.contains d.value = true ∧
        (d.sign = ['-'] → 0 < r.below) := by
  constructor
  · intro h
    unfold readInteger at h
    -- the first character decides which sign is read
    split at h
    · cases h
    · obtain ⟨run, rfl, hlimit, rfl⟩ := map_readNatural_eq_ok_iff.mp h
      exact ⟨⟨['+'], run, .inr (.inl rfl)⟩, rfl, rfl, contains_natCast hlimit, by simp⟩
    · split at h
      · cases h
      · rename_i hbelow
        obtain ⟨run, rfl, hlimit, rfl⟩ := map_readNatural_eq_ok_iff.mp h
        exact ⟨⟨['-'], run, .inr (.inr rfl)⟩, rfl, rfl, contains_neg_natCast hlimit,
          fun _ => Nat.pos_of_ne_zero hbelow⟩
    · obtain ⟨run, rfl, hlimit, rfl⟩ := map_readNatural_eq_ok_iff.mp h
      exact ⟨⟨[], run, .inl rfl⟩, rfl, rfl, contains_natCast hlimit, by simp⟩
  · rintro ⟨d, rfl, rfl, hcontains, hsign⟩
    exact readInteger_chars hcontains hsign

end EntityModel.Text

namespace EntityModel

open CSharp (Step AutoProperty)
open Text (IntegerRange IntegerText)

/-! ### Literals of default values -/

namespace UnderlyingType

/-- The built-in type of a property that holds the integers of the underlying type. -/
def primitive : UnderlyingType → Primitive
  | byte => .byte
  | sbyte => .sbyte
  | int16 => .int16
  | int32 => .int32
  | int64 => .int64

/-- The literal is the canonical form of an integer of the type, and the text spells that integer,
    blanks around it aside.  A type without negative integers admits no minus sign, not even before
    a zero. -/
def SpellsLiteral (u : UnderlyingType) (text literal : String) : Prop :=
  ∃ d : IntegerText, (Text.trim text).toList = d.chars ∧ u.range.contains d.value = true ∧
    (d.sign = ['-'] → 0 < u.range.below) ∧ literal = toString d.value

end UnderlyingType

/-- Integers have a literal exactly if they fit their type. -/
private theorem CSharp.defaultLiteral?_eq_some_iff_spells {u : UnderlyingType}
    {value literal : String} :
    CSharp.defaultLiteral? value u.primitive = some literal ↔ u.SpellsLiteral value literal := by
  have hliteral : CSharp.defaultLiteral? value u.primitive =
      -- all of the types below go the same way, each with its own range
      CSharp.integerLiteral? u.range (Text.trimChars value.toList) := by
    cases u <;> rfl
  have hread : CSharp.integerLiteral? u.range (Text.trimChars value.toList) = some literal ↔
      ∃ i, Text.readInteger u.range (Text.trimChars value.toList) = .ok i ∧
        toString i = literal := by
    unfold CSharp.integerLiteral?
    cases Text.readInteger u.range (Text.trimChars value.toList) <;> simp
  -- what remains is what is known of reading an integer
  rw [hliteral, hread, UnderlyingType.SpellsLiteral, Text.toList_trim]
  constructor
  · rintro ⟨i, hi, rfl⟩
    obtain ⟨d, hd, rfl, hrange, hsign⟩ := Text.readInteger_eq_ok_iff.mp hi
    exact ⟨d, hd, hrange, hsign, rfl⟩
  · rintro ⟨d, hd, hrange, hsign, rfl⟩
    exact ⟨d.value, Text.readInteger_eq_ok_iff.mpr ⟨d, hd, rfl, hrange, hsign⟩, rfl⟩

/-! ### Values of enum members -/

/-- The values that the members of the enum type are given lie in the range. -/
def EnumType.ValuesWithin (t : EnumType) (range : IntegerRange) : Prop :=
  ∀ m ∈ t.members, ∀ i ∈ m.value, range.contains i = true

/-- What is read as an integer of a range lies in it. -/
private theorem contains_of_readIntegerValue {range : IntegerRange} {word : String} {i : Int}
    (h : readIntegerValue range word = .ok i) : range.contains i = true := by
  have hread : Text.readInteger range word.toList = .ok i := by
    unfold readIntegerValue Text.parseInteger at h
    cases hr : Text.readInteger range word.toList with
    | error e =>
      rw [hr] at h
      cases h
    | ok j =>
      rw [hr] at h
      exact congrArg _ (Except.ok.inj h)
  obtain ⟨d, -, rfl, hrange, -⟩ := Text.readInteger_eq_ok_iff.mp hread
  exact hrange

/-- What is read from an attribute is read from its trimmed text. -/
private theorem exists_of_readAttribute {α : Type} {e : Markup.Element} {name : String}
    {read : String → Except String α} {a : α} (h : (readAttribute e name read).value = some a) :
    ∃ text, e.attribute? name = some text ∧ read (Text.trim text) = .ok a := by
  unfold readAttribute at h
  split at h
  · cases h
  · rename_i text htext
    refine ⟨text, htext, ?_⟩
    -- a text that is refused leaves nothing
    cases hread : read (Text.trim text) with
    | ok b =>
      rw [hread] at h
      exact congrArg _ (Option.some.inj h)
    | error reason =>
      rw [hread] at h
      cases h

/-- The value that a member is read with is an integer of 64 bits. -/
private theorem contains_of_readEnumMember {e : Markup.Element} {p : EnumMember × Span}
    (h : (readEnumMember e).value = some p) :
    ∀ i ∈ p.1.value, (IntegerRange.signed 64).contains i = true := by
  unfold readEnumMember at h
  obtain ⟨_, -, h⟩ := exists_of_requireAttribute h rfl
  obtain rfl := Option.some.inj h
  intro i hi
  obtain ⟨text, -, hread⟩ := exists_of_readAttribute hi
  -- without an attribute there is no value to speak of
  exact contains_of_readIntegerValue hread

/-- The values that an enum type is read with are integers of 64 bits. -/
private theorem valuesWithin_of_readEnumType {e : Markup.Element} {t : EnumType} {p : EnumSpans}
    (h : (readEnumType e).value = some (t, p)) : t.ValuesWithin (.signed 64) := by
  unfold readEnumType at h
  obtain ⟨_, -, h⟩ := exists_of_readMetadata h rfl
  obtain ⟨rfl, -⟩ := Prod.mk.inj (Option.some.inj h)
  refine List.forall_mem_map.mpr fun q hq => ?_
  -- the members are those of the elements that could be read
  rw [Reading.value_collect] at hq
  obtain ⟨x, -, hx⟩ := List.mem_filterMap.mp hq
  exact contains_of_readEnumMember hx

/-- In an accepted document the values of enum members are integers of 64 bits. -/
theorem valuesWithin_of_parse {source : String} {s : Schema} (h : Model.parse source = .ok s) :
    ∀ t ∈ s.enumTypes, t.ValuesWithin (.signed 64) := by
  obtain ⟨e, -, -, rfl⟩ := Model.parse_eq_ok_iff.mp h
  rw [Schema.value_read, Reading.value_collect]
  -- from the schema back to the element that the enum type was read from
  refine List.forall_mem_map.mpr fun p hp => ?_
  obtain ⟨d, hd, hpick⟩ := List.mem_filterMap.mp hp
  obtain ⟨x, -, hx⟩ := List.mem_filterMap.mp hd
  cases d with
  | enumType t spans =>
    obtain rfl := Option.some.inj hpick
    exact valuesWithin_of_readEnumType (Declaration.isReadFrom_of_read hx).2
  | _ => cases hpick

namespace Generation

/-! ### Steps that hold values -/

/-- Whether the step may write the value of a property or of an enum member. -/
def holdsValues : Step → Bool
  | .property _ => true
  | .enumeration .. => true
  | _ => false

/-- The declared scalar properties of a planned declaration. -/
def Item.properties : Item → List Property
  | .enumType _ => []
  | .complexType t => t.properties
  | .entityContainer _ => []
  | .entityType t => t.properties

variable {settings : Settings} {s : Schema} {item : Item} {steps : List Step} {step : Step}

/-- Values do not stand in comments. -/
private theorem not_mem_documentationSteps (h : holdsValues step = true) (m : Metadata) :
    step ∉ documentationSteps m := by
  unfold documentationSteps
  cases m.documentation with
  | none => exact List.not_mem_nil
  | some d =>
    intro hstep
    rcases List.mem_pair.mp hstep with rfl | rfl
    · cases h
    · cases h

/-- The values of a type are those of its members. -/
theorem mem_typeSteps_iff (h : holdsValues step = true) (m : Metadata)
    (header : CSharp.TypeHeader) {members : List (List Step)} :
    step ∈ typeSteps m header members ↔ ∃ m ∈ members, step ∈ m := by
  -- none of the steps around the members holds a value
  have hblank : step ≠ .blankLine := by
    rintro rfl
    cases h
  have hopen : step ≠ .openType header := by
    rintro rfl
    cases h
  have hclose : step ≠ .close := by
    rintro rfl
    cases h
  have hseparate : ∀ members, step ∈ separate members ↔ ∃ m ∈ members, step ∈ m := by
    intro members
    induction members with
    | nil => simp [separate]
    | cons m ms ih =>
      rw [List.exists_mem_cons_iff]
      cases ms with
      | nil => simp [separate]
      | cons m' ms' =>
        -- the empty line that separates two members does not either
        rw [separate, List.mem_append, List.mem_cons, ih, or_iff_right hblank]
        exact List.cons_ne_nil m' ms'
  unfold typeSteps
  simp only [List.mem_append, List.mem_cons, List.not_mem_nil, hopen, hclose,
    not_mem_documentationSteps h, hseparate, false_or, or_false]

/-- The value of a member is in its last step. -/
theorem mem_member_iff (h : holdsValues step = true) (m : Metadata) {attributes : List Step}
    (hattributes : ∀ x ∈ attributes, IsAttribute x) {last : Step} :
    step ∈ documentationSteps m ++ attributes ++ [last] ↔ step = last := by
  -- attributes hold no value
  have hno : step ∉ attributes := by
    intro hstep
    obtain ⟨name, arguments, rfl⟩ := hattributes step hstep
    cases h
  simp only [List.mem_append, List.mem_singleton, not_mem_documentationSteps h, hno, false_or]

/-- A step that holds values in the body of a declaration: the enumeration of an enum type, or the
    line of a property, of a navigation property or of an entity set. -/
inductive ValueStep (settings : Settings) (s : Schema) : Item → Step → Prop
  | enumeration (t : EnumType) :
      ValueStep settings s (.enumType t)
        (.enumeration t.name (t.members.map fun m => (m.name, m.value))
          (underlyingKeyword t.underlyingType) .publicAccess)
  | scalar {item : Item} {p : Property} {mapped : CSharp.MappedType} (hp : p ∈ item.properties)
      (h : CSharp.mapType s p.typeName item.name = .ok mapped) :
      ValueStep settings s item (.property (propertyLine mapped p))
  | navigation {t : EntityType} {n : NavigationProperty} {target : NavigationTarget}
      (hn : n ∈ t.navigationProperties) (h : resolveNavigation s t.name n = .ok target) :
      ValueStep settings s (.entityType t)
        (.property (navigationLine settings.collectionType (loadsLazily settings s) target n))
  | entitySet {c : EntityContainer} {set : EntitySet} {t : EntityType} (hset : set ∈ c.entitySets)
      (h : s.resolveEntityType set.entityType c.name = .ok t) :
      ValueStep settings s (.entityContainer c)
        (.property { name := set.name, typeName := "DbSet<" ++ t.name ++ ">" })

/-- A scalar property has its value in the line of the property. -/
private theorem mem_propertySteps_iff {owner : String} {isKey : Bool} {p : Property} {m : List Step}
    (hm : (propertySteps s owner isKey p).outcome = .ok m) (h : holdsValues step = true) :
    step ∈ m ↔ ∃ mapped, CSharp.mapType s p.typeName owner = .ok mapped ∧
      step = .property (propertyLine mapped p) := by
  rw [outcome_propertySteps] at hm
  obtain ⟨mapped, hmapped, rfl⟩ := map_eq_ok_iff.mp hm
  rw [mem_member_iff h _ (isAttribute_propertyAttributes _ _ _)]
  simp [hmapped]

/-- A navigation property has its value in the line of the property. -/
private theorem mem_navigationSteps_iff {collection : CollectionType} {lazyLoading : Bool}
    {owner : String} {n : NavigationProperty} {m : List Step}
    (hm : (navigationSteps s collection lazyLoading owner n).outcome = .ok m)
    (h : holdsValues step = true) :
    step ∈ m ↔ ∃ target, resolveNavigation s owner n = .ok target ∧
      step = .property (navigationLine collection lazyLoading target n) := by
  rw [outcome_navigationSteps] at hm
  obtain ⟨target, htarget, rfl⟩ := map_eq_ok_iff.mp hm
  rw [mem_member_iff h _ (isAttribute_navigationAttributes _ _)]
  simp [htarget]

/-- An entity set has its value in the line of its property. -/
private theorem mem_entitySetSteps_iff {owner : String} {set : EntitySet} {m : List Step}
    (hm : ((s.resolveEntityType set.entityType owner).map fun t => entitySetSteps set t.name) =
      .ok m) (h : holdsValues step = true) :
    step ∈ m ↔ ∃ t, s.resolveEntityType set.entityType owner = .ok t ∧
      step = .property { name := set.name, typeName := "DbSet<" ++ t.name ++ ">" } := by
  obtain ⟨t, ht, rfl⟩ := map_eq_ok_iff.mp hm
  unfold entitySetSteps
  simp [ht, not_mem_documentationSteps h]

/-- A body holds the values of its declaration, and no other. -/
theorem mem_body_iff (hbody : (body settings s item).outcome = .ok steps)
    (h : holdsValues step = true) : step ∈ steps ↔ ValueStep settings s item step := by
  -- one case for each kind of declaration, each by what is known of its members
  cases item with
  | enumType t =>
    rw [show body settings s (.enumType t) = enumSteps t from rfl, outcome_enumSteps] at hbody
    obtain rfl := Except.ok.inj hbody
    rw [mem_member_iff h _ fun x => isAttribute_stepIf x]
    constructor
    · rintro rfl
      exact .enumeration t
    · intro hstep
      cases hstep with
      | enumeration => rfl
      -- an enum type has no scalar properties
      | scalar hp => exact absurd hp List.not_mem_nil
  | complexType t =>
    rw [show body settings s (.complexType t) = complexSteps settings s t from rfl,
      outcome_complexSteps] at hbody
    obtain ⟨members, hmembers, rfl⟩ := map_eq_ok_iff.mp hbody
    rw [mem_typeSteps_iff h, exists_mem_mapM_iff hmembers fun p m hm => mem_propertySteps_iff hm h]
    constructor
    · rintro ⟨p, hp, mapped, hmapped, rfl⟩
      exact .scalar hp hmapped
    · intro hstep
      cases hstep with
      | scalar hp hmapped => exact ⟨_, hp, _, hmapped, rfl⟩
  | entityContainer c =>
    rw [show body settings s (.entityContainer c) = containerSteps settings s c from rfl,
      outcome_containerSteps] at hbody
    obtain ⟨members, hmembers, rfl⟩ := map_eq_ok_iff.mp hbody
    rw [mem_typeSteps_iff h,
      exists_mem_mapM_iff hmembers fun set m hm => mem_entitySetSteps_iff hm h]
    constructor
    · rintro ⟨set, hset, t, ht, rfl⟩
      exact .entitySet hset ht
    · intro hstep
      cases hstep with
      -- nor has a container
      | scalar hp => exact absurd hp List.not_mem_nil
      | entitySet hset ht => exact ⟨_, hset, _, ht, rfl⟩
  | entityType t =>
    obtain ⟨base, properties, navigations, -, rfl, hproperties, hnavigations⟩ :=
      exists_entityMembers hbody
    rw [mem_typeSteps_iff h]
    simp only [List.mem_append, or_and_right, exists_or]
    rw [exists_mem_mapM_iff hproperties fun p m hm => mem_propertySteps_iff hm h,
      exists_mem_mapM_iff hnavigations fun n m hm => mem_navigationSteps_iff hm h]
    -- a value is that of a scalar property or of a navigation property
    constructor
    · rintro (⟨p, hp, mapped, hmapped, rfl⟩ | ⟨n, hn, target, htarget, rfl⟩)
      · exact .scalar hp hmapped
      · exact .navigation hn htarget
    · intro hstep
      cases hstep with
      | scalar hp hmapped => exact .inl ⟨_, hp, _, hmapped, rfl⟩
      | navigation hn htarget => exact .inr ⟨_, hn, _, htarget, rfl⟩

/-! ### Initializers -/

/-- The C# type holds the integers of the underlying type: it is that type, marked or not as one
    whose value may be absent. -/
def HoldsIntegers (typeName : String) (u : UnderlyingType) : Prop :=
  typeName = underlyingKeyword u ∨ typeName = underlyingKeyword u ++ "?"

/-- The type of a property that holds the integers of an underlying type is written as that. -/
private theorem primitiveName_primitive (u : UnderlyingType) :
    CSharp.primitiveName u.primitive = underlyingKeyword u := by
  cases u <;> rfl

/-- No other built-in type holds the integers of an underlying type. -/
private theorem eq_primitive_of_holdsIntegers {b : Primitive} {p : Property} {u : UnderlyingType}
    (h : HoldsIntegers (propertyTypeName (.ofPrimitive b) p) u) : b = u.primitive := by
  -- the built-in types are few, so the texts of all pairs are compared
  have hnames : ∀ x ∈ [CSharp.primitiveName b, CSharp.primitiveName b ++ "?"],
      ∀ y ∈ [underlyingKeyword u, underlyingKeyword u ++ "?"], x = y → b = u.primitive := by
    cases b <;> cases u <;> decide
  have hwritten : propertyTypeName (.ofPrimitive b) p ∈
      [CSharp.primitiveName b, CSharp.primitiveName b ++ "?"] := by
    unfold propertyTypeName
    split
    · exact List.mem_cons_of_mem _ List.mem_cons_self
    · exact List.mem_cons_self
  exact hnames _ hwritten _ (List.mem_pair.mpr h) rfl

/-- A type that stands for a built-in one is that of the built-in one. -/
private theorem eq_ofPrimitive_of_mapType {name owner : String} {mapped : CSharp.MappedType}
    {b : Primitive} (h : CSharp.mapType s name owner = .ok mapped)
    (hb : mapped.primitive = some b) : mapped = .ofPrimitive b := by
  -- a type that is not built in stands for none
  unfold CSharp.mapType at h
  split at h
  · obtain rfl := Except.ok.inj h
    rw [Option.some.inj hb]
  · obtain ⟨t, -, rfl⟩ := map_eq_ok_iff.mp h
    cases hb

/-- A property of an integer type is initialized exactly where its default value is an integer that
    fits the type, and with the literal of that. -/
theorem initializer_eq_some_iff {p : Property} {u : UnderlyingType} {literal : String} :
    (propertyLine (.ofPrimitive u.primitive) p).initializer = some literal ↔
      ∃ value, p.defaultValue = some value ∧ u.SpellsLiteral value literal := by
  show (p.defaultValue.bind fun value => CSharp.defaultLiteral? value u.primitive) =
    some literal ↔ _
  rw [Option.bind_eq_some_iff]
  simp only [CSharp.defaultLiteral?_eq_some_iff_spells]

/-- An initializer of an integer type is the literal of the default value of a property. -/
theorem spelled_of_initializer {line : AutoProperty} {u : UnderlyingType} {literal : String}
    (hbody : (body settings s item).outcome = .ok steps) (hline : .property line ∈ steps)
    (hu : HoldsIntegers line.typeName u) (hliteral : line.initializer = some literal) :
    ∃ p ∈ item.properties, p.name = line.name ∧
      ∃ value, p.defaultValue = some value ∧ u.SpellsLiteral value literal := by
  -- by the three kinds of lines; the other two have no initializer
  cases (mem_body_iff hbody rfl).mp hline with
  | @scalar _ p mapped hp hmapped =>
    refine ⟨p, hp, rfl, ?_⟩
    have hdefault : (p.defaultValue.bind fun value =>
        -- the default value and the built-in type of the property, as they were used for the
        -- literal
        mapped.primitive.bind (CSharp.defaultLiteral? value)) = some literal := hliteral
    obtain ⟨_, -, hprimitive⟩ := Option.bind_eq_some_iff.mp hdefault
    obtain ⟨b, hb, -⟩ := Option.bind_eq_some_iff.mp hprimitive
    obtain rfl := eq_ofPrimitive_of_mapType hmapped hb
    obtain rfl := eq_primitive_of_holdsIntegers hu
    exact initializer_eq_some_iff.mp hliteral
  | navigation => cases hliteral
  | entitySet => cases hliteral

/-- A property of an integer type has its line, with an initializer exactly where its default value
    is an integer that fits. -/
private theorem exists_line_of_scalar {p : Property} {u : UnderlyingType}
    (hbody : (body settings s item).outcome = .ok steps) (hp : p ∈ item.properties)
    (hu : Primitive.read? p.typeName = some u.primitive) :
    ∃ line, .property line ∈ steps ∧ line.name = p.name ∧ HoldsIntegers line.typeName u ∧
      ∀ literal, line.initializer = some literal ↔
        ∃ value, p.defaultValue = some value ∧ u.SpellsLiteral value literal := by
  refine ⟨propertyLine (.ofPrimitive u.primitive) p,
    (mem_body_iff hbody rfl).mpr (.scalar hp (CSharp.mapType_primitive hu)), rfl, ?_,
    fun literal => initializer_eq_some_iff⟩
  show HoldsIntegers (propertyTypeName _ p) u
  unfold propertyTypeName HoldsIntegers
  rw [← primitiveName_primitive]
  -- the mark of an absent value stands behind the name or is missing
  split
  · exact .inr rfl
  · exact .inl rfl

/-! ### Integers in generated source -/

/-- The integers that the step writes fit the types that they are written for: the initializer of a
    property of an integer type, and the values of the members of an enum. -/
def IntegersFit : Step → Prop
  | .property line =>
    ∀ u, HoldsIntegers line.typeName u → ∀ literal, line.initializer = some literal →
      ∃ i : Int, u.range.contains i = true ∧ literal = toString i
  | .enumeration _ members underlying _ =>
    ∀ u, underlying = underlyingKeyword u → ∀ m ∈ members, ∀ i ∈ m.2, u.range.contains i = true
  | _ => True

/-- The underlying types have different names. -/
private theorem underlyingKeyword_injective {u v : UnderlyingType}
    (h : underlyingKeyword u = underlyingKeyword v) : u = v := by
  revert h
  cases u <;> cases v <;> decide

/-- The enumeration of an enum type fits exactly if its values lie in the range of its underlying
    type. -/
theorem integersFit_enumeration_iff {t : EnumType} {name : String} {access : Access} :
    IntegersFit (.enumeration name (t.members.map fun m => (m.name, m.value))
      (underlyingKeyword t.underlyingType) access) ↔ t.ValuesWithin t.underlyingType.range := by
  constructor
  · intro h m hm
    exact h _ rfl _ (List.mem_map_of_mem hm)
  · intro h u hu
    -- the text names the underlying type of the enum itself
    obtain rfl := underlyingKeyword_injective hu
    exact List.forall_mem_map.mpr h

/-- In the files of an accepted document an initializer of an integer type is the canonical form of
    an integer that fits the type and that the default value of the property spells, and a property
    of such a type has an initializer only if its default value spells one.  The values of enum
    members are integers of 64 bits.  So all integers fit their types exactly if the values of each
    enum type lie in the range of its underlying type. -/
theorem integers_fit_iff_enum_values_do {source : String} {files : List GeneratedFile}
    (hparse : Model.parse source = .ok s) (hfiles : (generate settings s).outcome = .ok files) :
    ∃ pieces, ((plan s).mapM fun item => (piece settings s item).outcome) = .ok pieces ∧
      files = filesOf settings.layout s.name pieces ∧
      (∀ item steps, (item, steps) ∈ pieces →
        (∀ line, .property line ∈ steps → ∀ u, HoldsIntegers line.typeName u → ∀ literal,
          line.initializer = some literal → ∃ p ∈ item.properties, p.name = line.name ∧
            ∃ value, p.defaultValue = some value ∧ u.SpellsLiteral value literal) ∧
        ∀ p ∈ item.properties, ∀ u, Primitive.read? p.typeName = some u.primitive →
          ∃ line, .property line ∈ steps ∧ line.name = p.name ∧ HoldsIntegers line.typeName u ∧
            ∀ literal, line.initializer = some literal ↔
              ∃ value, p.defaultValue = some value ∧ u.SpellsLiteral value literal) ∧
      (∀ t ∈ s.enumTypes, t.ValuesWithin (.signed 64)) ∧
      ((∀ p ∈ pieces, ∀ step ∈ p.2, IntegersFit step) ↔
        ∀ t ∈ s.enumTypes, t.ValuesWithin t.underlyingType.range) := by
  -- the files are those of the pieces
  rw [outcome_generate] at hfiles
  obtain ⟨pieces, hpieces, rfl⟩ := map_eq_ok_iff.mp hfiles
  refine ⟨pieces, hpieces, rfl, fun item steps hpiece => ?_, valuesWithin_of_parse hparse, ?_, ?_⟩
  · have hbody := ((mem_pieces_iff hpieces).mp hpiece).2
    exact ⟨fun line hline u hu literal hliteral => spelled_of_initializer hbody hline hu hliteral,
      fun p hp u hu => exists_line_of_scalar hbody hp hu⟩
  -- an enum type is planned, so its values are among the steps
  · intro h t ht
    have hbody : (body settings s (.enumType t)).outcome = .ok _ := outcome_enumSteps t
    have hmem := (mem_pieces_iff hpieces).mpr ⟨mem_plan_iff.mpr ht, hbody⟩
    exact integersFit_enumeration_iff.mp
      (h _ hmem _ ((mem_body_iff hbody rfl).mpr (.enumeration t)))
  · rintro h ⟨item, steps⟩ hpiece step hstep
    obtain ⟨hitem, hbody⟩ := (mem_pieces_iff hpieces).mp hpiece
    -- a step of the other direction: an initializer fits by itself, a value by assumption
    cases step with
    | property line =>
      intro u hu literal hliteral
      obtain ⟨-, -, -, -, -, d, -, hrange, -, rfl⟩ :=
        spelled_of_initializer hbody hstep hu hliteral
      exact ⟨d.value, hrange, rfl⟩
    | enumeration name members underlying access =>
      cases (mem_body_iff hbody rfl).mp hstep with
      | enumeration t => exact integersFit_enumeration_iff.mpr (h t (mem_plan_iff.mp hitem))
    | _ => exact True.intro

/-- A document with a default value and an enum value that are not in canonical form. -/
def stockDocument : String :=
  "<Schema Namespace='Shop'>
    <EnumType Name='Level' UnderlyingType='Byte'>
      <Member Name='Full' Value=' +255 '/>
    </EnumType>
    <EntityType Name='Item'>
      <Property Name='Change' Type='Int16' DefaultValue=' -007 '/>
    </EntityType>
  </Schema>"

/-- Its enum type. -/
def stockLevel : EnumType :=
  { name := "Level", underlyingType := .byte, members := [⟨"Full", some 255⟩] }

/-- Its property. -/
def stockChange : Property :=
  { name := "Change", typeName := "Int16", defaultValue := some " -007 " }

/-- Its schema. -/
def stockSchema : Schema :=
  { name := "Shop"
    enumTypes := [stockLevel]
    entityTypes := [{ name := "Item", properties := [stockChange] }] }

set_option maxRecDepth 4000 in
/-- The document is accepted. -/
private theorem parse_stockDocument : Model.parse stockDocument = .ok stockSchema :=
  Model.parse_eq_ok_of_chars String.toList_ofList (by decide +kernel)

/-- The default value of the document spells a number. -/
private theorem stockChange_spells : UnderlyingType.int16.SpellsLiteral " -007 " "-7" :=
  ⟨⟨['-'], ⟨['0', '0', '7'], by decide, List.all_eq_true.mp rfl⟩, .inr (.inr rfl)⟩,
    by decide, by decide, by decide, by decide⟩

/-- All integers of the document fit, and its property is initialized. -/
theorem integers_of_stock_fit :
    ∃ pieces, ((plan stockSchema).mapM fun item => (piece {} stockSchema item).outcome) =
        .ok pieces ∧
      (∀ p ∈ pieces, ∀ step ∈ p.2, IntegersFit step) ∧
      ∃ p ∈ pieces, ∃ line, .property line ∈ p.2 ∧ line.name = "Change" ∧
        line.initializer = some "-7" := by
  obtain ⟨files, hfiles⟩ : ∃ files, (generate {} stockSchema).outcome = .ok files :=
    failure?_eq_none_iff.mp (by decide)
  -- what the theorem says of this document
  obtain ⟨pieces, hpieces, -, hdefaults, -, hfit⟩ :=
    integers_fit_iff_enum_values_do parse_stockDocument hfiles
  -- 255 is the largest byte
  have hwithin : ∀ t ∈ stockSchema.enumTypes, t.ValuesWithin t.underlyingType.range := by
    refine List.forall_mem_singleton.mpr (List.forall_mem_singleton.mpr ?_)
    rintro i ⟨⟩
    decide
  -- the default value is found in the piece of the entity type
  let owner : Item := .entityType { name := "Item", properties := [stockChange] }
  obtain ⟨steps, hsteps⟩ : ∃ steps, (body {} stockSchema owner).outcome = .ok steps :=
    failure?_eq_none_iff.mp (by decide)
  have hpiece : (owner, steps) ∈ pieces :=
    (mem_pieces_iff hpieces).mpr ⟨mem_plan_iff.mpr List.mem_cons_self, hsteps⟩
  obtain ⟨line, hline, hname, -, hliteral⟩ := (hdefaults owner steps hpiece).2 stockChange
    List.mem_cons_self .int16 (Primitive.read?_text .int16)
  exact ⟨pieces, hpieces, hfit.mpr hwithin, _, hpiece, line, hline, hname,
    (hliteral "-7").mpr ⟨_, rfl, stockChange_spells⟩⟩

/-- A document with an enum value beyond the underlying type. -/
def alarmDocument : String :=
  "<Schema Namespace='Shop'>
    <EnumType Name='Alarm' UnderlyingType='Byte'><Member Name='Late' Value='300'/></EnumType>
  </Schema>"

/-- Its enum type. -/
def alarm : EnumType :=
  { name := "Alarm", underlyingType := .byte, members := [⟨"Late", some 300⟩] }

set_option maxRecDepth 4000 in
/-- The document is accepted. -/
private theorem parse_alarmDocument :
    Model.parse alarmDocument = .ok { name := "Shop", enumTypes := [alarm] } :=
  Model.parse_eq_ok_of_chars String.toList_ofList (by decide +kernel)

/-- A document can be accepted and generated in which the value of an enum member does not fit the
    underlying type of the enum. -/
theorem enum_value_may_not_fit :
    ∃ source s files, Model.parse source = .ok s ∧ (generate {} s).outcome = .ok files ∧
      ∃ item ∈ plan s, ∃ steps, (body {} s item).outcome = .ok steps ∧
        ∃ step ∈ steps, ¬ IntegersFit step := by
  obtain ⟨files, hfiles⟩ :
      ∃ files, (generate {} { name := "Shop", enumTypes := [alarm] }).outcome = .ok files :=
    failure?_eq_none_iff.mp (by decide)
  refine ⟨alarmDocument, _, files, parse_alarmDocument, hfiles, .enumType alarm,
    List.mem_cons_self, _, outcome_enumSteps alarm, _, List.mem_cons_self, ?_⟩
  -- 300 is beyond a byte
  rw [integersFit_enumeration_iff]
  intro h
  exact absurd (h ⟨"Late", some 300⟩ List.mem_cons_self 300 rfl) (by decide)

end Generation

end EntityModel
