import EntityModel.CommandLine.SettingsFile
import EntityModel.Proofs.FirstFailure
import EntityModel.Proofs.SpelledWords
import EntityModel.Settings.Update

/-!
# Settings on top of settings

Named settings are applied one after the other on top of settings that are there, and the pattern of
the command line counts as one more setting at the end.  This succeeds exactly if every setting can
be taken on its own, and then each field says what the last of its settings that is not blank says.

* `set_eq_ok_iff`, `set_eq_error_iff`       what assigning one value does
* `apply_eq_ok_iff`, `apply_eq_error_iff`   what one named setting does
* `fieldFrom_applyAll`                      where each field comes from after several settings
-/

namespace EntityModel

namespace Settings

/-! ### Fields -/

/-- The settings say for a key what the value says. -/
def Says (s : Settings) (value : String) : SettingKey → Prop
  | .collectionType => SpellsOneOf s.collectionType.words value
  | .lazyLoading => ∃ b, s.lazyLoading = some b ∧ SpellsOneOf (lazyLoadingWords b) value
  | .fileMode => SpellsOneOf s.layout.words value
  | .complexTypeKind => SpellsOneOf s.complexTypeKind.words value
  | .containerBaseType => s.containerBaseType = Text.trim value
  | .outputPathPattern => s.outputPattern = value

/-- Two settings have the same value for a key. -/
def AgreeOn (s t : Settings) : SettingKey → Prop
  | .collectionType => s.collectionType = t.collectionType
  | .lazyLoading => s.lazyLoading = t.lazyLoading
  | .fileMode => s.layout = t.layout
  | .complexTypeKind => s.complexTypeKind = t.complexTypeKind
  | .containerBaseType => s.containerBaseType = t.containerBaseType
  | .outputPathPattern => s.outputPattern = t.outputPattern

variable {s t u : Settings} {k : SettingKey} {key value : String} {fault : SettingFault}

/-- Settings agree with themselves. -/
theorem AgreeOn.rfl : AgreeOn s s k := by
  cases k <;> exact Eq.refl _

/-- Agreeing on a key goes both ways. -/
theorem AgreeOn.symm (h : AgreeOn s t k) : AgreeOn t s k := by
  cases k <;> exact Eq.symm h

/-- Agreeing on a key goes on from settings to settings. -/
theorem AgreeOn.trans (h : AgreeOn s t k) (h' : AgreeOn t u k) : AgreeOn s u k := by
  cases k <;> exact Eq.trans h h'

/-- Settings that agree on every key are the same. -/
private theorem eq_of_agreeOn (h : ∀ k, AgreeOn s t k) : s = t := by
  -- the settings have one field for each key, and no other
  obtain ⟨_, _, _, _, _, _⟩ := s
  obtain ⟨_, _, _, _, _, _⟩ := t
  exact (Settings.mk.injEq ..).mpr ⟨h .collectionType, h .lazyLoading, h .fileMode,
    h .complexTypeKind, h .containerBaseType, h .outputPathPattern⟩

/-- Settings that agree on the key say the same for it. -/
private theorem Says.of_agreeOn (h : s.Says value k) (ht : AgreeOn s t k) : t.Says value k := by
  cases k <;> simp only [AgreeOn, Says] at h ht ⊢ <;> rwa [← ht]

/-- What a value says for a key fixes the field. -/
theorem Says.agreeOn (h : s.Says value k) (h' : t.Says value k) : AgreeOn s t k := by
  -- four of the keys are read as words, of which a value spells those of one field only
  cases k with
  | collectionType => exact readsWords_collectionType.unique h h'
  | lazyLoading =>
    obtain ⟨b, hb, h⟩ := h
    obtain ⟨b', hb', h'⟩ := h'
    exact hb.trans ((congrArg some (readsWords_lazyLoading.unique h h')).trans hb'.symm)
  | fileMode => exact readsWords_layout.unique h h'
  | complexTypeKind => exact readsWords_complexTypeKind.unique h h'
  | containerBaseType => exact Eq.trans h (Eq.symm h')
  | outputPathPattern => exact Eq.trans h (Eq.symm h')

/-- The fault of a value that cannot be read for the key.  Two of the settings take any text. -/
def fault? (value : String) : SettingKey → Option SettingFault
  | .collectionType => some (.unknownCollectionType value)
  | .lazyLoading => some (.invalidValue "LazyLoading" value "`true` or `false`")
  | .fileMode => some (.invalidValue "FileMode" value "`SingleFile` or `PerDeclarationFile`")
  | .complexTypeKind => some (.invalidValue "ComplexTypeKind" value "`Class` or `Struct`")
  | .containerBaseType | .outputPathPattern => none

/-- The settings but for the field of a key, which is that of other settings. -/
def withField (s t : Settings) : SettingKey → Settings
  | .collectionType => { s with collectionType := t.collectionType }
  | .lazyLoading => { s with lazyLoading := t.lazyLoading }
  | .fileMode => { s with layout := t.layout }
  | .complexTypeKind => { s with complexTypeKind := t.complexTypeKind }
  | .containerBaseType => { s with containerBaseType := t.containerBaseType }
  | .outputPathPattern => { s with outputPattern := t.outputPattern }

/-- A field that is taken over leaves all other fields as they were. -/
private theorem agreeOn_withField {other : SettingKey} (h : other ≠ k) :
    AgreeOn s (s.withField t k) other := by
  cases k <;> cases other <;> first | exact absurd rfl h | exact Eq.refl _

/-! ### One value -/

section

variable {α : Type} {read : String → Except SettingFault α} {words : α → List String}
  {fault : String → SettingFault} {put : α → Settings}

/-- Assigning what is read to a field makes this field say what the value says. -/
theorem map_read_eq_ok_iff (hread : ReadsWords read words fault) (field : Settings → α)
    (hput : ∀ a, field (put a) = a) :
    (read value).map put = .ok t ↔ SpellsOneOf (words (field t)) value ∧ t = put (field t) := by
  -- the field says what was read, and what was put back is the same
  simp only [map_eq_ok_iff, hread.eq_ok_iff]
  constructor
  · rintro ⟨a, ha, rfl⟩
    rw [hput]
    exact ⟨ha, rfl⟩
  · rintro ⟨ha, ht⟩
    exact ⟨_, ha, ht.symm⟩

/-- Assigning what is read to a field fails exactly if no settings say in it what the value says. -/
theorem map_read_eq_error_iff (hread : ReadsWords read words fault) (field : Settings → α)
    (hput : ∀ a, field (put a) = a) {f : SettingFault} :
    (read value).map put = .error f ↔
      some (fault value) = some f ∧ ∀ t, ¬ SpellsOneOf (words (field t)) value := by
  -- assigning itself cannot fail, so the fault is that of reading
  have hmap : (read value).map put = .error f ↔ read value = .error f := by
    cases read value <;> simp [Except.map]
  rw [hmap, hread.eq_error_iff, Option.some.injEq, eq_comm]
  refine and_congr_right fun _ => ⟨fun h t => h (field t), fun h a => ?_⟩
  rw [← hput a]
  exact h (put a)

end

/-- Assigning a value makes one field say what the value says and leaves the others. -/
theorem set_eq_ok_iff : s.set k value = .ok t ↔ t.Says value k ∧ t = s.withField t k := by
  cases k with
  | collectionType =>
    simp only [set, Says, withField]
    exact map_read_eq_ok_iff readsWords_collectionType collectionType fun _ => rfl
  | lazyLoading =>
    -- not every value of this field has words, since it may also be not set
    simp only [set, map_eq_ok_iff, readsWords_lazyLoading.eq_ok_iff]
    constructor
    · rintro ⟨b, h, rfl⟩
      exact ⟨⟨b, rfl, h⟩, rfl⟩
    · rintro ⟨⟨b, hb, h⟩, ht⟩
      exact ⟨b, h, hb ▸ ht.symm⟩
  | fileMode =>
    simp only [set, Says, withField]
    exact map_read_eq_ok_iff readsWords_layout layout fun _ => rfl
  | complexTypeKind =>
    simp only [set, Says, withField]
    exact map_read_eq_ok_iff readsWords_complexTypeKind complexTypeKind fun _ => rfl
  -- any text will do for the two keys that are left
  | containerBaseType =>
    simp only [set, Except.ok.injEq]
    constructor
    · rintro rfl
      exact ⟨rfl, rfl⟩
    · rintro ⟨h, ht⟩
      exact h ▸ ht.symm
  | outputPathPattern =>
    simp only [set, Except.ok.injEq]
    constructor
    · rintro rfl
      exact ⟨rfl, rfl⟩
    · rintro ⟨h, ht⟩
      exact h ▸ ht.symm

/-- Assigning a value fails exactly if it cannot be read for the key. -/
theorem set_eq_error_iff :
    s.set k value = .error fault ↔
      fault? value k = some fault ∧ ∀ t : Settings, ¬ t.Says value k := by
  cases k with
  | collectionType =>
    simp only [set, Says, fault?]
    exact map_read_eq_error_iff readsWords_collectionType collectionType fun _ => rfl
  | lazyLoading =>
    -- here too the fault is that of reading
    have hmap : s.set .lazyLoading value = .error fault ↔ readLazyLoading value = .error fault := by
      unfold set
      cases readLazyLoading value <;> simp [Except.map]
    rw [hmap, readsWords_lazyLoading.eq_error_iff, fault?, Option.some.injEq, eq_comm]
    refine and_congr_right fun _ => ⟨fun h t => ?_, fun h b hb => ?_⟩
    · rintro ⟨b, -, hb⟩
      exact h b hb
    · exact h { s with lazyLoading := some b } ⟨b, rfl, hb⟩
  | fileMode =>
    simp only [set, Says, fault?]
    exact map_read_eq_error_iff readsWords_layout layout fun _ => rfl
  | complexTypeKind =>
    simp only [set, Says, fault?]
    exact map_read_eq_error_iff readsWords_complexTypeKind complexTypeKind fun _ => rfl
  | containerBaseType => simp [set, fault?]
  | outputPathPattern => simp [set, fault?]

/-! ### One named setting -/

/-- A named setting that can be taken on its own: it is one of the settings, and its value is blank
    or can be read for it. -/
def Acceptable (key value : String) : Prop :=
  ∃ k : SettingKey, Spells k.word key ∧
    (Text.isAllBlank value = true ∨ ∃ t : Settings, t.Says value k)

/-- Why a named setting cannot be taken. -/
inductive Refused (key value : String) : SettingFault → Prop
  | unknownKey (hkey : ∀ k : SettingKey, ¬ Spells k.word key) : Refused key value (.unknownKey key)
  | unreadable {k : SettingKey} {fault : SettingFault} (hkey : Spells k.word key)
      (hvalue : Text.isAllBlank value = false) (hnone : ∀ t : Settings, ¬ t.Says value k)
      (hfault : fault? value k = some fault) : Refused key value fault

/-- A text spells the name of one setting only. -/
-- the name of a setting is read in one way only
theorem eq_of_spells {other : SettingKey} (h : Spells k.word key) (h' : Spells other.word key) :
    k = other :=
  Option.some.inj <|
    (SettingKey.read?_eq_some_iff.mpr h).symm.trans (SettingKey.read?_eq_some_iff.mpr h')

/-- A named setting leaves everything as it is if its value is blank, and otherwise makes its field
    say what the value says and leaves the others. -/
theorem apply_eq_ok_iff :
    s.apply key value = .ok t ↔ ∃ k : SettingKey, Spells k.word key ∧
      (Text.isAllBlank value = true ∧ t = s ∨
        Text.isAllBlank value = false ∧ t.Says value k ∧ t = s.withField t k) := by
  simp only [← SettingKey.read?_eq_some_iff]
  -- an unknown name cannot be taken, and a known one goes by its value
  unfold apply
  cases SettingKey.read? key with
  | none => simp
  | some k =>
    cases Text.isAllBlank value with
    | true => simp [eq_comm]
    | false => simp [set_eq_ok_iff]

/-- A named setting is refused for its name or for its value. -/
theorem apply_eq_error_iff : s.apply key value = .error fault ↔ Refused key value fault := by
  constructor
  · intro h
    unfold apply at h
    cases hkey : SettingKey.read? key with
    -- no setting has the name
    | none =>
      rw [hkey] at h
      obtain rfl := Except.error.inj h
      exact .unknownKey (SettingKey.read?_eq_none_iff.mp hkey)
    | some k =>
      rw [hkey] at h
      cases hvalue : Text.isAllBlank value with
      -- a blank value is never refused
      | true => simp [hvalue] at h
      | false =>
        simp only [hvalue, Bool.false_eq_true, ↓reduceIte] at h
        obtain ⟨hfault, hnone⟩ := set_eq_error_iff.mp h
        exact .unreadable (SettingKey.read?_eq_some_iff.mp hkey) hvalue hnone hfault
  · rintro (hkey | ⟨hkey, hvalue, hnone, hfault⟩)
    · simp [apply, SettingKey.read?_eq_none_iff.mpr hkey]
    · simp [apply, SettingKey.read?_eq_some_iff.mpr hkey, hvalue,
        set_eq_error_iff.mpr ⟨hfault, hnone⟩]

/-- A named setting can be applied to any settings exactly if it can be taken on its own. -/
theorem exists_apply_eq_ok_iff : (∃ t, s.apply key value = .ok t) ↔ Acceptable key value := by
  constructor
  · rintro ⟨t, ht⟩
    obtain ⟨k, hkey, ⟨hblank, -⟩ | ⟨-, hreads, -⟩⟩ := apply_eq_ok_iff.mp ht
    · exact ⟨k, hkey, .inl hblank⟩
    · exact ⟨k, hkey, .inr ⟨t, hreads⟩⟩
  · rintro ⟨k, hkey, hvalue⟩
    -- if it cannot be applied it is refused, which it would be for one of two reasons
    cases happly : s.apply key value with
    | ok t => exact ⟨t, rfl⟩
    | error fault =>
      cases apply_eq_error_iff.mp happly with
      | unknownKey hno => exact absurd hkey (hno k)
      | unreadable hkey' hnotBlank hnone =>
        obtain rfl := eq_of_spells hkey hkey'
        rcases hvalue with hblank | ⟨t, ht⟩
        · exact nomatch hblank.symm.trans hnotBlank
        · exact absurd ht (hnone t)

/-- Two spellings of one name are interchangeable. -/
theorem apply_congr {other : String} (h : Spells k.word key) (h' : Spells k.word other) :
    s.apply key value = s.apply other value := by
  unfold apply
  rw [SettingKey.read?_eq_some_iff.mpr h, SettingKey.read?_eq_some_iff.mpr h']

/-! ### Several settings -/

variable {settings rest : List (String × String)}

/-- All settings for the key are blank. -/
def AllBlank (settings : List (String × String)) (k : SettingKey) : Prop :=
  ∀ entry ∈ settings, Spells k.word entry.1 → Text.isAllBlank entry.2 = true

/-- If all settings for a key are blank, one with that key is. -/
theorem AllBlank.of_mem (h : AllBlank settings k) (hmem : (key, value) ∈ settings)
    (hkey : Spells k.word key) : Text.isAllBlank value = true :=
  h (key, value) hmem hkey

/-- The value is that of the last of the settings for the key that are not blank. -/
def IsLast (settings : List (String × String)) (k : SettingKey) (value : String) : Prop :=
  ∃ before key after, settings = before ++ (key, value) :: after ∧ Spells k.word key ∧
    Text.isAllBlank value = false ∧ AllBlank after k

/-- The field of a key after several settings says what the last of them says that is for the key
    and not blank, or it is as it was if there is none. -/
inductive FieldFrom (s : Settings) (settings : List (String × String)) (t : Settings)
    (k : SettingKey) : Prop
  | last {value : String} (h : IsLast settings k value) (hreads : t.Says value k)
  | kept (h : AllBlank settings k) (hagree : AgreeOn s t k)

/-- The first of the settings that cannot be taken is refused for the fault. -/
def FirstRefused (settings : List (String × String)) (fault : SettingFault) : Prop :=
  ∃ before key value after, settings = before ++ (key, value) :: after ∧
    (∀ entry ∈ before, Acceptable entry.1 entry.2) ∧ Refused key value fault

/-- No value but one is the last. -/
theorem IsLast.unique {other : String} (h : IsLast settings k value)
    (h' : IsLast settings k other) : value = other := by
  obtain ⟨before, key, after, hsplit, hkey, hvalue, hblank⟩ := h
  obtain ⟨before', key', after', hsplit', hkey', hother, hblank'⟩ := h'
  -- of two settings at different places the one in front is not the last
  rcases List.append_eq_append_iff.mp (hsplit.symm.trans hsplit') with
    ⟨between, -, hrest⟩ | ⟨between, -, hrest⟩
  · rcases between with - | ⟨entry, between⟩
    · exact (Prod.mk.inj (List.cons.inj hrest).1).2
    · have hmem : (key', other) ∈ after := (List.cons.inj hrest).2 ▸ by simp
      exact absurd (hblank.of_mem hmem hkey') (Bool.eq_false_iff.mp hother)
  · rcases between with - | ⟨entry, between⟩
    · exact (Prod.mk.inj (List.cons.inj hrest).1).2.symm
    · have hmem : (key, value) ∈ after' := (List.cons.inj hrest).2 ▸ by simp
      exact absurd (hblank'.of_mem hmem hkey) (Bool.eq_false_iff.mp hvalue)

/-- Where one setting is the last, not all of them are blank. -/
private theorem IsLast.not_allBlank (h : IsLast settings k value) : ¬ AllBlank settings k := by
  obtain ⟨before, key, after, rfl, hkey, hvalue, -⟩ := h
  exact fun hblank => absurd (hblank.of_mem (by simp) hkey) (Bool.eq_false_iff.mp hvalue)

/-- There is only one value that a field can have after several settings. -/
theorem FieldFrom.agreeOn (h : FieldFrom s settings t k) (h' : FieldFrom s settings u k) :
    AgreeOn t u k := by
  -- both fields come from the last setting, or both are as they were
  cases h with
  | last hlast hreads =>
    cases h' with
    | last hlast' hreads' => exact hreads.agreeOn (hlast.unique hlast' ▸ hreads')
    | kept hblank => exact absurd hblank hlast.not_allBlank
  | kept hblank hagree =>
    cases h' with
    | last hlast => exact absurd hblank hlast.not_allBlank
    | kept _ hagree' => exact hagree.symm.trans hagree'

/-- The last of some settings stays the last with one more in front. -/
theorem IsLast.cons (h : IsLast rest k value) (entry : String × String) :
    IsLast (entry :: rest) k value := by
  obtain ⟨before, key, after, rfl, hlast⟩ := h
  exact ⟨entry :: before, key, after, rfl, hlast⟩

/-- One more setting in front: it counts for its field if no later one does. -/
theorem FieldFrom.cons (hstep : s.apply key value = .ok u) (h : FieldFrom u rest t k) :
    FieldFrom s ((key, value) :: rest) t k := by
  cases h with
  | last hlast hreads => exact .last (hlast.cons _) hreads
  | kept hblank hagree =>
    -- no later setting counts for the key, so it depends on the key of this one and on its value
    obtain ⟨named, hkey, ⟨hvalue, rfl⟩ | ⟨hvalue, hreads, hframe⟩⟩ := apply_eq_ok_iff.mp hstep
    · exact .kept (List.forall_mem_cons.mpr ⟨fun _ => hvalue, hblank⟩) hagree
    · by_cases hk : k = named
      · subst hk
        exact .last ⟨[], key, rest, rfl, hkey, hvalue, hblank⟩ (hreads.of_agreeOn hagree)
      · have hother : AgreeOn s u k := hframe ▸ agreeOn_withField hk
        exact .kept (List.forall_mem_cons.mpr ⟨fun h => absurd (eq_of_spells h hkey) hk, hblank⟩)
          (hother.trans hagree)

/-- After several settings each field comes from the last setting for it, or is as it was. -/
theorem fieldFrom_applyAll (h : s.applyAll settings = .ok t) (k : SettingKey) :
    FieldFrom s settings t k := by
  induction settings generalizing s with
  | nil =>
    obtain rfl := Except.ok.inj h
    exact .kept nofun .rfl
  | cons entry rest ih =>
    -- one setting first, and then what the others do on top of it
    rw [applyAll_cons] at h
    obtain ⟨u, hu, hrest⟩ := bind_eq_ok_iff.mp h
    exact (ih hrest).cons hu

/-- Several settings can be applied exactly if each can be taken on its own. -/
theorem exists_applyAll_eq_ok_iff :
    (∃ t, s.applyAll settings = .ok t) ↔ ∀ entry ∈ settings, Acceptable entry.1 entry.2 := by
  -- setting by setting, where being taken does not depend on the settings below
  induction settings generalizing s with
  | nil => exact iff_of_true ⟨s, rfl⟩ nofun
  | cons entry rest ih =>
    rw [applyAll_cons, List.forall_mem_cons, ← exists_apply_eq_ok_iff (s := s)]
    cases s.apply entry.1 entry.2 with
    | error fault => simp [Except.bind]
    | ok u => simpa [Except.bind] using ih

/-- The first refused setting is the one in front, or the first refused one behind it. -/
theorem firstRefused_cons_iff :
    FirstRefused ((key, value) :: rest) fault ↔
      Refused key value fault ∨ Acceptable key value ∧ FirstRefused rest fault := by
  constructor
  -- in front of the refused one stands nothing, or the first setting of all
  · rintro ⟨before, otherKey, otherValue, after, hsplit, hbefore, hrefused⟩
    cases before with
    | nil =>
      obtain ⟨⟨rfl, rfl⟩, -⟩ := List.cons.inj hsplit
      exact .inl hrefused
    | cons first before =>
      obtain ⟨rfl, rfl⟩ := List.cons.inj hsplit
      obtain ⟨hfirst, hbefore⟩ := List.forall_mem_cons.mp hbefore
      exact .inr ⟨hfirst, before, otherKey, otherValue, after, rfl, hbefore, hrefused⟩
  · rintro (hrefused | ⟨hfirst, before, otherKey, otherValue, after, rfl, hbefore, hrefused⟩)
    · exact ⟨[], key, value, rest, rfl, nofun, hrefused⟩
    · exact ⟨(key, value) :: before, otherKey, otherValue, after, rfl,
        List.forall_mem_cons.mpr ⟨hfirst, hbefore⟩, hrefused⟩

/-- Several settings lead to the settings of which each field is what it has to be. -/
private theorem applyAll_eq_ok_iff :
    s.applyAll settings = .ok t ↔
      (∀ entry ∈ settings, Acceptable entry.1 entry.2) ∧ ∀ k, FieldFrom s settings t k := by
  constructor
  · intro h
    exact ⟨exists_applyAll_eq_ok_iff.mp ⟨t, h⟩, fieldFrom_applyAll h⟩
  · rintro ⟨hall, hfields⟩
    -- there are settings to which this leads, and each of their fields can only be what it is in t
    obtain ⟨u, hu⟩ := exists_applyAll_eq_ok_iff (s := s).mpr hall
    rw [hu, eq_of_agreeOn fun k => (fieldFrom_applyAll hu k).agreeOn (hfields k)]

/-- Several settings fail as the first of them does that cannot be taken. -/
private theorem applyAll_eq_error_iff :
    s.applyAll settings = .error fault ↔ FirstRefused settings fault := by
  -- either the first setting is refused, or it is taken and the others decide
  induction settings generalizing s with
  | nil => simp [FirstRefused]
  | cons entry rest ih =>
    obtain ⟨key, value⟩ := entry
    rw [applyAll_cons, firstRefused_cons_iff, ← exists_apply_eq_ok_iff (s := s),
      ← apply_eq_error_iff (s := s)]
    cases s.apply key value with
    | error f => simp [Except.bind]
    | ok u => simpa [Except.bind] using ih

/-- Settings one behind the other are applied one after the other. -/
private theorem applyAll_append (s : Settings) (settings rest : List (String × String)) :
    s.applyAll (settings ++ rest) = (s.applyAll settings).bind fun t => t.applyAll rest := by
  simp only [applyAll, List.foldlM_append]
  rfl

/-- Two spellings of one name are interchangeable anywhere among the settings. -/
private theorem applyAll_congr {other : String} (h : Spells k.word key) (h' : Spells k.word other)
    (before after : List (String × String)) :
    s.applyAll (before ++ (key, value) :: after) =
      s.applyAll (before ++ (other, value) :: after) := by
  simp only [applyAll_append, applyAll_cons, apply_congr h h']

end Settings

/-! ### The settings of a run -/

namespace CommandLine

open Settings

/-- The settings by name of a run: those that are given, and the pattern for paths as the last. -/
def namedSettings (overrides : List (String × String)) (output : Option String) :
    List (String × String) :=
  overrides ++ output.toList.map ("OutputPathPattern", ·)

/-- The pattern for paths is one more setting. -/
private theorem outcome_applyOutput (s : Settings) (output : Option String) :
    (applyOutput s output).outcome =
      (s.applyAll (output.toList.map ("OutputPathPattern", ·))).mapError .setting := by
  -- without a pattern nothing is added
  cases output with
  | none => rfl
  | some pattern =>
    rw [Option.toList_some, List.map_singleton, applyAll_cons]
    show (Traced.ofExcept _).outcome = _
    rw [Traced.outcome_ofExcept]
    cases s.apply "OutputPathPattern" pattern <;> rfl

/-- What goes on top of settings are named settings in order. -/
theorem outcome_layer (s : Settings) (overrides : List (String × String))
    (output : Option String) :
    (layer s overrides output).outcome =
      (s.applyAll (namedSettings overrides output)).mapError .setting := by
  unfold layer namedSettings
  rw [Traced.outcome_bind, outcome_applyOverrides, applyAll_append]
  cases s.applyAll overrides with
  | error fault => rfl
  | ok t => exact outcome_applyOutput t output

/-- What goes on top leads to settings as the named settings do. -/
private theorem outcome_layer_eq_ok_iff {s t : Settings} {overrides : List (String × String)}
    {output : Option String} :
    (layer s overrides output).outcome = .ok t ↔
      s.applyAll (namedSettings overrides output) = .ok t := by
  rw [outcome_layer]
  cases s.applyAll (namedSettings overrides output) <;> simp [Except.mapError]

/-- What goes on top fails as the named settings do. -/
private theorem outcome_layer_eq_error_iff {s : Settings} {overrides : List (String × String)}
    {output : Option String} {failure : Failure} :
    (layer s overrides output).outcome = .error failure ↔
      ∃ fault, s.applyAll (namedSettings overrides output) = .error fault ∧
        .setting fault = failure := by
  rw [outcome_layer]
  cases s.applyAll (namedSettings overrides output) <;> simp [Except.mapError]

/-- Settings by name and then the pattern for paths go on top of any settings.  This succeeds
    exactly if each of them can be taken on its own, and otherwise fails as the first does that
    cannot be.  Where it succeeds, each field comes from the last setting for it that is not blank,
    or is as it was.  A single change that fails leaves the settings as they were, and another
    spelling of a name makes no difference. -/
theorem settings_layer (s : Settings) (overrides : List (String × String))
    (output : Option String) :
    ((∃ t, (layer s overrides output).outcome = .ok t) ↔
      ∀ entry ∈ namedSettings overrides output, Acceptable entry.1 entry.2) ∧
    (∀ failure, (layer s overrides output).outcome = .error failure ↔
      ∃ fault, FirstRefused (namedSettings overrides output) fault ∧ .setting fault = failure) ∧
    (∀ t, (layer s overrides output).outcome = .ok t ↔
      (∀ entry ∈ namedSettings overrides output, Acceptable entry.1 entry.2) ∧
        ∀ k, FieldFrom s (namedSettings overrides output) t k) ∧
    (∀ key value, (∃ t, s.apply key value = .ok t ∧ (update key value).run s = (.ok (), t)) ∨
      ∃ fault, s.apply key value = .error fault ∧ (update key value).run s = (.error fault, s)) ∧
    ∀ (k : SettingKey) key other, Spells k.word key → Spells k.word other → ∀ value,
      s.apply key value = s.apply other value ∧
      ∀ before after, (layer s (before ++ (key, value) :: after) output).outcome =
        (layer s (before ++ (other, value) :: after) output).outcome := by
  refine ⟨?_, fun failure => ?_, fun t => ?_, fun key value => ?_,
    fun k key other hkey hother value => ⟨apply_congr hkey hother, fun before after => ?_⟩⟩
  · simp only [outcome_layer_eq_ok_iff]
    exact exists_applyAll_eq_ok_iff
  · simp only [outcome_layer_eq_error_iff, applyAll_eq_error_iff]
  · exact outcome_layer_eq_ok_iff.trans applyAll_eq_ok_iff
  -- the change is kept only where it succeeds
  · rw [run_update]
    cases s.apply key value with
    | ok t => exact .inl ⟨t, rfl, rfl⟩
    | error fault => exact .inr ⟨fault, rfl, rfl⟩
  · simp only [outcome_layer, namedSettings, List.append_assoc, List.cons_append,
      applyAll_congr hkey hother]

/-- A blank value does not undo a setting, and the pattern of the command line is the last one. -/
example : (layer {} [("collection-type", " Set"), ("OutputPathPattern", "a.cs"),
      ("Collection_Type", " ")] (some "b.cs")).outcome =
    .ok { collectionType := .set, outputPattern := "b.cs" } := by
  decide

end CommandLine

end EntityModel
