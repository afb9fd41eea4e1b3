import EntityModel.Settings.Basic

/-! # Settings that change in place

The settings are one state that is changed by one named setting after the other.  Whatever is
assigned before a failure stays assigned, so a value is read in full before anything is assigned.

* `update`       change the settings by a named setting
* `run_update`   what this leaves, whether it fails or not -/

namespace EntityModel.Settings

/-- A change of the settings that can fail. -/
abbrev Change := ExceptT SettingFault (StateM Settings)

/-- What a change makes of the settings, which are also there after a failure. -/
def Change.run {α : Type} (change : Change α) (s : Settings) : Except SettingFault α × Settings :=
  StateT.run (ExceptT.run change) s

/-- Assign what is read. -/
def assign {α : Type} (put : Settings → α → Settings) (read : Except SettingFault α) :
    Change Unit := do
  let a ← read
  modify (put · a)

/-- Assign a value that is not blank. -/
def assignValue (key : SettingKey) (value : String) : Change Unit :=
  match key with
  | .collectionType => assign ({ · with collectionType := · }) (CollectionType.read value)
  | .lazyLoading => assign ({ · with lazyLoading := some · }) (readLazyLoading value)
  | .fileMode => assign ({ · with layout := · }) (Layout.read value)
  | .complexTypeKind => assign ({ · with complexTypeKind := · }) (ComplexTypeKind.read value)
  | .containerBaseType => modify ({ · with containerBaseType := Text.trim value })
  | .outputPathPattern => modify ({ · with outputPattern := value })

/-- Change the settings by a setting that is given by name. -/
def update (key value : String) : Change Unit := do
  match SettingKey.read? key with
  | none => throw (.unknownKey key)
  | some k => if Text.isAllBlank value then pure () else assignValue k value

/-- Where nothing can be read, nothing is assigned. -/
theorem run_assign {α : Type} (put : Settings → α → Settings) (read : Except SettingFault α)
    (s : Settings) :
    (assign put read).run s =
      match read.map (put s) with
      | .ok t => (.ok (), t)
      | .error f => (.error f, s) := by
  cases read <;> rfl

private theorem run_assignValue (s : Settings) (key : SettingKey) (value : String) :
    (assignValue key value).run s =
      match s.set key value with
      | .ok t => (.ok (), t)
      | .error f => (.error f, s) := by
  cases key with
  | containerBaseType => rfl
  | outputPathPattern => rfl
  | _ => simp only [assignValue, set, run_assign]

/-- A change in place ends with the settings that `apply` gives, and where that fails the settings
    are as they were. -/
theorem run_update (s : Settings) (key value : String) :
    (update key value).run s =
      match s.apply key value with
      | .ok t => (.ok (), t)
      | .error f => (.error f, s) := by
  unfold update apply
  cases SettingKey.read? key with
  | none => rfl
  | some k =>
    cases hblank : Text.isAllBlank value with
    | true => rfl
    | false => exact run_assignValue s k value

end EntityModel.Settings
