import EntityModel.Text.Blank

/-! # Settings of the generator

Six settings steer what is generated and where it goes.  Each can be given by name as a text: names
and words are compared without regard to ASCII case, underscores, hyphens and spaces, and a blank
value leaves a setting as it is.

* `applyAll_cons`   several settings are applied one after the other -/

namespace EntityModel

/-- What a navigation property to many entities is wrapped in. -/
inductive CollectionType where
  | array
  | list
  | set
deriving DecidableEq, Repr

/-- The word for a collection type. -/
def CollectionType.text : CollectionType → String
  | .array => "array"
  | .list => "list"
  | .set => "set"

/-- The C# collection of a type. -/
def CollectionType.wrap (c : CollectionType) (element : String) : String :=
  match c with
  | .array => element ++ "[]"
  | .list => "List<" ++ element ++ ">"
  | .set => "HashSet<" ++ element ++ ">"

/-- How declarations are spread over files. -/
inductive Layout where
  | singleFile
  | filePerDeclaration
deriving DecidableEq, Repr

/-- The word for a layout. -/
def Layout.text : Layout → String
  | .singleFile => "SingleFile"
  | .filePerDeclaration => "PerDeclarationFile"

/-- What complex types become. -/
inductive ComplexTypeKind where
  | classKind
  | structKind
deriving DecidableEq, Repr

/-- The word for what complex types become. -/
def ComplexTypeKind.text : ComplexTypeKind → String
  | .classKind => "Class"
  | .structKind => "Struct"

/-- The placeholder for a name in an output pattern. -/
def namePlaceholder : String := "\x7bname\x7d"

/-- The settings of the generator. -/
structure Settings where
  collectionType : CollectionType := .list
  /-- Whether navigation properties load on demand; the model decides where this is not set. -/
  lazyLoading : Option Bool := none
  layout : Layout := .singleFile
  complexTypeKind : ComplexTypeKind := .classKind
  containerBaseType : String := "DbContext"
  outputPattern : String := namePlaceholder ++ ".cs"
deriving DecidableEq, Repr

/-- The names of the settings. -/
inductive SettingKey where
  | collectionType
  | lazyLoading
  | fileMode
  | complexTypeKind
  | containerBaseType
  | outputPathPattern
deriving DecidableEq, Repr

/-- Why a setting cannot be applied. -/
inductive SettingFault where
  | unknownKey (key : String)
  | unknownCollectionType (value : String)
  | invalidValue (key value expected : String)
deriving DecidableEq, Repr

/-- The message of a fault in a setting. -/
def SettingFault.message : SettingFault → String
  | .unknownKey key => "unknown configuration key `" ++ key ++ "`"
  | .unknownCollectionType value =>
    "unknown collection type `" ++ value ++ "`; expected `Array`, `List` or `Set`"
  | .invalidValue key value expected =>
    "invalid value `" ++ value ++ "` for `" ++ key ++ "`; expected " ++ expected

/-- A word without what comparison disregards: blanks around it, underscores, hyphens, spaces and
    ASCII case. -/
def normalizeWord (s : String) : String :=
  String.ofList (((Text.trimChars s.toList).filter fun c =>
    !(c == '_' || c == '-' || c == ' ')).map Char.toLower)

/-- Read a collection type. -/
def CollectionType.read (s : String) : Except SettingFault CollectionType :=
  match [("array", CollectionType.array), ("list", .list), ("set", .set),
      ("hashset", .set)].lookup (normalizeWord s) with
  | some c => .ok c
  | none => .error (.unknownCollectionType s)

/-- Read a layout. -/
def Layout.read (s : String) : Except SettingFault Layout :=
  match [("singlefile", Layout.singleFile), ("single", .singleFile),
      ("perdeclarationfile", .filePerDeclaration), ("perdeclaration", .filePerDeclaration),
      ("pertypefile", .filePerDeclaration), ("pertype", .filePerDeclaration)].lookup
      (normalizeWord s) with
  | some l => .ok l
  | none => .error (.invalidValue "FileMode" s "`SingleFile` or `PerDeclarationFile`")

/-- Read what complex types become. -/
def ComplexTypeKind.read (s : String) : Except SettingFault ComplexTypeKind :=
  match [("class", ComplexTypeKind.classKind), ("struct", .structKind)].lookup
      (normalizeWord s) with
  | some k => .ok k
  | none => .error (.invalidValue "ComplexTypeKind" s "`Class` or `Struct`")

/-- Read whether to load on demand. -/
def readLazyLoading (s : String) : Except SettingFault Bool :=
  match [("true", true), ("1", true), ("yes", true), ("on", true), ("false", false),
      ("0", false), ("no", false), ("off", false)].lookup (normalizeWord s) with
  | some b => .ok b
  | none => .error (.invalidValue "LazyLoading" s "`true` or `false`")

namespace SettingKey

/-- The setting that a name stands for. -/
def read? (s : String) : Option SettingKey :=
  [("collectiontype", collectionType), ("lazyloading", lazyLoading), ("filemode", fileMode),
    ("complextypekind", complexTypeKind), ("containerbasetype", containerBaseType),
    ("outputpathpattern", outputPathPattern)].lookup (normalizeWord s)

end SettingKey

namespace Settings

/-- Give a setting a value that is not blank. -/
def set (s : Settings) (key : SettingKey) (value : String) : Except SettingFault Settings :=
  match key with
  | .collectionType =>
    (CollectionType.read value).map fun c => { s with collectionType := c }
  | .lazyLoading => (readLazyLoading value).map fun b => { s with lazyLoading := some b }
  | .fileMode => (Layout.read value).map fun l => { s with layout := l }
  | .complexTypeKind =>
    (ComplexTypeKind.read value).map fun k => { s with complexTypeKind := k }
  | .containerBaseType => .ok { s with containerBaseType := Text.trim value }
  | .outputPathPattern => .ok { s with outputPattern := value }

/-- Apply a setting given by name. -/
def apply (s : Settings) (key value : String) : Except SettingFault Settings :=
  match SettingKey.read? key with
  | none => .error (.unknownKey key)
  | some k => if Text.isAllBlank value then .ok s else s.set k value

/-- Apply several settings in order, up to the first that cannot be applied. -/
def applyAll (s : Settings) (settings : List (String × String)) : Except SettingFault Settings :=
  settings.foldlM (fun s (key, value) => s.apply key value) s

@[simp] theorem applyAll_nil (s : Settings) : s.applyAll [] = .ok s := rfl

/-- Several settings are applied one after the other. -/
theorem applyAll_cons (s : Settings) (key value : String) (rest : List (String × String)) :
    s.applyAll ((key, value) :: rest) = (s.apply key value).bind fun t => t.applyAll rest := by
  simp only [applyAll, List.foldlM_cons]
  rfl

end Settings

end EntityModel
