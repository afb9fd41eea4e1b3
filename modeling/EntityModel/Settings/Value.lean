import EntityModel.Settings.Basic
import EntityModel.Text.Quoted

/-! # Settings from structured data

A settings file holds named values of several kinds.  `Settings.ofValue` takes the six settings out
of them: a setting that is not there keeps its default, values of other names are passed over, and
the first value of a wrong kind or with an unknown word is the fault.

* `SettingsFormat`     how the text of a file is read into structured data
* `fieldOrder`         in which order named values are looked at -/

namespace EntityModel

/-- Structured data. -/
inductive Value where
  | null
  | boolean (b : Bool)
  | integer (i : Int)
  | text (s : String)
  /-- A value of a kind that no setting takes, by its description. -/
  | other (description : String)
  | sequence (values : List Value)
  | map (fields : List (String × Value))
deriving Inhabited

/-- The format of settings files: how the text of one is read into structured data.  The format is
    somebody else's, so what is said of a run is said for any format. -/
class SettingsFormat where
  /-- The data of a text, if it is a document of the format. -/
  read : String → Option Value

/-- What a value is called when it is not of the kind expected. -/
def Value.describe : Value → String
  | null => "null"
  | boolean b => "boolean `" ++ toString b ++ "`"
  | integer i => "integer `" ++ toString i ++ "`"
  | text s => "string " ++ Text.quoted s
  | other description => description
  | sequence _ => "sequence"
  | map _ => "map"

/-- Why structured data are not settings. -/
inductive DecodeFault where
  | setting (fault : SettingFault)
  | unexpectedKind (found expected : String)
  | tooManyValues (count : Nat)
deriving DecidableEq, Repr

/-- The message of a fault in structured data. -/
def DecodeFault.message : DecodeFault → String
  | .setting f => f.message
  | .unexpectedKind found expected => "invalid type: " ++ found ++ ", expected " ++ expected
  | .tooManyValues count =>
    "invalid length " ++ toString count ++ ", expected fewer elements in array"

namespace Value

/-- The text that the value is. -/
def decodeText : Value → Except DecodeFault String
  | text s => .ok s
  | v => .error (.unexpectedKind v.describe "a string")

/-- The truth value that the value is, if it is there. -/
def decodeTruth : Value → Except DecodeFault (Option Bool)
  | null => .ok none
  | boolean b => .ok (some b)
  | v => .error (.unexpectedKind v.describe "a boolean")

/-- The value of a text that is a word. -/
def decodeWord {α : Type} (read : String → Except SettingFault α) (v : Value) :
    Except DecodeFault α :=
  v.decodeText.bind fun s => (read s).mapError .setting

end Value

namespace Settings

/-- The names of the settings in structured data, in the order in which they are declared. -/
def fieldNames : List String :=
  ["collection_type", "lazy_loading", "file_mode", "complex_type_kind", "container_base_type",
    "output_path_pattern"]

/-- The order in which named values are looked at, which is that of the alphabet. -/
def fieldOrder : List String :=
  ["collection_type", "complex_type_kind", "container_base_type", "file_mode", "lazy_loading",
    "output_path_pattern"]

/-- Take over one named value. -/
def setField (s : Settings) (name : String) (v : Value) : Except DecodeFault Settings :=
  match name with
  | "collection_type" =>
    (v.decodeWord CollectionType.read).map fun c => { s with collectionType := c }
  | "lazy_loading" => v.decodeTruth.map fun b => { s with lazyLoading := b }
  | "file_mode" => (v.decodeWord Layout.read).map fun l => { s with layout := l }
  | "complex_type_kind" =>
    (v.decodeWord ComplexTypeKind.read).map fun k => { s with complexTypeKind := k }
  | "container_base_type" => v.decodeText.map fun t => { s with containerBaseType := t }
  | "output_path_pattern" => v.decodeText.map fun t => { s with outputPattern := t }
  | _ => .ok s

/-- Take over several named values, up to the first that does not fit. -/
def setFields (s : Settings) (fields : List (String × Value)) : Except DecodeFault Settings :=
  fields.foldlM (fun s (name, v) => s.setField name v) s

/-- The settings among some named values, the rest at their defaults. -/
def ofFields (fields : List (String × Value)) : Except DecodeFault Settings :=
  setFields {} (fieldOrder.filterMap fun name => (fields.lookup name).map (name, ·))

/-- The settings in a list of values that stand in the order of declaration. -/
def ofValues (values : List Value) : Except DecodeFault Settings := do
  let s ← setFields {} (fieldNames.zip values)
  if fieldNames.length < values.length then .error (.tooManyValues values.length) else .ok s

/-- The settings in structured data. -/
def ofValue : Value → Except DecodeFault Settings
  | .map fields => ofFields fields
  | .sequence values => ofValues values
  | v => .error (.unexpectedKind v.describe "struct AppConfig")

end Settings

end EntityModel
