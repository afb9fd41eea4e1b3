import EntityModel.Text.Blank

/-! # Command-line arguments

The words of a command line are read from the left.  An option is named by one letter or by a word;
its value is attached to the name or is the next word.  The value of the next word is taken over
only when something else is read, so an unknown name after it is noticed first.

* `Reading.settle`      take over the value that waits
* `Arguments.read`      the arguments of a command line, or what is wrong with it -/

namespace EntityModel.CommandLine

/-- The arguments of a run. -/
structure Arguments where
  /-- The path of the model. -/
  input : String
  /-- The pattern for the paths of the generated files. -/
  output : Option String := none
  /-- The path of the settings file. -/
  config : Option String := none
  /-- Settings by name. -/
  settings : List (String × String) := []
  logLevel : String := "info"
deriving DecidableEq, Repr

/-- Why the words of a command line are not arguments of a run. -/
inductive ArgumentFault where
  | displayHelp
  | displayVersion
  | missingInput
  | unknownArgument (word : String)
  /-- An option stands twice that may stand once. -/
  | repeatedOption
  | missingValue
  /-- An option has a value that takes none. -/
  | unexpectedValue
  | invalidSetting (word reason : String)
deriving DecidableEq, Repr

/-- The message of a fault in the arguments, as far as it speaks of a value. -/
def ArgumentFault.message? : ArgumentFault → Option String
  | .invalidSetting word reason =>
    some ("error: invalid value '" ++ word ++ "' for '--set <KEY=VALUE>': " ++ reason)
  | _ => none

/-! ### Options -/

/-- The options that have a value. -/
inductive ValueOption where
  | output
  | config
  | setting
  | logLevel
deriving DecidableEq, Repr

/-- What the name of an option stands for. -/
inductive OptionName where
  | help
  | version
  | withValue (o : ValueOption)
deriving DecidableEq, Repr

/-- The options with a name of one letter. -/
def shortNames : List (Char × OptionName) :=
  [('o', .withValue .output), ('c', .withValue .config), ('h', .help), ('V', .version)]

/-- The options with a word for a name. -/
def longNames : List (List Char × OptionName) :=
  [("output".toList, .withValue .output), ("config".toList, .withValue .config),
    ("set".toList, .withValue .setting), ("log-level".toList, .withValue .logLevel),
    ("help".toList, .help), ("version".toList, .version)]

/-- A setting: what stands before the first equals sign and what stands after it. -/
def readSetting (word : String) : Except ArgumentFault (String × String) :=
  let key := word.toList.takeWhile (· != '=')
  match word.toList.dropWhile (· != '=') with
  | [] => .error (.invalidSetting word ("expected KEY=VALUE, found `" ++ word ++ "`"))
  | _ :: value =>
    if (Text.trimChars key).isEmpty then
      .error (.invalidSetting word ("missing key in `" ++ word ++ "`"))
    else .ok (String.ofList (Text.trimChars key), String.ofList value)

/-! ### Reading -/

/-- The arguments read so far. -/
structure Reading where
  input : Option String := none
  output : Option String := none
  config : Option String := none
  settings : List (String × String) := []
  logLevel : Option String := none
  /-- The option that was read last, with its value if that has been read too. -/
  waiting : Option (ValueOption × Option String) := none

namespace Reading

/-- A first value; there is no second one. -/
def once (old : Option String) (value : String) : Except ArgumentFault (Option String) :=
  if old.isSome then .error .repeatedOption else .ok (some value)

/-- Take over the value of an option. -/
def take (r : Reading) (o : ValueOption) (value : String) : Except ArgumentFault Reading :=
  match o with
  | .output => (once r.output value).map fun v => { r with output := v }
  | .config => (once r.config value).map fun v => { r with config := v }
  | .logLevel => (once r.logLevel value).map fun v => { r with logLevel := v }
  | .setting => (readSetting value).map fun s => { r with settings := r.settings ++ [s] }

/-- Take over the value that waits. -/
def settle (r : Reading) : Except ArgumentFault Reading :=
  match r.waiting with
  | none => .ok r
  | some (_, none) => .error .missingValue
  | some (o, some value) => take { r with waiting := none } o value

/-- Read the name of an option, with a value if one is attached. -/
def readOption (r : Reading) (name : OptionName) (attached : Option String) :
    Except ArgumentFault Reading := do
  match name with
  | .help =>
    -- a fault in the value that waits comes before the help text
    let _ ← r.settle
    .error .displayHelp
  | .version =>
    let _ ← r.settle
    .error .displayVersion
  | .withValue o =>
    let settled ← r.settle
    match attached with
    | some value => settled.take o value
    | none => .ok { settled with waiting := some (o, none) }

/-- A value attached to a letter, less the equals sign in front of it. -/
def attachedValue (cs : List Char) : Option String :=
  match cs with
  | [] => none
  | '=' :: value => some (String.ofList value)
  | value => some (String.ofList value)

/-- Read what follows a hyphen. -/
def readShort (r : Reading) (word : String) (cs : List Char) : Except ArgumentFault Reading :=
  match cs with
  | [] => .ok r
  | c :: rest =>
    match shortNames.lookup c with
    | none => .error (.unknownArgument word)
    | some name => r.readOption name (attachedValue rest)

/-- Read what follows two hyphens. -/
def readLong (r : Reading) (word : String) (cs : List Char) : Except ArgumentFault Reading :=
  let attached :=
    match cs.dropWhile (· != '=') with
    | [] => none
    | _ :: value => some (String.ofList value)
  match longNames.lookup (cs.takeWhile (· != '=')) with
  | none => .error (.unknownArgument word)
  | some (.withValue o) => r.readOption (.withValue o) attached
  | some name => if attached.isSome then .error .unexpectedValue else r.readOption name none

/-- Read a word that is no option. -/
def readInput (r : Reading) (word : String) : Except ArgumentFault Reading :=
  -- checked before the value that waits: a second input is an unknown argument in any case
  if r.input.isSome then .error (.unknownArgument word)
  else r.settle.map fun settled => { settled with input := some word }

/-- Read a word that may be the value of the option before it. -/
def readPlain (r : Reading) (word : String) : Except ArgumentFault Reading :=
  match r.waiting with
  | some (o, none) => .ok { r with waiting := some (o, some word) }
  | _ => r.readInput word

/-- Read words after the one that ends all options. -/
def readInputs (r : Reading) : List String → Except ArgumentFault Reading
  | [] => .ok r
  | word :: rest => (r.readInput word).bind fun next => next.readInputs rest

/-- Read words. -/
def readAll (r : Reading) : List String → Except ArgumentFault Reading
  | [] => .ok r
  | word :: rest =>
    match word.toList with
    | ['-', '-'] => r.readInputs rest
    | '-' :: '-' :: cs => (r.readLong word cs).bind fun next => next.readAll rest
    | '-' :: c :: cs => (r.readShort word (c :: cs)).bind fun next => next.readAll rest
    -- a hyphen alone is a plain word
    | _ => (r.readPlain word).bind fun next => next.readAll rest

end Reading

/-- The arguments that the words of a command line stand for. -/
def Arguments.read (words : List String) : Except ArgumentFault Arguments := do
  let r ← ({} : Reading).readAll words
  let r ← r.settle
  match r.input with
  | none => .error .missingInput
  | some input =>
    .ok { input := input, output := r.output, config := r.config, settings := r.settings,
          logLevel := r.logLevel.getD "info" }

end EntityModel.CommandLine
